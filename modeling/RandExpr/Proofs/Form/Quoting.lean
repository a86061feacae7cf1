import RandExpr.Proofs.Expr.Pieces
import RandExpr.Proofs.Form.Multiplier

/-!
# Quoted texts

A text between double quotes stands for itself, as long as it is on one line.

## The model

The text may hold every character but a double quote: colons, parentheses, stars and digits mean
nothing between quotes.

## What is proved

* `parse_quotedText`, `literalText_quotedText` — a quoted text is taken apart as a literal, and the
  text of the literal is what stands between the quotes.
* `exists_build_quotedText`, `exists_build_multiplierText_quotedText` — on one line it is built, and
  so is a multiplier of it; every value is the text, or the text as many times as the count says.
* `build_quotedText_of_lineFeed` — with a line feed between the quotes it is not built.
* `build_quotedText` — both together, for the text alone and with a multiplier.
* `not_built_quotedText` — so there is a text without double quotes that cannot be quoted.
-/

namespace RandExpr

open Catalog (builtin)

variable {W : Type} [Host W]

theorem Recipe.literalText_quotedText (text : String) : literalText [quotedText text] = text := by
  have hjoined : ":".intercalate [quotedText text] = quotedText text := rfl
  simp only [literalText, hjoined, toList_quotedText, Text.enclosed?_cons_append,
    String.ofList_toList]

theorem toList_literal (text : String) :
    ("literal:" ++ text).toList = "literal".toList ++ ':' :: text.toList := by
  rw [String.toList_append]
  rfl

/-- Whatever stands between quotes is the one argument of a literal. -/
theorem Expr.split_quotedText {text : String} (hquote : '"' ∉ text.toList) :
    Expr.split ("literal:" ++ quotedText text) =
      .ok ⟨"literal:" ++ quotedText text, "literal", [quotedText text], ⟨0, 7⟩⟩ := by
  have hsingle : split (quotedText text) = .ok ⟨quotedText text, quotedText text, [],
      ⟨0, (quotedText text).utf8ByteSize⟩⟩ :=
    split_single_iff.2 (Scan.scan_quotedText hquote 0).2
  exact (split_cut_iff (toList_literal _) (by decide)).2 ⟨_, hsingle, rfl⟩

/-- **A quoted text is taken apart as a literal**, if it is on one line. -/
theorem Expr.parse_quotedText {text : String} (hquote : '"' ∉ text.toList)
    (hline : '\n' ∉ text.toList) : Expr.parse (quotedText text) =
      .ok ⟨"literal:" ++ quotedText text, "literal", [quotedText text], ⟨0, 7⟩⟩ := by
  have hclassify := Shorthand.classify_quotedText text
  rw [if_neg hline] at hclassify
  rw [parse, canonicalText, hclassify]
  exact split_quotedText hquote

theorem Form.written_quotedText {text : String} (hquote : '"' ∉ text.toList)
    (hline : '\n' ∉ text.toList) {depth : Nat} (hdepth : depth ≤ maxDepth) :
    Written depth (quotedText text) (.literal text) := by
  have h := Written.literal hdepth (Expr.parse_quotedText hquote hline) rfl
  rwa [Recipe.literalText_quotedText] at h

theorem mem_quotedText_iff (text : String) :
    '\n' ∈ (quotedText text).toList ↔ '\n' ∈ text.toList := by
  rw [toList_quotedText]
  simp

/-! ### On one line -/

section Line

variable {text count : String} (hquote : '"' ∉ text.toList) (hline : '\n' ∉ text.toList)
  (options : Options) (w : W)

include hquote hline

/-- A quoted text on one line is built, and every value is the text. -/
theorem exists_build_quotedText : ∃ g w', builtin.build options (quotedText text) w = (.ok g, w') ∧
    g.kind = "literal" ∧ g.HandsOut fun _ => .text text := by
  have hform := Form.written_quotedText hquote hline (Nat.zero_le maxDepth)
  obtain ⟨g, w', hg, hanswered⟩ := hform.exists_answered trivial options w
  obtain ⟨e, hparse, hkind, -⟩ := hanswered.named
  obtain rfl := Except.ok.inj ((Expr.parse_quotedText hquote hline).symm.trans hparse)
  refine ⟨g, w', hg, hkind, hanswered.of_value_eq ?_⟩
  intro stream k
  rw [Form.value]

/-- So is a multiplier of it, and every value is the text as many times as the count says. -/
theorem exists_build_multiplierText_quotedText (hcount : count ≠ "")
    (hdigits : ∀ c ∈ count.toList, c.isDigit = true)
    (hle : Decimal.digitsValue count.toList ≤ maxRepeat) :
    ∃ g w', builtin.build options (multiplierText count (quotedText text)) w = (.ok g, w') ∧
      g.HandsOut fun _ =>
        .text (String.join (List.replicate (Decimal.digitsValue count.toList) text)) := by
  have hclosed := Scan.closed_quotedText hquote
  have hcount' := isCount_of_isDigit (by simpa using hcount) hdigits hle
  have hinner := Form.written_quotedText hquote hline (by decide : 1 ≤ maxDepth)
  have hlong := hinner.repeated hcount' hdigits hclosed
  have hne : quotedText text ≠ "" := by
    rw [ne_eq, ← String.toList_inj, toList_quotedText]
    simp
  have heq := Expr.parse_multiplierText hcount hdigits hne ((mem_quotedText_iff text).not.2 hline)
  obtain ⟨g, w', hg, hanswered⟩ :=
    (hlong.of_parse_eq heq.symm).exists_answered trivial options w
  refine ⟨g, w', hg, hanswered.of_value_eq ?_⟩
  intro stream k
  rw [Form.value, Value.joined]
  simp [Form.value, Value.display]

end Line

/-! ### On several lines -/

/-- With a line feed between the quotes a text is no literal, and as it is of no kind either, it is
not built. -/
theorem build_quotedText_of_lineFeed {text : String} (hquote : '"' ∉ text.toList)
    (hline : '\n' ∈ text.toList) (options : Options) (w : W) :
    ∃ kind span, builtin.build options (quotedText text) w =
      (.error (.unknownKind kind (quotedText text) span), w) := by
  obtain ⟨pos, hrun⟩ := Scan.closed_quotedText hquote
  have hbalanced := Scan.balanced_of_run hrun rfl
  have hclassify := Shorthand.classify_quotedText text
  rw [if_pos hline] at hclassify
  exact Catalog.build_of_head hclassify (toList_quotedText text) ⟨_, rfl⟩ (by decide) hbalanced
    options w

/-- **Quoting is faithful, on one line.** Let a text hold no double quote. If it holds no line feed
either, it is built as a literal when it stands between quotes, and every value is the text; with a
count before it, in parentheses, every value is the text as many times as the count says. If it
holds a line feed, neither is built. -/
theorem build_quotedText {text : String} (hquote : '"' ∉ text.toList) (options : Options) (w : W) :
    ('\n' ∉ text.toList →
      (∃ g w', builtin.build options (quotedText text) w = (.ok g, w') ∧ g.kind = "literal" ∧
        g.HandsOut fun _ => .text text) ∧
      ∀ count : String, count ≠ "" → (∀ c ∈ count.toList, c.isDigit = true) →
        Decimal.digitsValue count.toList ≤ maxRepeat →
        ∃ g w', builtin.build options (multiplierText count (quotedText text)) w = (.ok g, w') ∧
          g.HandsOut fun _ =>
            .text (String.join (List.replicate (Decimal.digitsValue count.toList) text))) ∧
    ('\n' ∈ text.toList →
      (∃ kind span, builtin.build options (quotedText text) w =
        (.error (.unknownKind kind (quotedText text) span), w)) ∧
      ∀ count : String, count ≠ "" → (∀ c ∈ count.toList, c.isDigit = true) →
        ∃ kind span, builtin.build options (multiplierText count (quotedText text)) w =
          (.error (.unknownKind kind (multiplierText count (quotedText text)) span), w)) := by
  constructor
  · intro hline
    refine ⟨exists_build_quotedText hquote hline options w, ?_⟩
    intro count hcount hdigits hle
    exact exists_build_multiplierText_quotedText hquote hline options w hcount hdigits hle
  · intro hline
    refine ⟨build_quotedText_of_lineFeed hquote hline options w, ?_⟩
    intro count hcount hdigits
    have hclosed := Scan.closed_quotedText hquote
    have hbalanced := (Expr.exists_parse_iff _).1 ⟨_, Expr.parse_repeatText hdigits hclosed⟩
    exact build_multiplierText_of_lineFeed hcount hdigits ((mem_quotedText_iff text).2 hline)
      hbalanced options w

/-- A text with colons, stars and groups that are closed before they are opened. -/
theorem build_quotedText_smile :
    '"' ∉ "smile:) 2*(x".toList ∧ '\n' ∉ "smile:) 2*(x".toList ∧
      (∃ g w', builtin.build {} (quotedText "smile:) 2*(x") (⟨[]⟩ : Diary) = (.ok g, w') ∧
        g.kind = "literal" ∧ g.HandsOut fun _ => .text "smile:) 2*(x") ∧
      ∃ g w', builtin.build {} (multiplierText "2" (quotedText "smile:) 2*(x")) (⟨[]⟩ : Diary) =
        (.ok g, w') ∧ g.HandsOut fun _ => .text "smile:) 2*(xsmile:) 2*(x" := by
  have hquote : '"' ∉ "smile:) 2*(x".toList := by decide
  have hline : '\n' ∉ "smile:) 2*(x".toList := by decide
  obtain ⟨hone, hmany⟩ := (build_quotedText hquote {} (⟨[]⟩ : Diary)).1 hline
  have htwice : String.join (List.replicate (Decimal.digitsValue "2".toList) "smile:) 2*(x") =
      "smile:) 2*(xsmile:) 2*(x" := by rfl
  have htwo := hmany "2" (by decide) (by simp) (by decide)
  rw [htwice] at htwo
  exact ⟨hquote, hline, hone, htwo⟩

/-- **Not every text without double quotes is built when it is quoted.** -/
theorem not_built_quotedText : '"' ∉ "a\nb".toList ∧
    ¬∃ g w', builtin.build {} (quotedText "a\nb") (⟨[]⟩ : Diary) = (.ok g, w') := by
  have hquote : '"' ∉ "a\nb".toList := by decide
  refine ⟨hquote, ?_⟩
  rintro ⟨g, w', hg⟩
  obtain ⟨kind, span, hfault⟩ :=
    build_quotedText_of_lineFeed hquote (by decide) {} (⟨[]⟩ : Diary)
  nomatch hg.symm.trans hfault

end RandExpr
