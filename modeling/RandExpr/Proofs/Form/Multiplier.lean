import RandExpr.Proofs.Expr.Shorthand
import RandExpr.Proofs.Form.Answers

/-!
# Multipliers

A multiplier stands for the repetition that it is short for, as long as no line feed is in it.

## What is proved

* `parse_multiplierText` — a multiplier is taken apart as the repetition is.
* `build_multiplierText_of_lineFeed` — with a line feed in its group a text is no multiplier, and as
  it is of no kind either, it is not built.
* `build_multiplierText` — hence a repetition that is built has a multiplier that is built, with the
  same values, exactly if it is on one line.
* `not_built_of_lineFeed` — so there is a repetition that is built, and its multiplier is not.
-/

namespace RandExpr

open Catalog (builtin)

variable {W : Type} [Host W]

/-- **A multiplier is taken apart as the repetition that it is short for.** -/
theorem Expr.parse_multiplierText {count payload : String} (hcount : count ≠ "")
    (hdigits : ∀ c ∈ count.toList, c.isDigit = true) (hpayload : payload ≠ "")
    (hline : '\n' ∉ payload.toList) :
    Expr.parse (multiplierText count payload) = Expr.parse (repeatText count payload) := by
  have hclassify := Shorthand.classify_multiplierText hcount hdigits payload
  rw [if_neg (not_or.2 ⟨hpayload, hline⟩)] at hclassify
  have hcanonical : Shorthand.canonical (.multiplier count ("(" ++ payload ++ ")")) =
      repeatText count payload := by
    rw [← String.toList_inj]
    simp [Shorthand.canonical, repeatText, String.toList_append]
  rw [parse, parse, canonicalText, canonicalText, hclassify, Shorthand.classify_repeatText]
  simp only [hcanonical]

theorem Scan.balanced_multiplierText {count : String}
    (hdigits : ∀ c ∈ count.toList, c.isDigit = true) (payload : String) :
    balanced {} (multiplierText count payload).toList =
      balanced {} (repeatText count payload).toList := by
  have hplain : ∀ c ∈ count.toList, c ≠ '"' ∧ c ≠ '(' ∧ c ≠ ')' :=
    fun c hc => ne_of_isDigit (hdigits c hc)
  have hshort : (multiplierText count payload).toList =
      count.toList ++ ['*'] ++ '(' :: (payload.toList ++ [')']) := by
    rw [toList_multiplierText, List.append_assoc]
    rfl
  have hlong : (repeatText count payload).toList =
      "repeat:".toList ++ count.toList ++ [':'] ++ '(' :: (payload.toList ++ [')']) := by
    rw [toList_repeatText, List.append_assoc, List.append_assoc]
    rfl
  rw [hshort, hlong, balanced_append, balanced_append]
  · simp only [List.forall_mem_append]
    exact ⟨⟨by simp, hplain⟩, by simp⟩
  · simp only [List.forall_mem_append]
    exact ⟨hplain, by simp⟩

/-- **With a line feed in its group a multiplier is not built.** -/
theorem build_multiplierText_of_lineFeed {count payload : String} (hcount : count ≠ "")
    (hdigits : ∀ c ∈ count.toList, c.isDigit = true) (hline : '\n' ∈ payload.toList)
    (hbalanced : Scan.balanced {} (repeatText count payload).toList = true) (options : Options)
    (w : W) : ∃ kind span, builtin.build options (multiplierText count payload) w =
      (.error (.unknownKind kind (multiplierText count payload) span), w) := by
  have hclassify := Shorthand.classify_multiplierText hcount hdigits payload
  rw [if_pos (.inr hline)] at hclassify
  obtain ⟨digit, digits, htext⟩ : ∃ digit digits, count.toList = digit :: digits :=
    List.exists_cons_of_ne_nil (by simpa using hcount)
  have hdigit : digit.isDigit = true := hdigits digit (by simp [htext])
  have hmove : ∃ next, Scan.move {} digit = .keep next := by
    have hplain := Scan.plain_of_isDigit hdigit
    simp only [Scan.plain, Bool.and_eq_true, bne_iff_ne] at hplain
    exact ⟨_, by simp [Scan.move, hplain]; rfl⟩
  have hletter : digit ∉ ['n', 'c', 'l', 'r'] := by
    intro hmem
    have hnone : ∀ c ∈ ['n', 'c', 'l', 'r'], c.isDigit = false := by simp
    simp [hnone digit hmem] at hdigit
  have hhead : (multiplierText count payload).toList =
      digit :: (digits ++ '*' :: '(' :: (payload.toList ++ [')'])) := by
    rw [toList_multiplierText, htext]
    rfl
  rw [← Scan.balanced_multiplierText hdigits] at hbalanced
  exact Catalog.build_of_head hclassify hhead hmove hletter hbalanced options w

namespace Form

theorem not_written_empty {depth : Nat} {form : Form} : ¬Written depth "" form := by
  intro h
  obtain ⟨e, hparse, hkind⟩ := h.exists_kind
  have hempty : Expr.parse "" = .ok ⟨"", "", [], ⟨0, 0⟩⟩ := rfl
  obtain rfl := Except.ok.inj (hempty.symm.trans hparse)
  exact absurd hkind (by decide)

theorem Written.ne_empty {count payload : String} {form : Form}
    (hdigits : ∀ c ∈ count.toList, c.isDigit = true)
    (h : Written 0 (repeatText count payload) form) : payload ≠ "" := by
  rintro rfl
  have hclosed : Scan.Closed "".toList := ⟨0, rfl⟩
  have hparse := Expr.parse_repeatText hdigits hclosed
  obtain ⟨inner, hinner⟩ := h.exists_inner hparse rfl rfl
  rw [ofList_unwrapGroup hclosed] at hinner
  exact not_written_empty hinner

end Form

/-- **A multiplier means the repetition that it is short for, if it is on one line.** Let a
repetition be built. If no line feed is in what it repeats, the multiplier is taken apart as the
repetition is, it is built too, and under one seed both hand out the same values. If there is a line
feed, the multiplier is not built: its text is then the kind of no recipe. -/
theorem build_multiplierText {count payload : String} (hcount : count ≠ "")
    (hdigits : ∀ c ∈ count.toList, c.isDigit = true) {options : Options} {w w' : W}
    {g : Generator W} (h : builtin.build options (repeatText count payload) w = (.ok g, w')) :
    ('\n' ∉ payload.toList →
      Expr.parse (multiplierText count payload) = Expr.parse (repeatText count payload) ∧
        ∀ (options' : Options) (v : W), ∃ g' v',
          builtin.build options' (multiplierText count payload) v = (.ok g', v') ∧
            g'.kind = g.kind ∧ g'.args = g.args ∧ g'.isLate = g.isLate ∧
            ∀ seed, options.seed? = some seed → options'.seed? = some seed →
              ∀ calls : List (Call W × W), (g'.answerAll calls).1 = (g.answerAll calls).1) ∧
      ('\n' ∈ payload.toList → ∀ (options' : Options) (v : W), ∃ kind span,
        builtin.build options' (multiplierText count payload) v =
          (.error (.unknownKind kind (multiplierText count payload) span), v)) := by
  obtain ⟨form, hform⟩ := Form.exists_written_of_build h
  have hlong := hform.answered_of_build h
  obtain ⟨e, hparse, hkind, hargs⟩ := hlong.named
  constructor
  · intro hline
    have heq := Expr.parse_multiplierText hcount hdigits (hform.ne_empty hdigits) hline
    refine ⟨heq, fun options' v => ?_⟩
    obtain ⟨g', v', hg', hshort⟩ :=
      (hform.of_parse_eq heq.symm).exists_answered hlong.drawable options' v
    obtain ⟨e', hparse', hkind', hargs'⟩ := hshort.named
    obtain rfl : e' = e := Except.ok.inj (hparse'.symm.trans (heq.trans hparse))
    refine ⟨g', v', hg', hkind'.trans hkind.symm, hargs'.trans hargs.symm,
      hshort.early.trans hlong.early.symm, fun seed hseed hseed' calls => ?_⟩
    rw [hshort.of_seed hseed', hlong.of_seed hseed]
  · intro hline options' v
    have hbalanced := (Expr.exists_parse_iff _).1 ⟨e, hparse⟩
    exact build_multiplierText_of_lineFeed hcount hdigits hline hbalanced options' v

/-- Three letters at a time, under the seed 7. -/
theorem build_multiplierText_letters :
    ∃ g w', builtin.build (.seeded 7) (repeatText "3" "a-z") (⟨[]⟩ : Diary) = (.ok g, w') ∧
      Expr.parse (multiplierText "3" "a-z") = Expr.parse (repeatText "3" "a-z") ∧
      ∃ g' v', builtin.build (.seeded 7) (multiplierText "3" "a-z") (⟨[]⟩ : Diary) = (.ok g', v') ∧
        ∀ calls : List (Call Diary × Diary), (g'.answerAll calls).1 = (g.answerAll calls).1 := by
  have hparse : Expr.parse (repeatText "3" "a-z") =
      .ok ⟨"repeat:3:(a-z)", "repeat", ["3", "(a-z)"], ⟨0, 6⟩⟩ := by rfl
  have hinner : Expr.parse "a-z" = .ok ⟨"char:a-z", "char", ["a-z"], ⟨0, 4⟩⟩ := by rfl
  have hcount : Recipe.IsCount "3" 3 := ⟨['3'], by simp, by simp, .inl rfl, rfl, by decide⟩
  have hform : Form.Written 0 (repeatText "3" "a-z") (.repetition 3 (.characters ⟨'a', 'z'⟩)) :=
    .repetition (Nat.zero_le _) hparse rfl rfl hcount rfl
      (.characters (by decide) hinner rfl rfl rfl (by decide))
  obtain ⟨g, w', hg⟩ := hform.exists_build trivial (.seeded 7) (⟨[]⟩ : Diary)
  obtain ⟨heq, hbuild⟩ := (build_multiplierText (by decide) (by simp) hg).1 (by decide)
  obtain ⟨g', v', hg', -, -, -, hanswers⟩ := hbuild (.seeded 7) ⟨[]⟩
  exact ⟨g, w', hg, heq, g', v', hg', hanswers 7 rfl rfl⟩

/-- **Not every repetition that is built has a multiplier that is built.** -/
theorem not_built_of_lineFeed :
    (∃ g w', builtin.build {} (repeatText "2" "literal:a\nb") (⟨[]⟩ : Diary) = (.ok g, w')) ∧
    ¬∃ g w', builtin.build {} (multiplierText "2" "literal:a\nb") (⟨[]⟩ : Diary) = (.ok g, w') := by
  have hparse : Expr.parse (repeatText "2" "literal:a\nb") =
      .ok ⟨"repeat:2:(literal:a\nb)", "repeat", ["2", "(literal:a\nb)"], ⟨0, 6⟩⟩ := by rfl
  have hinner : Expr.parse "literal:a\nb" =
      .ok ⟨"literal:a\nb", "literal", ["a\nb"], ⟨0, 7⟩⟩ := by rfl
  have hcount : Recipe.IsCount "2" 2 := ⟨['2'], by simp, by simp, .inl rfl, rfl, by decide⟩
  have hform : Form.Written 0 (repeatText "2" "literal:a\nb") (.repetition 2 (.literal "a\nb")) :=
    .repetition (Nat.zero_le _) hparse rfl rfl hcount rfl (.literal (by decide) hinner rfl)
  have hbalanced := (Expr.exists_parse_iff _).1 ⟨_, hparse⟩
  have hdigits : ∀ c ∈ "2".toList, c.isDigit = true := by simp
  refine ⟨hform.exists_build trivial {} _, ?_⟩
  rintro ⟨g, w', hg⟩
  obtain ⟨kind, span, hfault⟩ := build_multiplierText_of_lineFeed (by decide) hdigits (by decide)
    hbalanced {} (⟨[]⟩ : Diary)
  nomatch hg.symm.trans hfault

end RandExpr
