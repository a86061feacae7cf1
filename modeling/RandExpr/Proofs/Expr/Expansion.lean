import RandExpr.Proofs.Expr.Parentheses
import RandExpr.Proofs.Expr.Pieces
import RandExpr.Proofs.Expr.Spelling

/-!
# Expanded shorthands

What a shorthand is taken apart into once it is expanded.

## The model

A `:` is a cut of a text (`IsCut`) if it is not quoted and stands at depth zero, in no group.

## What is proved

* `Scan.args_eq_nil_iff` — a text that can be taken apart is one piece exactly if it has no cut.
* `Expr.parse_of_shorthand` — a range is the one argument of its kind. A multiplier is a repetition
  whose arguments are the count and the pieces of the payload, which is one piece exactly if it has
  no cut.
* `Expr.parse_splits_payload` — so there is a multiplier of which only the head is repeated.
-/

namespace RandExpr

open Parentheses

/-- The `:` behind `before` is neither quoted nor in a group. -/
def Parentheses.IsCut (cs before : List Char) : Prop := Stands ':' cs before ∧ depth before = 0

namespace Scan

/-! ### Cuts -/

/-- A `:` is a cut for a scan outside quotes with no group open. -/
theorem exists_cut_iff {s : Scan} {c : Char} :
    (∃ next, s.move c = .cut next) ↔ s.inQuote = false ∧ c = ':' ∧ s.groups = [] := by
  constructor
  · rintro ⟨next, h⟩
    unfold move at h
    grind
  · obtain ⟨pos, quote, groups⟩ := s
    rintro ⟨hquote, rfl, hgroups⟩
    obtain rfl : quote = false := hquote
    obtain rfl : groups = [] := hgroups
    exact ⟨_, rfl⟩

theorem args_ne_nil_iff {s : Scan} {cs first : List Char} {rest : List (List Char)}
    (h : s.pieces cs = .ok (first, rest)) :
    rest ≠ [] ↔ ∃ before s' next, before ++ [':'] <+: cs ∧ s.run before = some s' ∧
      s'.move ':' = .cut next := by
  induction cs generalizing s first rest with
  | nil =>
    obtain ⟨-, hnone⟩ : first = [] ∧ ∀ piece, piece ∉ rest := by simpa using eq_of_pieces h
    obtain rfl := List.eq_nil_iff_forall_not_mem.2 hnone
    simp
  | cons c cs ih =>
    rcases of_pieces_cons h with
      ⟨next, first', hm, hp, rfl⟩ | ⟨next, first', rest', hm, hp, rfl, rfl⟩
    · have hrun (ds : List Char) : s.run (c :: ds) = next.run ds := by rw [run, hm]
      refine (ih hp).trans ⟨?_, ?_⟩
      · rintro ⟨before, s', next', hhead, hbefore, hcut⟩
        exact ⟨c :: before, s', next', List.cons_prefix_cons.2 ⟨rfl, hhead⟩,
          (hrun before).trans hbefore, hcut⟩
      · rintro ⟨before, s', next', hhead, hbefore, hcut⟩
        cases before with
        | nil =>
          obtain ⟨rfl, -⟩ := List.cons_prefix_cons.1 hhead
          obtain rfl : s = s' := by simpa [run] using hbefore
          simp [hm] at hcut
        | cons d before =>
          obtain ⟨rfl, htail⟩ := List.cons_prefix_cons.1 hhead
          exact ⟨before, s', next', htail, (hrun before).symm.trans hbefore, hcut⟩
    · obtain rfl := eq_colon_of_move hm
      exact iff_of_true (by simp) ⟨[], s, next, ⟨cs, rfl⟩, rfl, hm⟩

/-- **A text that can be taken apart is one piece exactly if it has no cut.** -/
theorem args_eq_nil_iff {cs first : List Char} {rest : List (List Char)}
    (h : pieces {} cs = .ok (first, rest)) : rest = [] ↔ ¬∃ before, IsCut cs before := by
  rw [← not_iff_not, not_not, ← ne_eq, args_ne_nil_iff h]
  constructor
  · rintro ⟨before, s', next, hhead, hrun, hcut⟩
    obtain ⟨hquote, -, hgroups⟩ := exists_cut_iff.1 ⟨next, hcut⟩
    have hstanding := standing_run hrun
    refine ⟨before, ⟨hhead, ?_⟩, ?_⟩
    · simp [← hstanding.quote, hquote]
    · rw [hstanding.depth_eq, hgroups]
      rfl
  · rintro ⟨before, ⟨⟨after, rfl⟩, hquoted⟩, hdepth⟩
    obtain ⟨s, hrun, -⟩ := exists_run_of_balanced ((exists_pieces_iff _ _).1 ⟨_, h⟩)
    rw [List.append_assoc, run_append] at hrun
    obtain ⟨s', hbefore, -⟩ := Option.bind_eq_some_iff.1 hrun
    have hstanding := standing_run hbefore
    have hlength := hstanding.depth_eq
    obtain ⟨next, hcut⟩ : ∃ next, s'.move ':' = .cut next := by
      rw [exists_cut_iff, Bool.eq_false_iff, Ne, hstanding.quote]
      exact ⟨hquoted, rfl, List.length_eq_zero_iff.1 (by omega)⟩
    exact ⟨before, s', next, List.prefix_append .., hbefore, hcut⟩

end Scan

namespace Expr

/-! ### Shorthands -/

theorem split_of_plain {s kind arg : String} (hs : s.toList = kind.toList ++ ':' :: arg.toList)
    (hkind : kind.toList.all Scan.plain = true) (harg : arg.toList.all Scan.plain = true) :
    split s = .ok ⟨s, kind, [arg], ⟨0, kind.utf8ByteSize⟩⟩ :=
  (split_cut_iff hs hkind).2 ⟨_, split_plain harg, rfl⟩

theorem parse_of_classify {s : String} {shorthand : Shorthand}
    (h : Shorthand.classify s = some shorthand) : parse s = split shorthand.canonical := by
  rw [parse, canonicalText, h]

theorem parse_numericRange {s text : String}
    (h : Shorthand.classify s = some (.numericRange text)) :
    parse s = .ok ⟨"number:" ++ text, "number", [text], ⟨0, 6⟩⟩ := by
  have hplain : text.toList.all Scan.plain = true := by
    cases Shorthand.spells_of_classify h with
    | @numericRange lower upper hlower hupper =>
      have hrange : isNumericRange (lower ++ "-" ++ upper).toList = true :=
        isNumericRange_iff.2 ⟨_, _, hlower, hupper, by simp [String.toList_append]⟩
      rw [List.all_eq_true]
      intro c hc
      have hclass : (isNumeral c || c == '-') = true := by
        simpa using mem_of_isNumericRange hrange hc
      exact Scan.plain_of_class (fun d => isNumeral d || d == '-') hclass (by decide)
  rw [parse_of_classify h]
  exact split_of_plain (by simp [Shorthand.canonical, String.toList_append]) (by decide) hplain

theorem parse_charRange {s text : String} (h : Shorthand.classify s = some (.charRange text)) :
    parse s = .ok ⟨"char:" ++ text, "char", [text], ⟨0, 4⟩⟩ := by
  have hplain : text.toList.all Scan.plain = true := by
    cases Shorthand.spells_of_classify h with
    | @charRange low high hlow hhigh =>
      rw [String.toList_ofList, List.all_eq_true]
      intro c hc
      have hclass : (c.isAlpha || c == '-') = true := by
        simpa using mem_of_isCharRange (isCharRange_iff.2 ⟨low, high, hlow, hhigh, rfl⟩) hc
      exact Scan.plain_of_class (fun d => d.isAlpha || d == '-') hclass (by decide)
  rw [parse_of_classify h]
  exact split_of_plain (by simp [Shorthand.canonical, String.toList_append]) (by decide) hplain

/-- A multiplier is a repetition of the count and the pieces of the payload. -/
theorem parse_multiplier_iff {s count payload : String} {e : Expr}
    (h : Shorthand.classify s = some (.multiplier count payload)) :
    parse s = .ok e ↔ ∃ p, split payload = .ok p ∧
      e = ⟨"repeat:" ++ count ++ ":" ++ payload, "repeat", count :: p.kind :: p.args,
        ⟨0, 6⟩⟩ := by
  have hcount : count.toList.all Scan.plain = true := by
    cases Shorthand.spells_of_classify h with
    | multiplier _ hdigits =>
      exact List.all_eq_true.2 fun c hc => Scan.plain_of_isDigit (hdigits c hc)
  have htail : (count ++ ":" ++ payload).toList = count.toList ++ ':' :: payload.toList := by
    simp [String.toList_append]
  have hwhole : (Shorthand.multiplier count payload).canonical.toList =
      "repeat".toList ++ ':' :: (count ++ ":" ++ payload).toList := by
    simp [Shorthand.canonical, String.toList_append]
  rw [parse_of_classify h, split_cut_iff hwhole (by decide)]
  constructor
  · rintro ⟨q, hq, rfl⟩
    obtain ⟨p, hp, rfl⟩ := (split_cut_iff htail hcount).1 hq
    exact ⟨p, hp, rfl⟩
  · rintro ⟨p, hp, rfl⟩
    exact ⟨_, (split_cut_iff htail hcount).2 ⟨p, hp, rfl⟩, rfl⟩

/-- A text that can be taken apart is its own kind, with no arguments, exactly if it has no cut. -/
theorem eq_self_iff {s : String} {e : Expr} (h : split s = .ok e) :
    e.kind = s ∧ e.args = [] ↔ ¬∃ before, IsCut s.toList before := by
  have hjoined := intercalate_of_split h
  obtain ⟨first, rest, hpieces, rfl⟩ := split_eq_ok_iff.1 h
  rw [← Scan.args_eq_nil_iff hpieces]
  constructor
  · rintro ⟨-, hargs⟩
    exact List.map_eq_nil_iff.1 hargs
  · rintro rfl
    exact ⟨by simpa using hjoined, rfl⟩

/-- **What a shorthand is taken apart into.** A range, of numbers or of characters, is the one
argument of its kind. A multiplier, if it can be taken apart, is a repetition; its arguments are the
count and the pieces of the payload, and so just the count and the payload exactly if the payload
has no cut. -/
theorem parse_of_shorthand (s : String) :
    (∀ count payload e, Shorthand.classify s = some (.multiplier count payload) →
      parse s = .ok e → e.kind = "repeat" ∧
        (∃ parts, e.args = count :: parts ∧ ":".intercalate parts = payload) ∧
        (e.args = [count, payload] ↔ ¬∃ before, IsCut payload.toList before)) ∧
    (∀ text, Shorthand.classify s = some (.numericRange text) →
      ∃ e, parse s = .ok e ∧ e.kind = "number" ∧ e.args = [text]) ∧
    (∀ text, Shorthand.classify s = some (.charRange text) →
      ∃ e, parse s = .ok e ∧ e.kind = "char" ∧ e.args = [text]) := by
  refine ⟨fun count payload e hclassify hparse => ?_, fun text hclassify => ?_,
    fun text hclassify => ?_⟩
  · obtain ⟨p, hp, rfl⟩ := (parse_multiplier_iff hclassify).1 hparse
    refine ⟨rfl, ⟨_, rfl, intercalate_of_split hp⟩, ?_⟩
    rw [← eq_self_iff hp]
    simp
  · exact ⟨_, parse_numericRange hclassify, rfl, rfl⟩
  · exact ⟨_, parse_charRange hclassify, rfl, rfl⟩

/-- A payload with a cut in a group, and another in a quote. -/
theorem parse_of_shorthand_group :
    let e : Expr := ⟨"repeat:2:(a:b\":)\")", "repeat", ["2", "(a:b\":)\")"], ⟨0, 6⟩⟩
    Shorthand.classify "2*(a:b\":)\")" = some (.multiplier "2" "(a:b\":)\")") ∧
      parse "2*(a:b\":)\")" = .ok e ∧ ¬∃ before, IsCut "(a:b\":)\")".toList before := by
  intro e
  have hclassify :
      Shorthand.classify "2*(a:b\":)\")" = some (.multiplier "2" "(a:b\":)\")") := by rfl
  have hparse : parse "2*(a:b\":)\")" = .ok e := by rfl
  obtain ⟨-, -, hargs⟩ := (parse_of_shorthand "2*(a:b\":)\")").1 _ _ _ hclassify hparse
  exact ⟨hclassify, hparse, hargs.1 rfl⟩

/-- **There is a multiplier of which only the head is repeated.** What stands between its first `(`
and its last `)` is two groups with a cut between them. -/
theorem parse_splits_payload :
    Shorthand.classify "2*(a-z):(0-9)" = some (.multiplier "2" "(a-z):(0-9)") ∧
      ∃ e, parse "2*(a-z):(0-9)" = .ok e ∧ e.args ≠ ["2", "(a-z):(0-9)"] := by
  refine ⟨by rfl, ⟨_, "repeat", ["2", "(a-z)", "(0-9)"], ⟨0, 6⟩⟩, by rfl, by decide⟩

end Expr

end RandExpr
