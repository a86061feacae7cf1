import RandExpr.Proofs.Expr.Balance
import RandExpr.Proofs.Expr.Parentheses

/-!
# Parentheses around a text

When a text stands between parentheses that belong together, and what is left of it when they are
taken off.

## The model

A text wraps another one (`Wraps`) if it is the other between a `(` and a `)` that belong together.
It swallows the other one (`Swallows`) if a quote is left open in the other, so that the `)` behind
it is quoted, while every parenthesis before it has its match.

## What is proved

* `depth_append` — behind a text that leaves no quote open, depths are counted from its own.
* `not_isStray_iff` — no `)` is stray exactly if no place is below the start.
* `Scan.balanced_iff` — a text is balanced exactly if no `)` in it is stray and it ends at depth
  zero.
* `wraps_iff` — a text between parentheses is wrapped by them exactly if it leaves no quote open and
  is balanced.
* `unwrapGroup_takes_pair` — which parentheses come off: those that wrap the text, and those that
  would if the quotes were closed.
* `unwrapGroup_takes_quoted` — so there is a text that is not wrapped, and is not left as it is.
-/

namespace RandExpr

namespace Parentheses

/-! ### Places behind a text -/

/-- Behind a text that leaves no quote open, a character is quoted if it is so without the text. -/
theorem quoted_append_iff {cs : List Char} (h : ¬Quoted cs) (ds : List Char) :
    Quoted (cs ++ ds) ↔ Quoted ds := by
  rw [Quoted, Quoted, List.count_append, Nat.odd_add, ← Nat.not_even_iff_odd]
  simp only [Quoted, Nat.not_odd_iff_even] at h
  simp [h, Nat.not_even_iff_odd]

/-- **Behind a text that leaves no quote open, depths are counted from its own.** -/
theorem depth_append {cs : List Char} (h : ¬Quoted cs) (ds : List Char) :
    depth (cs ++ ds) = depth cs + depth ds := by
  induction ds using List.reverseRecOn with
  | nil =>
    rw [List.append_nil]
    exact (Int.add_zero _).symm
  | append_singleton ds c ih =>
    rw [← List.append_assoc, depth_append_singleton, depth_append_singleton,
      if_congr (quoted_append_iff h ds) rfl rfl, ih]
    split_ifs <;> omega

/-- **No `)` is stray exactly if no place is below the start.** -/
theorem not_isStray_iff {cs : List Char} :
    (¬∃ before, IsStray cs before) ↔ ∀ place, place <+: cs → 0 ≤ depth place := by
  constructor
  · intro h place hplace
    by_contra hlow
    obtain ⟨inner, hinner, hquoted, hdepth, -⟩ :=
      @exists_fall (-1) [] place (by decide) (by rw [List.nil_append]; omega)
    exact h ⟨inner, ⟨hinner.trans hplace, hquoted⟩, hdepth⟩
  · rintro h ⟨before, ⟨hhead, hquoted⟩, hdepth⟩
    have hplace := h _ hhead
    rw [depth_append_singleton, if_neg hquoted, if_neg (by decide), if_pos rfl] at hplace
    omega

end Parentheses

open Parentheses

/-- **A text is balanced exactly if no `)` in it is stray and it ends at depth zero.** -/
theorem Scan.balanced_iff {cs : List Char} :
    balanced {} cs = true ↔ (¬∃ before, IsStray cs before) ∧ depth cs = 0 := by
  constructor
  · intro h
    obtain ⟨s, hrun, hgroups⟩ := exists_run_of_balanced h
    refine ⟨not_exists.2 (not_isStray_of_run hrun), ?_⟩
    rw [(standing_run hrun).depth_eq, hgroups]
    rfl
  · rintro ⟨hstray, hdepth⟩
    have hverdict := verdict {} cs
    generalize pieces {} cs = result at hverdict
    cases hverdict with
    | stray hhead hrun hmove => exact absurd ⟨_, (first_isStray hhead hrun hmove).1⟩ hstray
    | unclosed hrun hgroups =>
      rw [(standing_run hrun).depth_eq, hgroups, List.length_cons] at hdepth
      omega
    | pieces hrun hgroups => exact balanced_of_run hrun hgroups

namespace Parentheses

/-! ### Parentheses that come off -/

/-- The text is the other one between a `(` and a `)` that belong together. -/
def Wraps (cs inner : List Char) : Prop := cs = '(' :: (inner ++ [')']) ∧ Matches cs [] inner

/-- The text is the other one between a `(` and a `)`, but a quote that is left open swallows the
`)`, and every parenthesis before it has its match. -/
def Swallows (cs inner : List Char) : Prop :=
  cs = '(' :: (inner ++ [')']) ∧ Quoted ('(' :: inner) ∧ (¬∃ before, IsStray inner before) ∧
    depth inner = 0

theorem depth_cons (cs : List Char) : depth ('(' :: cs) = 1 + depth cs :=
  @depth_append ['('] (by decide) cs

/-- **A text between parentheses is wrapped by them exactly if it leaves no quote open and is
balanced.** -/
theorem wraps_iff {cs inner : List Char} : Wraps cs inner ↔
    cs = '(' :: (inner ++ [')']) ∧ ¬Quoted ('(' :: inner) ∧ (¬∃ before, IsStray inner before) ∧
      depth inner = 0 := by
  have hnil : depth [] = 0 := rfl
  rw [Wraps, not_isStray_iff]
  refine and_congr_right fun hcs => ?_
  subst hcs
  constructor
  · rintro ⟨-, ⟨-, hquoted⟩, hdepth, hparts⟩
    rw [List.nil_append, depth_cons, hnil] at hdepth
    refine ⟨hquoted, fun place hplace => ?_, by omega⟩
    have hpart := hparts place hplace
    rw [List.nil_append, depth_cons, hnil] at hpart
    omega
  · rintro ⟨hquoted, hplaces, hdepth⟩
    refine ⟨⟨⟨inner ++ [')'], rfl⟩, by decide⟩, ⟨List.prefix_rfl, hquoted⟩, ?_,
      fun part hpart => ?_⟩
    · rw [List.nil_append, depth_cons, hdepth, hnil]
      rfl
    · have hplace := hplaces part hpart
      rw [List.nil_append, depth_cons, hnil]
      omega

/-- **Which parentheses come off.** The pair that wraps a text comes off, and what is left can be
taken apart. A pair whose `)` is swallowed comes off too, though it does not wrap the text. Every
other text is left as it is. In a text that can be taken apart nothing is swallowed, so of it only
a pair that wraps it comes off. -/
theorem unwrapGroup_takes_pair (cs : List Char) :
    (∀ inner, Wraps cs inner →
      unwrapGroup cs = inner ∧ ∃ e, Expr.split (String.ofList inner) = .ok e) ∧
    (∀ inner, Swallows cs inner → unwrapGroup cs = inner) ∧
    ((∀ inner, ¬Wraps cs inner ∧ ¬Swallows cs inner) → unwrapGroup cs = cs) ∧
    ((∃ e, Expr.split (String.ofList cs) = .ok e) → ∀ inner, ¬Swallows cs inner) := by
  refine ⟨fun inner hwraps => ?_, fun inner hswallows => ?_, fun hneither => ?_, ?_⟩
  · obtain ⟨rfl, -, hinner⟩ := wraps_iff.1 hwraps
    have hbalanced := Scan.balanced_iff.2 hinner
    rw [unwrapGroup_group, if_pos hbalanced, Expr.exists_split_iff, String.toList_ofList]
    exact ⟨rfl, hbalanced⟩
  · obtain ⟨rfl, -, hinner⟩ := hswallows
    rw [unwrapGroup_group, if_pos (Scan.balanced_iff.2 hinner)]
  · by_cases hends : ∃ inner, cs = '(' :: (inner ++ [')'])
    · obtain ⟨inner, rfl⟩ := hends
      obtain ⟨hwraps, hswallows⟩ := hneither inner
      have hbalanced : ¬Scan.balanced {} inner = true := by
        rw [Scan.balanced_iff]
        intro hinner
        by_cases hquoted : Quoted ('(' :: inner)
        · exact hswallows ⟨rfl, hquoted, hinner⟩
        · exact hwraps (wraps_iff.2 ⟨rfl, hquoted, hinner⟩)
      rw [unwrapGroup_group, if_neg hbalanced]
    · exact unwrapGroup_of_ne (not_exists.1 hends)
  · rintro hsplit inner ⟨rfl, hquoted, -, hdepth⟩
    rw [Expr.exists_split_iff, String.toList_ofList] at hsplit
    -- the `)` is quoted, so it does not take the depth back to zero
    have hend := (Scan.balanced_iff.1 hsplit).2
    rw [← List.cons_append, depth_append_singleton, if_pos hquoted, depth_cons, hdepth] at hend
    omega

/-- A pair around a group and a quoted parenthesis. -/
theorem unwrapGroup_takes_pair_nested :
    let inner := ['(', 'a', ')', '"', ')', '"']
    Wraps ('(' :: (inner ++ [')'])) inner ∧ unwrapGroup ('(' :: (inner ++ [')'])) = inner := by
  intro inner
  have hwraps : Wraps ('(' :: (inner ++ [')'])) inner :=
    wraps_iff.2 ⟨rfl, by decide, Scan.balanced_iff.1 (by decide)⟩
  exact ⟨hwraps, ((unwrapGroup_takes_pair _).1 inner hwraps).1⟩

/-- **There is a text that is not wrapped, and is not left as it is.** A quote opened behind its `(`
is left open, and the `)` is quoted. -/
theorem unwrapGroup_takes_quoted : (∀ inner, ¬Wraps ['(', '"', ')'] inner) ∧
    unwrapGroup ['(', '"', ')'] ≠ ['(', '"', ')'] := by
  refine ⟨fun inner hwraps => ?_, by decide⟩
  obtain ⟨hcs, hquoted, -⟩ := wraps_iff.1 hwraps
  obtain rfl : ['"'] = inner := by simpa using congrArg List.dropLast (List.cons.inj hcs).2
  exact hquoted (by decide)

end Parentheses

end RandExpr
