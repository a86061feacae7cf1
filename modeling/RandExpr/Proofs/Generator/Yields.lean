import RandExpr.Proofs.Delivery.Settling
import RandExpr.Proofs.Generator.Draws
import RandExpr.Proofs.Generator.Scripted

/-!
# Sources that yield values

What can be said of a source by the values its draws settle with, without regard to when they
settle.

## The model

A source yields a sequence of values (`Source.Yields`) if no draw of it fails and every draw gives a
delivery that settles with the value at the number of the draw. Each draw may be made in a world of
its own, and which of the deliveries come later is left open.

## What is proved

* `yields_ofSource` — a generator yields what its source does.
* `yields_repetition` — a repetition yields the joined texts of as many values at a time as its
  count says.
-/

namespace RandExpr

variable {W : Type}

/-- Whatever the worlds in which the draws are made, each draw gives a delivery that settles with
the value at its number. -/
def Source.Yields (S : Source W) (s : S.State) (x : Nat → Value) : Prop :=
  ∀ ws w, ∃ d s' w', S.pull (S.pullIn s ws).2 w = (.ok d, s', w') ∧ d.Settles (x ws.length)

theorem Source.yields_iff {S : Source W} {s : S.State} {x : Nat → Value} :
    S.Yields s x ↔ S.Draws s fun k d => d.Settles (x k) := Iff.rfl

variable [Host W]

namespace Generator

/-- **A generator yields what its source does.** -/
theorem yields_ofSource {S : Source W} {x : Nat → Value} (h : S.Yields S.state x) (kind : String)
    (args : List String) (depth : Nat) (w : W) :
    ∃ g w', ofSource kind args depth S w = (.ok g, w') ∧
      g.toSource.Yields g.toSource.state x := by
  obtain ⟨g, w', hg, -, -, -, hdraws⟩ :=
    draws_ofSource (Source.yields_iff.1 h) kind args depth w
  exact ⟨g, w', hg, Source.yields_iff.2 hdraws⟩

theorem resolve_of_yields {g : Generator W} {x : Nat → Value}
    (h : g.toSource.Yields g.toSource.state x) (w : W) :
    ∃ d g' w', g.resolve w = (.ok d, g', w') ∧ d.Settles (x 0) ∧
      g'.toSource.Yields g'.toSource.state fun k => x (k + 1) := by
  obtain ⟨d, g', w', hanswer, -, hd, hrest⟩ := answer_of_draws (Source.yields_iff.1 h) .resolve w
  exact ⟨d, g', w', hanswer, hd, Source.yields_iff.2 hrest⟩

end Generator

/-- **A repetition yields the values of its generator, as many at a time as its count says**, each
time as their joined text. -/
theorem Recipe.yields_repetition {g : Generator W} {s : g.State} {x : Nat → Value}
    (h : g.toSource.Yields s x) (count : Nat) :
    (repetition count g).Yields s
      fun j => .joined ((List.range count).map fun i => x (j * count + i)) := by
  intro ws w
  have : Nonempty W := ⟨w⟩
  have hdraws := draws_repetition (Source.yields_iff.1 h) count
    (Q := fun j d => d.Settles (.joined ((List.range count).map fun i => x (j * count + i))))
    fun j ds hds => Delivery.settles_gather (List.forall₂_map_right_iff.2 hds.flip)
  exact hdraws ws w

/-! ### Scripted sources -/

omit [Host W] in
theorem Delivery.settles_after (polls : Nat) (v : Value) :
    (after polls (.ok v) : Delivery W).Settles v := by
  suffices h : ∀ left n, n + left = polls →
      (wait n fun n w => (if n < polls then none else some (.ok v), w) : Delivery W).Settles v from
    h polls 0 (Nat.zero_add polls)
  intro left
  induction left with
  | zero =>
    rintro n rfl
    refine .of_poll fun w => .inl ?_
    simp [poll]
  | succ left ih =>
    intro n hn
    have hlt : n < polls := by omega
    refine .of_poll fun w => .inr ⟨_, ?_, ih (n + 1) (by omega)⟩
    simp [poll, hlt]

omit [Host W] in
theorem Source.yields_scripted {script : Nat → Except Fault (Delivery W)} {x : Nat → Value}
    (h : ∀ k, ∃ d, script k = .ok d ∧ d.Settles (x k)) :
    (scripted script 0).Yields (0 : Nat) x := by
  refine yields_iff.2 (draws_of_invariant (fun k (n : Nat) => k = n) rfl ?_)
  rintro k _ w rfl
  obtain ⟨d, hd, hsettles⟩ := h k
  have hpull : (scripted script 0).pull k w = (.ok d, (k + 1 : Nat), w) := by
    show (script k, _, w) = _
    rw [hd]
  exact ⟨d, _, w, hpull, hsettles, rfl⟩

end RandExpr
