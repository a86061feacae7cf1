import RandExpr.Proofs.Generator.Calls

/-!
# Sources that do not fail

What is known of every draw of a source, by the number of the draw, goes over to the generators and
the repetitions that are built on it.

## The model

`Source.Draws` says that no draw of a source fails and that what each draw gives is as it should be
for its number. Each draw may be made in a world of its own. A source gives a sequence of values
(`Source.Gives`) if every draw gives the value at its number, at once.

## What is proved

* `draws_of_invariant` — to show how a source draws, say what is known of its states after every
  number of draws.
* `draws_ofSource`, `answer_of_draws` — a generator draws as its source does, however it is called.
* `draws_repetition` — a repetition draws wholes of as many draws at a time as its count says.
* `gives_repetition`, `answerAll_of_gives` — so values that are there at once are joined at once,
  and handed out at once.
-/

namespace RandExpr

variable {W : Type}

namespace Source

variable {S : Source W}

/-- Whatever the worlds in which the draws are made, no draw fails, and each gives a delivery that
is as it should be for its number. -/
def Draws (S : Source W) (s : S.State) (P : Nat → Delivery W → Prop) : Prop :=
  ∀ ws w, ∃ d s' w', S.pull (S.pullIn s ws).2 w = (.ok d, s', w') ∧ P ws.length d

/-- Each draw gives the value at its number, at once. -/
def Gives (S : Source W) (s : S.State) (x : Nat → Value) : Prop :=
  S.Draws s fun k d => d = .now (x k)

variable {s : S.State} {P : Nat → Delivery W → Prop}

theorem Draws.pull (h : S.Draws s P) (w : W) :
    ∃ d s' w', S.pull s w = (.ok d, s', w') ∧ P 0 d ∧ S.Draws s' fun k => P (k + 1) := by
  obtain ⟨d, s', w', hp, hd⟩ := h [] w
  refine ⟨d, s', w', hp, hd, fun ws w₁ => ?_⟩
  obtain ⟨d₁, s₁, w₂, hp₁, hd₁⟩ := h (w :: ws) w₁
  have hp : S.pull s w = (.ok d, s', w') := hp
  rw [pullIn, hp] at hp₁
  exact ⟨d₁, s₁, w₂, hp₁, hd₁⟩

/-- An invariant of the states, by the number of draws made, shows how a source draws. -/
theorem draws_of_invariant (inv : Nat → S.State → Prop) (hstart : inv 0 s)
    (hstep : ∀ k s w, inv k s →
      ∃ d s' w', S.pull s w = (.ok d, s', w') ∧ P k d ∧ inv (k + 1) s') : S.Draws s P := by
  have hkept (k : Nat) (s : S.State) (w : W) (hs : inv k s) : inv (k + 1) (S.pull s w).2.1 := by
    obtain ⟨d, s', w', hp, -, hs'⟩ := hstep k s w hs
    rwa [hp]
  intro ws w
  have hs := pullIn_of_invariant inv hkept hstart ws
  rw [Nat.zero_add] at hs
  obtain ⟨d, s', w', hp, hd, -⟩ := hstep _ _ w hs
  exact ⟨d, s', w', hp, hd⟩

theorem Draws.of_state (h : S.Draws s P) (t : S.State) :
    ({ S with state := t } : Source W).Draws s P := by
  intro ws w
  rw [pullIn_state]
  exact h ws w

theorem Draws.pulls (h : S.Draws s P) (n : Nat) (w : W) :
    ∃ ds s' w', S.Pulls s w (ds.map .ok) s' w' ∧ List.Forall₂ P (List.range n) ds ∧
      S.Draws s' fun k => P (n + k) := by
  induction n generalizing s P w with
  | zero =>
    refine ⟨[], s, w, .nil, .nil, ?_⟩
    simpa using h
  | succ n ih =>
    obtain ⟨d, s₁, w₁, hp, hd, h₁⟩ := h.pull w
    obtain ⟨ds, s', w', hps, hds, h'⟩ := ih h₁ w₁
    refine ⟨d :: ds, s', w', .cons hp hps, ?_, ?_⟩
    · rw [List.range_succ_eq_map]
      exact .cons hd (List.forall₂_map_left_iff.2 hds)
    · have hshift : (fun k => P (n + 1 + k)) = fun k => P (n + k + 1) := by
        funext k
        rw [Nat.add_right_comm]
      rw [hshift]
      exact h'

end Source

variable [Host W]

namespace Generator

variable {P : Nat → Delivery W → Prop}

/-- A generator draws what it has drawn and then what its source draws. -/
theorem draws_toSource (g : Generator W) {d : Delivery W} {s : g.source.State} (hd : P 0 d)
    (hs : g.source.Draws s fun k => P (k + 1)) : g.toSource.Draws (some d, s) P := by
  refine Source.draws_of_invariant
    (fun k (t : g.State) => match t with
      | (some d, s) => P k d ∧ g.source.Draws s fun i => P (k + 1 + i)
      | (none, s) => g.source.Draws s fun i => P (k + i)) ?_ ?_
  · refine ⟨hd, ?_⟩
    simpa only [Nat.add_comm] using hs
  · rintro k ⟨first, s⟩ w ht
    cases first with
    | some d => exact ⟨d, (none, s), w, rfl, ht.1, ht.2⟩
    | none =>
      obtain ⟨d, s', w', hp, hd, hs'⟩ := ht.pull w
      obtain ⟨w'', hpull⟩ := g.pull_of_none hp
      refine ⟨d, (none, s'), w'', hpull, hd, ?_⟩
      simpa only [Nat.add_assoc, Nat.add_comm 1] using hs'

/-- **A generator draws as its source does.** Its first value, which tells whether it is early or
late, is the first of the source. -/
theorem draws_ofSource {S : Source W} (h : S.Draws S.state P) (kind : String) (args : List String)
    (depth : Nat) (w : W) :
    ∃ g w', ofSource kind args depth S w = (.ok g, w') ∧ g.kind = kind ∧ g.args = args ∧
      (∃ d, P 0 d ∧ g.isLate = d.isLate) ∧ g.toSource.Draws g.toSource.state P := by
  obtain ⟨d, s, w₁, hp, hd, hs⟩ := h.pull w
  refine ⟨⟨kind, args, d.isLate, some d, { S with state := s }⟩, _, by rw [ofSource, hp], rfl, rfl,
    ⟨d, hd, rfl⟩, ?_⟩
  exact draws_toSource _ hd (hs.of_state s)

theorem answer_of_draws {g : Generator W} (h : g.toSource.Draws g.toSource.state P) (c : Call W)
    (w : W) : ∃ d g' w', g.answer c w = (.ok (c.hand d), g', w') ∧ g'.isLate = g.isLate ∧ P 0 d ∧
      g'.toSource.Draws g'.toSource.state fun k => P (k + 1) := by
  obtain ⟨d, s, w₁, hp, hd, hs⟩ := h.pull w
  have hp : g.pull (g.first, g.source.state) w = (.ok d, s, w₁) := hp
  have hanswer : g.answer c w = _ := answer_of_pull hp c
  have hdraws : ∀ S, S = { g.toSource with state := s } → S.Draws S.state fun k => P (k + 1) := by
    rintro S rfl
    exact hs.of_state s
  exact ⟨d, g.withState s, _, hanswer, rfl, hd, hdraws _ (g.toSource_withState s)⟩

theorem answerAll_of_gives {g : Generator W} {x : Nat → Value}
    (h : g.toSource.Gives g.toSource.state x) (calls : List (Call W × W)) :
    (g.answerAll calls).1 = (List.range calls.length).map fun k => .ok (.now (x k)) := by
  induction calls generalizing g x with
  | nil => rfl
  | cons call calls ih =>
    obtain ⟨c, w⟩ := call
    obtain ⟨d, g', w', hanswer, -, rfl, hrest⟩ := answer_of_draws h c w
    have hhand : c.hand (.now (x 0)) = .now (x 0) := by cases c <;> rfl
    rw [answerAll, hanswer]
    simp only [hhand]
    rw [ih hrest, List.length_cons, List.range_succ_eq_map, List.map_cons, List.map_map]
    rfl

end Generator

namespace Recipe

variable {g : Generator W} {s : g.State}

/-- **A repetition draws wholes of as many draws of its generator at a time as its count says.** -/
theorem draws_repetition {P Q : Nat → Delivery W → Prop} (h : g.toSource.Draws s P) (count : Nat)
    (hwhole : ∀ j ds, List.Forall₂ (fun i => P (j * count + i)) (List.range count) ds →
      Q j (.gather ds)) : (repetition count g).Draws s Q := by
  refine Source.draws_of_invariant
    (fun j (s : g.State) => g.toSource.Draws s fun i => P (j * count + i)) ?_ ?_
  · simpa using h
  · intro j s w hs
    obtain ⟨ds, s', w', hps, hds, hs'⟩ := hs.pulls count w
    have hcount : ds.length = count := by simpa using hds.length_eq.symm
    have hp := repetition_pull_of_ok hps
    rw [hcount] at hp
    refine ⟨.gather ds, s', w', hp, hwhole j ds hds, ?_⟩
    have hshift : (fun i => P ((j + 1) * count + i)) = fun i => P (j * count + (count + i)) := by
      funext i
      rw [Nat.succ_mul, Nat.add_assoc]
    rw [hshift]
    exact hs'

/-- **A repetition gives the joined texts of as many values at a time as its count says.** -/
theorem gives_repetition {x : Nat → Value} (h : g.toSource.Gives s x) (count : Nat) :
    (repetition count g).Gives s
      fun j => .joined ((List.range count).map fun i => x (j * count + i)) := by
  refine draws_repetition h count fun j ds hds => ?_
  have hparts : ds = ((List.range count).map fun i => x (j * count + i)).map .now := by
    rw [List.map_map, ← List.forall₂_eq_eq_eq, List.forall₂_map_right_iff]
    exact hds.flip
  show Delivery.gather ds = _
  rw [Delivery.gather, Delivery.values?_eq_some_iff.2 hparts]

end Recipe

end RandExpr
