import RandExpr.Recipe.Repeat

/-!
# Draws in a row

What a source gives when it is drawn from several times in a row, and how a repetition draws.

## The model

`Source.Pulls` lists the results of draws that follow one another with nothing in between, faults
included: a source can be drawn from again after a fault. `Source.pullIn` makes every draw in a
world of its own, so anything may happen between two draws.

## What is proved

* `pullIn_state`, `toSource_withState` — the state that a source or a generator is in has no part in
  how it draws from other states.
* `repetition_pull_of_ok`, `repetition_pull_of_error` — a draw of a repetition makes such a row of
  draws of the generator inside, and nothing else.
-/

namespace RandExpr

variable {W : Type}

namespace Source

/-- Drawn from once for each of the results, in a row, the source goes from one state and world to
another. -/
inductive Pulls (S : Source W) :
    S.State → W → List (Except Fault (Delivery W)) → S.State → W → Prop where
  /-- No draw. -/
  | nil {s : S.State} {w : W} : S.Pulls s w [] s w
  /-- A draw, and the draws after it. -/
  | cons {s s₁ s₂ : S.State} {w w₁ w₂ : W} {r : Except Fault (Delivery W)}
      {rs : List (Except Fault (Delivery W))} :
      S.pull s w = (r, s₁, w₁) → S.Pulls s₁ w₁ rs s₂ w₂ → S.Pulls s w (r :: rs) s₂ w₂

theorem pulls_nil_iff {S : Source W} {s s' : S.State} {w w' : W} :
    S.Pulls s w [] s' w' ↔ s = s' ∧ w = w' := by
  constructor
  · rintro ⟨⟩
    exact ⟨rfl, rfl⟩
  · rintro ⟨rfl, rfl⟩
    exact .nil

theorem pulls_cons_iff {S : Source W} {s s' : S.State} {w w' : W} {r : Except Fault (Delivery W)}
    {rs : List (Except Fault (Delivery W))} :
    S.Pulls s w (r :: rs) s' w' ↔
      ∃ s₁ w₁, S.pull s w = (r, s₁, w₁) ∧ S.Pulls s₁ w₁ rs s' w' := by
  constructor
  · intro h
    cases h with
    | cons hp hs => exact ⟨_, _, hp, hs⟩
  · rintro ⟨s₁, w₁, hp, hs⟩
    exact .cons hp hs

/-! ### Draws in given worlds -/

/-- Draws from a source once in each of the worlds: the results, and the state of the source
then. -/
def pullIn (S : Source W) :
    S.State → List W → List (Except Fault (Delivery W)) × S.State
  | s, [] => ([], s)
  | s, w :: ws =>
    let (r, s, _) := S.pull s w
    let (rs, s) := S.pullIn s ws
    (r :: rs, s)

theorem length_pullIn (S : Source W) (s : S.State) (ws : List W) :
    (S.pullIn s ws).1.length = ws.length := by
  induction ws generalizing s with
  | nil => rfl
  | cons w ws ih => rw [pullIn, List.length_cons, List.length_cons, ih]

theorem pullIn_state (S : Source W) (t s : S.State) (ws : List W) :
    ({ S with state := t } : Source W).pullIn s ws = S.pullIn s ws := by
  induction ws generalizing s with
  | nil => rfl
  | cons w ws ih =>
    obtain ⟨r, s₁, w₁, hr⟩ : ∃ r s₁ w₁, S.pull s w = (r, s₁, w₁) := ⟨_, _, _, rfl⟩
    simp only [pullIn, hr, ih]

/-- An invariant of the states, by the number of draws made, is kept by draws in any worlds. -/
theorem pullIn_of_invariant {S : Source W} (inv : Nat → S.State → Prop)
    (hstep : ∀ k s w, inv k s → inv (k + 1) (S.pull s w).2.1) {k : Nat} {s : S.State}
    (hs : inv k s) (ws : List W) : inv (k + ws.length) (S.pullIn s ws).2 := by
  induction ws generalizing k s with
  | nil => exact hs
  | cons w ws ih =>
    rw [pullIn, List.length_cons, Nat.add_comm ws.length 1, ← Nat.add_assoc]
    exact ih (hstep k s w hs)

end Source

namespace Generator

variable [Host W]

theorem pull_withState (g : Generator W) (t s : g.State) (w : W) :
    (g.withState t).pull s w = g.pull s w := by
  obtain ⟨first, s⟩ := s
  cases first with
  | some d => rfl
  | none =>
    obtain ⟨r, s', w', hr⟩ : ∃ r s' w', g.source.pull s w = (r, s', w') := ⟨_, _, _, rfl⟩
    have hr' : (g.withState t).source.pull s w = (r, s', w') := hr
    unfold pull
    simp only [hr, hr']
    cases r <;> rfl

theorem pull_of_error {g : Generator W} {s t : g.source.State} {w v : W} {f : Fault}
    (h : g.source.pull s w = (.error f, t, v)) : g.pull (none, s) w = (.error f, (none, t), v) := by
  unfold pull
  simp only [h]

/-- A draw that succeeds leaves notes, as the classification of its generator says. -/
theorem pull_of_ok {g : Generator W} {s t : g.source.State} {w v : W} {d : Delivery W}
    (h : g.source.pull s w = (.ok d, t, v)) :
    g.pull (none, s) w = (.ok d, (none, t),
      if d.isLate = g.isLate then Host.note (.pulled g.kind) v
      else Host.note (.shapeChanged g.kind d.isLate g.isLate) (Host.note (.pulled g.kind) v)) := by
  unfold pull
  simp only [h]

theorem pull_of_none (g : Generator W) {s s₁ : g.source.State} {w w₁ : W}
    {r : Except Fault (Delivery W)} (hr : g.source.pull s w = (r, s₁, w₁)) :
    ∃ w₂, g.pull (none, s) w = (r, (none, s₁), w₂) := by
  cases r with
  | error f => exact ⟨w₁, pull_of_error hr⟩
  | ok d => exact ⟨_, pull_of_ok hr⟩

theorem toSource_withState (g : Generator W) (t : g.State) :
    (g.withState t).toSource = { g.toSource with state := t } := by
  have hpull : (g.withState t).pull = g.pull := by
    funext s w
    exact g.pull_withState t s w
  simp only [toSource, hpull]
  rfl

end Generator

namespace Recipe

variable [Host W] {g : Generator W}

theorem drawParts_of_ok {ds : List (Delivery W)} {s s' : g.State} {w w' : W}
    (h : g.toSource.Pulls s w (ds.map .ok) s' w') (drawn : List (Delivery W)) :
    drawParts g ds.length drawn s w = (.ok (drawn.reverse ++ ds), s', w') := by
  induction ds generalizing drawn s w with
  | nil =>
    obtain ⟨rfl, rfl⟩ := Source.pulls_nil_iff.1 h
    rw [List.length_nil, drawParts, List.append_nil]
  | cons d ds ih =>
    obtain ⟨s₁, w₁, hp, hs⟩ := Source.pulls_cons_iff.1 h
    have hp : g.pull s w = (.ok d, s₁, w₁) := hp
    rw [List.length_cons, drawParts, hp]
    simp only
    rw [ih hs, List.reverse_cons, List.append_assoc, List.singleton_append]

theorem drawParts_of_error {ds : List (Delivery W)} {f : Fault} {s s' : g.State} {w w' : W}
    (h : g.toSource.Pulls s w (ds.map .ok ++ [.error f]) s' w') {left : Nat}
    (hlt : ds.length < left) (drawn : List (Delivery W)) :
    drawParts g left drawn s w = (.error f, s', w') := by
  induction ds generalizing drawn s w left with
  | nil =>
    obtain ⟨left, rfl⟩ : ∃ k, left = k + 1 := ⟨left - 1, by rw [List.length_nil] at hlt; omega⟩
    obtain ⟨s₁, w₁, hp, hs⟩ := Source.pulls_cons_iff.1 h
    obtain ⟨rfl, rfl⟩ := Source.pulls_nil_iff.1 hs
    have hp : g.pull s w = (.error f, s₁, w₁) := hp
    rw [drawParts, hp]
  | cons d ds ih =>
    rw [List.length_cons] at hlt
    obtain ⟨left, rfl⟩ : ∃ k, left = k + 1 := ⟨left - 1, by omega⟩
    obtain ⟨s₁, w₁, hp, hs⟩ := Source.pulls_cons_iff.1 h
    have hp : g.pull s w = (.ok d, s₁, w₁) := hp
    rw [drawParts, hp]
    exact ih hs (by omega) _

/-- Where a full row of draws succeeds, so does the repetition, with the whole of the row. -/
theorem repetition_pull_of_ok {ds : List (Delivery W)} {s s' : g.State} {w w' : W}
    (h : g.toSource.Pulls s w (ds.map .ok) s' w') :
    (repetition ds.length g).pull s w = (.ok (.gather ds), s', w') := by
  have hd := drawParts_of_ok h []
  simp only [repetition, hd, List.reverse_nil, List.nil_append]

/-- A fault on the way is the fault of the repetition, and nothing is drawn after it. -/
theorem repetition_pull_of_error {ds : List (Delivery W)} {f : Fault} {s s' : g.State} {w w' : W}
    {count : Nat} (h : g.toSource.Pulls s w (ds.map .ok ++ [.error f]) s' w')
    (hlt : ds.length < count) : (repetition count g).pull s w = (.error f, s', w') := by
  have hd := drawParts_of_error h hlt []
  simp only [repetition, hd]

end Recipe

end RandExpr
