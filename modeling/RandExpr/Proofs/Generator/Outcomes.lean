import RandExpr.Generator

/-!
# Outcomes of draws

What draws in a row give, up to the first that does not give a value at once.

## The model

The outcome of a draw is a fault, a value, or nothing if the value comes later (`Outcomes`, by the
numbers of the draws). `Reaches` follows a row of draws that give values at once, with nothing but
notes kept between them, and `HasOutcomes` says which outcomes such a row has. What comes after a
fault or after a value that comes later is left open, as is what waiting for one does.

`Outcomes.read` takes as many values as are asked for, up to the first draw that gives none at once.

## What is proved

* `length_of_read`, `read_eq_fault_iff`, `read_eq_late_iff` — what is read, by the numbers of the
  draws.
* `outcomes_ofSource`, `resolve_of_outcomes` — a generator hands out the outcomes of its source, the
  first value included.
-/

namespace RandExpr

/-- What draws give, by their numbers: a fault, a value, or nothing if it comes later. -/
abbrev Outcomes : Type := Nat → Except Fault (Option Value)

namespace Outcomes

/-- One of the first draws fails, and those before it give values at once. -/
def FailsFirst (r : Outcomes) (count : Nat) (f : Fault) : Prop :=
  ∃ i < count, r i = .error f ∧ ∀ j < i, ∃ v, r j = .ok (some v)

/-- The value of one of the first draws comes later, and no draw before it fails. -/
def IsLateFirst (r : Outcomes) (count : Nat) : Prop :=
  ∃ i < count, r i = .ok none ∧ ∀ j < i, ∀ f, r j ≠ .error f

/-- The outcomes after the first. -/
def rest (r : Outcomes) : Outcomes := fun k => r (k + 1)

/-- The values of the first draws, up to one that gives none at once: the fault of it, or nothing if
its value comes later. -/
def read : Outcomes → (count : Nat) → Except (Option Fault) (List Value)
  | _, 0 => .ok []
  | r, count + 1 =>
    match r 0 with
    | .error f => .error (some f)
    | .ok none => .error none
    | .ok (some v) => (read r.rest count).map (v :: ·)

variable {r : Outcomes}

theorem read_of_fault {f : Fault} (h : r 0 = .error f) (count : Nat) :
    r.read (count + 1) = .error (some f) := by
  rw [read, h]

theorem read_of_late (h : r 0 = .ok none) (count : Nat) : r.read (count + 1) = .error none := by
  rw [read, h]

theorem read_of_value {v : Value} (h : r 0 = .ok (some v)) (count : Nat) :
    r.read (count + 1) = (r.rest.read count).map (v :: ·) := by
  rw [read, h]

theorem map_eq_error_iff {ε α β : Type} {x : Except ε α} {g : α → β} {e : ε} :
    x.map g = .error e ↔ x = .error e := by
  cases x <;> simp [Except.map]

theorem length_of_read {count : Nat} {vs : List Value} (h : r.read count = .ok vs) :
    vs.length = count := by
  induction count generalizing r vs with
  | zero =>
    obtain rfl := Except.ok.inj h
    rfl
  | succ count ih =>
    match hfirst : r 0 with
    | .error f => simp [read_of_fault hfirst] at h
    | .ok none => simp [read_of_late hfirst] at h
    | .ok (some v) =>
      rw [read_of_value hfirst] at h
      cases hrest : r.rest.read count with
      | error f => simp [hrest, Except.map] at h
      | ok us =>
        rw [hrest] at h
        obtain rfl := Except.ok.inj h
        exact congrArg (· + 1) (ih hrest)

/-- The first number with a property, and what holds of those before it: it is 0, or it is the first
of those after 0. -/
theorem exists_first_succ {p q : Nat → Prop} {count : Nat} :
    (∃ i < count + 1, p i ∧ ∀ j < i, q j) ↔
      p 0 ∨ q 0 ∧ ∃ i < count, p (i + 1) ∧ ∀ j < i, q (j + 1) := by
  simp only [Nat.exists_lt_succ_left, Nat.forall_lt_succ_left, Nat.not_lt_zero]
  grind

theorem failsFirst_succ {count : Nat} {f : Fault} : r.FailsFirst (count + 1) f ↔
    r 0 = .error f ∨ (∃ v, r 0 = .ok (some v)) ∧ r.rest.FailsFirst count f :=
  exists_first_succ

theorem isLateFirst_succ {count : Nat} : r.IsLateFirst (count + 1) ↔
    r 0 = .ok none ∨ (∀ f, r 0 ≠ .error f) ∧ r.rest.IsLateFirst count :=
  exists_first_succ

/-- **A fault is read exactly if a draw fails before any value comes later.** -/
theorem read_eq_fault_iff {count : Nat} {f : Fault} :
    r.read count = .error (some f) ↔ r.FailsFirst count f := by
  induction count generalizing r with
  | zero => simp [read, FailsFirst]
  | succ count ih =>
    rw [failsFirst_succ]
    match hfirst : r 0 with
    | .error g => simp [read_of_fault hfirst]
    | .ok none => simp [read_of_late hfirst]
    | .ok (some v) =>
      rw [read_of_value hfirst, map_eq_error_iff, ih]
      simp

/-- **Nothing is read exactly if a value comes later before any draw fails.** -/
theorem read_eq_late_iff {count : Nat} : r.read count = .error none ↔ r.IsLateFirst count := by
  induction count generalizing r with
  | zero => simp [read, IsLateFirst]
  | succ count ih =>
    rw [isLateFirst_succ]
    match hfirst : r 0 with
    | .error f => simp [read_of_fault hfirst]
    | .ok none => simp [read_of_late hfirst]
    | .ok (some v) =>
      rw [read_of_value hfirst, map_eq_error_iff, ih]
      simp

end Outcomes

/-! ### Rows of draws -/

variable {W : Type} [Host W]

section Rows

variable {σ : Type} {pull : σ → W → Except Fault (Delivery W) × σ × W} {s : σ} {w : W}

/-- From a state and a world on, so many draws have given values at once, and nothing else has
happened but notes. -/
inductive Reaches (pull : σ → W → Except Fault (Delivery W) × σ × W) (s : σ) (w : W) :
    Nat → σ → W → Prop where
  /-- Nothing has happened. -/
  | start : Reaches pull s w 0 s w
  /-- One more note has been kept. -/
  | note {k : Nat} {s' : σ} {w' : W} (h : Reaches pull s w k s' w') (n : Note) :
      Reaches pull s w k s' (Host.note n w')
  /-- One more draw has given a value at once. -/
  | draw {k : Nat} {s₁ s₂ : σ} {w₁ w₂ : W} {v : Value} (h : Reaches pull s w k s₁ w₁)
      (hp : pull s₁ w₁ = (.ok (.now v), s₂, w₂)) : Reaches pull s w (k + 1) s₂ w₂

/-- Each draw in a row has the outcome at its number, as long as those before it have given values
at once. -/
def HasOutcomes (pull : σ → W → Except Fault (Delivery W) × σ × W) (s : σ) (w : W) (r : Outcomes) :
    Prop :=
  ∀ k s' w', Reaches pull s w k s' w' → (pull s' w').1.map Delivery.value? = r k

theorem Reaches.of_note {n : Note} {k : Nat} {s' : σ} {w' : W}
    (h : Reaches pull s (Host.note n w) k s' w') : Reaches pull s w k s' w' := by
  induction h with
  | start => exact .note .start n
  | note _ m ih => exact ih.note m
  | draw _ hp ih => exact ih.draw hp

theorem Reaches.of_draw {v : Value} {s₁ : σ} {w₁ : W} (hp : pull s w = (.ok (.now v), s₁, w₁))
    {k : Nat} {s' : σ} {w' : W} (h : Reaches pull s₁ w₁ k s' w') :
    Reaches pull s w (k + 1) s' w' := by
  induction h with
  | start => exact .draw .start hp
  | note _ m ih => exact ih.note m
  | draw _ hp' ih => exact ih.draw hp'

variable {r : Outcomes}

theorem HasOutcomes.note (h : HasOutcomes pull s w r) (n : Note) :
    HasOutcomes pull s (Host.note n w) r := by
  intro k s' w' hreach
  exact h k s' w' hreach.of_note

theorem HasOutcomes.first (h : HasOutcomes pull s w r) : (pull s w).1.map Delivery.value? = r 0 :=
  h 0 s w .start

theorem HasOutcomes.rest (h : HasOutcomes pull s w r) {v : Value} {s₁ : σ} {w₁ : W}
    (hp : pull s w = (.ok (.now v), s₁, w₁)) : HasOutcomes pull s₁ w₁ r.rest := by
  intro k s' w' hreach
  exact h (k + 1) s' w' (hreach.of_draw hp)

end Rows

/-! ### Generators -/

namespace Generator

/-- Calls of the generator, one after the other, have the outcomes. -/
inductive HasOutcomes (g : Generator W) (w : W) (r : Outcomes) : Prop where
  /-- The first value has not been handed out. -/
  | first {d : Delivery W} (hfirst : g.first = some d) (hd : .ok d.value? = r 0)
      (hrest : ∀ v, d = .now v → RandExpr.HasOutcomes g.source.pull g.source.state w r.rest)
  /-- It has been. -/
  | later (hfirst : g.first = none) (h : RandExpr.HasOutcomes g.source.pull g.source.state w r)

/-- **A generator is built exactly if the first draw of its source succeeds**, and has the outcomes
of the source. -/
theorem outcomes_ofSource {S : Source W} {w : W} {r : Outcomes}
    (h : RandExpr.HasOutcomes S.pull S.state w r) (kind : String) (args : List String)
    (depth : Nat) :
    (∃ f w', ofSource kind args depth S w = (.error f, w') ∧ r 0 = .error f) ∨
      ∃ g w', ofSource kind args depth S w = (.ok g, w') ∧ g.HasOutcomes w' r ∧
        ∀ f, r 0 ≠ .error f := by
  obtain ⟨res, s, w₁, hp⟩ : ∃ res s w₁, S.pull S.state w = (res, s, w₁) := ⟨_, _, _, rfl⟩
  have hzero := h.first
  rw [hp] at hzero
  cases res with
  | error f => exact .inl ⟨f, w₁, by rw [ofSource, hp], hzero.symm⟩
  | ok d =>
    refine .inr ⟨⟨kind, args, d.isLate, some d, { S with state := s }⟩, _, by rw [ofSource, hp],
      .first rfl hzero ?_, ?_⟩
    · rintro v rfl
      exact (h.rest hp).note _
    · intro f hf
      rw [hf] at hzero
      cases hzero

/-- **A call has the first outcome**, and if it gives a value at once, the calls after it have those
after the first. -/
theorem resolve_of_outcomes {g : Generator W} {w : W} {r : Outcomes} (h : g.HasOutcomes w r) :
    ∃ res g' w', g.resolve w = (res, g', w') ∧ res.map Delivery.value? = r 0 ∧
      ∀ v, res = .ok (.now v) → g'.HasOutcomes w' r.rest := by
  cases h with
  | @first d hfirst hd hrest =>
    refine ⟨.ok d, g.withState (none, g.source.state), w, ?_, hd, ?_⟩
    · rw [resolve, hfirst]
      rfl
    · intro v hv
      exact .later rfl (hrest v (Except.ok.inj hv))
  | later hfirst h =>
    obtain ⟨res, s, w₁, hp⟩ : ∃ res s w₁, g.source.pull g.source.state w = (res, s, w₁) :=
      ⟨_, _, _, rfl⟩
    have hzero := h.first
    rw [hp] at hzero
    cases res with
    | error f =>
      refine ⟨.error f, g.withState (none, s), w₁, ?_, hzero, fun v hv => nomatch hv⟩
      rw [resolve, hfirst, pull, hp]
    | ok d =>
      obtain ⟨w₂, hpull, hnoted⟩ : ∃ w₂,
          g.pull (none, g.source.state) w = (.ok d, (none, s), w₂) ∧
            ∀ r' : Outcomes, RandExpr.HasOutcomes g.source.pull s w₁ r' →
              RandExpr.HasOutcomes g.source.pull s w₂ r' := by
        rw [pull, hp]
        refine ⟨_, rfl, fun r' h' => ?_⟩
        by_cases hlate : d.isLate = g.isLate
        · rw [if_pos hlate]
          exact h'.note _
        · rw [if_neg hlate]
          exact (h'.note _).note _
      refine ⟨.ok d, g.withState (none, s), w₂, ?_, hzero, ?_⟩
      · rw [resolve, hfirst, hpull]
      · intro v hv
        obtain rfl := Except.ok.inj hv
        exact .later rfl (hnoted _ (h.rest hp))

end Generator

end RandExpr
