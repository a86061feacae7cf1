import RandExpr.Fault
import RandExpr.Value

/-!
# Deliveries

A value that a generator has drawn: there at once, or to come later.

## The model

A delivery that comes later is asked for its value again and again (`Delivery.poll`); each time it
acts on its surroundings and is either settled, with a value or a fault, or pending. One of the
host's own (`wait`) is given as what happens at each poll, counted from 0. The whole of several
deliveries (`join`) polls those of its parts that are not settled, from left to right, and is
settled when all are, or as soon as one settles with a fault; a settled part stays in the list as
its value and is not polled again. A tap (`tap`) hands the value on when the delivery inside it
settles with one.

This pass over all parts (`pollParts`) is how a whole of at most 30 parts is polled. One of more
parts is polled in another way: only the parts that have called for it are asked, in the order of
their calls, and their results are taken up in the order of the parts. That way has no definition of
its own; `Delivery.Joining` and `Delivery.Answer`, which leave the order of the polls open, cover
it.

## What is proved

`values?_eq_some_iff` and `values?_eq_none_iff` say when the values of a list of deliveries are
known, and `isLate_gather_iff` when their whole comes later.
-/

namespace RandExpr

/-- A value that has been drawn. -/
inductive Delivery (W : Type) where
  /-- The value is there. -/
  | now (v : Value)
  /-- The value is the host's to settle; `polls` is how often it has been asked for. -/
  | wait (polls : Nat) (onPoll : Nat → W → Option (Except Fault Value) × W)
  /-- The value is the joined text of the values of several deliveries. -/
  | join (parts : List (Delivery W))
  /-- The value is that of the delivery inside, and is handed on as soon as it is settled. -/
  | tap (inner : Delivery W) (callback : Value → W → W)

/-- What polling a delivery comes to. -/
inductive Progress (W : Type) where
  /-- The value is still to come, from what is left of the delivery. -/
  | pending (rest : Delivery W)
  /-- The value, or the fault, is there. -/
  | settled (result : Except Fault Value)

/-- The text of values one after the other. -/
def Value.joined (vs : List Value) : Value := .text (String.join (vs.map Value.display))

namespace Delivery

variable {W : Type}

/-- Whether the value comes later. -/
def isLate : Delivery W → Bool
  | now _ => false
  | _ => true

/-- The value, if it is there. -/
def value? : Delivery W → Option Value
  | now v => some v
  | _ => none

/-- The values, if all are there. -/
def values? (parts : List (Delivery W)) : Option (List Value) := parts.mapM value?

/-- The whole of several deliveries. -/
def gather (parts : List (Delivery W)) : Delivery W :=
  match values? parts with
  | some vs => now (.joined vs)
  | none => join parts

theorem values?_cons (d : Delivery W) (ds : List (Delivery W)) :
    values? (d :: ds) = d.value?.bind fun v => (values? ds).map (v :: ·) := by
  simp only [values?, List.mapM_cons]
  cases d.value? with
  | none => rfl
  | some v => cases ds.mapM value? <;> rfl

theorem values?_eq_some_iff {parts : List (Delivery W)} {vs : List Value} :
    values? parts = some vs ↔ parts = vs.map now := by
  induction parts generalizing vs with
  | nil => cases vs <;> simp [values?]
  | cons d ds ih =>
    rw [values?_cons]
    cases d with
    | now v =>
      cases vs with
      | nil => simp [value?]
      | cons u us =>
        simp only [value?, Option.bind_some, Option.map_eq_some_iff, List.map_cons,
          List.cons.injEq, now.injEq, ih]
        constructor
        · rintro ⟨_, h, rfl, rfl⟩
          exact ⟨rfl, h⟩
        · rintro ⟨rfl, h⟩
          exact ⟨us, h, rfl, rfl⟩
    | _ => cases vs <;> simp [value?]

theorem values?_eq_none_iff {parts : List (Delivery W)} :
    values? parts = none ↔ ∃ d ∈ parts, d.isLate = true := by
  induction parts with
  | nil => simp [values?]
  | cons d ds ih =>
    rw [values?_cons]
    cases d <;> simp [value?, isLate, ih]

theorem isLate_gather_iff {parts : List (Delivery W)} :
    (gather parts).isLate = true ↔ ∃ d ∈ parts, d.isLate = true := by
  rw [← values?_eq_none_iff, gather]
  split <;> simp_all [isLate]

/-- What a whole whose parts have been polled comes to. -/
def joinProgress : Except Fault (List (Delivery W)) → Progress W
  | .error f => .settled (.error f)
  | .ok parts =>
    match values? parts with
    | some vs => .settled (.ok (.joined vs))
    | none => .pending (.join parts)

mutual

/-- Asks a delivery for its value once. -/
def poll : Delivery W → W → Progress W × W
  | now v, w => (.settled (.ok v), w)
  | wait polls onPoll, w =>
    match onPoll polls w with
    | (some result, w) => (.settled result, w)
    | (none, w) => (.pending (wait (polls + 1) onPoll), w)
  | join parts, w =>
    let (polled, w) := pollParts parts [] w
    (joinProgress polled, w)
  | tap inner callback, w =>
    match inner.poll w with
    | (.settled (.ok v), w) => (.settled (.ok v), callback v w)
    | (.settled (.error f), w) => (.settled (.error f), w)
    | (.pending rest, w) => (.pending (tap rest callback), w)

/-- Polls the parts of a whole from left to right, up to the first fault; the pass that is made over
at most 30 parts. The parts polled before are given last first, and come first in the result. -/
def pollParts :
    List (Delivery W) → (polled : List (Delivery W)) → W → Except Fault (List (Delivery W)) × W
  | [], polled, w => (.ok polled.reverse, w)
  | part :: parts, polled, w =>
    match part.poll w with
    | (.settled (.ok v), w) => pollParts parts (now v :: polled) w
    | (.settled (.error f), w) => (.error f, w)
    | (.pending rest, w) => pollParts parts (rest :: polled) w

end

/-- Asks a delivery for its value until it is settled, at most `patience` times. -/
def settle : (patience : Nat) → Delivery W → W → Option (Except Fault Value) × W
  | 0, _, w => (none, w)
  | patience + 1, d, w =>
    match d.poll w with
    | (.settled result, w) => (some result, w)
    | (.pending rest, w) => settle patience rest w

/-- A delivery as shown in diagnostics. -/
def inspect : Delivery W → String
  | now v => "Immediate(" ++ v.inspect ++ ")"
  | _ => "Deferred(..)"

end Delivery

end RandExpr
