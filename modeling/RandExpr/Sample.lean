import RandExpr.Catalog

/-!
# Samples

Several values of one expression.

## The model

`sample` takes only values that are there at once: one that comes later is a fault that names the
expression as it was written. A sampling (`Sampling`) waits for values that come later. It is asked
for its result again and again, like a delivery, and never draws a value before the one before it
is settled. `sampleBlocking` asks until the result is there.
-/

namespace RandExpr

variable {W : Type} [Host W]

/-- Draws `left` more values that are there at once. The values drawn before are given last
first. -/
def Generator.drawNow (expression : String) :
    (left : Nat) → (drawn : List Value) → Generator W → W → Except Fault (List Value) × W
  | 0, drawn, _, w => (.ok drawn.reverse, w)
  | left + 1, drawn, g, w =>
    match g.resolve w with
    | (.error f, _, w) => (.error f, w)
    | (.ok (.now v), g, w) => drawNow expression left (v :: drawn) g w
    | (.ok _, _, w) => (.error (.notYet expression), w)

/-- Draws `count` values of an expression, all of which must be there at once. -/
def sample (catalog : Catalog W) (options : Options) (expression : String) (count : Nat) (w : W) :
    Except Fault (List Value) × W :=
  match catalog.build options expression w with
  | (.error f, w) => (.error f, w)
  | (.ok g, w) => g.drawNow expression count [] w

/-- A sample that is being drawn. -/
inductive Sampling (W : Type) : Type 1 where
  /-- Nothing has been done yet. -/
  | fresh (catalog : Catalog W) (options : Options) (expression : String) (count : Nat)
  /-- A value is awaited. The values before it are given last first, and `left` more follow it. -/
  | waiting (awaited : Delivery W) (left : Nat) (drawn : List Value) (g : Generator W)
  /-- The result is there. -/
  | done (result : Except Fault (List Value))

namespace Sampling

/-- Draws `left` more values, up to one that is pending. -/
def advance : (left : Nat) → (drawn : List Value) → Generator W → W → Sampling W × W
  | 0, drawn, _, w => (.done (.ok drawn.reverse), w)
  | left + 1, drawn, g, w =>
    match g.resolve w with
    | (.error f, _, w) => (.done (.error f), w)
    | (.ok d, g, w) =>
      match d.poll w with
      | (.settled (.ok v), w) => advance left (v :: drawn) g w
      | (.settled (.error f), w) => (.done (.error f), w)
      | (.pending rest, w) => (.waiting rest left drawn g, w)

/-- Asks a sampling for its result once. -/
def poll : Sampling W → W → Sampling W × W
  | fresh catalog options expression count, w =>
    match catalog.build options expression w with
    | (.error f, w) => (.done (.error f), w)
    | (.ok g, w) => advance count [] g w
  | waiting awaited left drawn g, w =>
    match awaited.poll w with
    | (.settled (.ok v), w) => advance left (v :: drawn) g w
    | (.settled (.error f), w) => (.done (.error f), w)
    | (.pending rest, w) => (.waiting rest left drawn g, w)
  | done result, w => (.done result, w)

/-- Asks a sampling for its result until it is there, at most `patience` times. -/
def settle : (patience : Nat) → Sampling W → W → Option (Except Fault (List Value)) × W
  | 0, _, w => (none, w)
  | patience + 1, s, w =>
    match s.poll w with
    | (.done result, w) => (some result, w)
    | (next, w) => settle patience next w

end Sampling

/-- Draws `count` values of an expression, waiting for each that comes later. There is no result
if one of them is not settled within `patience` polls. -/
def sampleBlocking (patience : Nat) (catalog : Catalog W) (options : Options) (expression : String)
    (count : Nat) (w : W) : Option (Except Fault (List Value)) × W :=
  Sampling.settle patience (.fresh catalog options expression count) w

end RandExpr
