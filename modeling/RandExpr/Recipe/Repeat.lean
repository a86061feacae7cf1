import RandExpr.Catalog
import RandExpr.Decimal.Numeral
import RandExpr.Text.Blank

/-!
# Repetitions

The kind `repeat`, whose values are the joined texts of several values of a nested expression.

## The model

The first argument is the count and the second the nested expression, in parentheses or not. Every
draw takes as many values of the nested generator as the count says, in order, up to the first
fault; the whole comes later exactly if one of them does.
-/

namespace RandExpr.Recipe

variable {W : Type} [Host W]

/-- Draws `left` more values of a generator, in order, up to the first fault. The values drawn
before are given last first, and come first in the result. -/
def drawParts (g : Generator W) :
    (left : Nat) → (drawn : List (Delivery W)) → g.State → W →
      Except Fault (List (Delivery W)) × g.State × W
  | 0, drawn, state, w => (.ok drawn.reverse, state, w)
  | left + 1, drawn, state, w =>
    match g.pull state w with
    | (.error f, state, w) => (.error f, state, w)
    | (.ok d, state, w) => drawParts g left (d :: drawn) state w

/-- The source whose values join `count` values of a generator. -/
def repetition (count : Nat) (g : Generator W) : Source W where
  State := g.State
  state := (g.first, g.source.state)
  pull := fun state w =>
    match drawParts g count [] state w with
    | (.error f, state, w) => (.error f, state, w)
    | (.ok parts, state, w) => (.ok (.gather parts), state, w)
  held := g.toSource.held

/-- The count that a text gives: digits, with blanks around them and `+` before them allowed, of a
number that an unsigned word holds. -/
def count? (text : String) : Option Nat :=
  let digits := match Text.trimBlank text.toList with
    | '+' :: ds => ds
    | ds => ds
  if digits ≠ [] ∧ digits.all Char.isDigit then
    let n := Decimal.digitsValue digits
    if n < 0x1_0000_0000_0000_0000 then some n else none
  else none

/-- Reads a count that is no greater than `maxRepeat`. -/
def readCount (text : String) : Except Refusal Nat :=
  match count? text with
  | none => .error (.notCount text)
  | some count => if count ≤ maxRepeat then .ok count else .error (.countAbove count)

/-- Values of a nested expression, joined. -/
def repeated : Recipe W := fun setting args =>
  Plan.ofExcept (setting.arg args 0 "count") fun text =>
    match readCount text with
    | .error reason => .fail (.refused setting.kind reason)
    | .ok count =>
      Plan.ofExcept (setting.arg args 1 "expression") fun payload =>
        Plan.nested (String.ofList (unwrapGroup payload.toList)) fun g =>
          .yield (repetition count g)

end RandExpr.Recipe
