import RandExpr.Random.Words

/-!
# Draws

Whole numbers, characters and reals drawn evenly from a range whose two ends belong to it.

## The model

A whole number or a character is drawn by multiplying a random word with the size of the range: the
high half of the product is the place in the range, and the word is refused when the low half lies
beyond a bound that leaves every place equally many words (`Integer.accept?`, `Character.accept?`).
The size of the range of all signed words does not fit in a word; there every word is accepted as it
is. Characters are counted by their ordinals, which leave out the surrogates among the code points.
A real is a fraction of 52 random bits, scaled to the range and shifted to its lower end.
-/

namespace RandExpr.Random

namespace Integer

/-- How many whole numbers lie from `low` to `high`, modulo `2 ^ 64`. -/
def size (low high : Int64) : UInt64 := (high - low).toUInt64 + 1

/-- The greatest low half that is accepted for a range of `size` numbers. -/
def zone (size : UInt64) : UInt64 := (size <<< UInt64.ofNat (63 - size.toNat.log2)) - 1

/-- What is drawn from `low` to `high` by a double word, if it is accepted. -/
def accept? (low high : Int64) (word : UInt64) : Option Int64 :=
  let size := size low high
  if size = 0 then some word.toInt64
  else
    let product := word.toNat * size.toNat
    if UInt64.ofNat product ≤ zone size then
      some (low + (UInt64.ofNat (product / 0x1_0000_0000_0000_0000)).toInt64)
    else none

/-- Draws a whole number from `low` to `high`. -/
def draw (low high : Int64) (ws : Words) : Int64 × Words :=
  drawUntil Words.takeDouble (accept? low high) low patience ws

end Integer

namespace Character

/-- How many characters lie from `low` to `high`. -/
def size (low high : Char) : Nat := high.ordinal.val - low.ordinal.val + 1

/-- The greatest low half that is accepted for a range of `size` characters. -/
def zone (size : Nat) : Nat := 0x1_0000_0000 - 1 - (0x1_0000_0000 - size) % size

/-- What is drawn from `low` to `high` by a word, if it is accepted. -/
def accept? (low high : Char) (word : UInt32) : Option Char :=
  let size := size low high
  let product := word.toNat * size
  let place := low.ordinal.val + product / 0x1_0000_0000
  if h : product % 0x1_0000_0000 ≤ zone size ∧ place < Char.numCodePoints then
    some (.ofOrdinal ⟨place, h.2⟩)
  else none

/-- Draws a character from `low` to `high`. -/
def draw (low high : Char) (ws : Words) : Char × Words :=
  drawUntil Words.take (accept? low high) low patience ws

end Character

namespace Real

/-- The greatest fraction drawn: one less a unit of its last bit. -/
def greatest : Float := 1 - 1 / Float.ofNat 0x10_0000_0000_0000

/-- The greatest float with at most the given bits by which the greatest fraction can be scaled
without passing `high`. -/
def fit (low high : Float) : (bits : Nat) → Float
  | 0 => 0
  | bits + 1 =>
    let scale := Float.ofBits (UInt64.ofNat (bits + 1))
    if scale * greatest + low > high then fit low high bits else scale

/-- What fractions are scaled by for the range from `low` to `high`, if a float holds it. The
greatest fraction is less than one, so the range may be finite and what it is scaled by not. -/
def scale? (low high : Float) : Option Float :=
  let widest := (high - low) / greatest
  if widest.isFinite then some (fit low high widest.toBits.toNat) else none

/-- A fraction of 52 bits of a double word, below one. -/
def fraction (word : UInt64) : Float := (word >>> 12).toFloat / Float.ofNat 0x10_0000_0000_0000

/-- A number moved into the range from `low` to `high`. -/
def clamp (x low high : Float) : Float :=
  let x := if x < low then low else x
  if x > high then high else x

/-- A number rounded to decimal places, a half away from zero. -/
def roundTo (places : Nat) (x : Float) : Float :=
  let unit := Float.ofScientific 1 false places
  (x * unit).round / unit

/-- Draws a real from `low` to `high`, rounded to decimal places, for which fractions are scaled by
`scale`. -/
def draw (low high scale : Float) (places : Nat) (ws : Words) : Float × Words :=
  let (word, ws) := ws.takeDouble
  (clamp (roundTo places (fraction word * scale + low)) low high, ws)

end Real

end RandExpr.Random
