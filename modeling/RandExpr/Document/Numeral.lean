import RandExpr.Decimal.Numeral
import RandExpr.Document.Basic

/-!
# Numerals of JSON

Reading a JSON number as a leaf.

## The model

A numeral is an optional `-`, digits without needless zeros before them, an optional fraction and
an optional power of ten. A numeral with neither of the last two is a whole number when 64 bits
hold it; `-0` is not a whole number, since it keeps its sign. Every other numeral is read as a
float by one multiplication or division: the digits are collected while they fit in 64 bits
(`Significand`), the float nearest to them is scaled by the power of ten, and a number beyond every
float is refused.
-/

namespace RandExpr

open Decimal (digitsValue exponent?)

/-- The leading digits of a numeral, as many as 64 bits hold, and the power of ten they are
scaled by. -/
structure Significand where
  /-- The digits collected, as a number. -/
  digits : Nat := 0
  /-- The power of ten of the last digit collected. -/
  exponent : Int := 0
  /-- Whether a digit did not fit any more. -/
  full : Bool := false
  deriving DecidableEq, Repr

namespace Significand

/-- A significand with one more digit, if 64 bits hold it. -/
def extend? (s : Significand) (c : Char) : Option Nat :=
  let digits := digitsValue [c] + 10 * s.digits
  if digits < 0x1_0000_0000_0000_0000 then some digits else none

/-- Takes a digit before the point. From the first that does not fit, digits only scale. -/
def takeWhole (s : Significand) (c : Char) : Significand :=
  match s.full, s.extend? c with
  | false, some digits => { s with digits }
  | _, _ => { s with exponent := s.exponent + 1, full := true }

/-- Takes a digit after the point. From the first that does not fit, digits are dropped. -/
def takeFraction (s : Significand) (c : Char) : Significand :=
  match s.full, s.extend? c with
  | false, some digits => { s with digits, exponent := s.exponent - 1 }
  | _, _ => { s with full := true }

/-- The significand of the digits before and after a point. -/
def ofDigits (whole fraction : List Char) : Significand :=
  fraction.foldl takeFraction { whole.foldl takeWhole {} with full := false }

/-- A float times a power of ten, unless it leaves the range of floats. -/
def scale (x : Float) (exponent : Int) : Option Float :=
  if 0 ≤ exponent then
    if exponent ≤ 308 then
      let y := x * Float.ofScientific 1 false exponent.toNat
      if y.isInf then none else some y
    else if x == 0 then some x
    else none
  else if -308 ≤ exponent then some (x / Float.ofScientific 1 false (-exponent).toNat)
  else if x == 0 then some x
  else scale (x / Float.ofScientific 1 false 308) (exponent + 308)
termination_by (-exponent).toNat
decreasing_by omega

/-- The float that a significand and a further power of ten stand for. -/
def toFloat? (s : Significand) (exponent : Int) : Option Float :=
  scale (Float.ofNat s.digits) (s.exponent + exponent)

end Significand

/-- A fraction at the head of a text (none, if no point is there), and the rest. A point needs a
digit behind it. -/
def takeFraction? : List Char → Option (Option (List Char) × List Char)
  | '.' :: cs =>
    match cs.takeWhile Char.isDigit with
    | [] => none
    | digits => some (some digits, cs.dropWhile Char.isDigit)
  | cs => some (none, cs)

/-- The number of a numeral, from its sign and its parts. -/
def Leaf.ofParts? (negative : Bool) (whole : List Char) (fraction : Option (List Char))
    (power : List Char) : Option Leaf :=
  let n : Int := if negative then -(digitsValue whole : Int) else digitsValue whole
  let isWhole := fraction = none ∧ power = [] ∧ ¬(negative ∧ n = 0)
  match if isWhole then Whole.ofInt? n else none with
  | some n => some (.whole n)
  | none => do
    let exponent ← exponent? power
    let x ← (Significand.ofDigits whole (fraction.getD [])).toFloat? exponent
    some (.real (if negative then -x else x))

/-- The number that a JSON numeral stands for. -/
def Leaf.ofNumeral? (cs : List Char) : Option Leaf :=
  let (negative, digits) := match cs with
    | '-' :: rest => (true, rest)
    | _ => (false, cs)
  let whole := digits.takeWhile Char.isDigit
  if whole = [] ∨ (whole.head? = some '0' ∧ whole ≠ ['0']) then none
  else
    (takeFraction? (digits.dropWhile Char.isDigit)).bind fun (fraction, power) =>
      Leaf.ofParts? negative whole fraction power

end RandExpr
