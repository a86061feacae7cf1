/-!
# Decimal numerals

Reading a decimal numeral as the nearest float: `1.5`, `-.5`, `5.`, `+1e-7`, and the names `inf`,
`infinity` and `nan` in any case.

## The model

A numeral is an optional sign, digits with at most one point among, before or after them, and an
optional power of ten. At least one digit stands outside the power of ten. The float is the one
nearest to the exact value; a value beyond every float is infinite.
-/

namespace RandExpr.Decimal

/-- The value of a list of decimal digits. -/
def digitsValue (digits : List Char) : Nat := Nat.ofDigitChars 10 digits 0

/-- A sign at the head of a text (whether it is `-`), and the rest. -/
def takeSign : List Char → Bool × List Char
  | '-' :: cs => (true, cs)
  | '+' :: cs => (false, cs)
  | cs => (false, cs)

/-- A power of ten that is the whole text: nothing, or a mark, a sign and digits. -/
def exponent? : List Char → Option Int
  | [] => some 0
  | c :: cs =>
    if c = 'e' ∨ c = 'E' then
      let (negative, digits) := takeSign cs
      if digits ≠ [] ∧ digits.all Char.isDigit then
        some (if negative then -(digitsValue digits : Int) else digitsValue digits)
      else none
    else none

/-- The digits before and after an optional point, and the rest. -/
def takeDigits (cs : List Char) : List Char × List Char × List Char :=
  match cs.takeWhile Char.isDigit, cs.dropWhile Char.isDigit with
  | whole, '.' :: rest => (whole, rest.takeWhile Char.isDigit, rest.dropWhile Char.isDigit)
  | whole, rest => (whole, [], rest)

/-- The float nearest to `digits · 10 ^ exponent`. Powers of ten beyond the reach of floats are not
worked out. -/
def nearest (digits : Nat) (exponent : Int) : Float :=
  if digits = 0 then 0
  else if exponent > 400 then Float.ofScientific 1 false 400
  else if (digits.log2 : Int) + 3 * exponent < -1200 then 0
  else Float.ofScientific digits (exponent < 0) exponent.natAbs

/-- The magnitude of a numeral without a sign. -/
def magnitude? (cs : List Char) : Option Float :=
  let (whole, fraction, rest) := takeDigits cs
  if whole = [] ∧ fraction = [] then none
  else
    (exponent? rest).map fun e => nearest (digitsValue (whole ++ fraction)) (e - fraction.length)

/-- The magnitude that a name stands for. -/
def named? (cs : List Char) : Option Float :=
  let name := String.ofList (cs.map Char.toLower)
  if name = "inf" ∨ name = "infinity" then some (1 / 0)
  else if name = "nan" then some (0 / 0)
  else none

/-- The float that a numeral stands for. -/
def read? (cs : List Char) : Option Float :=
  let (negative, rest) := takeSign cs
  ((magnitude? rest).or (named? rest)).map fun x => if negative then -x else x

end RandExpr.Decimal
