import RandExpr.Decimal.Numeral
import RandExpr.Expr.Shorthand
import RandExpr.Fault

/-!
# Ranges

Reading the range of numbers or of characters that an argument gives.

## The model

A range of numbers is written as two numerals joined by `-`, each of digits and points behind an
optional `-` (`numerals?`). Without a point on either side its ends are whole numbers that a signed
word holds, any number of zeros before them; with one, its ends are floats, and the greater number
of characters behind the first point of an end tells how many decimal places are drawn. These are
counted in 32 bits, so the count starts anew at `2 ^ 32`. A range of characters is two characters
joined by `-`.
-/

namespace RandExpr

/-- A range of numbers. -/
inductive NumberRange where
  /-- Whole numbers. -/
  | integers (low high : Int64)
  /-- Numbers with decimal places. -/
  | decimals (low high : Float) (places : Nat)
  deriving Repr

/-- A range of characters. -/
structure CharRange where
  /-- The least character. -/
  low : Char
  /-- The greatest character. -/
  high : Char
  deriving DecidableEq, Repr

namespace NumberRange

/-- A numeral at the head of a text, and the rest. -/
def takeNumeral? (cs : List Char) : Option (List Char × List Char) :=
  let (sign, cs) := match cs with
    | '-' :: cs => (['-'], cs)
    | cs => ([], cs)
  match cs.takeWhile isNumeral with
  | [] => none
  | digits => some (sign ++ digits, cs.dropWhile isNumeral)

/-- The two numerals that a text joins with `-`. -/
def numerals? (cs : List Char) : Option (List Char × List Char) :=
  match takeNumeral? cs with
  | some (low, '-' :: rest) =>
    match takeNumeral? rest with
    | some (high, []) => some (low, high)
    | _ => none
  | _ => none

/-- The whole number that a numeral stands for, if a signed word holds it. -/
def integer? (cs : List Char) : Option Int64 :=
  let (negative, digits) := match cs with
    | '-' :: ds => (true, ds)
    | ds => (false, ds)
  if digits ≠ [] ∧ digits.all Char.isDigit then
    let n : Int := if negative then -(Decimal.digitsValue digits : Int)
      else Decimal.digitsValue digits
    if -0x8000_0000_0000_0000 ≤ n ∧ n < 0x8000_0000_0000_0000 then some (Int64.ofInt n)
    else none
  else none

/-- How many characters stand behind the first point of a numeral, counted modulo `2 ^ 32`. -/
def placesOf (cs : List Char) : Nat := ((cs.dropWhile (· != '.')).drop 1).length % 0x1_0000_0000

/-- The range between two numerals. -/
def ofNumerals? (low high : List Char) : Option NumberRange :=
  if low.contains '.' ∨ high.contains '.' then
    match Decimal.read? low, Decimal.read? high with
    | some l, some h => some (decimals l h (max (placesOf low) (placesOf high)))
    | _, _ => none
  else
    match integer? low, integer? high with
    | some l, some h => some (integers l h)
    | _, _ => none

/-- Whether a range ends before it starts. -/
def isEmpty : NumberRange → Bool
  | integers low high => high < low
  | decimals low high _ => high < low

/-- Whether the ends of a range are infinitely far apart, or no numbers. -/
def isTooWide : NumberRange → Bool
  | integers .. => false
  | decimals low high _ => !(high - low).isFinite

/-- Whether a range is written with too many decimal places. -/
def isTooPrecise : NumberRange → Bool
  | integers .. => false
  | decimals _ _ places => places > maxDecimals

/-- Reads a range of numbers that can be drawn from. -/
def read (text : String) : Except Refusal NumberRange :=
  match (numerals? text.toList).bind fun (low, high) => ofNumerals? low high with
  | none => .error (.notNumericRange text)
  | some range =>
    if range.isEmpty then .error (.emptyRange text)
    else if range.isTooWide then .error (.tooWide text)
    else if range.isTooPrecise then .error (.tooPrecise text)
    else .ok range

end NumberRange

/-- Reads a range of characters that can be drawn from. -/
def CharRange.read (text : String) : Except Refusal CharRange :=
  match text.toList with
  | [low, '-', high] => if high < low then .error (.emptyRange text) else .ok ⟨low, high⟩
  | _ => .error (.notCharRange text)

end RandExpr
