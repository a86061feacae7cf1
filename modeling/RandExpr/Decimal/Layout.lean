import RandExpr.Decimal.Shortest

/-!
# Layouts of decimals

How the shortest decimal of a float is laid out as text.

## The model

A layout (`Layout`) is a record of decisions; `Layout.write` follows them. The exponent of a number
here is that of its first digit, so it is 0 for the numbers from 1 to 10.
-/

namespace RandExpr.Decimal

/-- The decisions of one way to write floats. -/
structure Layout where
  /-- The least and the greatest exponent written without a power of ten; none if every one is. -/
  plain : Option (Int × Int)
  /-- Whether a whole number without a power of ten ends in `.0`. -/
  wholePoint : Bool
  /-- Whether a positive power of ten is written with `+`. -/
  plusSign : Bool
  /-- Which of two equally near shortest decimals is written. -/
  tie : Tie
  /-- The text for no number. -/
  nan : String
  /-- The text for positive infinity. -/
  infinity : String
  /-- The text for negative infinity. -/
  negativeInfinity : String
  deriving DecidableEq, Repr

namespace Layout

/-- Digits with a point after the first `whole` of them, filled up with zeros on either side. -/
def plainText (layout : Layout) (digits : List Char) (whole : Int) : List Char :=
  if whole ≤ 0 then
    '0' :: '.' :: (List.replicate (-whole).toNat '0' ++ digits)
  else if digits.length ≤ whole.toNat then
    digits ++ List.replicate (whole.toNat - digits.length) '0' ++
      (if layout.wholePoint then ['.', '0'] else [])
  else digits.take whole.toNat ++ '.' :: digits.drop whole.toNat

/-- Digits with a point after the first of them, and a power of ten. -/
def poweredText (layout : Layout) (digits : List Char) (exponent : Int) : List Char :=
  digits.take 1 ++ (if digits.length ≤ 1 then [] else '.' :: digits.drop 1) ++
    'e' :: (if exponent < 0 then ['-'] else if layout.plusSign then ['+'] else []) ++
    Nat.toDigits 10 exponent.natAbs

/-- The decimal `d`, laid out. -/
def scaledText (layout : Layout) (d : Scaled) : List Char :=
  let digits := Nat.toDigits 10 d.digits
  let exponent := d.exponent + digits.length - 1
  let isPlain := match layout.plain with
    | none => true
    | some (least, greatest) => decide (least ≤ exponent ∧ exponent ≤ greatest)
  if isPlain then layout.plainText digits (exponent + 1) else layout.poweredText digits exponent

/-- A float as text. -/
def write (layout : Layout) (x : Float) : String :=
  match Binary.ofFloat x with
  | .nan => layout.nan
  | .infinite negative => if negative then layout.negativeInfinity else layout.infinity
  | .finite negative m q =>
    String.ofList ((if negative then ['-'] else []) ++ layout.scaledText (shortest layout.tie m q))

end Layout

end RandExpr.Decimal
