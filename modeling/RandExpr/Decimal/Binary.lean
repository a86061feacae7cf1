/-!
# Binary fractions

The number that a float stands for, read off its 64 bits.

## The model

A finite float is `± m · 2 ^ q` (`Binary.finite`). A mantissa below `2 ^ 52` occurs only with the
least exponent, where the gap between neighbouring floats no longer shrinks.
-/

namespace RandExpr.Decimal

/-- What the bits of a float stand for. -/
inductive Binary where
  /-- No number. -/
  | nan
  /-- An infinity. -/
  | infinite (negative : Bool)
  /-- The number `± mantissa · 2 ^ exponent`. -/
  | finite (negative : Bool) (mantissa : Nat) (exponent : Int)
  deriving DecidableEq, Repr

/-- The least exponent of a float. -/
def leastExponent : Int := -1074

namespace Binary

/-- Reads 64 bits: a sign, eleven bits of exponent and 52 of mantissa. -/
def ofBits (bits : UInt64) : Binary :=
  let n : Nat := bits.toNat
  let negative := decide (0x8000_0000_0000_0000 ≤ n)
  let field : Nat := n / 0x10_0000_0000_0000 % 0x800
  let fraction : Nat := n % 0x10_0000_0000_0000
  if field = 2047 then
    if fraction = 0 then infinite negative else nan
  else if field = 0 then finite negative fraction leastExponent
  else finite negative (0x10_0000_0000_0000 + fraction) ((field : Int) - 1075)

/-- The number that a float stands for. -/
def ofFloat (x : Float) : Binary := ofBits x.toBits

end Binary

end RandExpr.Decimal
