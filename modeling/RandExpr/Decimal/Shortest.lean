import RandExpr.Decimal.Binary

/-!
# Shortest decimals

The decimal with the fewest digits that reads back as a given float, and of those the nearest.

## The model

The reals that round to `m · 2 ^ q` form an interval around it, which reaches half way to each
neighbour and contains its ends exactly when `m` is even. For one power of ten after the other,
from above the number downwards, the two neighbours of the number on the grid of that power are
tried (`onGrid?`); the first grid with a hit gives the fewest digits, and of two hits the nearer is
taken. All of it is exact arithmetic on natural numbers.
-/

namespace RandExpr.Decimal

/-- Which of two equally near neighbours is taken. -/
inductive Tie where
  /-- The one with an even last digit. -/
  | toEven
  /-- The one farther from zero. -/
  | away
  deriving DecidableEq, Repr

/-- The number `digits · 10 ^ exponent`. -/
structure Scaled where
  /-- The digits, as a natural number. -/
  digits : Nat
  /-- The power of ten of the last digit. -/
  exponent : Int
  deriving DecidableEq, Repr

/-- The numerator of `base ^ e`. -/
def powNum (base : Nat) (e : Int) : Nat := Nat.pow base e.toNat

/-- The denominator of `base ^ e`. -/
def powDen (base : Nat) (e : Int) : Nat := Nat.pow base (-e).toNat

/-- The interval of reals that round to a float, in units of `2 ^ (q - 2)`. -/
structure Rounding where
  /-- The lower end. -/
  low : Nat
  /-- The float itself. -/
  mid : Nat
  /-- The upper end. -/
  high : Nat
  /-- Whether the ends belong to the interval. -/
  closed : Bool
  deriving DecidableEq, Repr

/-- The interval around `m · 2 ^ q`. The gap below a power of two is half the gap above it. -/
def Rounding.around (m : Nat) (q : Int) : Rounding where
  low := if m = 0x10_0000_0000_0000 ∧ q ≠ leastExponent then 4 * m - 1 else 4 * m - 2
  mid := 4 * m
  high := 4 * m + 2
  closed := m % 2 == 0

/-- Whether `d` steps of `step` lie in the interval scaled by `unit`. -/
def Rounding.holds (r : Rounding) (unit step d : Nat) : Bool :=
  if r.closed then decide (r.low * unit ≤ d * step ∧ d * step ≤ r.high * unit)
  else decide (r.low * unit < d * step ∧ d * step < r.high * unit)

/-- The neighbour of `m · 2 ^ q` among the multiples of `10 ^ k` that reads back as it. -/
def onGrid? (tie : Tie) (m : Nat) (q k : Int) : Option Nat :=
  let r := Rounding.around m q
  let unit := powNum 2 (q - 2) * powDen 10 k
  let step := powNum 10 k * powDen 2 (q - 2)
  let below := r.mid * unit / step
  match r.holds unit step below, r.holds unit step (below + 1) with
  | true, false => some below
  | false, true => some (below + 1)
  | false, false => none
  | true, true =>
    match compare (2 * (r.mid * unit - below * step)) step with
    | .lt => some below
    | .gt => some (below + 1)
    | .eq =>
      match tie with
      | .toEven => some (if below % 2 = 0 then below else below + 1)
      | .away => some (below + 1)

/-- A power of ten above `m · 2 ^ q`, less than a thousand times as large. -/
def gridAbove (m : Nat) (q : Int) : Int := (m.log2 + q + 1) * 30103 / 100000 + 2

/-- The first hit on the grids of `10 ^ k` and the next smaller powers. -/
def search (tie : Tie) (m : Nat) (q : Int) : (grids : Nat) → (k : Int) → Scaled
  | 0, k => ⟨4 * m * (powNum 2 (q - 2) * powDen 10 k) / (powNum 10 k * powDen 2 (q - 2)), k⟩
  | grids + 1, k =>
    match onGrid? tie m q k with
    | some d => ⟨d, k⟩
    | none => search tie m q grids (k - 1)

/-- The shortest decimal that reads back as `m · 2 ^ q`. Seventeen digits always do, so the search
ends long before the grids run out. -/
def shortest (tie : Tie) (m : Nat) (q : Int) : Scaled :=
  if m = 0 then ⟨0, 0⟩ else search tie m q 24 (gridAbove m q)

end RandExpr.Decimal
