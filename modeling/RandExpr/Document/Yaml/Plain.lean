import RandExpr.Decimal.Numeral
import RandExpr.Document.Lexer

/-!
# Plain scalars of YAML

What a scalar written without quotes stands for.

## The model

A plain scalar is nothing (`null`, `~` or no text at all), a truth value, a whole number in base
10, 16, 8 or 2, a float, or else a text. Digits behind a needless zero are a text, and so is a
float beyond every float; the names of the infinities, and of what is no number, stand for nothing,
since a document has no such numbers. A whole number that 64 bits do not hold is refused up to 128
bits, and read as a float beyond.
-/

namespace RandExpr.Yaml

/-- The value of a list of digits in a base up to 16. There is at least one. -/
def digits? (base : Nat) (cs : List Char) : Option Nat :=
  if cs = [] then none
  else cs.foldl (fun acc c => acc.bind fun n => (hexValue? c).bind fun d =>
    if d < base then some (base * n + d) else none) (some 0)

/-- Digits behind a needless zero, with or without a sign. -/
def isPadded (cs : List Char) : Bool :=
  match (Decimal.takeSign cs).2 with
  | '0' :: d :: ds => (d :: ds).all Char.isDigit
  | _ => false

/-- A natural number behind a sign, in the base that its first characters name. -/
def based? : List Char → Option Nat
  | '0' :: 'x' :: ds => digits? 16 ds
  | '0' :: 'o' :: ds => digits? 8 ds
  | '0' :: 'b' :: ds => digits? 2 ds
  | ds => digits? 10 ds

/-- The whole number that a plain scalar stands for. -/
def whole? (cs : List Char) : Option Int :=
  if isPadded cs then none
  else
    match cs with
    | '-' :: ds => (based? ds).map fun n => -(n : Int)
    | '+' :: ds => (based? ds).map fun n => (n : Int)
    | ds => (based? ds).map fun n => (n : Int)

/-- The float that a plain scalar stands for, among those that are numbers. -/
def float? (cs : List Char) : Option Float :=
  if isPadded cs then none
  else (Decimal.read? cs).bind fun x => if x.isFinite then some x else none

/-- The names of the floats that are no numbers. -/
def beyondNames : List String :=
  [".inf", ".Inf", ".INF", "+.inf", "+.Inf", "+.INF", "-.inf", "-.Inf", "-.INF",
    ".nan", ".NaN", ".NAN"]

/-- What a plain scalar stands for. -/
def plainLeaf? (cs : List Char) : Option Leaf :=
  let s := String.ofList cs
  if s ∈ ["", "~", "null", "Null", "NULL"] then some .null
  else if s ∈ ["true", "True", "TRUE"] then some (.boolean true)
  else if s ∈ ["false", "False", "FALSE"] then some (.boolean false)
  else if s ∈ beyondNames then some .null
  else
    match whole? cs with
    | some n =>
      match Whole.ofInt? n with
      | some w => some (.whole w)
      | none =>
        if -0x8000_0000_0000_0000_0000_0000_0000_0000 ≤ n ∧
            n < 0x1_0000_0000_0000_0000_0000_0000_0000_0000 then none
        else some (((float? cs).map Leaf.real).getD (.text s))
    | none => some (((float? cs).map Leaf.real).getD (.text s))

end RandExpr.Yaml
