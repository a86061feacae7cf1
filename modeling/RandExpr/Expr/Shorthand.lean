import RandExpr.Text.Enclosed
import RandExpr.Text.Quoted

/-!
# Shorthand expressions

Four forms of expression stand for a longer one.

| Shorthand       | Example         | Canonical text          |
|-----------------|-----------------|-------------------------|
| multiplier      | `12*(char:a-z)` | `repeat:12:(char:a-z)`  |
| numeric range   | `-5--1`         | `number:-5--1`          |
| character range | `a-z`           | `char:a-z`              |
| quoted literal  | `"hello"`       | `literal:"hello"`       |

## The model

Each form has a recogniser over the whole text. Digits and letters are those of ASCII. The text
between the parentheses of a multiplier, and between the quotes of a literal, holds no line feed.
A numeric range is recognised one character at a time (`RangeForm`).
-/

namespace RandExpr

open Text

/-- An expression in one of the four short forms. -/
inductive Shorthand where
  /-- `payload`, parentheses included, `count` times. -/
  | multiplier (count payload : String)
  /-- Two numbers joined by `-`. -/
  | numericRange (text : String)
  /-- Two letters joined by `-`. -/
  | charRange (text : String)
  /-- A text between double quotes. -/
  | literal (text : String)
  deriving DecidableEq, Repr

/-- How much of a numeric range has been read. -/
inductive RangeForm where
  /-- Nothing. -/
  | start
  /-- The sign of the lower end. -/
  | lowSign
  /-- The lower end, at least in part. -/
  | low
  /-- The `-` between the ends. -/
  | between
  /-- The sign of the upper end. -/
  | highSign
  /-- The upper end, at least in part. -/
  | high
  /-- Something that starts no numeric range. -/
  | broken
  deriving DecidableEq, Repr

/-- A character of a number in a range: a digit or a point. -/
def isNumeral (c : Char) : Bool := c.isDigit || c == '.'

/-- Reads one character of a numeric range. -/
def RangeForm.step (form : RangeForm) (c : Char) : RangeForm :=
  match form with
  | start => if c = '-' then lowSign else if isNumeral c then low else broken
  | lowSign => if isNumeral c then low else broken
  | low => if c = '-' then between else if isNumeral c then low else broken
  | between => if c = '-' then highSign else if isNumeral c then high else broken
  | highSign | high => if isNumeral c then high else broken
  | broken => broken

/-- Two numbers, each with an optional `-` before it, joined by `-`. -/
def isNumericRange (cs : List Char) : Bool := cs.foldl RangeForm.step .start == .high

/-- Two letters joined by `-`. -/
def isCharRange : List Char → Bool
  | [low, '-', high] => low.isAlpha && high.isAlpha
  | _ => false

/-- A text on one line between two double quotes. -/
def isLiteral (cs : List Char) : Bool :=
  match enclosed? '"' '"' cs with
  | some inner => !inner.contains '\n'
  | none => false

/-- The digits before `*` and the group behind it, when there is nothing else. -/
def multiplier? (cs : List Char) : Option (List Char × List Char) :=
  match cs.takeWhile Char.isDigit, cs.dropWhile Char.isDigit with
  | [], _ => none
  | count, '*' :: payload =>
    match enclosed? '(' ')' payload with
    | some inner => if inner = [] ∨ inner.contains '\n' then none else some (count, payload)
    | none => none
  | _, _ => none

namespace Shorthand

/-- The short form of a text, if it has one. -/
def classify (text : String) : Option Shorthand :=
  let cs := text.toList
  match multiplier? cs with
  | some (count, payload) => some (.multiplier (String.ofList count) (String.ofList payload))
  | none =>
    if isNumericRange cs then some (.numericRange text)
    else if isCharRange cs then some (.charRange text)
    else if isLiteral cs then some (.literal text)
    else none

/-- The text that a shorthand stands for. -/
def canonical : Shorthand → String
  | multiplier count payload => "repeat:" ++ count ++ ":" ++ payload
  | numericRange text => "number:" ++ text
  | charRange text => "char:" ++ text
  | literal text => "literal:" ++ text

/-- A shorthand as shown in diagnostics. -/
def inspect : Shorthand → String
  | multiplier count payload =>
      record "Multiplier" [("count", quoted count), ("payload", quoted payload)]
  | numericRange text => "NumericRange(" ++ quoted text ++ ")"
  | charRange text => "CharRange(" ++ quoted text ++ ")"
  | literal text => "Quoted(" ++ quoted text ++ ")"

end Shorthand

/-- The text that an expression stands for: itself, unless it is a shorthand. -/
def canonicalText (text : String) : String :=
  match Shorthand.classify text with
  | some shorthand => shorthand.canonical
  | none => text

end RandExpr
