import RandExpr.Document.Yaml.Place
import RandExpr.Document.Yaml.Plain

/-!
# Scalars of YAML

Scalars with and without quotes, over one line or several.

## The model

Where a scalar goes over several lines, the white space around the breaks is folded (`Fold`): one
line feed becomes a space, and of several breaks a leading line feed is dropped, while the
separators stay. Between double quotes a backslash starts an escape, and one at the end of a line
joins the lines; between single quotes two quotes stand for one. A line inside quotes neither starts
nor ends a document. A plain scalar ends before a comment, before a `: `, before a line that is not
indented or marks a document, and, inside a flow collection, before the marks of the collection.
-/

namespace RandExpr.Yaml

/-- White space inside a scalar that has not been written yet. -/
inductive Fold where
  /-- Spaces and tabs within a line, last first. -/
  | spaces (cs : List Char)
  /-- Line breaks: the first, unless a backslash stands before it, and the further ones, last
  first. -/
  | broken (first : Option Char) (further : List Char)
  deriving DecidableEq, Repr

namespace Fold

/-- Nothing. -/
def empty : Fold := spaces []

/-- Whether a fold has a line break. -/
def isBroken : Fold → Bool
  | spaces _ => false
  | broken _ _ => true

/-- A fold with a space or a tab behind it. Indentation is dropped. -/
def addSpace (c : Char) : Fold → Fold
  | spaces cs => spaces (c :: cs)
  | fold => fold

/-- A fold with a line break behind it. -/
def addBreak (c : Char) : Fold → Fold
  | spaces _ => broken (some c) []
  | broken first further => broken first (c :: further)

/-- The text that a fold comes to, last character first. -/
def reversed : Fold → List Char
  | spaces cs => cs
  | broken (some '\n') [] => [' ']
  | broken (some '\n') further => further
  | broken first further => further ++ first.toList

end Fold

/-- A scalar: its text, and whether it stood between quotes. -/
structure Scalar where
  /-- Whether it stood between quotes. -/
  quoted : Bool
  /-- Its text. -/
  chars : List Char
  deriving DecidableEq, Repr

namespace Scalar

/-- The text of a scalar. -/
def text (s : Scalar) : String := String.ofList s.chars

/-- What a scalar stands for. -/
def leaf? (s : Scalar) : Option Leaf :=
  if s.quoted then some (.text s.text) else plainLeaf? s.chars

end Scalar

/-- The characters that end an item of a flow collection. -/
def isFlowMark (c : Char) : Bool := c ∈ [',', '[', ']', '\x7b', '\x7d']

/-- Whether a plain scalar may start with a character, given what lies behind it. -/
def startsPlain (flow : Bool) (c : Char) (behind : List Placed) : Bool :=
  if c = '-' then !gapAhead behind
  else if c = '?' ∨ c = ':' then !flow && !gapAhead behind
  else !isFlowMark c && !isSpace c && !isBreak c &&
    !(c ∈ ['#', '&', '*', '!', '|', '>', '\'', '"', '%', '@', '\x60'])

/-- A plain scalar that has been read. -/
structure PlainScalar where
  /-- Its text. -/
  chars : List Char
  /-- Whether a line break stands behind it. -/
  broken : Bool
  /-- What lies behind it and the white space after it. -/
  rest : List Placed

/-- Reads a plain scalar whose further lines, outside flow collections, are indented by at least
`indent`. The text read is kept last character first. -/
def plainScalar (flow : Bool) (indent : Nat) :
    (text : List Char) → Fold → List Placed → Option PlainScalar
  | text, fold, [] => some ⟨text.reverse, fold.isBroken, []⟩
  | text, fold, p :: ps =>
    if isBreak p.char then plainScalar flow indent text (fold.addBreak p.char) ps
    else if isSpace p.char then
      if p.char = '\t' ∧ fold.isBroken ∧ p.col < indent then none
      else plainScalar flow indent text (fold.addSpace p.char) ps
    else if (fold.isBroken ∧ ((!flow ∧ p.col < indent) ∨ documentMarkAhead (p :: ps))) ∨
        (p.char = '#' ∧ fold ≠ .empty) ∨ (p.char = ':' ∧ gapAhead ps) ∨
        (flow ∧ isFlowMark p.char) then
      some ⟨text.reverse, fold.isBroken, p :: ps⟩
    else if flow ∧ p.char = ':' ∧ (ps.head?.any fun q => isFlowMark q.char || q.char == '?') then
      none
    else plainScalar flow indent (p.char :: (fold.reversed ++ text)) .empty ps

/-- Reads a scalar between single quotes, from behind the first. -/
def singleQuoted : (text : List Char) → Fold → List Placed → Option (Scalar × List Placed)
  | _, _, [] => none
  | text, fold, p :: ps =>
    if documentMarkAhead (p :: ps) then none
    else if p.char = '\'' then
      match ps with
      | [] => some (⟨true, (fold.reversed ++ text).reverse⟩, [])
      | q :: qs =>
        if q.char = '\'' then singleQuoted ('\'' :: (fold.reversed ++ text)) .empty qs
        else some (⟨true, (fold.reversed ++ text).reverse⟩, q :: qs)
    else if isBreak p.char then singleQuoted text (fold.addBreak p.char) ps
    else if isSpace p.char then singleQuoted text (fold.addSpace p.char) ps
    else singleQuoted (p.char :: (fold.reversed ++ text)) .empty ps

/-- The character that a letter behind a backslash stands for. -/
def escaped? (c : Char) : Option Char :=
  match c with
  | '0' => some '\x00'
  | 'a' => some '\x07'
  | 'b' => some '\x08'
  | 't' => some '\t'
  | '\t' => some '\t'
  | 'n' => some '\n'
  | 'v' => some '\x0b'
  | 'f' => some '\x0c'
  | 'r' => some '\r'
  | 'e' => some '\x1b'
  | ' ' => some ' '
  | '"' => some '"'
  | '/' => some '/'
  | '\\' => some '\\'
  | 'N' => some '\u0085'
  | '_' => some '\u00a0'
  | 'L' => some '\u2028'
  | 'P' => some '\u2029'
  | _ => none

/-- How many digits follow a letter behind a backslash that names a code point. -/
def codeDigits? (c : Char) : Option Nat :=
  if c = 'x' then some 2 else if c = 'u' then some 4 else if c = 'U' then some 8 else none

/-- The character of a code point. -/
def charOfCode? (n : Nat) : Option Char :=
  if n < 0xd800 ∨ (0xe000 ≤ n ∧ n ≤ 0x10ffff) then some (Char.ofNat n) else none

/-- How far an escape has been read. -/
inductive Escape where
  /-- No escape is being read. -/
  | none
  /-- A backslash has been read. -/
  | mark
  /-- Of a code point, `missing + 1` digits are still to come. -/
  | code (missing value : Nat)
  deriving DecidableEq, Repr

/-- Reads a scalar between double quotes, from behind the first. -/
def doubleQuoted :
    (text : List Char) → Fold → Escape → List Placed → Option (Scalar × List Placed)
  | _, _, _, [] => none
  | text, fold, .none, p :: ps =>
    if documentMarkAhead (p :: ps) then none
    else if p.char = '"' then some (⟨true, (fold.reversed ++ text).reverse⟩, ps)
    else if p.char = '\\' then doubleQuoted (fold.reversed ++ text) .empty .mark ps
    else if isBreak p.char then doubleQuoted text (fold.addBreak p.char) .none ps
    else if isSpace p.char then doubleQuoted text (fold.addSpace p.char) .none ps
    else doubleQuoted (p.char :: (fold.reversed ++ text)) .empty .none ps
  | text, fold, .mark, p :: ps =>
    if isBreak p.char then doubleQuoted text (.broken none []) .none ps
    else
      match codeDigits? p.char, escaped? p.char with
      | some digits, _ => doubleQuoted text fold (.code (digits - 1) 0) ps
      | none, some c => doubleQuoted (c :: text) fold .none ps
      | none, none => none
  | text, fold, .code missing value, p :: ps =>
    match hexValue? p.char, missing with
    | none, _ => none
    | some d, 0 =>
      match charOfCode? (16 * value + d) with
      | some c => doubleQuoted (c :: text) fold .none ps
      | none => none
    | some d, missing + 1 => doubleQuoted text fold (.code missing (16 * value + d)) ps

end RandExpr.Yaml
