/-!
# Places in a YAML text

The characters of a YAML text with the places where they stand.

## The model

A line break is a line feed, a carriage return, both together, or one of the separators U+0085,
U+2028 and U+2029. The first three and U+0085 are all one break, written as a line feed, while the
other two separators keep their character. A line that starts with `---` or `...`, and a gap behind
it, marks where a document starts or ends. Texts with control characters are refused.
-/

namespace RandExpr.Yaml

/-- A character and where it stands. -/
structure Placed where
  /-- The character. -/
  char : Char
  /-- How many bytes stand before it in the text. -/
  offset : Nat
  /-- The number of the line. -/
  line : Nat
  /-- How many characters stand before it on the line. -/
  col : Nat
  deriving DecidableEq, Repr

/-- A space or a tab. -/
def isSpace (c : Char) : Bool := c == ' ' || c == '\t'

/-- The character of a line break in a placed text. -/
def isBreak (c : Char) : Bool := c == '\n' || c == '\u2028' || c == '\u2029'

/-- A character that a YAML text may hold. -/
def isAllowed (c : Char) : Bool :=
  let n := c.toNat
  n == 0x9 || n == 0xa || n == 0xd || n == 0x85 || decide (0x20 ≤ n ∧ n ≤ 0x7e) ||
    (decide (0xa0 ≤ n) && n != 0xfffe && n != 0xffff)

/-- Places characters, of which the first stands at the given place. -/
def place : (offset line col : Nat) → List Char → List Placed
  | _, _, _, [] => []
  | offset, line, col, '\r' :: '\n' :: cs =>
    ⟨'\n', offset, line, col⟩ :: place (offset + 2) (line + 1) 0 cs
  | offset, line, col, c :: cs =>
    let next := offset + c.utf8Size
    if c = '\r' ∨ c = '\u0085' then ⟨'\n', offset, line, col⟩ :: place next (line + 1) 0 cs
    else if isBreak c then ⟨c, offset, line, col⟩ :: place next (line + 1) 0 cs
    else ⟨c, offset, line, col⟩ :: place next line (col + 1) cs

/-- Whether a space, a tab, a line break or the end lies ahead. -/
def gapAhead : List Placed → Bool
  | [] => true
  | p :: _ => isSpace p.char || isBreak p.char

/-- Whether a line lies ahead that starts with a character three times and a gap. -/
def markAhead (c : Char) : List Placed → Bool
  | p :: q :: r :: rest =>
    p.col == 0 && p.char == c && q.char == c && r.char == c && gapAhead rest
  | _ => false

/-- Whether a line lies ahead that starts or ends a document. -/
def documentMarkAhead (ps : List Placed) : Bool := markAhead '-' ps || markAhead '.' ps

end RandExpr.Yaml
