import RandExpr.Document.Numeral
import RandExpr.Document.Token

/-!
# Reading the tokens of JSON

A machine that reads a JSON text one character at a time and gathers its tokens.

## The model

The machine (`Lexer`) stands between tokens, or inside a word, a numeral or a text; inside a text
it may stand behind a backslash, among the four digits of a code unit, or between the two units of
a surrogate pair. A word or a numeral ends where a character follows that does not belong to it,
and that character is read again from between tokens.
-/

namespace RandExpr

/-- The value of a digit in base 16. -/
def hexValue? (c : Char) : Option Nat :=
  if '0' ≤ c ∧ c ≤ '9' then some (c.toNat - 0x30)
  else if 'a' ≤ c ∧ c ≤ 'f' then some (c.toNat - 0x57)
  else if 'A' ≤ c ∧ c ≤ 'F' then some (c.toNat - 0x37)
  else none

/-- What the machine is reading. Characters of a word, numeral or text are kept last first. -/
inductive Lexer.Mode where
  /-- Nothing. -/
  | between
  /-- A word of small letters. -/
  | word (letters : List Char)
  /-- A number. -/
  | numeral (chars : List Char)
  /-- A text. -/
  | text (chars : List Char)
  /-- The character behind a backslash. -/
  | escape (chars : List Char)
  /-- A code unit of which `missing + 1` digits are still to come; `high` is the first unit of a
  surrogate pair of which this is the second. -/
  | unit (chars : List Char) (high : Option Nat) (value missing : Nat)
  /-- The backslash before the second unit of a surrogate pair. -/
  | lowMark (chars : List Char) (high : Nat)
  /-- The `u` before the second unit of a surrogate pair. -/
  | lowUnit (chars : List Char) (high : Nat)
  deriving DecidableEq, Repr

/-- The machine: what it is reading, and the tokens read, last first. -/
structure Lexer where
  /-- What is being read. -/
  mode : Lexer.Mode := .between
  /-- The tokens read, last first. -/
  tokens : List Token := []

namespace Lexer

/-- Reads a character that stands between tokens. -/
def start (tokens : List Token) (c : Char) : Option Lexer :=
  if c = ' ' ∨ c = '\n' ∨ c = '\r' ∨ c = '\t' then some ⟨.between, tokens⟩
  else if c = '"' then some ⟨.text [], tokens⟩
  else if c = '[' then some ⟨.between, .openArray :: tokens⟩
  else if c = ']' then some ⟨.between, .closeArray :: tokens⟩
  else if c = '\x7b' then some ⟨.between, .openObject :: tokens⟩
  else if c = '\x7d' then some ⟨.between, .closeObject :: tokens⟩
  else if c = ':' then some ⟨.between, .colon :: tokens⟩
  else if c = ',' then some ⟨.between, .comma :: tokens⟩
  else if c = '-' ∨ c.isDigit then some ⟨.numeral [c], tokens⟩
  else if c.isLower then some ⟨.word [c], tokens⟩
  else none

/-- The leaf that a word stands for. -/
def wordLeaf? (letters : List Char) : Option Leaf :=
  if letters = "null".toList then some .null
  else if letters = "true".toList then some (.boolean true)
  else if letters = "false".toList then some (.boolean false)
  else none

/-- The tokens read when the text ends here, last first. -/
def stop (lexer : Lexer) : Option (List Token) :=
  match lexer.mode with
  | .between => some lexer.tokens
  | .word letters => (wordLeaf? letters.reverse).map fun l => .leaf l :: lexer.tokens
  | .numeral chars => (Leaf.ofNumeral? chars.reverse).map fun l => .leaf l :: lexer.tokens
  | _ => none

/-- The character that stands for itself, or for a control character, behind a backslash. -/
def escaped? (c : Char) : Option Char :=
  if c = '"' ∨ c = '\\' ∨ c = '/' then some c
  else if c = 'b' then some '\x08'
  else if c = 'f' then some '\x0c'
  else if c = 'n' then some '\n'
  else if c = 'r' then some '\r'
  else if c = 't' then some '\t'
  else none

/-- What follows a whole code unit: the character it stands for ends up in the text, and the first
unit of a surrogate pair asks for the second. -/
def closeUnit (chars : List Char) (high : Option Nat) (value : Nat) : Option Mode :=
  match high with
  | none =>
    if 0xd800 ≤ value ∧ value < 0xdc00 then some (.lowMark chars value)
    else if 0xdc00 ≤ value ∧ value < 0xe000 then none
    else some (.text (Char.ofNat value :: chars))
  | some h =>
    if 0xdc00 ≤ value ∧ value < 0xe000 then
      some (.text (Char.ofNat (0x10000 + (h - 0xd800) * 0x400 + (value - 0xdc00)) :: chars))
    else none

/-- Reads a character inside a text. -/
def stepText (tokens : List Token) (chars : List Char) (c : Char) : Option Lexer :=
  if c = '"' then some ⟨.between, .leaf (.text (String.ofList chars.reverse)) :: tokens⟩
  else if c = '\\' then some ⟨.escape chars, tokens⟩
  else if c.toNat < 0x20 then none
  else some ⟨.text (c :: chars), tokens⟩

/-- Reads one character. -/
def step (lexer : Lexer) (c : Char) : Option Lexer :=
  match lexer.mode with
  | .between => start lexer.tokens c
  | .word letters =>
    if c.isLower then some { lexer with mode := .word (c :: letters) }
    else lexer.stop.bind fun tokens => start tokens c
  | .numeral chars =>
    if c.isDigit ∨ c = '-' ∨ c = '+' ∨ c = '.' ∨ c = 'e' ∨ c = 'E' then
      some { lexer with mode := .numeral (c :: chars) }
    else lexer.stop.bind fun tokens => start tokens c
  | .text chars => stepText lexer.tokens chars c
  | .escape chars =>
    if c = 'u' then some { lexer with mode := .unit chars none 0 3 }
    else (escaped? c).map fun e => { lexer with mode := .text (e :: chars) }
  | .unit chars high value missing => do
    let digit ← hexValue? c
    let value := 16 * value + digit
    match missing with
    | 0 => (closeUnit chars high value).map fun mode => { lexer with mode }
    | missing + 1 => some { lexer with mode := .unit chars high value missing }
  | .lowMark chars high =>
    if c = '\\' then some { lexer with mode := .lowUnit chars high } else none
  | .lowUnit chars high =>
    if c = 'u' then some { lexer with mode := .unit chars (some high) 0 3 } else none

/-- Reads characters one after the other. -/
def run : Lexer → List Char → Option Lexer
  | lexer, [] => some lexer
  | lexer, c :: cs => (lexer.step c).bind fun next => next.run cs

end Lexer

/-- The tokens of a JSON text. -/
def Token.ofText? (text : String) : Option (List Token) :=
  ((Lexer.run {} text.toList).bind Lexer.stop).map List.reverse

end RandExpr
