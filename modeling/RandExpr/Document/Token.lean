import RandExpr.Decimal.Layout
import RandExpr.Document.Basic
import RandExpr.Text.Quoted

/-!
# Tokens of JSON

The marks and leaves that a JSON text is made of, how each is written, and the tokens of a
document.

## The model

`Document.tokens` lays a document out in tokens and `Document.print` writes them one after the
other without spaces. A text escapes the double quote, the backslash and the characters below
U+0020, and nothing else.
-/

namespace RandExpr

/-- A mark or a leaf of a JSON text. -/
inductive Token where
  /-- The mark before the items of an array. -/
  | openArray
  /-- The mark behind the items of an array. -/
  | closeArray
  /-- The mark before the fields of an object. -/
  | openObject
  /-- The mark behind the fields of an object. -/
  | closeObject
  /-- The mark between a key and its document. -/
  | colon
  /-- The mark between items or fields. -/
  | comma
  /-- A leaf. -/
  | leaf (l : Leaf)

/-- How floats are written in JSON: with a fraction from 0.00001 up to 16 digits before the point,
with a signed power of ten beyond. -/
def jsonFloat : Decimal.Layout where
  plain := some (-5, 15)
  wholePoint := true
  plusSign := true
  tie := .toEven
  nan := "null"
  infinity := "null"
  negativeInfinity := "null"

/-- The digits of an integer, with `-` before a negative one. -/
def intText : Int → List Char
  | .ofNat n => Nat.toDigits 10 n
  | .negSucc n => '-' :: Nat.toDigits 10 (n + 1)

/-- One character as it stands in a JSON text. -/
def jsonChar (c : Char) : List Char :=
  if c = '"' then ['\\', '"']
  else if c = '\\' then ['\\', '\\']
  else if c = '\x08' then ['\\', 'b']
  else if c = '\x0c' then ['\\', 'f']
  else if c = '\n' then ['\\', 'n']
  else if c = '\r' then ['\\', 'r']
  else if c = '\t' then ['\\', 't']
  else if c.toNat < 0x20 then
    ['\\', 'u', '0', '0', Nat.digitChar (c.toNat / 16), Nat.digitChar (c.toNat % 16)]
  else [c]

/-- A leaf as JSON text. -/
def Leaf.chars : Leaf → List Char
  | null => "null".toList
  | boolean true => "true".toList
  | boolean false => "false".toList
  | whole n => intText n.val
  | real x => (jsonFloat.write x).toList
  | text s => '"' :: (s.toList.flatMap jsonChar ++ ['"'])

/-- A token as JSON text. -/
def Token.chars : Token → List Char
  | openArray => ['[']
  | closeArray => [']']
  | openObject => ['\x7b']
  | closeObject => ['\x7d']
  | colon => [':']
  | comma => [',']
  | leaf l => l.chars

namespace Document

mutual

/-- The tokens of a document. -/
def tokens : Document → List Token
  | leaf l => [.leaf l]
  | array items => .openArray :: (itemTokens items ++ [.closeArray])
  | object fields => .openObject :: (fieldTokens fields ++ [.closeObject])

/-- The tokens of the items of an array. -/
def itemTokens : List Document → List Token
  | [] => []
  | d :: [] => d.tokens
  | d :: ds => d.tokens ++ .comma :: itemTokens ds

/-- The tokens of the fields of an object. -/
def fieldTokens : List (String × Document) → List Token
  | [] => []
  | (k, d) :: [] => .leaf (.text k) :: .colon :: d.tokens
  | (k, d) :: fs => .leaf (.text k) :: .colon :: (d.tokens ++ .comma :: fieldTokens fs)

end

/-- A document as JSON text, without spaces. -/
def print (d : Document) : String := String.ofList (d.tokens.flatMap Token.chars)

end Document

end RandExpr
