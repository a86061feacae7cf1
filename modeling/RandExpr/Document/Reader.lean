import RandExpr.Document.Lexer

/-!
# Reading documents

A machine that puts the tokens of a JSON text together into a document.

## The model

The machine keeps the arrays and objects that are still open, innermost first (`Frame`), and what
may come next (`Reader`). A key that comes again replaces what stood under it. Arrays and objects
are nested at most `maxNesting` deep.
-/

namespace RandExpr

/-- How deep arrays and objects of a JSON text may be nested. -/
def maxNesting : Nat := 127

/-- An array or an object that a document being read stands in. -/
inductive Frame where
  /-- An array, with the items before this one, last first. -/
  | array (items : List Document)
  /-- An object, with the fields before this one, whose key has been read. -/
  | object (fields : Keyed Document) (key : String)

/-- What may come next. -/
inductive Reader where
  /-- A document. -/
  | value (frames : List Frame)
  /-- The first item of an array, or its end. -/
  | firstItem (frames : List Frame)
  /-- The first key of an object, or its end. -/
  | firstKey (frames : List Frame)
  /-- A further key of an object. -/
  | key (frames : List Frame) (fields : Keyed Document)
  /-- The colon behind a key. -/
  | colon (frames : List Frame) (fields : Keyed Document) (key : String)
  /-- Whatever follows a whole document. -/
  | after (frames : List Frame) (d : Document)

namespace Reader

/-- Reads the first token of a document. -/
def beginValue (frames : List Frame) : Token → Option Reader
  | .leaf l => some (after frames (.leaf l))
  | .openArray => if frames.length < maxNesting then some (firstItem frames) else none
  | .openObject => if frames.length < maxNesting then some (firstKey frames) else none
  | _ => none

/-- Reads the token behind a whole document. -/
def endValue (frames : List Frame) (d : Document) (t : Token) : Option Reader :=
  match frames, t with
  | .array items :: outer, .comma => some (value (.array (d :: items) :: outer))
  | .array items :: outer, .closeArray => some (after outer (.array (d :: items).reverse))
  | .object fields k :: outer, .comma => some (key outer (fields.insert k d))
  | .object fields k :: outer, .closeObject =>
    some (after outer (.object (fields.insert k d).entries))
  | _, _ => none

/-- Reads one token. -/
def step : Reader → Token → Option Reader
  | value frames, t => beginValue frames t
  | firstItem frames, .closeArray => some (after frames (.array []))
  | firstItem frames, t => beginValue (.array [] :: frames) t
  | firstKey frames, .closeObject => some (after frames (.object []))
  | firstKey frames, .leaf (.text k) => some (colon frames .empty k)
  | firstKey _, _ => none
  | key frames fields, .leaf (.text k) => some (colon frames fields k)
  | key _ _, _ => none
  | colon frames fields k, .colon => some (value (.object fields k :: frames))
  | colon _ _ _, _ => none
  | after frames d, t => endValue frames d t

/-- Reads tokens one after the other. -/
def run : Reader → List Token → Option Reader
  | reader, [] => some reader
  | reader, t :: ts => (reader.step t).bind fun next => next.run ts

/-- The document that has been read, when nothing is open any more. -/
def document? : Reader → Option Document
  | after [] d => some d
  | _ => none

end Reader

/-- The document that a JSON text holds. -/
def Document.read? (text : String) : Option Document :=
  (Token.ofText? text).bind fun tokens => (Reader.run (.value []) tokens).bind Reader.document?

end RandExpr
