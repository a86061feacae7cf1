import RandExpr.Document.Reader
import RandExpr.Text.Quoted

/-!
# Values

What a generator yields, how it is shown, and how it is written to and read from a document.

## The model

A value is shown in two ways: `Value.display` gives its bare text, which is what repetitions join,
and `Value.inspect` names its shape. A document that holds a value does not name the shape
(`Value.toDocument`), so reading one back (`Value.ofDocument?`) tells the shape from the document:
a whole number that a signed word does not hold becomes a number.
-/

namespace RandExpr

/-- A generated value. -/
inductive Value where
  /-- Nothing. -/
  | null
  /-- A truth value. -/
  | boolean (b : Bool)
  /-- A whole number. -/
  | integer (n : Int64)
  /-- A number with a fraction. -/
  | number (x : Float)
  /-- A text. -/
  | text (s : String)
  /-- Values in order. -/
  | array (items : List Value)

/-- How a number is shown bare: never with a power of ten, and whole numbers without a point. -/
def displayedFloat : Decimal.Layout where
  plain := none
  wholePoint := false
  plusSign := false
  tie := .away
  nan := "NaN"
  infinity := "inf"
  negativeInfinity := "-inf"

/-- How a number is shown with its shape: with a power of ten below 0.0001 and from 17 digits
before the point. -/
def inspectedFloat : Decimal.Layout where
  plain := some (-4, 15)
  wholePoint := true
  plusSign := false
  tie := .away
  nan := "NaN"
  infinity := "inf"
  negativeInfinity := "-inf"

namespace Value

mutual

/-- Whether two values are the same. Different shapes differ; numbers compare as numbers. -/
def same : Value → Value → Bool
  | null, null => true
  | boolean a, boolean b => a == b
  | integer a, integer b => a == b
  | number a, number b => a == b
  | text a, text b => a == b
  | array as, array bs => sameItems as bs
  | _, _ => false

/-- Whether two lists hold the same values. -/
def sameItems : List Value → List Value → Bool
  | [], [] => true
  | a :: as, b :: bs => a.same b && sameItems as bs
  | _, _ => false

end

instance : BEq Value := ⟨same⟩

mutual

/-- The bare text of a value. The items of an array follow one another without a mark between. -/
def display : Value → String
  | null => "null"
  | boolean true => "true"
  | boolean false => "false"
  | integer n => String.ofList (intText n.toInt)
  | number x => displayedFloat.write x
  | text s => s
  | array items => displayItems items

/-- The bare texts of values, one after the other. -/
def displayItems : List Value → String
  | [] => ""
  | v :: vs => v.display ++ displayItems vs

end

mutual

/-- A value shown with its shape. -/
def inspect : Value → String
  | null => "Null"
  | boolean true => "Boolean(true)"
  | boolean false => "Boolean(false)"
  | integer n => "Integer(" ++ String.ofList (intText n.toInt) ++ ")"
  | number x => "Number(" ++ inspectedFloat.write x ++ ")"
  | text s => "String(" ++ Text.quoted s ++ ")"
  | array items => "Array(" ++ Text.listed (inspectItems items) ++ ")"

/-- Values shown with their shapes. -/
def inspectItems : List Value → List String
  | [] => []
  | v :: vs => v.inspect :: inspectItems vs

end

/-- The text, if the value is one. -/
def text? : Value → Option String
  | text s => some s
  | _ => none

/-- The whole number, if the value is one. -/
def integer? : Value → Option Int64
  | integer n => some n
  | _ => none

/-- The number, if the value is one, whole or not. -/
def number? : Value → Option Float
  | integer n => some n.toFloat
  | number x => some x
  | _ => none

/-- The whole number of a signed word. -/
def wholeOfInt64 (n : Int64) : Whole where
  val := n.toInt
  least := n.le_toInt
  greatest := Int.lt_trans n.toInt_lt (by decide)

mutual

/-- The document that a value is written as. -/
def toDocument : Value → Document
  | null => .leaf .null
  | boolean b => .leaf (.boolean b)
  | integer n => .leaf (.whole (wholeOfInt64 n))
  | number x => .leaf (.real x)
  | text s => .leaf (.text s)
  | array items => .array (toDocuments items)

/-- The documents that values are written as. -/
def toDocuments : List Value → List Document
  | [] => []
  | v :: vs => v.toDocument :: toDocuments vs

end

/-- The value that a leaf holds. -/
def ofLeaf : Leaf → Value
  | .null => null
  | .boolean b => boolean b
  | .whole n =>
    if n.val < 0x8000_0000_0000_0000 then integer (Int64.ofInt n.val)
    else number (Float.ofInt n.val)
  | .real x => number x
  | .text s => text s

mutual

/-- The value that a document holds. An object holds none, wherever it stands. -/
def ofDocument? : Document → Option Value
  | .leaf l => some (ofLeaf l)
  | .array items => (ofDocuments? items).map array
  | .object _ => none

/-- The values that documents hold. -/
def ofDocuments? : List Document → Option (List Value)
  | [] => some []
  | d :: ds =>
    match ofDocument? d, ofDocuments? ds with
    | some v, some vs => some (v :: vs)
    | _, _ => none

end

/-- A value as JSON text. -/
def print (v : Value) : String := v.toDocument.print

/-- The value that a JSON text holds. -/
def read? (text : String) : Option Value := (Document.read? text).bind ofDocument?

end Value

end RandExpr
