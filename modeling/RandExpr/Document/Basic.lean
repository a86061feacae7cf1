import RandExpr.Keyed

/-!
# Documents

Data as JSON and YAML texts hold it: options are documents, and values are written as documents.

## The model

A document is a leaf, an array or an object. Whole numbers are kept apart from numbers with a
fraction, and span what 64 bits hold with or without a sign (`Whole`). The fields of an object
stand in increasing order of their keys (`Document.ordered`), as every reader leaves them.
-/

namespace RandExpr

/-- A whole number that 64 bits hold, with or without a sign. -/
structure Whole where
  /-- The number. -/
  val : Int
  /-- It is no less than a signed word. -/
  least : -0x8000_0000_0000_0000 ≤ val
  /-- It is no greater than an unsigned word. -/
  greatest : val < 0x1_0000_0000_0000_0000
  deriving DecidableEq, Repr

/-- A number as a whole number, if 64 bits hold it. -/
def Whole.ofInt? (n : Int) : Option Whole :=
  if h : -0x8000_0000_0000_0000 ≤ n ∧ n < 0x1_0000_0000_0000_0000 then some ⟨n, h.1, h.2⟩ else none

/-- A part of a document without parts of its own. -/
inductive Leaf where
  /-- Nothing. -/
  | null
  /-- A truth value. -/
  | boolean (b : Bool)
  /-- A whole number. -/
  | whole (n : Whole)
  /-- A number with a fraction, or beyond the whole ones. -/
  | real (x : Float)
  /-- A text. -/
  | text (s : String)
  deriving BEq, Repr

/-- A JSON or YAML document. -/
inductive Document where
  /-- A part without parts. -/
  | leaf (l : Leaf)
  /-- Documents in order. -/
  | array (items : List Document)
  /-- Documents under keys. -/
  | object (fields : List (String × Document))

namespace Document

mutual

/-- Whether two documents are the same. Numbers compare as numbers, so no number equals itself
when it is none, and the two zeros are the same. -/
def same : Document → Document → Bool
  | leaf a, leaf b => a == b
  | array as, array bs => sameItems as bs
  | object as, object bs => sameFields as bs
  | _, _ => false

/-- Whether two lists hold the same documents. -/
def sameItems : List Document → List Document → Bool
  | [], [] => true
  | a :: as, b :: bs => a.same b && sameItems as bs
  | _, _ => false

/-- Whether two lists hold the same documents under the same keys. -/
def sameFields : List (String × Document) → List (String × Document) → Bool
  | [], [] => true
  | (k, a) :: as, (l, b) :: bs => k == l && a.same b && sameFields as bs
  | _, _ => false

end

instance : BEq Document := ⟨same⟩

mutual

/-- Whether the fields of every object in a document stand in increasing order of their keys. -/
def ordered : Document → Prop
  | leaf _ => True
  | array items => orderedItems items
  | object fields => Increasing fields ∧ orderedFields fields

/-- Whether every document of a list is ordered. -/
def orderedItems : List Document → Prop
  | [] => True
  | d :: ds => d.ordered ∧ orderedItems ds

/-- Whether every document of a list of fields is ordered. -/
def orderedFields : List (String × Document) → Prop
  | [] => True
  | (_, d) :: fs => d.ordered ∧ orderedFields fs

end

mutual

/-- How deep arrays and objects are nested. -/
def depth : Document → Nat
  | leaf _ => 0
  | array items => depthItems items + 1
  | object fields => depthFields fields + 1

/-- The depth of the deepest document of a list. -/
def depthItems : List Document → Nat
  | [] => 0
  | d :: ds => max d.depth (depthItems ds)

/-- The depth of the deepest document of a list of fields. -/
def depthFields : List (String × Document) → Nat
  | [] => 0
  | (_, d) :: fs => max d.depth (depthFields fs)

end

/-- The text, if the document is one. -/
def text? : Document → Option String
  | leaf (.text s) => some s
  | _ => none

end Document

end RandExpr
