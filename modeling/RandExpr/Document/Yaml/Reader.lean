import RandExpr.Document.Yaml.Lexer
import RandExpr.Keyed

/-!
# Reading YAML

The mapping that a YAML text holds.

## The model

The tokens are put together into one document: a collection is read up to the token that ends it,
what is left out stands for nothing, and every key is a scalar, taken for its text. A key that comes
again replaces what stood under it. Block and flow collections, scalars with and without quotes,
comments and one document, marked or not, are read; every other feature is refused. Collections are
nested at most `maxNesting` deep (`room` says how much deeper they may go), and the budget of steps
is bounded by the number of tokens.
-/

namespace RandExpr.Yaml

/-- How deep the collections of a YAML text may be nested. -/
def maxNesting : Nat := 128

/-- What stands for a document that is left out. -/
def absent : Document := .leaf .null

/-- Reads a scalar that is a key, before a token that may follow a key. A key that is left out is
the empty text. -/
def keyText? (follows : Token → Bool) : List Token → Option (String × List Token)
  | .scalar s :: ts => some (s.text, ts)
  | t :: ts => if follows t then some ("", t :: ts) else none
  | [] => none

mutual

/-- Reads a document. Behind a key of a block mapping, the items of a sequence may stand in the
column of the key (`items`). -/
def node : (steps room : Nat) → (items : Bool) → List Token → Option (Document × List Token)
  | 0, _, _, _ => none
  | steps + 1, room, items, ts =>
    match room, ts with
    | _, .scalar s :: ts => s.leaf?.map fun l => (.leaf l, ts)
    | room + 1, .blockSequence :: ts => blockItems steps room [] ts
    | room + 1, .blockMapping :: ts => blockFields steps room .empty ts
    | room + 1, .openSequence :: ts => flowItems steps room true [] ts
    | room + 1, .openMapping :: ts => flowFields steps room true .empty ts
    | room + 1, .dash :: ts => if items then bareItems steps room [] (.dash :: ts) else none
    | _, _ => none

/-- Reads a document, unless it is left out before a token that may follow it. -/
def nodeBefore : (steps room : Nat) → (items : Bool) → (follows : Token → Bool) → List Token →
    Option (Document × List Token)
  | 0, _, _, _, _ => none
  | steps + 1, room, items, follows, ts =>
    if ts.head?.any follows then some (absent, ts) else node steps room items ts

/-- Reads what stands under a key, where a `:` says that something does. -/
def valueBefore : (steps room : Nat) → (items : Bool) → (follows : Token → Bool) → List Token →
    Option (Document × List Token)
  | 0, _, _, _, _ => none
  | steps + 1, room, items, follows, ts =>
    match ts with
    | .value :: ts => nodeBefore steps room items follows ts
    | _ => some (absent, ts)

/-- Reads the items of a block sequence, the ones read before given last first. -/
def blockItems : (steps room : Nat) → List Document → List Token → Option (Document × List Token)
  | 0, _, _, _ => none
  | steps + 1, room, items, ts =>
    match ts with
    | .dash :: ts => do
      let (item, ts) ← nodeBefore steps room false (· ∈ [.dash, .blockEnd]) ts
      blockItems steps room (item :: items) ts
    | .blockEnd :: ts => some (.array items.reverse, ts)
    | _ => none

/-- Reads the items of a sequence in the column of its key, up to whatever is no item. -/
def bareItems : (steps room : Nat) → List Document → List Token → Option (Document × List Token)
  | 0, _, _, _ => none
  | steps + 1, room, items, ts =>
    match ts with
    | .dash :: ts => do
      let (item, ts) ← nodeBefore steps room false (· ∈ [.dash, .key, .value, .blockEnd]) ts
      bareItems steps room (item :: items) ts
    | _ => some (.array items.reverse, ts)

/-- Reads the fields of a block mapping. -/
def blockFields :
    (steps room : Nat) → Keyed Document → List Token → Option (Document × List Token)
  | 0, _, _, _ => none
  | steps + 1, room, fields, ts =>
    match ts with
    | .key :: ts => do
      let (k, ts) ← keyText? (· ∈ [.key, .value, .blockEnd]) ts
      let (d, ts) ← valueBefore steps room true (· ∈ [.key, .value, .blockEnd]) ts
      blockFields steps room (fields.insert k d) ts
    | .blockEnd :: ts => some (.object fields.entries, ts)
    | _ => none

/-- Reads the items between brackets, the ones read before given last first, where `ready` says
that an item may come. A key with what stands under it is an object of its own; where the key is
left out, the token in its place is passed over. -/
def flowItems : (steps room : Nat) → (ready : Bool) → List Document → List Token →
    Option (Document × List Token)
  | 0, _, _, _, _ => none
  | steps + 1, room, ready, items, ts =>
    match ready, room, ts with
    | _, _, .closeSequence :: ts => some (.array items.reverse, ts)
    | false, _, .comma :: ts => flowItems steps room true items ts
    | false, _, _ => none
    | true, 0, .key :: _ => none
    | true, inner + 1, .key :: ts => do
      let (k, ts) ← match ts with
        | .value :: ts | .comma :: ts | .closeSequence :: ts => some ("", ts)
        | ts => keyText? (fun _ => false) ts
      let (d, ts) ← valueBefore steps inner false (· ∈ [.comma, .closeSequence]) ts
      flowItems steps room false (.object [(k, d)] :: items) ts
    | true, _, ts => do
      let (item, ts) ← node steps room false ts
      flowItems steps room false (item :: items) ts

/-- Reads the fields between braces, where `ready` says that a field may come. A key may stand
without a `:`. -/
def flowFields : (steps room : Nat) → (ready : Bool) → Keyed Document → List Token →
    Option (Document × List Token)
  | 0, _, _, _, _ => none
  | steps + 1, room, ready, fields, ts =>
    match ready, ts with
    | _, .closeMapping :: ts => some (.object fields.entries, ts)
    | false, .comma :: ts => flowFields steps room true fields ts
    | true, .key :: ts => do
      let (k, ts) ← keyText? (· ∈ [.value, .comma, .closeMapping]) ts
      let (d, ts) ← valueBefore steps room false (· ∈ [.comma, .closeMapping]) ts
      flowFields steps room false (fields.insert k d) ts
    | true, .scalar s :: ts => flowFields steps room false (fields.insert s.text absent) ts
    | _, _ => none

end

/-- The document that tokens hold, when it is the only one. A document that is left out is an empty
object. -/
def documentOf? (ts : List Token) : Option Document := do
  let read := node (4 * ts.length + 4) maxNesting false
  let (d, rest) ← match ts with
    | [] => some (.object [], [])
    | .documentStart :: ts =>
      match ts with
      | [] | .documentStart :: _ | .documentEnd :: _ => some (.object [], ts)
      | _ => read ts
    | _ => read ts
  if rest.all (· == .documentEnd) then some d else none

/-- The mapping that a YAML text holds. A text without a document, or with an empty one, holds an
empty mapping. -/
def readMapping? (text : String) : Option (Keyed Document) := do
  match ← documentOf? (← Token.ofText? text) with
  | .object fields => some (.ofEntries fields)
  | _ => none

end RandExpr.Yaml
