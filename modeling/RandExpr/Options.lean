import RandExpr.Document.Reader
import RandExpr.Document.Yaml.Reader
import RandExpr.Fault

/-!
# Options

Settings handed to every recipe of a generator: documents under keys. Nothing here reads them but
the seed, which is a whole number that an unsigned word holds.
-/

namespace RandExpr

/-- Documents under keys. -/
structure Options where
  /-- The keys and their documents. -/
  fields : Keyed Document := {}

namespace Options

/-- No settings. -/
def empty : Options := {}

/-- Options with a document under a key, replacing what was there. -/
def insert (options : Options) (key : String) (d : Document) : Options :=
  ⟨options.fields.insert key d⟩

/-- The document under a key. -/
def find? (options : Options) (key : String) : Option Document := options.fields.find? key

/-- Whether there are no settings. -/
def isEmpty (options : Options) : Bool := options.fields.entries.isEmpty

/-- The seed of the generators, if the options set one. -/
def seed? (options : Options) : Option UInt64 :=
  match options.find? "seed" with
  | some (.leaf (.whole n)) => if 0 ≤ n.val then some (UInt64.ofNat n.val.toNat) else none
  | _ => none

/-- The object that options are written as. -/
def toDocument (options : Options) : Document := .object options.fields.entries

/-- Options as JSON text. -/
def print (options : Options) : String := options.toDocument.print

instance : BEq Options := ⟨fun a b => a.toDocument == b.toDocument⟩

/-- The options that an object holds. -/
def ofDocument? : Document → Option Options
  | .object fields => some ⟨.ofEntries fields⟩
  | _ => none

/-- Reads options from the text of a JSON object. -/
def ofJson (text : String) : Except Fault Options :=
  match (Document.read? text).bind ofDocument? with
  | some options => .ok options
  | none => .error (.badOptions .json)

/-- Reads options from the text of a YAML mapping. A text that holds no document holds no
settings. -/
def ofYaml (text : String) : Except Fault Options :=
  match Yaml.readMapping? text with
  | some fields => .ok ⟨fields⟩
  | none => .error (.badOptions .yaml)

end Options

end RandExpr
