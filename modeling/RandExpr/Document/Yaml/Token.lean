import RandExpr.Document.Yaml.Scalar

/-!
# Tokens of YAML

What stands between the text of a YAML document and the document itself.
-/

namespace RandExpr.Yaml

/-- A piece of a YAML text, or the start or end of a collection that the columns tell. -/
inductive Token where
  /-- The mark `---`. -/
  | documentStart
  /-- The mark `...`. -/
  | documentEnd
  /-- A block sequence starts here. -/
  | blockSequence
  /-- A block mapping starts here. -/
  | blockMapping
  /-- The innermost block collection ends here. -/
  | blockEnd
  /-- `[`. -/
  | openSequence
  /-- `]`. -/
  | closeSequence
  /-- An opening brace. -/
  | openMapping
  /-- A closing brace. -/
  | closeMapping
  /-- The `-` before an item of a block sequence. -/
  | dash
  /-- The `,` behind an item of a flow collection. -/
  | comma
  /-- A key follows. -/
  | key
  /-- The `:` before what stands under a key. -/
  | value
  /-- A scalar. -/
  | scalar (s : Scalar)
  deriving DecidableEq, Repr

end RandExpr.Yaml
