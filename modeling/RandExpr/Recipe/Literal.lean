import RandExpr.Catalog
import RandExpr.Text.Enclosed

/-!
# Literals

The kind `literal`, whose value is always the same text: its arguments joined again with colons,
without the pair of double quotes around them if there is one.
-/

namespace RandExpr.Recipe

variable {W : Type}

/-- A source that yields one value again and again. -/
def constant (v : Value) : Source W where
  State := Unit
  state := ()
  pull := fun s w => (.ok (.now v), s, w)

/-- The text of a literal with the given arguments. -/
def literalText (args : List String) : String :=
  let joined := ":".intercalate args
  match Text.enclosed? '"' '"' joined.toList with
  | some inner => String.ofList inner
  | none => joined

/-- One text again and again. -/
def literal : Recipe W := fun _ args => .yield (constant (.text (literalText args)))

end RandExpr.Recipe
