import RandExpr.Recipe.Drawn
import RandExpr.Recipe.Literal
import RandExpr.Recipe.Repeat

/-!
# The built-in catalog

The four kinds that every catalog of the library's own has.

| Kind      | Arguments          | Values                                       |
|-----------|--------------------|----------------------------------------------|
| `number`  | range              | numbers drawn evenly from the range          |
| `char`    | range              | characters drawn evenly from the range       |
| `literal` | text               | the text                                     |
| `repeat`  | count, expression  | as many values of the expression, joined     |
-/

namespace RandExpr.Catalog

/-- The catalog of the kinds `char`, `literal`, `number` and `repeat`. -/
def builtin {W : Type} [Host W] : Catalog W :=
  (((empty.insert "number" Recipe.number).insert "char" Recipe.character).insert
    "literal" Recipe.literal).insert "repeat" Recipe.repeated

end RandExpr.Catalog
