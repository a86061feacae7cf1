import RandExpr.Text.Quoted

/-!
# Notes

What is written to the log while generators are registered, built and drawn from.
-/

namespace RandExpr

open Text (quoted)

/-- How urgent a note is. -/
inductive Level where
  /-- Of interest while following every step. -/
  | trace
  /-- Of interest while looking for a mistake. -/
  | debug
  /-- Of interest to whoever runs the generators. -/
  | warn
  deriving DecidableEq, Repr

/-- Something worth noting. -/
inductive Note where
  /-- A shorthand was expanded to its canonical text. -/
  | expanded (text canonical : String)
  /-- A recipe took the place of another. -/
  | replaced (kind : String)
  /-- A generator was built; `late` is its classification. -/
  | built (kind : String) (args depth : Nat) (late : Bool)
  /-- A value was drawn from the source of a generator. -/
  | pulled (kind : String)
  /-- A value was drawn that comes late, or at once, against the classification. -/
  | shapeChanged (kind : String) (late : Bool) (classifiedLate : Bool)
  deriving DecidableEq, Repr

namespace Note

/-- How urgent a note is. -/
def level : Note → Level
  | expanded .. | replaced .. | built .. => .debug
  | pulled .. => .trace
  | shapeChanged .. => .warn

/-- The wording of a note. -/
def text : Note → String
  | expanded text canonical => "rewrote shorthand " ++ quoted text ++ " to " ++ quoted canonical
  | replaced kind => "replaced factory for generator type " ++ quoted kind
  | built kind args depth late =>
      "built " ++ quoted kind ++ " generator with " ++ args.repr ++ " arg(s) at depth " ++
        depth.repr ++ ", async: " ++ (if late then "true" else "false")
  | pulled kind => "pulled from " ++ quoted kind ++ " generator"
  | shapeChanged kind late classifiedLate =>
      quoted kind ++ " generator produced a " ++ (if late then "deferred" else "immediate") ++
        " value after classifying as " ++ (if classifiedLate then "async" else "sync")

end Note

end RandExpr
