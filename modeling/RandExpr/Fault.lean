import RandExpr.Text.Quoted
import RandExpr.Text.Span

/-!
# Faults

Everything that can go wrong between an expression and its values, as causes. The wording (message,
code, advice, label under the span) is one function each, so that rules and proofs speak of causes
only.
-/

namespace RandExpr

open Text (quoted Span)

/-- The deepest level at which a generator is built. The outermost one is built at level 0. -/
def maxDepth : Nat := 32

/-- The largest count that a repetition takes. -/
def maxRepeat : Nat := 100000

/-- How many decimal places a range of decimals may have. -/
def maxDecimals : Nat := 15

/-- Why a recipe refuses its arguments. -/
inductive Refusal where
  /-- An argument is not there. -/
  | missing (what : String)
  /-- A text is no repeat count. -/
  | notCount (text : String)
  /-- A repeat count exceeds `maxRepeat`. -/
  | countAbove (count : Nat)
  /-- A text is no range of numbers. -/
  | notNumericRange (text : String)
  /-- A text is no range of characters. -/
  | notCharRange (text : String)
  /-- A range ends before it starts. -/
  | emptyRange (text : String)
  /-- The two ends of a range are infinitely far apart. -/
  | tooWide (text : String)
  /-- A range is written with more than `maxDecimals` decimal places. -/
  | tooPrecise (text : String)
  /-- A reason of a recipe's own. -/
  | other (reason : String)
  deriving DecidableEq, Repr

/-- The wording of a refusal. -/
def Refusal.message : Refusal → String
  | missing what => "missing " ++ what
  | notCount text => quoted text ++ " is not a repeat count"
  | countAbove count => "count " ++ count.repr ++ " exceeds the limit of " ++ maxRepeat.repr
  | notNumericRange text => quoted text ++ " is not a numeric range"
  | notCharRange text => quoted text ++ " is not a character range"
  | emptyRange text => "range " ++ quoted text ++ " is empty"
  | tooWide text => "range " ++ quoted text ++ " is too wide"
  | tooPrecise text =>
      "range " ++ quoted text ++ " has more than " ++ maxDecimals.repr ++ " decimal places"
  | other reason => reason

/-- What the text of options was expected to hold. -/
inductive OptionsFormat where
  /-- A JSON object. -/
  | json
  /-- A YAML mapping. -/
  | yaml
  deriving DecidableEq, Repr

/-- What went wrong. -/
inductive Fault where
  /-- No recipe stands in the catalog under the kind at `span` of `source`. -/
  | unknownKind (kind source : String) (span : Span)
  /-- The `)` at `span` of `source` closes nothing. -/
  | strayClose (source : String) (span : Span)
  /-- The group that starts `span` of `source` is never closed. -/
  | unclosedGroup (source : String) (span : Span)
  /-- Generators are nested deeper than `limit`. -/
  | tooDeep (depth limit : Nat)
  /-- The recipe of `kind` refuses its arguments. -/
  | refused (kind : String) (reason : Refusal)
  /-- A source of values failed. -/
  | sourceFailed (reason : String)
  /-- The text of options does not hold what its format asks for. -/
  | badOptions (format : OptionsFormat)
  /-- A value that comes later stood where one was wanted at once. -/
  | notYet (expression : String)
  /-- A draw broke off: no float holds what its fractions would be scaled by. -/
  | brokenOff
  deriving DecidableEq, Repr

namespace Fault

/-- The wording of a fault. -/
def message : Fault → String
  | unknownKind kind _ _ => "Generator \"" ++ kind ++ "\" not found"
  | strayClose _ _ => "Unbalanced parenthesis"
  | unclosedGroup _ _ => "Unclosed group"
  | tooDeep depth limit =>
      "Generator nesting is " ++ depth.repr ++ " levels deep, the limit is " ++ limit.repr
  | refused kind reason => "Invalid argument for \"" ++ kind ++ "\": " ++ reason.message
  | sourceFailed reason => "Producer failed: " ++ reason
  | badOptions .json => "Invalid options: expected a JSON object"
  | badOptions .yaml => "Invalid options: expected a YAML mapping"
  | notYet expression =>
      "Generator \"" ++ expression ++
        "\" produced a deferred value where an immediate one was required"
  | brokenOff => "range overflow"

/-- The code under which a fault is documented, empty for one that breaks a run off. -/
def code : Fault → String
  | unknownKind .. => "genex::unknown_type"
  | strayClose .. => "genex::unbalanced_paren"
  | unclosedGroup .. => "genex::unclosed_group"
  | tooDeep .. => "genex::nesting_too_deep"
  | refused .. => "genex::invalid_argument"
  | sourceFailed .. => "genex::producer"
  | badOptions .. => "genex::invalid_options"
  | notYet .. => "genex::deferred"
  | brokenOff => ""

/-- What to do about a fault. -/
def advice? : Fault → Option String
  | unknownKind .. =>
      some "Register a factory under this name, or check the expression for typos."
  | strayClose .. => some "This `)` has no matching `(` before it."
  | unclosedGroup .. => some "Every `(` opening a nested expression needs a matching `)`."
  | notYet .. => some "Use `sample_async` or await the value returned by `resolve`."
  | tooDeep .. | refused .. | sourceFailed .. | badOptions .. | brokenOff => none

/-- Where a fault points: the source, the span, and what is said under it. -/
def label? : Fault → Option (String × Span × String)
  | unknownKind _ source span =>
      some (source, span, "no factory is registered for this type")
  | strayClose source span => some (source, span, "closes nothing")
  | unclosedGroup source span => some (source, span, "this group is never closed")
  | tooDeep .. | refused .. | sourceFailed .. | badOptions .. | notYet .. | brokenOff => none

end Fault

end RandExpr
