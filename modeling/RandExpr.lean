import RandExpr.Catalog.Builtin
import RandExpr.Sample
import RandExpr.Proofs.Delivery.Settling
import RandExpr.Proofs.Delivery.Whole
import RandExpr.Proofs.Form.Groups
import RandExpr.Proofs.Form.Language
import RandExpr.Proofs.Generator.Callbacks
import RandExpr.Proofs.Generator.Calls
import RandExpr.Proofs.Generator.Lines
import RandExpr.Proofs.Generator.Yields
import RandExpr.Proofs.Recipe.Batches
import RandExpr.Proofs.Random.Shares
import RandExpr.Proofs.Recipe.Integers
import RandExpr.Proofs.Recipe.Decimals
import RandExpr.Proofs.Document.Values
import RandExpr.Proofs.Nesting
import RandExpr.Proofs.Nesting.Accounts
import RandExpr.Proofs.Nesting.Depth
import RandExpr.Proofs.Nesting.Raised
import RandExpr.Proofs.Nesting.Samples
import RandExpr.Proofs.Sampling.Agreement
import RandExpr.Proofs.Sampling.Turns
import RandExpr.Proofs.Expr.Parentheses
import RandExpr.Proofs.Expr.Spans
import RandExpr.Proofs.Expr.Pieces
import RandExpr.Proofs.Expr.Shorthand
import RandExpr.Proofs.Expr.Unwrapping
import RandExpr.Proofs.Form.Answers
import RandExpr.Proofs.Form.Multiplier
import RandExpr.Proofs.Form.Options
import RandExpr.Proofs.Form.Quoting
import RandExpr.Proofs.Form.Wrapping
import RandExpr.Proofs.Watching
import RandExpr.Proofs.Watching.Shadows
import RandExpr.Proofs.Watching.Malformed
import RandExpr.Proofs.Expr.Spelling
import RandExpr.Proofs.Expr.Canonical
import RandExpr.Proofs.Expr.Expansion
import RandExpr.Proofs.Form.Literal
import RandExpr.Proofs.Catalog.Registrations
import RandExpr.Proofs.Options
import RandExpr.Proofs.Recipe.Numerals
