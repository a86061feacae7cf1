import RandExpr.Expr.Scan
import RandExpr.Expr.Shorthand
import RandExpr.Fault

/-!
# Expressions

An expression names a kind of generator and its arguments, separated by colons: `repeat:3:(0-9)`.

## The model

`Expr.split` takes a canonical text apart; `Expr.parse` expands a shorthand first, so the source
that an expression remembers, and that faults point into, is always the canonical text.
-/

namespace RandExpr

open Text (Span)

/-- An expression taken apart. -/
structure Expr where
  /-- The canonical text. -/
  source : String
  /-- The kind of generator: the text before the first cut. -/
  kind : String
  /-- The arguments: the texts between the later cuts. -/
  args : List String
  /-- Where the kind stands in the source. -/
  kindSpan : Span
  deriving DecidableEq, Repr

/-- The fault of a source whose groups do not fit together. -/
def GroupFault.inSource (source : String) : GroupFault → Fault
  | .stray offset => .strayClose source ⟨offset, 1⟩
  | .unclosed offset => .unclosedGroup source ⟨offset, source.utf8ByteSize - offset⟩

namespace Expr

/-- Takes a canonical text apart. The kind ends at the first cut, or where the text does. -/
def split (source : String) : Except Fault Expr :=
  let kindEnd := (Scan.firstCut {} source.toList).getD source.utf8ByteSize
  match Scan.pieces {} source.toList with
  | .ok (kind, args) => .ok ⟨source, String.ofList kind, args.map String.ofList, ⟨0, kindEnd⟩⟩
  | .error fault => .error (fault.inSource source)

/-- **The pieces that the scan finds are the kind and the arguments**, and the kind ends where the
scan says. -/
theorem split_of_ok {source : String} {kind : List Char} {args : List (List Char)}
    (h : Scan.pieces {} source.toList = .ok (kind, args)) :
    split source = .ok ⟨source, String.ofList kind, args.map String.ofList,
      ⟨0, (String.ofList kind).utf8ByteSize⟩⟩ := by
  have hkindEnd : (Scan.firstCut {} source.toList).getD source.utf8ByteSize =
      (String.ofList kind).utf8ByteSize := by
    rw [Scan.firstCut_of_pieces h]
    by_cases hargs : args = []
    · have hsource : source.toList = kind := by simpa [hargs] using Scan.eq_of_pieces h
      rw [if_pos hargs, Option.getD_none, ← hsource, String.ofList_toList]
    · rw [if_neg hargs, Option.getD_some, ← Text.bytes_toList (String.ofList kind),
        String.toList_ofList]
      exact Nat.zero_add _
  rw [split, h]
  simp only [hkindEnd]

theorem split_of_error {source : String} {fault : GroupFault}
    (h : Scan.pieces {} source.toList = .error fault) :
    split source = .error (fault.inSource source) := by
  rw [split, h]

/-- Takes a text apart, expanding it first if it is a shorthand. -/
def parse (text : String) : Except Fault Expr := split (canonicalText text)

/-- An expression as shown in diagnostics. -/
def inspect (e : Expr) : String :=
  Text.record "Expression"
    [("source", Text.quoted e.source), ("type_name", Text.quoted e.kind),
      ("args", Text.listed (e.args.map Text.quoted)),
      ("type_span", "(" ++ e.kindSpan.start.repr ++ ", " ++ e.kindSpan.length.repr ++ ")")]

end Expr

end RandExpr
