import RandExpr.Catalog
import RandExpr.Proofs.Expr.Parentheses
import RandExpr.Proofs.Expr.Pieces
import Mathlib.Data.String.Basic

/-!
# What faults point at

Where the spans lie that are recorded while an expression is taken apart, and what stands there.

## The model

Offsets are counted in bytes while a scan goes on character by character. A text stands under a span
(`Text.Span.Covers`) if the span starts and ends between characters of the source, and what it cuts
out is the text. A fault points into a source (`Fault.PointsInto`) if what it complains about stands
under its span.

## What is proved

* `covers_of_toList` — sizes of the parts of a text are offsets between its characters.
* `Expr.covers_kindSpan` — the kind stands under its span.
* `Expr.pointsInto_of_split`, `pointsInto_of_unknown` — so every fault that is found in an
  expression points into its source.
-/

namespace RandExpr

open Text (Span bytes)

/-! ### Texts under spans -/

/-- The text stands under the span of the source. -/
structure Text.Span.Covers (span : Span) (source under : String) : Prop where
  /-- The span starts between two characters, or at an end of the source. -/
  isValid_start : String.Pos.Raw.IsValid source ⟨span.start⟩
  /-- So it ends. -/
  isValid_end : String.Pos.Raw.IsValid source ⟨span.start + span.length⟩
  /-- What is between is the text. -/
  extract_eq : String.Pos.Raw.extract source ⟨span.start⟩ ⟨span.start + span.length⟩ = under

theorem Text.bytes_eq_utf8Len (cs : List Char) : bytes cs = String.utf8Len cs := by
  rw [← String.utf8ByteSize_ofList, ← bytes_toList, String.toList_ofList]

theorem isValid_bytes {source : String} {head rest : List Char}
    (h : source.toList = head ++ rest) : String.Pos.Raw.IsValid source ⟨bytes head⟩ := by
  rw [String.Pos.Raw.isValid_iff_exists_append]
  refine ⟨String.ofList head, String.ofList rest, ?_, ?_⟩
  · rw [← String.ofList_append, ← h, String.ofList_toList]
  · rw [String.rawEndPos, String.utf8ByteSize_ofList, Text.bytes_eq_utf8Len]

/-- **A part of a text stands under the span that is as far from the start as the characters before
it are large, and as long as the part is.** -/
theorem covers_of_toList {source : String} {before under after : List Char}
    (h : source.toList = before ++ under ++ after) :
    Span.Covers ⟨bytes before, bytes under⟩ source (String.ofList under) where
  isValid_start := isValid_bytes (h.trans (List.append_assoc ..))
  isValid_end := by
    have hend := isValid_bytes h
    rw [Text.bytes_append] at hend
    exact hend
  extract_eq := by
    have hsource : source = String.ofList (before ++ under ++ after) := by
      rw [← h, String.ofList_toList]
    simp only [Text.bytes_eq_utf8Len]
    rw [hsource]
    exact String.extract_of_valid before under after

/-! ### Faults -/

variable {W : Type}

/-- The fault points into the source, at what it complains about. -/
inductive Fault.PointsInto (catalog : Catalog W) (source : String) : Fault → Prop where
  /-- A kind that is not in the catalog stands under the span. -/
  | unknownKind {kind : String} {span : Span} (hkind : catalog.find? kind = none)
      (hspan : span.Covers source kind) : PointsInto catalog source (.unknownKind kind source span)
  /-- A `)` stands under the span. -/
  | strayClose {span : Span} (hspan : span.Covers source ")") :
      PointsInto catalog source (.strayClose source span)
  /-- A text with a `(` before it stands under the span, up to the end of the source. -/
  | unclosedGroup {span : Span} {rest : String} (hspan : span.Covers source ("(" ++ rest))
      (hend : span.start + span.length = source.utf8ByteSize) :
      PointsInto catalog source (.unclosedGroup source span)

namespace Expr

/-- The kind of a text that is taken apart stands under its span. -/
theorem covers_kindSpan {source : String} {e : Expr} (h : split source = .ok e) :
    e.source = source ∧ e.kindSpan.Covers source e.kind := by
  obtain ⟨kind, args, hpieces, rfl⟩ := split_eq_ok_iff.1 h
  have hcovers := @covers_of_toList source [] kind _ (Scan.eq_of_pieces hpieces)
  rw [Text.bytes_nil, Text.bytes_eq_utf8Len, ← String.utf8ByteSize_ofList] at hcovers
  exact ⟨rfl, hcovers⟩

theorem pointsInto_of_unknown {catalog : Catalog W} {text : String} {e : Expr}
    (hparse : parse text = .ok e) (hkind : catalog.find? e.kind = none) :
    Fault.PointsInto catalog (canonicalText text) (.unknownKind e.kind e.source e.kindSpan) := by
  obtain ⟨hsource, hcovers⟩ := covers_kindSpan hparse
  rw [hsource]
  exact .unknownKind hkind hcovers

/-- A stray `)` is pointed at, and so is the rest of the source behind a `(` that is never
closed. -/
theorem pointsInto_of_split (catalog : Catalog W) {source : String} {f : Fault}
    (h : split source = .error f) : f.PointsInto catalog source := by
  have hverdict := Scan.verdict {} source.toList
  generalize hpieces : Scan.pieces {} source.toList = result at hverdict
  cases hverdict with
  | @stray before s hhead hrun hmove =>
    obtain ⟨after, hsource⟩ := hhead
    obtain rfl := Except.error.inj ((split_of_error hpieces).symm.trans h)
    have hcovers := covers_of_toList hsource.symm
    rw [← (Scan.standing_run hrun).pos] at hcovers
    exact .strayClose hcovers
  | @unclosed s g gs hrun hgroups =>
    obtain ⟨before, ⟨⟨⟨⟨after, hsource⟩, -⟩, -⟩, -⟩, rfl⟩ := Scan.last_isUnclosed hrun hgroups
    obtain rfl := Except.error.inj ((split_of_error hpieces).symm.trans h)
    have hrest : source.toList = before ++ '(' :: after ++ [] := by
      rw [← hsource]
      simp
    have hsize : source.utf8ByteSize = bytes before + bytes ('(' :: after) := by
      rw [← Text.bytes_toList, hrest, List.append_nil, Text.bytes_append]
    have hcovers := covers_of_toList hrest
    have hgroup : String.ofList ('(' :: after) = "(" ++ String.ofList after := by
      rw [← List.singleton_append, String.ofList_append]
    rw [hgroup] at hcovers
    rw [GroupFault.inSource, hsize, Nat.add_sub_cancel_left]
    exact .unclosedGroup hcovers hsize.symm
  | pieces hrun hgroups p =>
    rw [split_of_ok hpieces] at h
    cases h

end Expr

end RandExpr
