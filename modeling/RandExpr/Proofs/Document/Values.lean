import RandExpr.Proofs.Document.Reading
import RandExpr.Value

/-!
# Reading back values

A value without numbers is read back from its JSON text.

## The model

`Value.read?` reads a value from a JSON text. The text does not name the shapes of values, so they
must be told from what stands in it. Numbers aside (`Value.Exact`), they can be: a value of each
shape is written as a leaf, or an array, of a kind of its own.

## What is proved

* `Value.Exact.ofDocument?_toDocument` — the shapes are told from the document that a value is
  written as.
* `Value.print_reversible` — values without numbers, nested no deeper than the reader allows, are
  read back from their texts, and no two of them have the same text.
-/

namespace RandExpr

namespace Value

/-- There are no numbers with a fraction in the value, and arrays are nested at most so many levels
deep. -/
inductive Exact : (levels : Nat) → Value → Prop where
  /-- Nothing. -/
  | null {levels : Nat} : Exact levels .null
  /-- A truth value. -/
  | boolean {levels : Nat} (b : Bool) : Exact levels (.boolean b)
  /-- A whole number. -/
  | integer {levels : Nat} (n : Int64) : Exact levels (.integer n)
  /-- A text. -/
  | text {levels : Nat} (s : String) : Exact levels (.text s)
  /-- An array of such values. -/
  | array {levels : Nat} {items : List Value} (h : ∀ v ∈ items, Exact levels v) :
      Exact (levels + 1) (.array items)

theorem toDocuments_eq_map (items : List Value) : toDocuments items = items.map toDocument := by
  induction items with
  | nil => rfl
  | cons v vs ih => rw [toDocuments, ih, List.map_cons]

theorem ofDocuments?_map_toDocument {items : List Value}
    (h : ∀ v ∈ items, ofDocument? v.toDocument = some v) :
    ofDocuments? (items.map toDocument) = some items := by
  induction items with
  | nil => rfl
  | cons v vs ih =>
    have hv := h v List.mem_cons_self
    have hvs := ih fun u hu => h u (List.mem_cons_of_mem _ hu)
    rw [List.map_cons, ofDocuments?, hv, hvs]

theorem ofLeaf_wholeOfInt64 (n : Int64) : ofLeaf (.whole (wholeOfInt64 n)) = integer n := by
  have hlt : n.toInt < 0x8000_0000_0000_0000 := n.toInt_lt
  show (if n.toInt < 0x8000_0000_0000_0000 then integer (Int64.ofInt n.toInt) else _) = _
  rw [if_pos hlt, Int64.ofInt_toInt]

namespace Exact

variable {levels : Nat} {v : Value}

theorem exact_toDocument (h : v.Exact levels) : v.toDocument.Exact levels := by
  induction h with
  | null | boolean | integer | text => exact .leaf trivial
  | array _ ih =>
    rw [toDocument, toDocuments_eq_map]
    apply Document.Exact.array
    intro d hd
    obtain ⟨u, hu, rfl⟩ := List.mem_map.1 hd
    exact ih u hu

/-- **The shapes are told from the document.** -/
theorem ofDocument?_toDocument (h : v.Exact levels) : ofDocument? v.toDocument = some v := by
  induction h with
  | null | boolean | text => rfl
  | integer n => exact congrArg some (ofLeaf_wholeOfInt64 n)
  | @array levels items _ ih =>
    rw [toDocument, toDocuments_eq_map, ofDocument?, ofDocuments?_map_toDocument ih]
    rfl

theorem read?_print_eq_some (h : v.Exact maxNesting) : read? v.print = some v := by
  rw [read?, print, h.exact_toDocument.read?_print]
  exact h.ofDocument?_toDocument

end Exact

/-- **Values without numbers are read back from their texts**, and no two of them have the same
text. -/
theorem print_reversible :
    (∀ v : Value, v.Exact maxNesting → read? v.print = some v) ∧
      ∀ v w : Value, v.Exact maxNesting → w.Exact maxNesting → v ≠ w → v.print ≠ w.print := by
  constructor
  · exact fun v h => h.read?_print_eq_some
  · intro v w hv hw hne hprint
    have hread : some v = some w := by
      rw [← hv.read?_print_eq_some, hprint, hw.read?_print_eq_some]
    exact hne (Option.some.inj hread)

/-- A value with arrays around it. -/
def wrapped (v : Value) : Nat → Value
  | 0 => v
  | n + 1 => array [wrapped v n]

theorem Exact.wrapped {levels : Nat} {v : Value} (h : v.Exact levels) (n : Nat) :
    (v.wrapped n).Exact (levels + n) := by
  induction n with
  | zero => exact h
  | succ n ih =>
    apply Exact.array
    intro u hu
    obtain rfl := List.mem_singleton.1 hu
    exact ih

/-- The least and the greatest whole number, texts with marks and control characters, a text that
reads like nothing, as deep as the reader allows; and a whole number beside the text of its
digits. -/
theorem print_reversible_deep :
    let v : Value := array [null, boolean true, integer Int64.minValue, integer Int64.maxValue,
      text "\"\\/\x00\x1f\x7f\n\r\t", text "null", text "ä𝄞", array []]
    maxNesting = 127 ∧ read? (v.wrapped 125).print = some (v.wrapped 125) ∧
      (array [integer 1]).print ≠ (array [text "1"]).print := by
  intro v
  have hitems : v.Exact 2 := by
    apply Exact.array
    intro u hu
    simp only [List.mem_cons, List.not_mem_nil, or_false] at hu
    rcases hu with rfl | rfl | rfl | rfl | rfl | rfl | rfl | rfl
    · exact .null
    · exact .boolean true
    · exact .integer _
    · exact .integer _
    · exact .text _
    · exact .text _
    · exact .text _
    · exact .array nofun
  have hshallow (u : Value) (h : u.Exact 126) : (array [u]).Exact maxNesting := by
    apply Exact.array
    intro w hw
    obtain rfl := List.mem_singleton.1 hw
    exact h
  refine ⟨rfl, print_reversible.1 (v.wrapped 125) (hitems.wrapped 125), ?_⟩
  exact print_reversible.2 (array [integer 1]) (array [text "1"]) (hshallow _ (.integer 1))
    (hshallow _ (.text "1")) nofun

end Value

end RandExpr
