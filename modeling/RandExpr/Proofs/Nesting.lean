import RandExpr.Proofs.Expr.Shorthand
import RandExpr.Proofs.Recipe.Arguments

/-!
# Nested repetitions

How the generator of a repetition in a repetition … around one expression is built.

## The model

`Catalog.Nested` says that a text is a repetition, by counts from the outermost to the innermost,
around another text, the leaf. It follows the text the way building does: each level is parsed, its
kind leads to the recipe of repetitions, its first argument is the count, and its second, without
the parentheses around it, is the text of the next level. `Noted` relates the worlds between which
nothing but notes has been kept.

## What is proved

* `buildAt_repeated` — building one level builds the next, and draws the first value.
* `nested_repetitionText` — there is such a text for all counts that are not too great, around every
  leaf that can stand in parentheses.
-/

namespace RandExpr

variable {W : Type} [Host W]

/-- Nothing has happened but notes. -/
inductive Noted : W → W → Prop where
  /-- Nothing has happened. -/
  | refl (w : W) : Noted w w
  /-- One more note has been kept. -/
  | note {w w' : W} (h : Noted w w') (n : Note) : Noted w (Host.note n w')

theorem Noted.trans {w w₁ w₂ : W} (h : Noted w w₁) (h' : Noted w₁ w₂) : Noted w w₂ := by
  induction h' with
  | refl => exact h
  | note _ n ih => exact ih.note n

namespace Catalog

theorem noted_noteShorthand (text : String) (w : W) : Noted w (noteShorthand text w) := by
  rw [noteShorthand]
  cases Shorthand.classify text with
  | none => exact .refl w
  | some shorthand => exact (Noted.refl w).note _

/-- The text is a repetition by the counts, the outermost first, around the leaf. -/
inductive Nested (catalog : Catalog W) (leaf : String) : List Nat → String → Prop where
  /-- The leaf itself. -/
  | leaf : Nested catalog leaf [] leaf
  /-- One repetition more. -/
  | repeated {count : Nat} {counts : List Nat} {text countText payload : String}
      {more : List String} {e : Expr} (hparse : Expr.parse text = .ok e)
      (hkind : catalog.find? e.kind = some Recipe.repeated)
      (hargs : e.args = countText :: payload :: more)
      (hcount : Recipe.readCount countText = .ok count)
      (hinner : Nested catalog leaf counts (String.ofList (unwrapGroup payload.toList))) :
      Nested catalog leaf (count :: counts) text

/-- One level of repetition is built by building the next, and drawing a first value from the
repetition of it. -/
theorem buildAt_repeated {catalog : Catalog W} {text countText payload : String}
    {more : List String} {count : Nat} {e : Expr} (hparse : Expr.parse text = .ok e)
    (hkind : catalog.find? e.kind = some Recipe.repeated)
    (hargs : e.args = countText :: payload :: more)
    (hcount : Recipe.readCount countText = .ok count) (options : Options) (levels : Nat) (w : W) :
    catalog.buildAt options (levels + 1) text w =
      match catalog.buildAt options levels (String.ofList (unwrapGroup payload.toList))
          (noteShorthand text w) with
      | (.error f, w) => (.error f, w)
      | (.ok g, w) =>
        Generator.ofSource e.kind e.args (maxDepth - levels) (Recipe.repetition count g) w := by
  obtain ⟨r, w', hbuild⟩ : ∃ r w', catalog.buildAt options levels
      (String.ofList (unwrapGroup payload.toList)) (noteShorthand text w) = (r, w') := ⟨_, _, rfl⟩
  have hfirst (setting : Setting) : setting.arg e.args 0 "count" = .ok countText := by
    rw [Setting.arg, hargs]
    rfl
  have hsecond (setting : Setting) : setting.arg e.args 1 "expression" = .ok payload := by
    rw [Setting.arg, hargs]
    rfl
  rw [buildAt_of_parse hparse hkind]
  simp only [Recipe.repeated, hfirst, hsecond, hcount, Plan.ofExcept, Plan.nested, Plan.run,
    hbuild]
  cases r <;> rfl

end Catalog

/-! ### Texts of nested repetitions -/

/-- The text of a repetition by the counts, the outermost first, around a leaf. -/
def repetitionText : (counts : List Nat) → (leaf : String) → String
  | [], leaf => leaf
  | count :: counts, leaf =>
    "repeat:" ++ count.repr ++ ":(" ++ repetitionText counts leaf ++ ")"

theorem repetitionText_cons (count : Nat) (counts : List Nat) (leaf : String) :
    repetitionText (count :: counts) leaf =
      repeatText count.repr (repetitionText counts leaf) := rfl

theorem isDigit_of_mem_repr (n : Nat) : ∀ c ∈ n.repr.toList, c.isDigit = true := by
  intro c hc
  rw [Nat.toList_repr] at hc
  exact isDigit_of_mem_toDigits c hc

theorem isBlank_of_isDigit {c : Char} (h : c.isDigit = true) : Text.isBlank c = false := by
  simp only [Char.isDigit, Bool.and_eq_true, decide_eq_true_eq] at h
  obtain ⟨hlow, hhigh⟩ := h
  have hlow : 48 ≤ c.toNat := UInt32.le_iff_toNat_le.1 hlow
  have hhigh : c.toNat ≤ 57 := UInt32.le_iff_toNat_le.1 hhigh
  simp only [Text.isBlank, Bool.or_eq_false_iff, decide_eq_false_iff_not, beq_eq_false_iff_ne]
  omega

theorem trimBlank_of_isDigit {cs : List Char} (h : ∀ c ∈ cs, c.isDigit = true) :
    Text.trimBlank cs = cs := by
  have drop (cs : List Char) (h : ∀ c ∈ cs, c.isDigit = true) :
      cs.dropWhile Text.isBlank = cs := by
    cases cs with
    | nil => rfl
    | cons c cs =>
      rw [List.dropWhile_cons, isBlank_of_isDigit (h c List.mem_cons_self)]
      rfl
  rw [Text.trimBlank, drop cs h, drop cs.reverse (by simpa using h), List.reverse_reverse]

theorem isCount_of_isDigit {text : String} (hne : text.toList ≠ [])
    (hdigits : ∀ c ∈ text.toList, c.isDigit = true)
    (hle : Decimal.digitsValue text.toList ≤ maxRepeat) :
    Recipe.IsCount text (Decimal.digitsValue text.toList) :=
  ⟨text.toList, hne, hdigits, .inl (trimBlank_of_isDigit hdigits), rfl, hle⟩

theorem readCount_repr {count : Nat} (h : count ≤ maxRepeat) :
    Recipe.readCount count.repr = .ok count := by
  have hne : count.repr.toList ≠ [] := by
    rw [Nat.toList_repr]
    exact Nat.toDigits_ne_nil
  have hvalue : Decimal.digitsValue count.repr.toList = count := by
    rw [Nat.toList_repr, digitsValue_toDigits]
  have hcount := isCount_of_isDigit hne (isDigit_of_mem_repr count) (by rwa [hvalue])
  rw [hvalue] at hcount
  exact Recipe.readCount_eq_ok_iff.2 hcount

theorem closed_repetitionText (counts : List Nat) {leaf : String}
    (hleaf : Scan.Closed leaf.toList) : Scan.Closed (repetitionText counts leaf).toList := by
  induction counts with
  | nil => exact hleaf
  | cons count counts ih =>
    rw [repetitionText_cons]
    exact Scan.closed_repeatText (isDigit_of_mem_repr count) ih

/-- **Every list of counts that are not too great has a nested repetition**, around every leaf that
can stand in parentheses. -/
theorem Catalog.nested_repetitionText {catalog : Catalog W}
    (hrepeat : catalog.find? "repeat" = some Recipe.repeated) {counts : List Nat}
    (hcounts : ∀ count ∈ counts, count ≤ maxRepeat) {leaf : String}
    (hleaf : Scan.Closed leaf.toList) :
    catalog.Nested leaf counts (repetitionText counts leaf) := by
  induction counts with
  | nil => exact .leaf
  | cons count counts ih =>
    have hinner := closed_repetitionText counts hleaf
    have hcount := readCount_repr (hcounts count List.mem_cons_self)
    have hparse := Expr.parse_repeatText (isDigit_of_mem_repr count) hinner
    refine .repeated hparse hrepeat rfl hcount ?_
    rw [ofList_unwrapGroup hinner]
    exact ih fun c hc => hcounts c (List.mem_cons_of_mem _ hc)

end RandExpr
