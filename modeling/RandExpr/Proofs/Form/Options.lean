import RandExpr.Proofs.Form.Answers

/-!
# What options do

Options reach every recipe, however deep it is nested, but the built-in recipes look at the seed
only.

## The model

Two runs are compared. A recipe looks at the seed only (`Recipe.ReadsSeed`) if its plan is the same
for all options with the same seed, or with none. In one and the same world such recipes build one
and the same generator. In different worlds, and with options that have nothing in common, what is
built is known from the form of the expression (`Form.Built`), in which the options have a say only
in the stream that the values are drawn from.

## What is proved

* `buildAt_of_readsSeed` — a catalog of recipes that look at the seed only builds the same.
* `readsSeed_builtin` — the built-in recipes do.
* `Form.Built.alike` — two runs for one expression come to the same but for the values.
* `build_of_options` — so options decide which values are drawn, by their seed, and nothing else.
-/

namespace RandExpr

open Catalog (builtin)

variable {W : Type} [Host W]

/-! ### Recipes that look at the seed only -/

/-- With the same seed, or with none, the plan is the same. -/
def Recipe.ReadsSeed (recipe : Recipe W) : Prop :=
  ∀ (kind : String) (kinds : List String) (depth : Nat) (args : List String)
    (options₁ options₂ : Options), options₁.seed? = options₂.seed? →
      recipe ⟨kind, options₁, kinds, depth⟩ args = recipe ⟨kind, options₂, kinds, depth⟩ args

namespace Catalog

variable {catalog : Catalog W} {options₁ options₂ : Options}

/-- **A catalog of recipes that look at the seed only builds the same with the same seed.** -/
theorem buildAt_of_readsSeed
    (h : ∀ kind recipe, catalog.find? kind = some recipe → recipe.ReadsSeed)
    (hseed : options₁.seed? = options₂.seed?) (levels : Nat) :
    catalog.buildAt options₁ levels = catalog.buildAt options₂ levels := by
  induction levels with
  | zero =>
    funext text w
    rw [buildAt, buildAt]
  | succ levels ih =>
    funext text w
    cases hparse : Expr.parse text with
    | error f => rw [buildAt_of_fault hparse, buildAt_of_fault hparse]
    | ok e =>
      cases hkind : catalog.find? e.kind with
      | none => rw [buildAt_of_unknown hparse hkind, buildAt_of_unknown hparse hkind]
      | some recipe =>
        have hplan := h e.kind recipe hkind e.kind catalog.kinds (maxDepth - levels) e.args
          options₁ options₂ hseed
        rw [buildAt_of_parse hparse hkind, buildAt_of_parse hparse hkind, hplan, ih]

end Catalog

namespace Recipe

theorem readsSeed_ranged {α : Type} (reader : String → Except Refusal α)
    (source : Random.Words → α → Source W) : (ranged reader source).ReadsSeed := by
  intro kind kinds depth args options₁ options₂ hseed
  have hwords (rest : Random.Words → Plan W) :
      withWords options₁ rest = withWords options₂ rest := by
    rw [withWords, withWords, hseed]
  simp only [ranged, Setting.arg, hwords]

omit [Host W] in
theorem readsSeed_literal : (literal : Recipe W).ReadsSeed := by
  intro kind kinds depth args options₁ options₂ _
  rw [literal, literal]

theorem readsSeed_repeated : (repeated : Recipe W).ReadsSeed := by
  intro kind kinds depth args options₁ options₂ _
  simp only [repeated, Setting.arg]

end Recipe

theorem Catalog.readsSeed_builtin {kind : String} {recipe : Recipe W}
    (hkind : builtin.find? kind = some recipe) : recipe.ReadsSeed := by
  by_cases hnumber : kind = "number"
  · rw [hnumber, find?_builtin_number, Recipe.number_eq_ranged] at hkind
    obtain rfl := Option.some.inj hkind
    exact Recipe.readsSeed_ranged _ _
  by_cases hchar : kind = "char"
  · rw [hchar, find?_builtin_char, Recipe.character_eq_ranged] at hkind
    obtain rfl := Option.some.inj hkind
    exact Recipe.readsSeed_ranged _ _
  by_cases hliteral : kind = "literal"
  · rw [hliteral, find?_builtin_literal] at hkind
    obtain rfl := Option.some.inj hkind
    exact Recipe.readsSeed_literal
  by_cases hrepeat : kind = "repeat"
  · rw [hrepeat, find?_builtin_repeat] at hkind
    obtain rfl := Option.some.inj hkind
    exact Recipe.readsSeed_repeated
  · rw [find?_builtin_other hnumber hchar hliteral hrepeat] at hkind
    cases hkind

/-! ### Two runs -/

/-- What is built with the one options and what is built with the other differ in the values at
most, and with the same seed not even in these. -/
inductive BuiltAlike (options₁ options₂ : Options) :
    Except Fault (Generator W) → Except Fault (Generator W) → Prop where
  /-- Neither is built, for the same fault. A draw that breaks off is one. -/
  | fault {f : Fault} : BuiltAlike options₁ options₂ (.error f) (.error f)
  /-- Both are built, and have the same kind, arguments and classification. -/
  | generators {g₁ g₂ : Generator W} (hkind : g₁.kind = g₂.kind) (hargs : g₁.args = g₂.args)
      (hlate : g₁.isLate = g₂.isLate)
      (hvalues : ∀ seed, options₁.seed? = some seed → options₂.seed? = some seed →
        ∃ x, g₁.HandsOut x ∧ g₂.HandsOut x) :
      BuiltAlike options₁ options₂ (.ok g₁) (.ok g₂)

/-- What is read of an expression decides what both runs come to, but for the stream. -/
theorem Form.Built.alike {options₁ options₂ : Options} {text : String} {read : Except Fault Form}
    {r₁ r₂ : Except Fault (Generator W)} (h₁ : Built options₁ text read r₁)
    (h₂ : Built options₂ text read r₂) : BuiltAlike options₁ options₂ r₁ r₂ := by
  cases h₁ with
  | fault =>
    cases h₂ with
    | fault => exact .fault
  | brokenOff hnot =>
    cases h₂ with
    | brokenOff _ => exact .fault
    | generator hdrawable => exact absurd hdrawable hnot
  | @generator form e₁ g₁ stream₁ hdrawable hparse₁ hkind₁ hargs₁ hlate₁ hseed₁ hgives₁ =>
    cases h₂ with
    | brokenOff hnot => exact absurd hdrawable hnot
    | @generator _ e₂ g₂ stream₂ _ hparse₂ hkind₂ hargs₂ hlate₂ hseed₂ hgives₂ =>
      obtain rfl : e₁ = e₂ := Except.ok.inj (hparse₁.symm.trans hparse₂)
      refine .generators (hkind₁.trans hkind₂.symm) (hargs₁.trans hargs₂.symm)
        (hlate₁.trans hlate₂.symm) fun seed h₁ h₂ => ?_
      obtain rfl := hseed₁ seed h₁
      obtain rfl := hseed₂ seed h₂
      exact ⟨form.value (.ofSeed seed),
        fun calls => Generator.answerAll_of_gives hgives₁ calls,
        fun calls => Generator.answerAll_of_gives hgives₂ calls⟩

/-- **Options have a say in the values only, and only through the seed.** For every expression, all
options and all worlds, two runs of building fail with the same fault, or succeed with generators of
the same kind, arguments and classification. Where both options have the same seed, whatever else is
in them, the two generators hand out the same values in every run of calls. And in one and the same
world options with the same seed, or without one, build one and the same generator. -/
theorem build_of_options (options₁ options₂ : Options) (text : String) :
    (∀ w₁ w₂ : W, BuiltAlike options₁ options₂ (builtin.build options₁ text w₁).1
      (builtin.build options₂ text w₂).1) ∧
    (options₁.seed? = options₂.seed? →
      ∀ w : W, builtin.build options₁ text w = builtin.build options₂ text w) := by
  constructor
  · intro w₁ w₂
    have h₁ := Form.built_buildAt options₁ (maxDepth + 1) text w₁
    have h₂ := Form.built_buildAt options₂ (maxDepth + 1) text w₂
    exact h₁.alike h₂
  · intro hseed w
    have hbuild := Catalog.buildAt_of_readsSeed (W := W)
      (fun kind recipe hkind => Catalog.readsSeed_builtin hkind) hseed (maxDepth + 1)
    exact congrFun (congrFun hbuild text) w

/-- Two letters at a time, under the seed 7, with another setting and without. -/
theorem build_of_options_letters :
    let locale := (Options.seeded 7).insert "locale" (.leaf (.text "de"))
    ∃ g₁ g₂ : Generator Diary, (builtin.build (.seeded 7) "2*(a-z)" ⟨[]⟩).1 = .ok g₁ ∧
      (builtin.build locale "2*(a-z)" ⟨[.pulled "char"]⟩).1 = .ok g₂ ∧
      ∃ x, g₁.HandsOut x ∧ g₂.HandsOut x := by
  intro locale
  have hparse : Expr.parse "2*(a-z)" =
      .ok ⟨"repeat:2:(a-z)", "repeat", ["2", "(a-z)"], ⟨0, 6⟩⟩ := by rfl
  have hinner : Expr.parse "a-z" = .ok ⟨"char:a-z", "char", ["a-z"], ⟨0, 4⟩⟩ := by rfl
  have hform : Form.Written 0 "2*(a-z)" (.repetition 2 (.characters ⟨'a', 'z'⟩)) :=
    .repetition (Nat.zero_le _) hparse rfl rfl
      ⟨['2'], by simp, by simp, .inl rfl, rfl, by decide⟩ rfl
      (.characters (by decide) hinner rfl rfl rfl (by decide))
  obtain ⟨g₁, w₁', hg₁⟩ := hform.exists_build trivial (.seeded 7) (⟨[]⟩ : Diary)
  obtain ⟨g₂, w₂', hg₂⟩ := hform.exists_build trivial locale (⟨[.pulled "char"]⟩ : Diary)
  have halike := (build_of_options (.seeded 7) locale "2*(a-z)").1 (⟨[]⟩ : Diary) ⟨[.pulled "char"]⟩
  rw [hg₁, hg₂] at halike ⊢
  cases halike with
  | generators _ _ _ hvalues => exact ⟨g₁, g₂, rfl, rfl, hvalues 7 rfl (by decide +kernel)⟩

end RandExpr
