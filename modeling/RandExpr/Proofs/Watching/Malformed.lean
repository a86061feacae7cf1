import RandExpr.Proofs.Form.Build
import RandExpr.Proofs.Generator.Scripted
import RandExpr.Proofs.Watching.Shadows

/-!
# Malformed expressions

An expression that the library finds fault with fails before anything has run.

## The model

`Mirrors` relates what building, or carrying out a plan, comes to with what it comes to in watched
surroundings: to the same, with the same done to the surroundings inside. If it comes to a fault,
then either the fault has just been handed back by something of the host's, or a draw broke off, or
nothing has happened at all but notes.

## What is proved

* `shadow_ranged`, `shadow_literal`, `shadow_repeated`, `LeafRecipe.shadow` — so it is with every
  recipe, if it is so with the nested expressions.
* `find_cases` — what can stand under a kind: repetitions, a recipe that nests nothing and can only
  refuse its arguments (`Recipe.Simple`), or one of the host's own.
* `mirrors_buildAt` — hence with every expression, by induction on the levels that may be nested.
* `drawn_of_build` — no generator is built without a draw, so the record is not blind.
* `deeds_of_malformed` — where building ends in a fault of the library's own kinds, either the host
  has just handed it back, or no recipe of the host's was called and nothing was drawn.
-/

namespace RandExpr

open RandExpr.Random (Words)
open Catalog (extended watched)

variable {W : Type} [Host W]

/-- A fault of one of the kinds that the library finds in expressions. -/
def Fault.IsMalformed : Fault → Prop
  | unknownKind .. | strayClose .. | unclosedGroup .. | tooDeep .. | refused .. => True
  | sourceFailed .. | badOptions .. | notYet .. | brokenOff => False

/-- It comes to the same in watched surroundings. If that is a fault, something of the host's has
just handed it back, or a draw broke off, or else nothing but notes has been added since the
surroundings were `w` and the deeds `deeds`. -/
inductive Mirrors {α α' : Type 1} (R : List Deed → α → α' → Prop) (w : W)
    (deeds : List Deed) : Except Fault α × W → Except Fault α' × Watched W → Prop where
  /-- It succeeds. -/
  | ok {a : α} {a' : α'} {v : W} (new : List Deed) (h : R new a a') :
      Mirrors R w deeds (.ok a, v) (.ok a', ⟨v, new ++ deeds⟩)
  /-- Something of the host's fails, or a draw breaks off. -/
  | blamed {f : Fault} {v : W} (new : List Deed) (h : f.Blamed new) :
      Mirrors R w deeds (.error f, v) (.error f, ⟨v, new ++ deeds⟩)
  /-- It fails with nothing done but notes. -/
  | quiet {f : Fault} {v : W} (h : Noted w v) :
      Mirrors R w deeds (.error f, v) (.error f, ⟨v, deeds⟩)

/-- The source has a shadow. -/
def Yielded (_ : List Deed) (S : Source W) (S' : Source (Watched W)) : Prop := S.Shadow S'

/-- The generator has a shadow, and its source has been drawn from. -/
def Constructed (new : List Deed) (g : Generator W) (g' : Generator (Watched W)) : Prop :=
  g.Shadow g' ∧ .drawn g.kind ∈ new

/-- Plans of the second recipe come to what plans of the first come to, if nested expressions do. -/
def Recipe.Shadow (recipe : Recipe W) (recipe' : Recipe (Watched W)) : Prop :=
  ∀ (setting : Setting) (args : List String) (build : String → W → Except Fault (Generator W) × W)
    (build' : String → Watched W → Except Fault (Generator (Watched W)) × Watched W),
    (∀ text w deeds, Mirrors Constructed w deeds (build text w) (build' text ⟨w, deeds⟩)) →
      ∀ w deeds, Mirrors Yielded w deeds ((recipe setting args).run build w)
        ((recipe' setting args).run build' ⟨w, deeds⟩)

/-! ### Recipes -/

namespace Recipe

theorem shadow_ranged {α : Type} (reader : String → Except Refusal α)
    {source : Words → α → Source W} {source' : Words → α → Source (Watched W)}
    (h : ∀ words a, (source words a).Shadow (source' words a)) :
    (ranged reader source).Shadow (ranged reader source') := by
  intro setting args build build' _ w deeds
  unfold ranged
  cases setting.arg args 0 "range" with
  | error f => exact .quiet (.refl w)
  | ok text =>
    simp only [Plan.ofExcept]
    cases reader text with
    | error reason => exact .quiet (.refl w)
    | ok range =>
      simp only [withWords]
      cases setting.options.seed? with
      | some seed => exact .ok [] (h _ range)
      | none => exact .ok [] (h _ range)

theorem shadow_literal : (literal : Recipe W).Shadow literal := by
  intro setting args build build' _ w deeds
  exact .ok [] (shadow_constant _)

theorem shadow_repeated : (repeated : Recipe W).Shadow repeated := by
  intro setting args build build' hbuild w deeds
  unfold repeated
  cases setting.arg args 0 "count" with
  | error f => exact .quiet (.refl w)
  | ok countText =>
    simp only [Plan.ofExcept]
    cases readCount countText with
    | error reason => exact .quiet (.refl w)
    | ok count =>
      simp only
      cases setting.arg args 1 "expression" with
      | error f => exact .quiet (.refl w)
      | ok payload =>
        -- both arguments have been read, so all that can still fail is the nested expression
        simp only [Plan.nested, Plan.run]
        have hinner := hbuild (String.ofList (unwrapGroup payload.toList)) w deeds
        revert hinner
        generalize build (String.ofList (unwrapGroup payload.toList)) w = r
        generalize build' (String.ofList (unwrapGroup payload.toList)) ⟨w, deeds⟩ = r'
        rintro (⟨new, hshadow, -⟩ | ⟨new, hblamed⟩ | hnoted)
        · exact .ok new (hshadow.repetition count)
        · exact .blamed new hblamed
        · exact .quiet hnoted

/-- A recipe that nests nothing, and fails only by refusing its arguments. -/
structure Simple (recipe : Recipe W) : Prop where
  /-- It nests nothing. -/
  isLeaf : ∀ setting args, (recipe setting args).IsLeaf
  /-- Its faults are refusals. -/
  refuses : ∀ {setting args build w f v}, (recipe setting args).run build w = (.error f, v) →
    ∃ reason, f = .refused setting.kind reason

/-- A range is refused, or its source is yielded. -/
theorem ranged_cases {α : Type} (reader : String → Except Refusal α)
    (source : Words → α → Source W) (setting : Setting) (args : List String) :
    (∃ reason, ranged reader source setting args = .fail (.refused setting.kind reason)) ∨
      ∃ range, ranged reader source setting args =
        withWords setting.options fun words => .yield (source words range) := by
  cases args with
  | nil => exact .inl ⟨.missing "range", rfl⟩
  | cons text more =>
    have hfirst : setting.arg (text :: more) 0 "range" = .ok text := rfl
    simp only [ranged, hfirst, Plan.ofExcept]
    cases reader text with
    | error reason => exact .inl ⟨reason, rfl⟩
    | ok range => exact .inr ⟨range, rfl⟩

theorem simple_ranged {α : Type} (reader : String → Except Refusal α)
    (source : Words → α → Source W) : Simple (ranged reader source) where
  isLeaf := by
    intro setting args
    rcases ranged_cases reader source setting args with ⟨reason, hfail⟩ | ⟨range, hwords⟩
    · rw [hfail]
      trivial
    · rw [hwords, withWords]
      cases setting.options.seed? with
      | some seed => trivial
      | none => exact fun _ => trivial
  refuses := by
    intro setting args build w f v h
    rcases ranged_cases reader source setting args with ⟨reason, hfail⟩ | ⟨range, hwords⟩
    · rw [hfail] at h
      obtain ⟨⟩ := h
      exact ⟨reason, rfl⟩
    · obtain ⟨stream, w', -, hrun⟩ :=
        run_withWords setting.options (fun words => source words range) build w
      rw [hwords, hrun] at h
      cases h

omit [Host W] in
theorem simple_literal : Simple (literal : Recipe W) where
  isLeaf := fun _ _ => trivial
  refuses := by
    intro setting args build w f v h
    cases h

end Recipe

theorem LeafRecipe.shadow (leaf : LeafRecipe W) (kind : String) :
    leaf.recipe.Shadow (leaf.watched kind).recipe := by
  intro setting args build build' _ w deeds
  have hrun := Plan.run_watched build build' (leaf.recipe setting args)
    (leaf.isLeaf setting args) w (.called kind :: deeds)
  have hcalled : ((leaf.watched kind).recipe setting args).run build' ⟨w, deeds⟩ =
      ((leaf.recipe setting args).watched (leaf.isLeaf setting args)).run build'
        ⟨w, .called kind :: deeds⟩ := rfl
  rw [hcalled, hrun]
  obtain ⟨r, v, hleaf⟩ : ∃ r v, (leaf.recipe setting args).run build w = (r, v) := ⟨_, _, rfl⟩
  rw [hleaf]
  cases r with
  | ok S => exact .ok [.called kind] S.shadow_watched
  | error f => exact .blamed [.handedBack f, .called kind] (.inr rfl)

/-! ### Building -/

theorem Generator.mirrors_ofSource {S : Source W} {S' : Source (Watched W)} (h : S.Shadow S')
    (kind : String) (args : List String) (depth : Nat) (w₀ w : W) (before deeds : List Deed) :
    Mirrors Constructed w₀ deeds (ofSource kind args depth S w)
      (ofSource kind args depth (S'.recorded kind) ⟨w, before ++ deeds⟩) := by
  obtain ⟨toState, hstate, hshadows⟩ := h
  obtain ⟨r, t, v, hpull⟩ : ∃ r t v, S.pull S.state w = (r, t, v) := ⟨_, _, _, rfl⟩
  obtain ⟨new, hpull', hblamed⟩ := hshadows hpull (.drawn kind :: (before ++ deeds))
  have hfirst : (S'.recorded kind).pull (S'.recorded kind).state ⟨w, before ++ deeds⟩ =
      (r.map Delivery.watched, toState t, ⟨v, (new ++ .drawn kind :: before) ++ deeds⟩) := by
    rw [List.append_assoc]
    rw [hstate] at hpull'
    exact hpull'
  simp only [ofSource, hpull, hfirst]
  cases r with
  | error f => exact .blamed _ ((hblamed f rfl).append _)
  | ok d =>
    have hlater := Source.shadows_recorded hshadows kind
    have hshadow : Generator.Shadow ⟨kind, args, d.isLate, some d, { S with state := t }⟩
        ⟨kind, args, d.isLate, some d.watched, { S'.recorded kind with state := toState t }⟩ :=
      ⟨rfl, rfl, rfl, rfl, toState, rfl, hlater⟩
    have hdrawn : .drawn kind ∈ new ++ .drawn kind :: before := by simp
    simp only [Except.map, Delivery.isLate_watched]
    exact .ok _ ⟨hshadow, hdrawn⟩

namespace Catalog

variable (own : Keyed (LeafRecipe W))

theorem find_cases {kind : String} {recipe : Recipe W}
    (h : (extended own).find? kind = some recipe) : ∃ recipe',
      (watched own).find? kind = some (recipe'.recorded kind) ∧ recipe.Shadow recipe' ∧
        (recipe = Recipe.repeated ∧ recipe' = Recipe.repeated ∨ recipe.Simple ∧ recipe'.Simple ∨
          ∃ leaf : LeafRecipe W, recipe = leaf.recipe ∧ recipe' = (leaf.watched kind).recipe) := by
  rw [find?_extended] at h
  rw [find?_watched, find?_extended]
  split_ifs at h ⊢ with hrepeat hliteral hchar hnumber
  · obtain rfl := Option.some.inj h
    exact ⟨_, rfl, Recipe.shadow_repeated, .inl ⟨rfl, rfl⟩⟩
  · obtain rfl := Option.some.inj h
    exact ⟨_, rfl, Recipe.shadow_literal,
      .inr (.inl ⟨Recipe.simple_literal, Recipe.simple_literal⟩)⟩
  · obtain rfl := Option.some.inj h
    rw [Recipe.character_eq_ranged, Recipe.character_eq_ranged]
    exact ⟨_, rfl, Recipe.shadow_ranged _ Recipe.shadow_characters,
      .inr (.inl ⟨Recipe.simple_ranged _ _, Recipe.simple_ranged _ _⟩)⟩
  · obtain rfl := Option.some.inj h
    rw [Recipe.number_eq_ranged, Recipe.number_eq_ranged]
    exact ⟨_, rfl, Recipe.shadow_ranged _ Recipe.shadow_numbers,
      .inr (.inl ⟨Recipe.simple_ranged _ _, Recipe.simple_ranged _ _⟩)⟩
  · obtain ⟨leaf, hleaf, rfl⟩ := Option.map_eq_some_iff.1 h
    rw [Keyed.find?_map, hleaf]
    exact ⟨_, rfl, leaf.shadow kind, .inr (.inr ⟨leaf, rfl, rfl⟩)⟩

theorem find?_watched_eq_none {kind : String} (h : (extended own).find? kind = none) :
    (watched own).find? kind = none := by
  rw [find?_extended] at h
  rw [find?_watched, find?_extended]
  split_ifs at h ⊢
  rw [Keyed.find?_map, Option.map_eq_none_iff.1 h]
  rfl

theorem noteShorthand_watched (text : String) (w : W) (deeds : List Deed) :
    noteShorthand text (⟨w, deeds⟩ : Watched W) = ⟨noteShorthand text w, deeds⟩ := by
  rw [noteShorthand, noteShorthand]
  cases Shorthand.classify text <;> rfl

/-- **Building an expression comes to the same in watched surroundings**, whatever the host's own
recipes and their sources do. -/
theorem mirrors_buildAt (options : Options) (levels : Nat) (text : String) (w : W)
    (deeds : List Deed) :
    Mirrors Constructed w deeds ((extended own).buildAt options levels text w)
      ((watched own).buildAt options levels text ⟨w, deeds⟩) := by
  induction levels generalizing text w deeds with
  | zero => exact .quiet (.refl w)
  | succ levels ih =>
    -- the note of a shorthand is all that is done before a recipe is called
    have hnoted := noted_noteShorthand text w
    cases hparse : Expr.parse text with
    | error f =>
      rw [buildAt_of_fault hparse, buildAt_of_fault hparse, noteShorthand_watched]
      exact .quiet hnoted
    | ok e =>
      cases hfind : (extended own).find? e.kind with
      | none =>
        rw [buildAt_of_unknown hparse hfind,
          buildAt_of_unknown hparse (find?_watched_eq_none own hfind), noteShorthand_watched]
        exact .quiet hnoted
      | some recipe =>
        obtain ⟨recipe', hfind', hshadow, -⟩ := find_cases own hfind
        rw [buildAt_of_parse hparse hfind, buildAt_of_parse hparse hfind', noteShorthand_watched,
          kinds_watched]
        simp only [Recipe.recorded, Plan.run_mapSource]
        have hplan := hshadow ⟨e.kind, options, (extended own).kinds, maxDepth - levels⟩ e.args _ _
          ih (noteShorthand text w) deeds
        revert hplan
        generalize (recipe _ e.args).run _ (noteShorthand text w) = r
        generalize (recipe' _ e.args).run _ (⟨noteShorthand text w, deeds⟩ : Watched W) = r'
        rintro (⟨new, hyielded⟩ | ⟨new, hblamed⟩ | hquiet)
        · exact Generator.mirrors_ofSource hyielded _ _ _ _ _ _ _
        · exact .blamed new hblamed
        · exact .quiet (hnoted.trans hquiet)

end Catalog

/-- **The record is not blind**: no generator is built without a draw from its source. -/
theorem drawn_of_build (own : Keyed (LeafRecipe W)) {options : Options} {text : String} {w w' : W}
    {g : Generator W} (h : (extended own).build options text w = (.ok g, w')) :
    ∃ g' deeds, (watched own).build options text ⟨w, []⟩ = (.ok g', ⟨w', deeds⟩) ∧
      g.Shadow g' ∧ .drawn g.kind ∈ deeds := by
  have hmirrors := Catalog.mirrors_buildAt own options (maxDepth + 1) text w []
  rw [Catalog.build] at h ⊢
  rw [h] at hmirrors
  generalize (watched own).buildAt options (maxDepth + 1) text ⟨w, []⟩ = r' at hmirrors ⊢
  cases hmirrors with
  | @ok _ g' _ new hconstructed =>
    obtain ⟨hshadow, hdrawn⟩ := hconstructed
    exact ⟨g', new ++ [], rfl, hshadow, List.mem_append_left _ hdrawn⟩

/-- Recipes of the host's own: coins that always come down heads. -/
def coins : Keyed (LeafRecipe Diary) :=
  Keyed.empty.insert "coin"
    ⟨Recipe.scripted fun _ => .ok (.now (.text "heads")), fun _ _ => trivial⟩

/-- The recipe of a coin is called, and then the coin is drawn from. -/
example :
    ((watched coins).build {} "coin" ⟨⟨[]⟩, []⟩).2.deeds = [.drawn "coin", .called "coin"] := by
  have hparse : Expr.parse "coin" = .ok ⟨"coin", "coin", [], ⟨0, 4⟩⟩ := by rfl
  rw [Catalog.build, Catalog.buildAt_of_parse hparse (by rfl)]
  rfl

/-- **A malformed expression fails before anything has run.** Let building end in a fault of one of
the kinds that the library finds in expressions. In watched surroundings it ends in the same fault,
with the same done to the surroundings inside. Either something of the host's has just handed the
fault back, or there is no deed: no recipe of the host's was called, no source was drawn from, and
the surroundings were given nothing but notes. -/
theorem deeds_of_malformed (own : Keyed (LeafRecipe W)) {options : Options} {text : String}
    {w w' : W} {f : Fault} (hf : f.IsMalformed)
    (h : (extended own).build options text w = (.error f, w')) :
    ∃ deeds, (watched own).build options text ⟨w, []⟩ = (.error f, ⟨w', deeds⟩) ∧
      (deeds.head? = some (.handedBack f) ∨ deeds = [] ∧ Noted w w') := by
  have hmirrors := Catalog.mirrors_buildAt own options (maxDepth + 1) text w []
  rw [Catalog.build] at h ⊢
  rw [h] at hmirrors
  generalize (watched own).buildAt options (maxDepth + 1) text ⟨w, []⟩ = r' at hmirrors ⊢
  cases hmirrors with
  | blamed new hblamed =>
    rcases hblamed.append [] with rfl | hhead
    · exact hf.elim
    · exact ⟨new ++ [], rfl, .inl hhead⟩
  | quiet hnoted => exact ⟨[], rfl, .inr ⟨rfl, hnoted⟩⟩

/-- An unknown kind one level down, in a catalog with coins. -/
theorem deeds_of_malformed_nope : ∃ w' deeds,
    (extended coins).build {} "2*(nope)" ⟨[]⟩ = (.error (.unknownKind "nope" "nope" ⟨0, 4⟩), w') ∧
      (watched coins).build {} "2*(nope)" ⟨⟨[]⟩, []⟩ =
        (.error (.unknownKind "nope" "nope" ⟨0, 4⟩), ⟨w', deeds⟩) ∧
      (deeds.head? = some (.handedBack (.unknownKind "nope" "nope" ⟨0, 4⟩)) ∨
        deeds = [] ∧ Noted ⟨[]⟩ w') := by
  have hrepeat : (extended coins).find? "repeat" = some Recipe.repeated := by
    rw [Catalog.find?_extended, if_pos rfl]
  have hnope : (extended coins).find? "nope" = none := by
    simp [Catalog.find?_extended, coins, Keyed.find?_insert]
  have houter : Expr.parse "2*(nope)" =
      .ok ⟨"repeat:2:(nope)", "repeat", ["2", "(nope)"], ⟨0, 6⟩⟩ := by rfl
  have hinner : Expr.parse "nope" = .ok ⟨"nope", "nope", [], ⟨0, 4⟩⟩ := by rfl
  have hpayload : String.ofList (unwrapGroup "(nope)".toList) = "nope" := by rfl
  obtain ⟨w', hbuild⟩ : ∃ w', (extended coins).build {} "2*(nope)" ⟨[]⟩ =
      (.error (.unknownKind "nope" "nope" ⟨0, 4⟩), w') := by
    rw [Catalog.build, Catalog.buildAt_repeated houter hrepeat rfl rfl, hpayload, maxDepth,
      Catalog.buildAt_of_unknown hinner hnope]
    exact ⟨_, rfl⟩
  have hmalformed : (Fault.unknownKind "nope" "nope" ⟨0, 4⟩).IsMalformed := trivial
  obtain ⟨deeds, hwatched, hdeeds⟩ := deeds_of_malformed coins hmalformed hbuild
  exact ⟨w', deeds, hbuild, hwatched, hdeeds⟩

end RandExpr
