import RandExpr.Proofs.Expr.Spans
import RandExpr.Proofs.Nesting.Depth
import RandExpr.Proofs.Watching.Malformed

/-!
# Raised faults

What the faults point at that the library itself raises while a generator is built.

## The model

The tree of a construction says where a fault is raised: in an expression that cannot be taken apart
or whose kind is unknown, so many constructions down (`Construction.Raises`). Where only repetitions
nest (`Catalog.NestsByRepeating`), the expression that is built at a depth is found by going into as
many of them (`Catalog.Nested`).

## What is proved

* `Recipe.repeated_cases` — a repetition refuses its arguments, or nests the second of them.
* `Catalog.nestsByRepeating_extended`, `Catalog.NestsByRepeating.filed` — so it is in the built-in
  catalog, whatever recipes that nest nothing are filed in it besides.
* `Catalog.of_raises` — a fault with a label that is raised at a depth is that of the whole, and
  points into the canonical text of the expression built there.
* `Catalog.raises_of_quiet` — where building ends in a fault with a label and nothing is recorded,
  the fault is raised.
* `raised_pointsInto` — so a fault with a label is raised and points at what it complains about, or
  the host has handed it back.
-/

namespace RandExpr

open Catalog (extended watched)

/-! ### Where faults are raised -/

/-- The fault is raised in the construction, so many constructions down. -/
inductive Construction.Raises (f : Fault) : Nat → Construction → Prop where
  /-- It is raised by the construction itself. -/
  | raised : Raises f 0 (.raised f)
  /-- It is raised in a construction that a recipe has asked for. -/
  | called {depth : Nat} {setting : Setting} {args : List String} {nested : List Construction}
      {c : Construction} (hmem : c ∈ nested) (h : Raises f depth c) :
      Raises f (depth + 1) (.called setting args nested)

namespace Construction

variable {f : Fault} {depth : Nat}

theorem raises_raised_iff {f' : Fault} : Raises f depth (.raised f') ↔ depth = 0 ∧ f' = f := by
  constructor
  · intro h
    cases h with
    | raised => exact ⟨rfl, rfl⟩
  · rintro ⟨rfl, rfl⟩
    exact .raised

theorem raises_called_iff {setting : Setting} {args : List String} {nested : List Construction} :
    Raises f depth (.called setting args nested) ↔
      ∃ depth', depth = depth' + 1 ∧ ∃ c ∈ nested, Raises f depth' c := by
  constructor
  · intro h
    cases h with
    | called hmem h => exact ⟨_, rfl, _, hmem, h⟩
  · rintro ⟨depth', rfl, c, hmem, h⟩
    exact .called hmem h

end Construction

/-! ### What recipes nest, and how they fail -/

variable {W : Type}

namespace Recipe

variable [Host W] {setting : Setting} {args : List String}

/-- A repetition refuses its arguments, or nests the second of them. -/
theorem repeated_cases (setting : Setting) (args : List String) :
    (∃ reason, (repeated setting args : Plan W) = .fail (.refused setting.kind reason)) ∨
      ∃ countText payload more count, args = countText :: payload :: more ∧
        readCount countText = .ok count ∧
        (repeated setting args : Plan W) =
          .nested (String.ofList (unwrapGroup payload.toList)) fun g =>
            .yield (repetition count g) := by
  cases args with
  | nil => exact .inl ⟨.missing "count", rfl⟩
  | cons countText args =>
    have hfirst : setting.arg (countText :: args) 0 "count" = .ok countText := rfl
    simp only [repeated, hfirst, Plan.ofExcept]
    cases hcount : readCount countText with
    | error reason => exact .inl ⟨reason, rfl⟩
    | ok count =>
      cases args with
      | nil => exact .inl ⟨.missing "expression", rfl⟩
      | cons payload more =>
        exact .inr ⟨countText, payload, more, count, rfl, hcount, rfl⟩

theorem of_mem_trace_repeated {build : String → W → (Except Fault (Generator W) × W) × Construction}
    {w : W} {c : Construction} (h : c ∈ ((repeated setting args).trace build w).2) :
    ∃ countText payload more count, args = countText :: payload :: more ∧
      readCount countText = .ok count ∧
      c = (build (String.ofList (unwrapGroup payload.toList)) w).2 := by
  rcases @repeated_cases W _ setting args with
    ⟨reason, hfail⟩ | ⟨countText, payload, more, count, rfl, hcount, -⟩
  · rw [hfail] at h
    exact absurd h List.not_mem_nil
  · rw [snd_trace_repeated build hcount, List.mem_singleton] at h
    exact ⟨countText, payload, more, count, rfl, hcount, h⟩

/-- A repetition refuses its arguments, or fails as the expression that it nests. -/
theorem run_repeated_of_error {build : String → W → Except Fault (Generator W) × W} {w v : W}
    {f : Fault} (h : (repeated setting args).run build w = (.error f, v)) :
    (∃ reason, f = .refused setting.kind reason) ∨
      ∃ countText payload more count, args = countText :: payload :: more ∧
        readCount countText = .ok count ∧
        build (String.ofList (unwrapGroup payload.toList)) w = (.error f, v) := by
  rcases @repeated_cases W _ setting args with
    ⟨reason, hfail⟩ | ⟨countText, payload, more, count, hargs, hcount, hnested⟩
  · rw [hfail] at h
    obtain ⟨⟩ := h
    exact .inl ⟨reason, rfl⟩
  · refine .inr ⟨countText, payload, more, count, hargs, hcount, ?_⟩
    rw [hnested, Plan.nested, Plan.run] at h
    generalize build (String.ofList (unwrapGroup payload.toList)) w = r at h ⊢
    obtain ⟨f' | g, w'⟩ := r
    · obtain ⟨⟩ : (Except.error f', w') = (Except.error f, v) := h
      rfl
    · cases h

end Recipe

theorem LeafRecipe.deeds_run_ne_nil (leaf : LeafRecipe W) (kind : String) (setting : Setting)
    (args : List String)
    (build : String → Watched W → Except Fault (Generator (Watched W)) × Watched W) (w : W) :
    (((leaf.watched kind).recipe setting args).run build ⟨w, []⟩).2.deeds ≠ [] := by
  have hcalled : ((leaf.watched kind).recipe setting args).run build ⟨w, []⟩ =
      ((leaf.recipe setting args).watched (leaf.isLeaf setting args)).run build
        ⟨w, [.called kind]⟩ := rfl
  -- it nests nothing, so nothing matters of how nested expressions are built
  rw [hcalled, Plan.run_watched (fun _ w => (.error .brokenOff, w))]
  split
  next => exact List.cons_ne_nil _ _
  next => exact List.cons_ne_nil _ _

theorem Generator.deeds_ofSource_ne_nil [Host W] {S : Source W} {S' : Source (Watched W)}
    (h : S.Shadow S') (kind : String) (args : List String) (depth : Nat) (w : W)
    (deeds : List Deed) :
    (ofSource kind args depth (S'.recorded kind) ⟨w, deeds⟩).2.deeds ≠ [] := by
  obtain ⟨toState, hstate, hshadows⟩ := h
  obtain ⟨r, t, v, hpull⟩ : ∃ r t v, S.pull S.state w = (r, t, v) := ⟨_, _, _, rfl⟩
  obtain ⟨new, hpull', -⟩ := hshadows hpull (.drawn kind :: deeds)
  rw [hstate] at hpull'
  have hfirst : (S'.recorded kind).pull (S'.recorded kind).state ⟨w, deeds⟩ =
      (r.map Delivery.watched, toState t, ⟨v, new ++ .drawn kind :: deeds⟩) := hpull'
  have hne : new ++ .drawn kind :: deeds ≠ [] := by simp
  simp only [ofSource, hfirst]
  cases r with
  | error f => exact hne
  | ok d => exact hne

namespace Catalog

/-! ### Catalogs in which only repetitions nest -/

section

variable [Host W]

/-- Every recipe of the catalog is that of repetitions, or nests nothing. -/
def NestsByRepeating (catalog : Catalog W) : Prop :=
  ∀ kind recipe, catalog.find? kind = some recipe →
    recipe = Recipe.repeated ∨ ∀ setting args, (recipe setting args).IsLeaf

/-- A catalog with recipes of the host's own that have been filed one after the other. Each may take
the place of one that was there before. -/
def filed (catalog : Catalog W) (own : List (String × LeafRecipe W)) : Catalog W :=
  own.foldl (fun catalog (kind, leaf) => catalog.insert kind leaf.recipe) catalog

theorem nestsByRepeating_extended (own : Keyed (LeafRecipe W)) :
    (extended own).NestsByRepeating := by
  intro kind recipe hkind
  obtain ⟨-, -, -, ⟨rfl, -⟩ | ⟨hsimple, -⟩ | ⟨leaf, rfl, -⟩⟩ := find_cases own hkind
  · exact .inl rfl
  · exact .inr hsimple.isLeaf
  · exact .inr leaf.isLeaf

theorem NestsByRepeating.insert {catalog : Catalog W} (h : catalog.NestsByRepeating)
    (kind : String) (leaf : LeafRecipe W) : (catalog.insert kind leaf.recipe).NestsByRepeating := by
  intro kind' recipe hkind
  simp only [find?, Catalog.insert, Keyed.find?_insert] at hkind
  split at hkind
  next =>
    obtain rfl := Option.some.inj hkind
    exact .inr leaf.isLeaf
  next => exact h kind' recipe hkind

theorem NestsByRepeating.filed {catalog : Catalog W} (h : catalog.NestsByRepeating)
    (own : List (String × LeafRecipe W)) : (catalog.filed own).NestsByRepeating := by
  induction own generalizing catalog with
  | nil => exact h
  | cons entry own ih => exact ih (h.insert entry.1 entry.2)

end

/-! ### Raised faults -/

variable [Host W] {options : Options} {f : Fault}

/-- **A fault with a label that is raised at a depth is that of the whole**, and points into the
canonical text of the expression that is built at this depth. -/
theorem of_raises {catalog : Catalog W} (hcatalog : catalog.NestsByRepeating)
    (hf : f.label?.isSome) {levels depth : Nat} {text : String} {w : W}
    (h : (catalog.traceAt options levels text w).2.Raises f depth) :
    (∃ w', catalog.buildAt options levels text w = (.error f, w')) ∧ depth < levels ∧
      ∃ counts inner, counts.length = depth ∧ catalog.Nested inner counts text ∧
        f.PointsInto catalog (canonicalText inner) := by
  induction levels generalizing depth text w with
  | zero =>
    obtain ⟨-, rfl⟩ := Construction.raises_raised_iff.1 h
    cases hf
  | succ levels ih =>
    cases hparse : Expr.parse text with
    | error f' =>
      rw [traceAt_of_fault options hparse] at h
      obtain ⟨rfl, rfl⟩ := Construction.raises_raised_iff.1 h
      exact ⟨⟨_, buildAt_of_fault hparse _ _ _ _⟩, by omega, [], text, rfl, .leaf,
        Expr.pointsInto_of_split _ hparse⟩
    | ok e =>
      cases hkind : catalog.find? e.kind with
      | none =>
        rw [traceAt_of_unknown options hparse hkind] at h
        obtain ⟨rfl, rfl⟩ := Construction.raises_raised_iff.1 h
        exact ⟨⟨_, buildAt_of_unknown hparse hkind _ _ _⟩, by omega, [], text, rfl, .leaf,
          Expr.pointsInto_of_unknown hparse hkind⟩
      | some recipe =>
        rw [snd_traceAt options hparse hkind, Construction.raises_called_iff] at h
        obtain ⟨depth, rfl, c, hmem, hc⟩ := h
        rcases hcatalog e.kind recipe hkind with rfl | hleaf
        · -- the construction that is asked for is that of the payload
          obtain ⟨countText, payload, more, count, hargs, hcount, rfl⟩ :=
            Recipe.of_mem_trace_repeated hmem
          obtain ⟨⟨w', hbuild⟩, hlt, counts, inner, hlength, hnested, hpoints⟩ := ih hc
          refine ⟨⟨w', ?_⟩, by omega, count :: counts, inner, by rw [List.length_cons, hlength],
            .repeated hparse hkind hargs hcount hnested, hpoints⟩
          rw [buildAt_repeated hparse hkind hargs hcount, hbuild]
        · rw [Plan.snd_trace_of_isLeaf _ (hleaf _ _)] at hmem
          exact absurd hmem List.not_mem_nil

/-! ### Faults that are not recorded -/

variable {own : Keyed (LeafRecipe W)}

/-- In watched surroundings a fault of which there is no record is that of a plan. -/
theorem run_of_quiet {levels : Nat} {text : String} {e : Expr} {recipe : Recipe W}
    {recipe' : Recipe (Watched W)} (hparse : Expr.parse text = .ok e)
    (hkind : (watched own).find? e.kind = some (recipe'.recorded e.kind))
    (hshadow : recipe.Shadow recipe') {w v : W}
    (h : (watched own).buildAt options (levels + 1) text ⟨w, []⟩ = (.error f, ⟨v, []⟩)) :
    (recipe' ⟨e.kind, options, (watched own).kinds, maxDepth - levels⟩ e.args).run
      ((watched own).buildAt options levels) ⟨noteShorthand text w, []⟩ = (.error f, ⟨v, []⟩) := by
  have hplan := hshadow ⟨e.kind, options, (watched own).kinds, maxDepth - levels⟩ e.args _ _
    (mirrors_buildAt own options levels) (noteShorthand text w) []
  rw [buildAt_of_parse hparse hkind, noteShorthand_watched] at h
  simp only [Recipe.recorded, Plan.run_mapSource] at h
  revert hplan h
  generalize (recipe _ e.args).run _ (noteShorthand text w) = r
  generalize (recipe' _ e.args).run _ (⟨noteShorthand text w, []⟩ : Watched W) = r'
  intro hplan h
  cases hplan with
  | ok new hyielded =>
    -- the draw of the first value would have been recorded
    have hrecorded := Generator.deeds_ofSource_ne_nil hyielded e.kind e.args (maxDepth - levels)
    exact absurd (congrArg (fun p => p.2.deeds) h) (hrecorded _ _)
  | blamed | quiet =>
    obtain ⟨hfault, hworld⟩ := Prod.mk.inj h
    obtain rfl := Except.error.inj hfault
    exact Prod.ext rfl hworld

/-- **Where building ends in a fault with a label of which there is no record, it is raised.** -/
theorem raises_of_quiet (hf : f.label?.isSome) {levels : Nat} {text : String} {w v : W}
    (h : (watched own).buildAt options levels text ⟨w, []⟩ = (.error f, ⟨v, []⟩)) :
    ∃ depth, ((extended own).traceAt options levels text w).2.Raises f depth := by
  induction levels generalizing text w v with
  | zero =>
    obtain ⟨⟩ := h
    cases hf
  | succ levels ih =>
    cases hparse : Expr.parse text with
    | error f' =>
      rw [buildAt_of_fault hparse] at h
      obtain rfl := Except.error.inj (congrArg Prod.fst h)
      rw [traceAt_of_fault options hparse]
      exact ⟨0, .raised⟩
    | ok e =>
      cases hkind : (extended own).find? e.kind with
      | none =>
        rw [buildAt_of_unknown hparse (find?_watched_eq_none own hkind)] at h
        obtain rfl := Except.error.inj (congrArg Prod.fst h)
        rw [traceAt_of_unknown options hparse hkind]
        exact ⟨0, .raised⟩
      | some recipe =>
        have hrefused {kind : String} : ¬∃ reason, f = .refused kind reason := by
          rintro ⟨reason, rfl⟩
          cases hf
        obtain ⟨recipe', hkind', hshadow, hcases⟩ := find_cases own hkind
        have hrun := run_of_quiet hparse hkind' hshadow h
        rcases hcases with ⟨rfl, rfl⟩ | ⟨-, hsimple⟩ | ⟨leaf, -, rfl⟩
        · rcases Recipe.run_repeated_of_error hrun with
            hrefusal | ⟨countText, payload, more, count, hargs, hcount, hbuild⟩
          · exact absurd hrefusal hrefused
          · obtain ⟨depth, hdepth⟩ := ih hbuild
            refine ⟨depth + 1, ?_⟩
            rw [snd_traceAt options hparse hkind, hargs, Recipe.snd_trace_repeated _ hcount]
            exact .called List.mem_cons_self hdepth
        · exact absurd (hsimple.refuses hrun) hrefused
        · have hrecorded := leaf.deeds_run_ne_nil e.kind
            ⟨e.kind, options, (watched own).kinds, maxDepth - levels⟩ e.args
            ((watched own).buildAt options levels) (noteShorthand text w)
          exact absurd (congrArg (fun p => p.2.deeds) hrun) hrecorded

end Catalog

/-- **Faults point at what they complain about.** Let only repetitions nest in a catalog, and let a
fault with a label be raised at a depth while an expression is built. Then building fails with this
fault, and the fault points into the canonical text of the expression that is built at this depth:
its span starts and ends between characters of that text, and what stands there is the kind that is
not in the catalog, the `)` that closes nothing, or a `(` with all that follows it. So it is with
the built-in catalog, whatever recipes that nest nothing are filed in it besides, under whatever
kinds. And there no fault with a label comes from anywhere else: if building fails with one that is
not raised so, the host has just handed it back. -/
theorem raised_pointsInto [Host W] (options : Options) (text : String) (w : W) :
    (∀ (catalog : Catalog W) (f : Fault) (depth : Nat), catalog.NestsByRepeating →
      f.label?.isSome → (catalog.trace options text w).2.Raises f depth →
      (∃ w', catalog.build options text w = (.error f, w')) ∧ depth ≤ 32 ∧
        ∃ counts inner, counts.length = depth ∧ catalog.Nested inner counts text ∧
          f.PointsInto catalog (canonicalText inner)) ∧
    (∀ own : List (String × LeafRecipe W),
      ((Catalog.builtin : Catalog W).filed own).NestsByRepeating) ∧
    ∀ own : Keyed (LeafRecipe W), (extended own).NestsByRepeating ∧
      ∀ (f : Fault) (w' : W), f.label?.isSome →
        (extended own).build options text w = (.error f, w') →
        (∃ depth, ((extended own).trace options text w).2.Raises f depth) ∨
          ∃ deeds, (watched own).build options text ⟨w, []⟩ =
            (.error f, ⟨w', .handedBack f :: deeds⟩) := by
  refine ⟨?_, ?_, fun own => ⟨Catalog.nestsByRepeating_extended own, ?_⟩⟩
  · intro catalog f depth hcatalog hf hraises
    obtain ⟨hbuild, hlt, hinner⟩ := Catalog.of_raises hcatalog hf hraises
    exact ⟨hbuild, Nat.le_of_lt_succ hlt, hinner⟩
  · intro own
    apply Catalog.NestsByRepeating.filed
    rw [← Catalog.extended_empty]
    exact Catalog.nestsByRepeating_extended .empty
  · intro f w' hf hbuild
    have hmirrors := Catalog.mirrors_buildAt own options (maxDepth + 1) text w []
    rw [Catalog.build] at hbuild ⊢
    rw [hbuild] at hmirrors
    generalize hwatched : (watched own).buildAt options (maxDepth + 1) text ⟨w, []⟩ = r at hmirrors
    cases hmirrors with
    | blamed new hblamed =>
      rcases hblamed with rfl | hhead
      · cases hf
      · obtain ⟨deeds, rfl⟩ := List.head?_eq_some_iff.1 hhead
        exact .inr ⟨deeds, by rw [List.append_nil]⟩
    | quiet hnoted => exact .inl (Catalog.raises_of_quiet hf hwatched)

/-- A kind of three bytes, one level down, that is not in a catalog with coins. -/
theorem raised_pointsInto_one_down :
    let f : Fault := .unknownKind "né" "né:x" ⟨0, 3⟩
    ((extended coins).trace {} "2*(né:x)" ⟨[]⟩).2.Raises f 1 ∧
      (∃ w', (extended coins).build {} "2*(né:x)" ⟨[]⟩ = (.error f, w')) ∧
      ∃ counts inner, counts.length = 1 ∧ (extended coins).Nested inner counts "2*(né:x)" ∧
        f.PointsInto (extended coins) (canonicalText inner) := by
  intro f
  have hrepeat : (extended coins).find? "repeat" = some Recipe.repeated := by
    rw [Catalog.find?_extended]
    rfl
  have hunknown : (extended coins).find? "né" = none := by
    rw [Catalog.find?_extended]
    rfl
  have houter : Expr.parse "2*(né:x)" =
      .ok ⟨"repeat:2:(né:x)", "repeat", ["2", "(né:x)"], ⟨0, 6⟩⟩ := by rfl
  have hinner : Expr.parse "né:x" = .ok ⟨"né:x", "né", ["x"], ⟨0, 3⟩⟩ := by rfl
  have hraises : ((extended coins).trace {} "2*(né:x)" ⟨[]⟩).2.Raises f 1 := by
    have hcount : Recipe.readCount "2" = .ok 2 := by rfl
    have hpayload : String.ofList (unwrapGroup "(né:x)".toList) = "né:x" := by rfl
    rw [Catalog.trace, Catalog.snd_traceAt {} houter hrepeat, Recipe.snd_trace_repeated _ hcount,
      hpayload]
    show Construction.Raises f 1 (.called _ _
      [((extended coins).traceAt {} (31 + 1) "né:x" _).2])
    rw [Catalog.traceAt_of_unknown {} hinner hunknown]
    exact .called List.mem_cons_self .raised
  obtain ⟨hpoints, -, hcoins⟩ := @raised_pointsInto Diary _ {} "2*(né:x)" ⟨[]⟩
  obtain ⟨hbuild, -, hpoints⟩ := hpoints (extended coins) f 1 (hcoins coins).1 rfl hraises
  exact ⟨hraises, hbuild, hpoints⟩

end RandExpr
