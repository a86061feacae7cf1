import RandExpr.Catalog

/-!
# Constructions

Which recipes are called while a generator is built, and how deep.

## The model

Building a generator is a tree of constructions (`Construction`). A construction raises a fault by
itself, or calls a recipe, and stands around the constructions that the recipe asks for.
`Catalog.traceAt` builds what `Catalog.buildAt` builds, and gives the tree besides.

A tree is disciplined (`Construction.Disciplined`) if every call in it sees what its place in the
tree says: the depth counts the constructions around the call, and whatever else the setting has to
say is that of the outermost construction.

## What is proved

* `fst_trace`, `fst_traceAt` — the tree is that of the generator that is built.
* `disciplined_traceAt` — the tree of every generator is disciplined, whatever the recipes nest.
* `setting_of_mem_calls` — so every call sees the same options and kinds, and no level past the
  limit.
-/

namespace RandExpr

/-- How the construction of a generator goes. -/
inductive Construction where
  /-- The construction raises a fault, and calls no recipe. -/
  | raised (f : Fault)
  /-- A recipe is called, and asks for further constructions, in this order. -/
  | called (setting : Setting) (args : List String) (nested : List Construction)

variable {W : Type}

/-! ### Building with a trace -/

/-- Carries a plan out, and gives the constructions that it asks for, in order. -/
def Plan.trace (build : String → W → (Except Fault (Generator W) × W) × Construction) :
    Plan W → W → (Except Fault (Source W) × W) × List Construction
  | fail f, w => ((.error f, w), [])
  | yield source, w => ((.ok source, w), [])
  | act effect rest, w =>
    let (a, w) := effect w
    (rest a).trace build w
  | nest text rest, w =>
    let ((result, w), construction) := build text w
    let (outcome, constructions) := (rest result).trace build w
    (outcome, construction :: constructions)

/-- The trace changes nothing about what a plan does. -/
theorem Plan.fst_trace {build : String → W → Except Fault (Generator W) × W}
    {build' : String → W → (Except Fault (Generator W) × W) × Construction}
    (h : ∀ text w, (build' text w).1 = build text w) (p : Plan W) (w : W) :
    (p.trace build' w).1 = p.run build w := by
  induction p generalizing w with
  | fail f => rfl
  | yield source => rfl
  | act effect rest ih => exact ih _ _
  | nest text rest ih =>
    show ((rest (build' text w).1.1).trace build' (build' text w).1.2).1 = _
    rw [ih, h]
    rfl

namespace Catalog

variable [Host W]

/-- Builds the generator of an expression at a depth of nesting, where `build` builds nested
expressions, and gives the tree of its construction. -/
def traceFrom (catalog : Catalog W) (options : Options)
    (build : String → W → (Except Fault (Generator W) × W) × Construction) (depth : Nat)
    (text : String) (w : W) : (Except Fault (Generator W) × W) × Construction :=
  let w := noteShorthand text w
  match Expr.parse text with
  | .error f => ((.error f, w), .raised f)
  | .ok e =>
    match catalog.find? e.kind with
    | none =>
      let f := .unknownKind e.kind e.source e.kindSpan
      ((.error f, w), .raised f)
    | some recipe =>
      let setting := ⟨e.kind, options, catalog.kinds, depth⟩
      let (outcome, nested) := (recipe setting e.args).trace build w
      (match outcome with
        | (.error f, w) => (.error f, w)
        | (.ok source, w) => Generator.ofSource e.kind e.args depth source w,
      .called setting e.args nested)

/-- Builds the generator of an expression, where `levels` more generators may be nested, and gives
the tree of its construction. -/
def traceAt (catalog : Catalog W) (options : Options) :
    (levels : Nat) → String → W → (Except Fault (Generator W) × W) × Construction
  | 0, _, w =>
    let f := .tooDeep (maxDepth + 1) maxDepth
    ((.error f, w), .raised f)
  | levels + 1, text, w =>
    catalog.traceFrom options (catalog.traceAt options levels) (maxDepth - levels) text w

/-- Builds the generator of an expression, and gives the tree of its construction. -/
def trace (catalog : Catalog W) (options : Options) (text : String) (w : W) :
    (Except Fault (Generator W) × W) × Construction :=
  catalog.traceAt options (maxDepth + 1) text w

variable {catalog : Catalog W} (options : Options)

theorem traceAt_of_fault {text : String} {f : Fault} (hparse : Expr.parse text = .error f)
    (levels : Nat) (w : W) :
    catalog.traceAt options (levels + 1) text w =
      ((.error f, noteShorthand text w), .raised f) := by
  rw [traceAt, traceFrom, hparse]

theorem traceAt_of_unknown {text : String} {e : Expr} (hparse : Expr.parse text = .ok e)
    (hkind : catalog.find? e.kind = none) (levels : Nat) (w : W) :
    catalog.traceAt options (levels + 1) text w =
      ((.error (.unknownKind e.kind e.source e.kindSpan), noteShorthand text w),
        .raised (.unknownKind e.kind e.source e.kindSpan)) := by
  rw [traceAt, traceFrom, hparse]
  simp only [hkind]

/-- Where a recipe stands under the kind, it is called, with all that it asks for inside. -/
theorem snd_traceAt {text : String} {e : Expr} {recipe : Recipe W}
    (hparse : Expr.parse text = .ok e) (hkind : catalog.find? e.kind = some recipe) (levels : Nat)
    (w : W) :
    (catalog.traceAt options (levels + 1) text w).2 =
      .called ⟨e.kind, options, catalog.kinds, maxDepth - levels⟩ e.args
        ((recipe ⟨e.kind, options, catalog.kinds, maxDepth - levels⟩ e.args).trace
          (catalog.traceAt options levels) (noteShorthand text w)).2 := by
  rw [traceAt, traceFrom, hparse]
  simp only [hkind]

/-- **The tree is that of the generator that is built.** -/
theorem fst_traceAt (levels : Nat) (text : String) (w : W) :
    (catalog.traceAt options levels text w).1 = catalog.buildAt options levels text w := by
  induction levels generalizing text w with
  | zero => rfl
  | succ levels ih =>
    cases hparse : Expr.parse text with
    | error f => rw [traceAt_of_fault options hparse, buildAt_of_fault hparse]
    | ok e =>
      cases hkind : catalog.find? e.kind with
      | none => rw [traceAt_of_unknown options hparse hkind, buildAt_of_unknown hparse hkind]
      | some recipe =>
        obtain ⟨r, w', hrun⟩ : ∃ r w',
            (recipe ⟨e.kind, options, catalog.kinds, maxDepth - levels⟩ e.args).run
              (catalog.buildAt options levels) (noteShorthand text w) = (r, w') := ⟨_, _, rfl⟩
        rw [buildAt_of_parse hparse hkind, traceAt, traceFrom, hparse, hrun]
        cases r with
        | error f => simp only [hkind, Plan.fst_trace ih, hrun]
        | ok source => simp only [hkind, Plan.fst_trace ih, hrun]

end Catalog

/-! ### Discipline -/

namespace Construction

/-- A construction that stands in `depth` others behaves as it should under a catalog and with
options: up to level 32 a recipe of the catalog is called, and sees the depth and the options; at
level 33 no recipe is called, and the fault says so. -/
inductive Disciplined (catalog : Catalog W) (options : Options) : Nat → Construction → Prop where
  /-- Up to the limit the fault that is raised is not that of the limit. -/
  | raised {depth : Nat} {f : Fault} (hdepth : depth ≤ 32)
      (hf : ∀ reached limit, f ≠ .tooDeep reached limit) :
      Disciplined catalog options depth (.raised f)
  /-- One level past the limit it is. -/
  | tooDeep : Disciplined catalog options 33 (.raised (.tooDeep 33 32))
  /-- Up to the limit a recipe of the catalog is called. -/
  | called {depth : Nat} {kind : String} {recipe : Recipe W} {args : List String}
      {nested : List Construction} (hdepth : depth ≤ 32)
      (hkind : catalog.find? kind = some recipe)
      (hnested : ∀ c ∈ nested, Disciplined catalog options (depth + 1) c) :
      Disciplined catalog options depth
        (.called ⟨kind, options, catalog.kinds, depth⟩ args nested)

mutual

/-- The settings that recipes see, that of a call before those of the constructions inside. -/
def calls : Construction → List Setting
  | raised _ => []
  | called setting _ nested => setting :: callsIn nested

/-- The settings that recipes see in constructions one after the other. -/
def callsIn : List Construction → List Setting
  | [] => []
  | c :: cs => c.calls ++ callsIn cs

end

theorem mem_callsIn {setting : Setting} {cs : List Construction} :
    setting ∈ callsIn cs ↔ ∃ c ∈ cs, setting ∈ c.calls := by
  induction cs with
  | nil => simp [callsIn]
  | cons c cs ih => simp [callsIn, ih]

theorem Disciplined.setting_of_mem_calls {catalog : Catalog W} {options : Options} {depth : Nat}
    {c : Construction} (h : Disciplined catalog options depth c) {setting : Setting}
    (hmem : setting ∈ c.calls) :
    setting.depth ≤ 32 ∧ setting.options = options ∧ setting.kinds = catalog.kinds := by
  induction h with
  | raised => simp [calls] at hmem
  | tooDeep => simp [calls] at hmem
  | called hdepth hkind hnested ih =>
    rw [calls, List.mem_cons] at hmem
    rcases hmem with rfl | hmem
    · exact ⟨hdepth, rfl, rfl⟩
    · obtain ⟨c, hc, hsetting⟩ := mem_callsIn.1 hmem
      exact ih c hc hsetting

end Construction

theorem Expr.ne_tooDeep_of_parse {text : String} {f : Fault} (h : parse text = .error f)
    (reached limit : Nat) : f ≠ .tooDeep reached limit := by
  rw [parse, split] at h
  split at h
  · cases h
  · rename_i fault _
    obtain rfl := Except.error.inj h
    cases fault <;> exact Fault.noConfusion

theorem Plan.forall_mem_trace {P : Construction → Prop}
    {build : String → W → (Except Fault (Generator W) × W) × Construction}
    (h : ∀ text w, P (build text w).2) (p : Plan W) (w : W) :
    ∀ c ∈ (p.trace build w).2, P c := by
  induction p generalizing w with
  | fail f => exact fun c hc => absurd hc List.not_mem_nil
  | yield source => exact fun c hc => absurd hc List.not_mem_nil
  | act effect rest ih => exact ih _ _
  | nest text rest ih =>
    intro c hc
    rcases List.mem_cons.1 hc with rfl | hc
    · exact h text w
    · exact ih _ _ c hc

/-- **The construction of every generator is disciplined**, whatever its recipes nest: the depth
that a recipe sees is the number of the constructions around it. -/
theorem Catalog.disciplined_traceAt [Host W] (catalog : Catalog W) (options : Options)
    {levels : Nat} (hlevels : levels ≤ maxDepth + 1) (text : String) (w : W) :
    Construction.Disciplined catalog options (maxDepth + 1 - levels)
      (catalog.traceAt options levels text w).2 := by
  induction levels generalizing text w with
  | zero => exact .tooDeep
  | succ levels ih =>
    have hle : maxDepth - levels ≤ 32 := Nat.sub_le _ _
    have hdepth : maxDepth + 1 - (levels + 1) = maxDepth - levels := by omega
    have hnext : maxDepth + 1 - levels = maxDepth - levels + 1 := by omega
    have ih := ih (by omega)
    rw [hnext] at ih
    rw [hdepth]
    cases hparse : Expr.parse text with
    | error f =>
      rw [traceAt_of_fault options hparse]
      exact .raised hle (Expr.ne_tooDeep_of_parse hparse)
    | ok e =>
      cases hkind : catalog.find? e.kind with
      | none =>
        rw [traceAt_of_unknown options hparse hkind]
        exact .raised hle fun _ _ => Fault.noConfusion
      | some recipe =>
        rw [snd_traceAt options hparse hkind]
        exact .called hle hkind (Plan.forall_mem_trace ih _ _)

end RandExpr
