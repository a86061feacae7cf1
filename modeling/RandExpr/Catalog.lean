import RandExpr.Expr.Basic
import RandExpr.Generator
import RandExpr.Keyed
import RandExpr.Options

/-!
# Catalogs

The recipes from which generators are built, filed under the kinds that expressions name.

## The model

A recipe (`Recipe`) gets its setting and the arguments, and answers with a plan (`Plan`): a fault,
a source, something done to the surroundings, or the wish to have a nested expression built. Plans
are data, so what a recipe can do is fixed: it builds nested generators only through the catalog it
stands in, one level deeper, and gets the same options. `Catalog.buildAt` works with the number of
levels that may still be nested, which is why building always ends.
-/

namespace RandExpr

/-- What a recipe knows of the place where it is used. -/
structure Setting where
  /-- The kind under which the recipe was found. -/
  kind : String
  /-- The options of the outermost generator. -/
  options : Options
  /-- The kinds in the catalog, in increasing order. -/
  kinds : List String
  /-- How many generators are being built around this one. -/
  depth : Nat

/-- The argument at a place. -/
def Setting.arg (setting : Setting) (args : List String) (index : Nat) (what : String) :
    Except Fault String :=
  match args[index]? with
  | some arg => .ok arg
  | none => .error (.refused setting.kind (.missing what))

/-- What a recipe answers with. -/
inductive Plan (W : Type) : Type 1 where
  /-- No generator is to be built. -/
  | fail (f : Fault)
  /-- A generator is to be built over the source. -/
  | yield (source : Source W)
  /-- Something is to be done to the surroundings first. -/
  | act {α : Type} (effect : W → α × W) (rest : α → Plan W)
  /-- A nested expression is to be built first. -/
  | nest (text : String) (rest : Except Fault (Generator W) → Plan W)

namespace Plan

variable {W : Type}

/-- Goes on with what has been found out, or fails. -/
def ofExcept {α : Type} (result : Except Fault α) (rest : α → Plan W) : Plan W :=
  match result with
  | .ok a => rest a
  | .error f => fail f

/-- Goes on with the generator of a nested expression, or fails. -/
def nested (text : String) (rest : Generator W → Plan W) : Plan W :=
  nest text fun
    | .ok g => rest g
    | .error f => fail f

/-- Carries a plan out, where `build` builds nested expressions. -/
def run (build : String → W → Except Fault (Generator W) × W) :
    Plan W → W → Except Fault (Source W) × W
  | fail f, w => (.error f, w)
  | yield source, w => (.ok source, w)
  | act effect rest, w =>
    let (a, w) := effect w
    (rest a).run build w
  | nest text rest, w =>
    let (result, w) := build text w
    (rest result).run build w

end Plan

/-- How generators of a kind are built. -/
abbrev Recipe (W : Type) : Type 1 := Setting → List String → Plan W

/-- Recipes under kinds. -/
structure Catalog (W : Type) : Type 1 where
  /-- The kinds and their recipes. -/
  recipes : Keyed (Recipe W) := {}

namespace Catalog

variable {W : Type}

/-- No recipes. -/
def empty : Catalog W := {}

/-- The recipe of a kind. -/
def find? (catalog : Catalog W) (kind : String) : Option (Recipe W) := catalog.recipes.find? kind

/-- Whether there is a recipe for a kind. -/
def contains (catalog : Catalog W) (kind : String) : Bool := catalog.recipes.contains kind

/-- The kinds, in increasing order. -/
def kinds (catalog : Catalog W) : List String := catalog.recipes.keys

/-- A catalog as shown in diagnostics. -/
def inspect (catalog : Catalog W) : String :=
  Text.record "Registry" [("types", Text.listed (catalog.kinds.map Text.quoted))]

/-- A catalog with a recipe more, without a note. -/
def insert (catalog : Catalog W) (kind : String) (recipe : Recipe W) : Catalog W :=
  ⟨catalog.recipes.insert kind recipe⟩

variable [Host W]

/-- Files a recipe under a kind, and notes when it replaces another. -/
def register (catalog : Catalog W) (kind : String) (recipe : Recipe W) (w : W) : Catalog W × W :=
  (catalog.insert kind recipe,
    if catalog.contains kind then Host.note (.replaced kind) w else w)

/-- Notes that a text is a shorthand, if it is one. -/
def noteShorthand (text : String) (w : W) : W :=
  match Shorthand.classify text with
  | some shorthand => Host.note (.expanded text shorthand.canonical) w
  | none => w

/-- Takes an expression apart and carries the plan of its recipe out, at a depth of nesting, where
`build` builds nested expressions. Nothing has been drawn from the source yet. -/
def prepare (catalog : Catalog W) (options : Options)
    (build : String → W → Except Fault (Generator W) × W) (depth : Nat) (text : String) (w : W) :
    Except Fault (Expr × Source W) × W :=
  let w := noteShorthand text w
  match Expr.parse text with
  | .error f => (.error f, w)
  | .ok e =>
    match catalog.find? e.kind with
    | none => (.error (.unknownKind e.kind e.source e.kindSpan), w)
    | some recipe =>
      match (recipe ⟨e.kind, options, catalog.kinds, depth⟩ e.args).run build w with
      | (.error f, w) => (.error f, w)
      | (.ok source, w) => (.ok (e, source), w)

theorem prepare_of_parse {catalog : Catalog W} {text : String} {e : Expr} {recipe : Recipe W}
    (hparse : Expr.parse text = .ok e) (hkind : catalog.find? e.kind = some recipe)
    (options : Options) (build : String → W → Except Fault (Generator W) × W) (depth : Nat)
    (w : W) :
    catalog.prepare options build depth text w =
      match (recipe ⟨e.kind, options, catalog.kinds, depth⟩ e.args).run build
          (noteShorthand text w) with
      | (.error f, w) => (.error f, w)
      | (.ok source, w) => (.ok (e, source), w) := by
  rw [prepare, hparse]
  simp only [hkind]

theorem prepare_of_fault {text : String} {f : Fault} (hparse : Expr.parse text = .error f)
    (catalog : Catalog W) (options : Options)
    (build : String → W → Except Fault (Generator W) × W) (depth : Nat) (w : W) :
    catalog.prepare options build depth text w = (.error f, noteShorthand text w) := by
  rw [prepare, hparse]

theorem prepare_of_unknown {catalog : Catalog W} {text : String} {e : Expr}
    (hparse : Expr.parse text = .ok e) (hkind : catalog.find? e.kind = none) (options : Options)
    (build : String → W → Except Fault (Generator W) × W) (depth : Nat) (w : W) :
    catalog.prepare options build depth text w =
      (.error (.unknownKind e.kind e.source e.kindSpan), noteShorthand text w) := by
  rw [prepare, hparse]
  simp only [hkind]

-- reducing it would run the parser on a text that is not known
attribute [irreducible] prepare

/-- Builds the generator of an expression, where `levels` more generators may be nested. -/
def buildAt (catalog : Catalog W) (options : Options) :
    (levels : Nat) → String → W → Except Fault (Generator W) × W
  | 0, _, w => (.error (.tooDeep (maxDepth + 1) maxDepth), w)
  | levels + 1, text, w =>
    let depth := maxDepth - levels
    match catalog.prepare options (catalog.buildAt options levels) depth text w with
    | (.error f, w) => (.error f, w)
    | (.ok (e, source), w) => Generator.ofSource e.kind e.args depth source w

theorem buildAt_of_parse {catalog : Catalog W} {text : String} {e : Expr} {recipe : Recipe W}
    (hparse : Expr.parse text = .ok e) (hkind : catalog.find? e.kind = some recipe)
    (options : Options) (levels : Nat) (w : W) :
    catalog.buildAt options (levels + 1) text w =
      match (recipe ⟨e.kind, options, catalog.kinds, maxDepth - levels⟩ e.args).run
          (catalog.buildAt options levels) (noteShorthand text w) with
      | (.error f, w) => (.error f, w)
      | (.ok source, w) => Generator.ofSource e.kind e.args (maxDepth - levels) source w := by
  obtain ⟨r, w', hrun⟩ : ∃ r w',
      (recipe ⟨e.kind, options, catalog.kinds, maxDepth - levels⟩ e.args).run
        (catalog.buildAt options levels) (noteShorthand text w) = (r, w') := ⟨_, _, rfl⟩
  rw [buildAt, prepare_of_parse hparse hkind, hrun]
  cases r <;> rfl

theorem buildAt_of_fault {text : String} {f : Fault} (hparse : Expr.parse text = .error f)
    (catalog : Catalog W) (options : Options) (levels : Nat) (w : W) :
    catalog.buildAt options (levels + 1) text w = (.error f, noteShorthand text w) := by
  rw [buildAt, prepare_of_fault hparse]

theorem buildAt_of_unknown {catalog : Catalog W} {text : String} {e : Expr}
    (hparse : Expr.parse text = .ok e) (hkind : catalog.find? e.kind = none) (options : Options)
    (levels : Nat) (w : W) :
    catalog.buildAt options (levels + 1) text w =
      (.error (.unknownKind e.kind e.source e.kindSpan), noteShorthand text w) := by
  rw [buildAt, prepare_of_unknown hparse hkind]

/-- Builds the generator of an expression. -/
def build (catalog : Catalog W) (options : Options) (text : String) (w : W) :
    Except Fault (Generator W) × W :=
  catalog.buildAt options (maxDepth + 1) text w

end Catalog

end RandExpr
