import RandExpr.Catalog.Builtin
import RandExpr.Proofs.Generator.Scripted
import RandExpr.Proofs.Keyed
import RandExpr.Proofs.Text.Order

/-!
# Registrations

What a catalog holds after recipes have been registered one after the other, and what the log says.

## The model

`Catalog.registerAll` registers recipes in order, the same kinds again and those of the built-in
catalog among them. The recipe registered last under a kind (`Catalog.latest?`) is read off the
history from its end; what stood in the catalog before counts where the history does not name the
kind. `Catalog.replacements` goes through the history by the places of the registrations: a kind is
replaced where it was in the catalog before, or is registered at an earlier place.

## What is proved

* `Catalog.find?_registerAll` — the recipe registered last is found.
* `Catalog.registerAll_eq_of_latest?` — a catalog does not depend on anything else in its history.
* `Catalog.snd_registerAll` — the log gets a note for each replacement, in order, and nothing else.
* `Catalog.pairwise_utf8_kinds` — kinds are listed in the order of their bytes.
* `Catalog.registerAll_builtins` — the built-in catalog comes from a history without replacements.
* `Catalog.registrations_lawful` — all of this at once, and what it says about building.
-/

namespace RandExpr

open Keyed (insertAll)

variable {W : Type}

namespace Catalog

/-! ### Contents -/

theorem mem_kinds_iff {catalog : Catalog W} {kind : String} :
    kind ∈ catalog.kinds ↔ (catalog.find? kind).isSome = true :=
  Keyed.mem_keys_iff

/-- **Kinds are listed in the order of their bytes**, none of them twice. -/
theorem pairwise_utf8_kinds (catalog : Catalog W) :
    catalog.kinds.Pairwise fun kind kind' => Text.utf8 kind < Text.utf8 kind' := by
  exact catalog.recipes.pairwise_keys.imp Text.utf8_lt_iff.2

end Catalog

variable [Host W]

/-- Keeps notes one after the other. -/
def Host.noteAll (notes : List Note) (w : W) : W := notes.foldl (fun w n => note n w) w

theorem Host.noteAll_append (notes notes' : List Note) (w : W) :
    noteAll (notes ++ notes') w = noteAll notes' (noteAll notes w) :=
  List.foldl_append

namespace Catalog

/-- Registers recipes one after the other. -/
def registerAll (catalog : Catalog W) : List (String × Recipe W) → W → Catalog W × W
  | [], w => (catalog, w)
  | (kind, recipe) :: calls, w =>
    let (catalog, w) := catalog.register kind recipe w
    catalog.registerAll calls w

/-- The recipe registered last under a kind, or else the one that stood there before. -/
def latest? (catalog : Catalog W) (calls : List (String × Recipe W)) (kind : String) :
    Option (Recipe W) :=
  (calls.reverse.lookup kind).or (catalog.find? kind)

/-- The note about a registration, where the kinds that are there by then are given. -/
def replacement? (present : List String) (kind : String) : Option Note :=
  if kind ∈ present then some (.replaced kind) else none

/-- The notes about a history: one for every registration whose kind is in the catalog before the
history, or is registered at an earlier place. -/
def replacements (catalog : Catalog W) (calls : List (String × Recipe W)) : List Note :=
  calls.zipIdx.filterMap fun entry =>
    replacement? (catalog.kinds ++ (calls.take entry.2).map Prod.fst) entry.1.1

/-- Generators are built, at every depth of nesting, by the recipe that is given for the kind of an
expression, where nested expressions are built in the same way one level deeper. A kind for which no
recipe is given is unknown. -/
def DispatchesBy (catalog : Catalog W) (recipeOf : String → Option (Recipe W)) : Prop :=
  ∀ (options : Options) (levels : Nat) (text : String) (w : W) (e : Expr),
    Expr.parse text = .ok e →
      catalog.buildAt options (levels + 1) text w =
        match recipeOf e.kind with
        | none => (.error (.unknownKind e.kind e.source e.kindSpan), noteShorthand text w)
        | some recipe =>
          match (recipe ⟨e.kind, options, catalog.kinds, maxDepth - levels⟩ e.args).run
              (catalog.buildAt options levels) (noteShorthand text w) with
          | (.error f, w) => (.error f, w)
          | (.ok source, w) => Generator.ofSource e.kind e.args (maxDepth - levels) source w

theorem dispatchesBy_find? (catalog : Catalog W) : catalog.DispatchesBy catalog.find? := by
  intro options levels text w e hparse
  cases hkind : catalog.find? e.kind with
  | none => exact buildAt_of_unknown hparse hkind options levels w
  | some recipe => exact buildAt_of_parse hparse hkind options levels w

/-! ### What is in the catalog -/

theorem registerAll_append (catalog : Catalog W) (calls calls' : List (String × Recipe W)) (w : W) :
    catalog.registerAll (calls ++ calls') w =
      (catalog.registerAll calls w).1.registerAll calls' (catalog.registerAll calls w).2 := by
  induction calls generalizing catalog w with
  | nil => rfl
  | cons call calls ih => exact ih _ _

theorem recipes_registerAll (catalog : Catalog W) (calls : List (String × Recipe W)) (w : W) :
    (catalog.registerAll calls w).1.recipes = catalog.recipes.insertAll calls := by
  induction calls generalizing catalog w with
  | nil => rfl
  | cons call calls ih => exact ih _ _

/-- **The recipe registered last under a kind is found there.** -/
theorem find?_registerAll (catalog : Catalog W) (calls : List (String × Recipe W)) (w : W)
    (kind : String) :
    (catalog.registerAll calls w).1.find? kind = catalog.latest? calls kind := by
  rw [find?, recipes_registerAll, Keyed.find?_insertAll]
  rfl

theorem mem_kinds_registerAll {catalog : Catalog W} {calls : List (String × Recipe W)} {w : W}
    {kind : String} :
    kind ∈ (catalog.registerAll calls w).1.kinds ↔ kind ∈ catalog.kinds ++ calls.map Prod.fst := by
  have hlookup : (calls.reverse.lookup kind).isSome = true ↔ kind ∈ calls.map Prod.fst := by
    simp [eq_comm (a := kind)]
  rw [mem_kinds_iff, find?_registerAll, latest?, Option.isSome_or, Bool.or_eq_true, hlookup,
    List.mem_append, mem_kinds_iff, or_comm]

/-- **Histories with the same recipes registered last lead to the same catalog.** A recipe that is
replaced leaves no trace in it. -/
theorem registerAll_eq_of_latest? {catalog catalog' : Catalog W}
    {calls calls' : List (String × Recipe W)}
    (h : ∀ kind, catalog.latest? calls kind = catalog'.latest? calls' kind) (w w' : W) :
    (catalog.registerAll calls w).1 = (catalog'.registerAll calls' w').1 := by
  have hrecipes : (catalog.registerAll calls w).1.recipes =
      (catalog'.registerAll calls' w').1.recipes := by
    apply Keyed.ext_find?
    intro kind
    have hkind := h kind
    rw [← find?_registerAll catalog calls w, ← find?_registerAll catalog' calls' w'] at hkind
    exact hkind
  exact congrArg Catalog.mk hrecipes

/-! ### What is in the log -/

omit [Host W] in
theorem replacements_append_singleton (catalog : Catalog W) (calls : List (String × Recipe W))
    (call : String × Recipe W) :
    catalog.replacements (calls ++ [call]) = catalog.replacements calls ++
      (replacement? (catalog.kinds ++ calls.map Prod.fst) call.1).toList := by
  have hbefore : (calls.zipIdx.filterMap fun entry =>
      replacement? (catalog.kinds ++ ((calls ++ [call]).take entry.2).map Prod.fst) entry.1.1) =
        catalog.replacements calls := by
    refine List.filterMap_congr fun entry hentry => ?_
    obtain ⟨hlt, -⟩ := List.getElem?_eq_some_iff.1 (List.mem_zipIdx_iff_getElem?.1 hentry)
    rw [List.take_append_of_le_length (Nat.le_of_lt hlt)]
  have hlast : (([call].zipIdx calls.length).filterMap fun entry =>
      replacement? (catalog.kinds ++ ((calls ++ [call]).take entry.2).map Prod.fst) entry.1.1) =
        (replacement? (catalog.kinds ++ calls.map Prod.fst) call.1).toList := by
    rw [List.zipIdx_singleton, List.filterMap_cons, List.filterMap_nil, List.take_left]
    cases replacement? (catalog.kinds ++ calls.map Prod.fst) call.1 <;> rfl
  rw [replacements, List.zipIdx_append, Nat.zero_add, List.filterMap_append, hbefore, hlast]

theorem snd_register (catalog : Catalog W) (kind : String) (recipe : Recipe W) (w : W) :
    (catalog.register kind recipe w).2 =
      Host.noteAll (replacement? catalog.kinds kind).toList w := by
  have hcontains : catalog.contains kind = true ↔ kind ∈ catalog.kinds := mem_kinds_iff.symm
  simp only [register, replacement?, hcontains]
  split_ifs <;> rfl

/-- **The log gets a note for each replacement**, in order, and nothing else happens. -/
theorem snd_registerAll (catalog : Catalog W) (calls : List (String × Recipe W)) (w : W) :
    (catalog.registerAll calls w).2 = Host.noteAll (catalog.replacements calls) w := by
  induction calls using List.reverseRecOn with
  | nil => rfl
  | append_singleton calls call ih =>
    have hpresent : replacement? (catalog.registerAll calls w).1.kinds call.1 =
        replacement? (catalog.kinds ++ calls.map Prod.fst) call.1 := by
      simp only [replacement?, mem_kinds_registerAll]
    rw [registerAll_append, replacements_append_singleton, Host.noteAll_append, ← ih, ← hpresent]
    exact snd_register _ _ _ _

/-! ### Histories -/

/-- The recipes that a built-in catalog is made of, in the order in which they are registered. -/
def builtins : List (String × Recipe W) :=
  [("number", Recipe.number), ("char", Recipe.character), ("literal", Recipe.literal),
    ("repeat", Recipe.repeated)]

/-- The built-in catalog comes from an empty one, and nothing is replaced on the way. -/
theorem registerAll_builtins (w : W) :
    (empty : Catalog W).registerAll builtins w = (builtin, w) := by
  have hnotes : (empty : Catalog W).replacements builtins = [] := by rfl
  refine Prod.ext rfl ?_
  rw [snd_registerAll, hnotes]
  rfl

/-- **After every history** the recipe registered last under a kind is the one that is found, and
the one that builds at every depth, and nothing else of the history counts; what is contained, what
is found and what is listed are the same kinds; they are listed in the order of their bytes; and the
log has a line for each replacement, in order, and no other. -/
theorem registrations_lawful (catalog : Catalog W) (calls : List (String × Recipe W)) (w : W) :
    let final := (catalog.registerAll calls w).1
    (∀ kind, final.find? kind = catalog.latest? calls kind) ∧
      final.DispatchesBy (catalog.latest? calls) ∧
      (∀ (catalog' : Catalog W) (calls' : List (String × Recipe W)) (w' : W),
        (∀ kind, catalog.latest? calls kind = catalog'.latest? calls' kind) →
          final = (catalog'.registerAll calls' w').1) ∧
      (∀ kind, (final.contains kind = true ↔ (final.find? kind).isSome = true) ∧
        (final.contains kind = true ↔ kind ∈ final.kinds)) ∧
      (final.kinds.Pairwise fun kind kind' => Text.utf8 kind < Text.utf8 kind') ∧
      (catalog.registerAll calls w).2 = Host.noteAll (catalog.replacements calls) w ∧
      ∀ kind, (Note.replaced kind).level = .debug ∧
        (Note.replaced kind).text = "replaced factory for generator type " ++ Text.quoted kind := by
  intro final
  have hfind : final.find? = catalog.latest? calls := funext (find?_registerAll catalog calls w)
  refine ⟨congrFun hfind, hfind ▸ dispatchesBy_find? final,
    fun catalog' calls' w' h => registerAll_eq_of_latest? h w w',
    fun kind => ⟨Iff.rfl, mem_kinds_iff.symm⟩, pairwise_utf8_kinds final,
    snd_registerAll catalog calls w, fun kind => ⟨rfl, rfl⟩⟩

/-- A built-in kind is registered again, twice, and builds what is nested one level deep. -/
theorem registrations_lawful_number :
    let calls : List (String × Recipe Diary) :=
      [("number", Recipe.character), ("dice", Recipe.number), ("number", Recipe.literal)]
    let final := (builtin.registerAll calls ⟨[]⟩).1
    final.find? "number" = some Recipe.literal ∧
      final.buildAt .empty 32 "5-7" ⟨[]⟩ = Generator.ofSource "number" ["5-7"] 1
        (Recipe.constant (.text "5-7")) ⟨[.expanded "5-7" "number:5-7"]⟩ ∧
      final.contains "dice" = true ∧
      (builtin.registerAll calls ⟨[]⟩).2.notes = [.replaced "number", .replaced "number"] := by
  intro calls final
  have hparse : Expr.parse "5-7" = .ok ⟨"number:5-7", "number", ["5-7"], ⟨0, 6⟩⟩ := by rfl
  have hlatest : (builtin : Catalog Diary).latest? calls "number" = some Recipe.literal := by rfl
  obtain ⟨hfind, hdispatches, -, hpresent, -, hlog, -⟩ := registrations_lawful builtin calls ⟨[]⟩
  refine ⟨(hfind "number").trans hlatest, ?_, ?_, ?_⟩
  · rw [hdispatches .empty 31 "5-7" ⟨[]⟩ _ hparse]
    simp only [hlatest]
    rfl
  · exact (hpresent "dice").1.2 (by rw [hfind]; rfl)
  · rw [hlog]
    rfl

end Catalog

end RandExpr
