import RandExpr.Catalog.Builtin
import Mathlib.Tactic.SplitIfs

/-!
# Watched surroundings

A record of what happens while a generator is built.

## The model

Watched surroundings (`Watched`) are surroundings with a list of deeds, the latest first. The
recipes of the host's own that are meant here nest nothing (`LeafRecipe`). Such a recipe, and every
source and every delivery that comes from it, is put into watched surroundings by letting it act on
the surroundings inside (`Plan.watched`, `Source.watched`, `Delivery.watched`), so it can neither
read the record nor change it. Its calls are recorded, and the faults that it or one of its sources
hands back.

`Catalog.extended` is the built-in catalog with such recipes under other kinds. `Catalog.watched` is
the same catalog in watched surroundings: the same four recipes, the host's own put into them, and
every draw from a source recorded, whatever recipe it is of (`Recipe.recorded`).

## What is proved

* `find?_extended`, `find?_watched` — what is found in the two catalogs under a kind.
* `kinds_watched` — both have the same kinds.
* `run_mapSource`, `run_watched` — how the plans are carried out in watched surroundings.
-/

namespace RandExpr

universe u v

/-! ### Maps of keyed values -/

namespace Keyed

variable {α : Type u} {β : Type v}

/-- Replaces every value by what becomes of it under its key. -/
def map (f : String → α → β) (m : Keyed α) : Keyed β :=
  ⟨m.entries.map fun e => (e.1, f e.1 e.2), by
    rw [Increasing, List.pairwise_map]
    exact m.increasing⟩

theorem find?_map (f : String → α → β) (m : Keyed α) (key : String) :
    (m.map f).find? key = (m.find? key).map (f key) := by
  simp only [find?, map, List.find?_map, Option.map_map]
  cases h : m.entries.find? ((fun e => e.1 == key) ∘ fun e => (e.1, f e.1 e.2)) with
  | none =>
    have h : m.entries.find? (fun e => e.1 == key) = none := h
    rw [h]
    rfl
  | some e =>
    have h : m.entries.find? (fun e => e.1 == key) = some e := h
    have hkey : e.1 = key := by simpa using List.find?_some h
    rw [h, ← hkey]
    rfl

theorem keys_map (f : String → α → β) (m : Keyed α) : (m.map f).keys = m.keys := by
  simp [keys, map]

theorem keys_insert_congr {m : Keyed α} {m' : Keyed β} (h : m.keys = m'.keys) (key : String) (a : α)
    (b : β) : (m.insert key a).keys = (m'.insert key b).keys := by
  obtain ⟨entries, hincreasing⟩ := m
  obtain ⟨entries', hincreasing'⟩ := m'
  simp only [keys, insert] at h ⊢
  clear hincreasing hincreasing'
  induction entries generalizing entries' with
  | nil =>
    obtain rfl : entries' = [] := by simpa using h.symm
    rfl
  | cons e entries ih =>
    cases entries' with
    | nil => simp at h
    | cons e' entries' =>
      obtain ⟨hkey, hrest⟩ : e.1 = e'.1 ∧ _ := List.cons.inj h
      simp only [insertEntry, hkey]
      split_ifs
      · simp [hrest]
      · simp [hrest]
      · simp [ih _ hrest]

end Keyed

/-! ### Deeds -/

/-- Something that happens while a generator is built. -/
inductive Deed where
  /-- A recipe of the host's own is called. -/
  | called (kind : String)
  /-- The source of a generator of the kind is drawn from. -/
  | drawn (kind : String)
  /-- A recipe or a source of the host's own hands back a fault. -/
  | handedBack (f : Fault)
  deriving DecidableEq, Repr

/-- Surroundings with a record of deeds, the latest first. -/
structure Watched (W : Type) where
  /-- The surroundings inside. -/
  world : W
  /-- The deeds so far. -/
  deeds : List Deed

variable {W : Type}

namespace Watched

/-- Records a deed. -/
def record (deed : Deed) (w : Watched W) : Watched W := { w with deeds := deed :: w.deeds }

/-- Does something to the surroundings inside. -/
def inside {α : Type} (effect : W → α × W) (w : Watched W) : α × Watched W :=
  ((effect w.world).1, { w with world := (effect w.world).2 })

end Watched

instance [Host W] : Host (Watched W) where
  note := fun n w => { w with world := Host.note n w.world }
  entropy := Watched.inside Host.entropy

/-! ### Deliveries and sources -/

namespace Delivery

mutual

/-- A delivery of the host's, acting on the surroundings inside. -/
def watched : Delivery W → Delivery (Watched W)
  | now v => now v
  | wait polls onPoll => wait polls fun n => Watched.inside (onPoll n)
  | join parts => join (watchedParts parts)
  | tap inner callback => tap inner.watched fun v w => { w with world := callback v w.world }

/-- Deliveries of the host's, acting on the surroundings inside. -/
def watchedParts : List (Delivery W) → List (Delivery (Watched W))
  | [] => []
  | d :: ds => d.watched :: watchedParts ds

end

theorem watchedParts_eq_map (ds : List (Delivery W)) : watchedParts ds = ds.map watched := by
  induction ds with
  | nil => rw [watchedParts, List.map_nil]
  | cons d ds ih => rw [watchedParts, List.map_cons, ih]

@[simp] theorem isLate_watched (d : Delivery W) : d.watched.isLate = d.isLate := by
  cases d <;> rw [watched] <;> rfl

@[simp] theorem value?_watched (d : Delivery W) : d.watched.value? = d.value? := by
  cases d <;> rw [watched] <;> rfl

theorem values?_map_watched (ds : List (Delivery W)) : values? (ds.map watched) = values? ds := by
  induction ds with
  | nil => rfl
  | cons d ds ih => rw [List.map_cons, values?_cons, values?_cons, value?_watched, ih]

theorem gather_map_watched (ds : List (Delivery W)) :
    gather (ds.map watched) = (gather ds).watched := by
  rw [gather, gather, values?_map_watched]
  cases values? ds with
  | none =>
    simp only
    rw [watched, watchedParts_eq_map]
  | some vs =>
    simp only
    rw [watched]

end Delivery

namespace Source

/-- A source of the host's, acting on the surroundings inside. A fault that it hands back is
recorded. -/
def watched (S : Source W) : Source (Watched W) where
  State := S.State
  state := S.state
  pull := fun s w =>
    match S.pull s w.world with
    | (.ok d, s, world) => (.ok d.watched, s, { w with world })
    | (.error f, s, world) => (.error f, s, ⟨world, .handedBack f :: w.deeds⟩)
  held := fun s => (S.held s).map Delivery.watched

/-- A source whose draws are recorded. -/
def recorded (kind : String) (S : Source (Watched W)) : Source (Watched W) :=
  { S with pull := fun s w => S.pull s (w.record (.drawn kind)) }

end Source

/-! ### Plans and recipes -/

namespace Plan

/-- The plan nests nothing. -/
def IsLeaf : Plan W → Prop
  | fail _ | yield _ => True
  | act _ rest => ∀ a, (rest a).IsLeaf
  | nest _ _ => False

/-- A plan of the host's that nests nothing, acting on the surroundings inside. A fault that it ends
in is recorded. -/
def watched : (p : Plan W) → p.IsLeaf → Plan (Watched W)
  | fail f, _ => act (fun w => ((), w.record (.handedBack f))) fun _ => fail f
  | yield S, _ => yield S.watched
  | act effect rest, h => act (Watched.inside effect) fun a => (rest a).watched (h a)
  | nest _ _, h => h.elim

/-- The plan with another source in place of the one it yields. -/
def mapSource (change : Source W → Source W) : Plan W → Plan W
  | fail f => fail f
  | yield S => yield (change S)
  | act effect rest => act effect fun a => (rest a).mapSource change
  | nest text rest => nest text fun result => (rest result).mapSource change

theorem run_mapSource (change : Source W → Source W)
    (build : String → W → Except Fault (Generator W) × W) (p : Plan W) (w : W) :
    (p.mapSource change).run build w = ((p.run build w).1.map change, (p.run build w).2) := by
  induction p generalizing w with
  | fail f => rfl
  | yield S => rfl
  | act effect rest ih => exact ih _ _
  | nest text rest ih => exact ih _ _

/-- **A plan of the host's does the same in watched surroundings**, and its fault is recorded. -/
theorem run_watched (build : String → W → Except Fault (Generator W) × W)
    (build' : String → Watched W → Except Fault (Generator (Watched W)) × Watched W) (p : Plan W)
    (h : p.IsLeaf) (w : W) (deeds : List Deed) :
    (p.watched h).run build' ⟨w, deeds⟩ =
      match p.run build w with
      | (.ok S, v) => (.ok S.watched, ⟨v, deeds⟩)
      | (.error f, v) => (.error f, ⟨v, .handedBack f :: deeds⟩) := by
  induction p generalizing w with
  | fail f => rfl
  | yield S => rfl
  | act effect rest ih => exact ih _ (h _) _
  | nest text rest => exact h.elim

end Plan

theorem Plan.isLeaf_watched (p : Plan W) (h : p.IsLeaf) : (p.watched h).IsLeaf := by
  induction p with
  | fail f => exact fun _ => trivial
  | yield S => trivial
  | act effect rest ih => exact fun a => ih a (h a)
  | nest text rest => exact h.elim

/-- A recipe of the host's own that nests nothing. -/
structure LeafRecipe (W : Type) : Type 1 where
  /-- The recipe. -/
  recipe : Recipe W
  /-- It nests nothing. -/
  isLeaf : ∀ setting args, (recipe setting args).IsLeaf

/-- A recipe of the host's own, acting on the surroundings inside. Its calls are recorded. -/
def LeafRecipe.watched (kind : String) (leaf : LeafRecipe W) : LeafRecipe (Watched W) where
  recipe := fun setting args =>
    .act (fun w => ((), w.record (.called kind))) fun _ =>
      (leaf.recipe setting args).watched (leaf.isLeaf setting args)
  isLeaf := fun setting args _ => Plan.isLeaf_watched _ (leaf.isLeaf setting args)

/-- A recipe with every draw from its sources recorded. -/
def Recipe.recorded (kind : String) (recipe : Recipe (Watched W)) : Recipe (Watched W) :=
  fun setting args => (recipe setting args).mapSource (Source.recorded kind)

/-! ### Catalogs -/

namespace Catalog

variable [Host W]

/-- The built-in catalog, with recipes of the host's own under other kinds. -/
def extended (own : Keyed (LeafRecipe W)) : Catalog W :=
  (((insert ⟨own.map fun _ leaf => leaf.recipe⟩ "number" Recipe.number).insert
    "char" Recipe.character).insert "literal" Recipe.literal).insert "repeat" Recipe.repeated

/-- The catalog in watched surroundings. -/
def watched (own : Keyed (LeafRecipe W)) : Catalog (Watched W) :=
  ⟨(extended (own.map LeafRecipe.watched)).recipes.map Recipe.recorded⟩

variable (own : Keyed (LeafRecipe W))

theorem extended_empty : extended .empty = (builtin : Catalog W) := rfl

/-- Under the four built-in kinds stand the built-in recipes, and under the others the host's. -/
theorem find?_extended (kind : String) : (extended own).find? kind =
    if kind = "repeat" then some Recipe.repeated
    else if kind = "literal" then some Recipe.literal
    else if kind = "char" then some Recipe.character
    else if kind = "number" then some Recipe.number
    else (own.find? kind).map LeafRecipe.recipe := by
  simp only [extended, find?, insert, Keyed.find?_insert, Keyed.find?_map]

theorem find?_watched (kind : String) : (watched own).find? kind =
    ((extended (own.map LeafRecipe.watched)).find? kind).map (Recipe.recorded kind) :=
  Keyed.find?_map _ _ _

theorem kinds_watched : (watched own).kinds = (extended own).kinds := by
  have hown : (own.map fun _ leaf => leaf.recipe).keys =
      ((own.map LeafRecipe.watched).map fun _ leaf => leaf.recipe).keys := by
    rw [Keyed.keys_map, Keyed.keys_map, Keyed.keys_map]
  rw [kinds, watched, Keyed.keys_map]
  exact (Keyed.keys_insert_congr (Keyed.keys_insert_congr (Keyed.keys_insert_congr
    (Keyed.keys_insert_congr hown _ _ _) _ _ _) _ _ _) _ _ _).symm

end Catalog

end RandExpr
