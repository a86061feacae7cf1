import RandExpr.Options
import RandExpr.Proofs.Keyed

/-!
# Ordered documents

Every document that is read has its objects in order.

## The model

The machine that reads JSON has documents in its hands that are not whole yet: the items and fields
of what is still open. `Reader.Ordered` says that they are ordered. Reading YAML passes the items
and fields of an open collection on from step to step; `Yaml.ReadsOrdered` says of all its functions
at once that what they give is ordered if what they are given is.

## What is proved

* `Reader.Ordered.step`, `Reader.Ordered.run` — one token keeps the machine ordered, and so all do.
* `Document.ordered_of_read?` — a document that is read from JSON is ordered.
* `Yaml.readsOrdered` — every function that reads YAML gives ordered documents, by the steps left.
* `Yaml.ordered_of_readMapping?` — a mapping that is read from YAML is ordered.
-/

namespace RandExpr

namespace Document

theorem orderedItems_iff {items : List Document} : orderedItems items ↔ ∀ d ∈ items, d.ordered := by
  induction items with
  | nil => simp [orderedItems]
  | cons d ds ih => rw [orderedItems, ih, List.forall_mem_cons]

theorem orderedFields_iff {fields : List (String × Document)} :
    orderedFields fields ↔ ∀ f ∈ fields, f.2.ordered := by
  induction fields with
  | nil => simp [orderedFields]
  | cons f fs ih => rw [orderedFields, ih, List.forall_mem_cons]

theorem ordered_leaf (l : Leaf) : (leaf l).ordered := trivial

theorem ordered_array {items : List Document} (h : ∀ d ∈ items, d.ordered) :
    (array items).ordered :=
  orderedItems_iff.2 h

theorem ordered_object {fields : Keyed Document} (h : ∀ f ∈ fields.entries, f.2.ordered) :
    (object fields.entries).ordered :=
  ⟨fields.increasing, orderedFields_iff.2 h⟩

end Document

/-! ### JSON -/

/-- What an array or an object holds so far is ordered. -/
def Frame.Ordered : Frame → Prop
  | array items => ∀ d ∈ items, d.ordered
  | object fields _ => ∀ f ∈ fields.entries, f.2.ordered

namespace Reader

/-- Everything that has been read so far is ordered. -/
def Ordered : Reader → Prop
  | value frames | firstItem frames | firstKey frames => ∀ f ∈ frames, f.Ordered
  | key frames fields | colon frames fields _ =>
    (∀ f ∈ frames, f.Ordered) ∧ ∀ f ∈ fields.entries, f.2.ordered
  | after frames d => (∀ f ∈ frames, f.Ordered) ∧ d.ordered

theorem ordered_beginValue {frames : List Frame} {t : Token} {next : Reader}
    (h : ∀ f ∈ frames, f.Ordered) (hnext : beginValue frames t = some next) : next.Ordered := by
  cases t with
  | leaf l =>
    cases hnext
    exact ⟨h, trivial⟩
  | openArray | openObject =>
    obtain ⟨-, rfl⟩ : _ ∧ _ = next := by simpa [beginValue] using hnext
    exact h
  | closeArray | closeObject | colon | comma => cases hnext

theorem ordered_endValue {frames : List Frame} {d : Document} {t : Token} {next : Reader}
    (h : ∀ f ∈ frames, f.Ordered) (hd : d.ordered) (hnext : endValue frames d t = some next) :
    next.Ordered := by
  unfold endValue at hnext
  split at hnext
  next items outer =>
    cases hnext
    obtain ⟨hitems, houter⟩ := List.forall_mem_cons.1 h
    exact List.forall_mem_cons.2 ⟨List.forall_mem_cons.2 ⟨hd, hitems⟩, houter⟩
  next items outer =>
    cases hnext
    obtain ⟨hitems, houter⟩ := List.forall_mem_cons.1 h
    refine ⟨houter, Document.ordered_array fun e he => ?_⟩
    exact List.forall_mem_cons.2 ⟨hd, hitems⟩ e (List.mem_reverse.1 he)
  next fields k outer =>
    cases hnext
    obtain ⟨hfields, houter⟩ := List.forall_mem_cons.1 h
    exact ⟨houter, Keyed.forall_entries_insert hfields k hd⟩
  next fields k outer =>
    cases hnext
    obtain ⟨hfields, houter⟩ := List.forall_mem_cons.1 h
    exact ⟨houter, Document.ordered_object (Keyed.forall_entries_insert hfields k hd)⟩
  next => cases hnext

/-- **One token keeps everything ordered.** -/
theorem Ordered.step {reader next : Reader} {t : Token} (h : reader.Ordered)
    (hnext : reader.step t = some next) : next.Ordered := by
  unfold Reader.step at hnext
  split at hnext
  next frames t => exact ordered_beginValue h hnext
  next frames =>
    cases hnext
    exact ⟨h, trivial⟩
  next frames t _ =>
    have hempty : Frame.Ordered (.array []) := List.forall_mem_nil _
    exact ordered_beginValue (List.forall_mem_cons.2 ⟨hempty, h⟩) hnext
  next frames =>
    cases hnext
    exact ⟨h, List.Pairwise.nil, trivial⟩
  next frames k =>
    cases hnext
    exact ⟨h, List.forall_mem_nil _⟩
  next => cases hnext
  next frames fields k =>
    cases hnext
    exact h
  next => cases hnext
  next frames fields k =>
    cases hnext
    exact List.forall_mem_cons.2 ⟨h.2, h.1⟩
  next => cases hnext
  next frames d t => exact ordered_endValue h.1 h.2 hnext

/-- **And so do all tokens of a text.** -/
theorem Ordered.run {reader last : Reader} {ts : List Token} (h : reader.Ordered)
    (hlast : reader.run ts = some last) : last.Ordered := by
  induction ts generalizing reader with
  | nil =>
    obtain rfl := Option.some.inj hlast
    exact h
  | cons t ts ih =>
    obtain ⟨next, hnext, hrun⟩ := Option.bind_eq_some_iff.1 hlast
    exact ih (h.step hnext) hrun

end Reader

/-- **A document that is read from JSON is ordered.** -/
theorem Document.ordered_of_read? {text : String} {d : Document} (h : read? text = some d) :
    d.ordered := by
  obtain ⟨ts, -, hread⟩ := Option.bind_eq_some_iff.1 h
  obtain ⟨last, hrun, hd⟩ := Option.bind_eq_some_iff.1 hread
  have hfirst : (Reader.value []).Ordered := List.forall_mem_nil _
  have hlast : last.Ordered := hfirst.run hrun
  unfold Reader.document? at hd
  split at hd
  next =>
    cases hd
    exact hlast.2
  next => cases hd

/-! ### YAML -/

namespace Yaml

/-- A function that reads a document gives an ordered one, if it gives any. -/
def Orderly (read : Option (Document × List Token)) : Prop :=
  ∀ d rest, read = some (d, rest) → d.ordered

theorem orderly_none : Orderly none := nofun

theorem orderly_some {d : Document} (h : d.ordered) (rest : List Token) :
    Orderly (some (d, rest)) := by
  rintro _ _ ⟨⟩
  exact h

theorem orderly_bind {α : Type} {first : Option α} {read : α → Option (Document × List Token)}
    (h : ∀ a, first = some a → Orderly (read a)) : Orderly (first.bind read) := by
  intro d rest hread
  obtain ⟨a, ha, hd⟩ := Option.bind_eq_some_iff.1 hread
  exact h a ha d rest hd

/-- Everything that reads YAML in so many steps gives ordered documents, if the items and fields
that it goes on from are ordered. -/
structure ReadsOrdered (steps : Nat) : Prop where
  /-- A document. -/
  node : ∀ room items ts, Orderly (node steps room items ts)
  /-- A document that may be left out. -/
  nodeBefore : ∀ room items follows ts, Orderly (nodeBefore steps room items follows ts)
  /-- What stands under a key. -/
  valueBefore : ∀ room items follows ts, Orderly (valueBefore steps room items follows ts)
  /-- The items of a block sequence. -/
  blockItems : ∀ room items ts, (∀ d ∈ items, d.ordered) →
    Orderly (blockItems steps room items ts)
  /-- The items of a sequence in the column of its key. -/
  bareItems : ∀ room items ts, (∀ d ∈ items, d.ordered) → Orderly (bareItems steps room items ts)
  /-- The fields of a block mapping. -/
  blockFields : ∀ room fields ts, (∀ f ∈ fields.entries, f.2.ordered) →
    Orderly (blockFields steps room fields ts)
  /-- The items between brackets. -/
  flowItems : ∀ room ready items ts, (∀ d ∈ items, d.ordered) →
    Orderly (flowItems steps room ready items ts)
  /-- The fields between braces. -/
  flowFields : ∀ room ready fields ts, (∀ f ∈ fields.entries, f.2.ordered) →
    Orderly (flowFields steps room ready fields ts)

theorem ordered_reversed {items : List Document} (h : ∀ d ∈ items, d.ordered) :
    (Document.array items.reverse).ordered :=
  Document.ordered_array fun d hd => h d (List.mem_reverse.1 hd)

variable {steps : Nat}

theorem orderly_node (h : ReadsOrdered steps) (room : Nat) (items : Bool) (ts : List Token) :
    Orderly (node (steps + 1) room items ts) := by
  unfold node
  split
  next s ts =>
    intro d rest hd
    obtain ⟨l, -, hl⟩ := Option.map_eq_some_iff.1 hd
    cases hl
    trivial
  next => exact h.blockItems _ _ _ (List.forall_mem_nil _)
  next => exact h.blockFields _ _ _ (List.forall_mem_nil _)
  next => exact h.flowItems _ _ _ _ (List.forall_mem_nil _)
  next => exact h.flowFields _ _ _ _ (List.forall_mem_nil _)
  next =>
    split
    · exact h.bareItems _ _ _ (List.forall_mem_nil _)
    · exact orderly_none
  next => exact orderly_none

theorem orderly_nodeBefore (h : ReadsOrdered steps) (room : Nat) (items : Bool)
    (follows : Token → Bool) (ts : List Token) :
    Orderly (nodeBefore (steps + 1) room items follows ts) := by
  unfold nodeBefore
  split
  · exact orderly_some (Document.ordered_leaf .null) ts
  · exact h.node room items ts

theorem orderly_valueBefore (h : ReadsOrdered steps) (room : Nat) (items : Bool)
    (follows : Token → Bool) (ts : List Token) :
    Orderly (valueBefore (steps + 1) room items follows ts) := by
  unfold valueBefore
  split
  next ts => exact h.nodeBefore room items follows ts
  next => exact orderly_some (Document.ordered_leaf .null) ts

theorem orderly_blockItems (h : ReadsOrdered steps) (room : Nat) {items : List Document}
    (hitems : ∀ d ∈ items, d.ordered) (ts : List Token) :
    Orderly (blockItems (steps + 1) room items ts) := by
  unfold blockItems
  split
  next ts =>
    refine orderly_bind ?_
    rintro ⟨item, ts⟩ hitem
    have hitem : item.ordered := h.nodeBefore _ _ _ _ _ _ hitem
    exact h.blockItems _ _ _ (List.forall_mem_cons.2 ⟨hitem, hitems⟩)
  next ts => exact orderly_some (ordered_reversed hitems) ts
  next => exact orderly_none

theorem orderly_bareItems (h : ReadsOrdered steps) (room : Nat) {items : List Document}
    (hitems : ∀ d ∈ items, d.ordered) (ts : List Token) :
    Orderly (bareItems (steps + 1) room items ts) := by
  unfold bareItems
  split
  next ts =>
    refine orderly_bind ?_
    rintro ⟨item, ts⟩ hitem
    have hitem : item.ordered := h.nodeBefore _ _ _ _ _ _ hitem
    exact h.bareItems _ _ _ (List.forall_mem_cons.2 ⟨hitem, hitems⟩)
  next => exact orderly_some (ordered_reversed hitems) ts

theorem orderly_blockFields (h : ReadsOrdered steps) (room : Nat) {fields : Keyed Document}
    (hfields : ∀ f ∈ fields.entries, f.2.ordered) (ts : List Token) :
    Orderly (blockFields (steps + 1) room fields ts) := by
  unfold blockFields
  split
  next ts =>
    refine orderly_bind ?_
    rintro ⟨k, ts⟩ -
    refine orderly_bind ?_
    rintro ⟨d, ts⟩ hd
    have hd : d.ordered := h.valueBefore _ _ _ _ _ _ hd
    exact h.blockFields _ _ _ (Keyed.forall_entries_insert hfields k hd)
  next ts => exact orderly_some (Document.ordered_object hfields) ts
  next => exact orderly_none

theorem orderly_flowItems (h : ReadsOrdered steps) (room : Nat) (ready : Bool)
    {items : List Document} (hitems : ∀ d ∈ items, d.ordered) (ts : List Token) :
    Orderly (flowItems (steps + 1) room ready items ts) := by
  unfold flowItems
  split
  next ts => exact orderly_some (ordered_reversed hitems) ts
  next ts => exact h.flowItems _ _ _ _ hitems
  next => exact orderly_none
  next => exact orderly_none
  next inner ts =>
    -- however the key is found, it makes an object of its own with what stands under it
    have hpair (key : Option (String × List Token)) : Orderly (key.bind fun k =>
        (valueBefore steps inner false (· ∈ [.comma, .closeSequence]) k.2).bind fun d =>
          flowItems steps (inner + 1) false (.object [(k.1, d.1)] :: items) d.2) := by
      refine orderly_bind ?_
      rintro ⟨k, ts⟩ -
      refine orderly_bind ?_
      rintro ⟨d, ts⟩ hd
      have hd : d.ordered := h.valueBefore _ _ _ _ _ _ hd
      have hobject : (Document.object [(k, d)]).ordered := ⟨List.pairwise_singleton .., hd, trivial⟩
      exact h.flowItems _ _ _ _ (List.forall_mem_cons.2 ⟨hobject, hitems⟩)
    split <;> exact hpair _
  next ts =>
    refine orderly_bind ?_
    rintro ⟨item, ts⟩ hitem
    have hitem : item.ordered := h.node _ _ _ _ _ hitem
    exact h.flowItems _ _ _ _ (List.forall_mem_cons.2 ⟨hitem, hitems⟩)

theorem orderly_flowFields (h : ReadsOrdered steps) (room : Nat) (ready : Bool)
    {fields : Keyed Document} (hfields : ∀ f ∈ fields.entries, f.2.ordered) (ts : List Token) :
    Orderly (flowFields (steps + 1) room ready fields ts) := by
  unfold flowFields
  split
  next ts => exact orderly_some (Document.ordered_object hfields) ts
  next ts => exact h.flowFields _ _ _ _ hfields
  next ts =>
    refine orderly_bind ?_
    rintro ⟨k, ts⟩ -
    refine orderly_bind ?_
    rintro ⟨d, ts⟩ hd
    have hd : d.ordered := h.valueBefore _ _ _ _ _ _ hd
    exact h.flowFields _ _ _ _ (Keyed.forall_entries_insert hfields k hd)
  next s ts =>
    exact h.flowFields _ _ _ _ (Keyed.forall_entries_insert hfields s.text trivial)
  next => exact orderly_none

/-- **Whatever is read in some number of steps is ordered.** -/
theorem readsOrdered (steps : Nat) : ReadsOrdered steps := by
  induction steps with
  | zero =>
    constructor <;> intros <;>
      simp only [node, nodeBefore, valueBefore, blockItems, bareItems, blockFields, flowItems,
        flowFields, orderly_none]
  | succ steps ih =>
    exact ⟨orderly_node ih, orderly_nodeBefore ih, orderly_valueBefore ih,
      fun room items ts hitems => orderly_blockItems ih room hitems ts,
      fun room items ts hitems => orderly_bareItems ih room hitems ts,
      fun room fields ts hfields => orderly_blockFields ih room hfields ts,
      fun room ready items ts hitems => orderly_flowItems ih room ready hitems ts,
      fun room ready fields ts hfields => orderly_flowFields ih room ready hfields ts⟩

/-- The document that tokens hold is read by one of these functions, or an empty object. -/
theorem exists_orderly_documentOf? (ts : List Token) : ∃ read, Orderly read ∧
    documentOf? ts = read.bind fun (d, rest) =>
      if rest.all (· == .documentEnd) then some d else none := by
  have hobject : (Document.object []).ordered := ⟨List.Pairwise.nil, trivial⟩
  have hempty (rest : List Token) : Orderly (some (.object [], rest)) := orderly_some hobject rest
  have hnode (steps : Nat) (ts : List Token) : Orderly (node steps maxNesting false ts) :=
    (readsOrdered steps).node _ _ _
  unfold documentOf?
  split
  next => exact ⟨_, hempty [], rfl⟩
  next ts =>
    split
    next => exact ⟨_, hempty _, rfl⟩
    next => exact ⟨_, hempty _, rfl⟩
    next => exact ⟨_, hempty _, rfl⟩
    next => exact ⟨_, hnode _ _, rfl⟩
  next => exact ⟨_, hnode _ _, rfl⟩

theorem ordered_of_documentOf? {ts : List Token} {d : Document} (h : documentOf? ts = some d) :
    d.ordered := by
  obtain ⟨read, hread, heq⟩ := exists_orderly_documentOf? ts
  rw [heq] at h
  obtain ⟨⟨d', rest⟩, hd', hd⟩ := Option.bind_eq_some_iff.1 h
  obtain ⟨-, ⟨⟩⟩ := Option.ite_none_right_eq_some.1 hd
  exact hread d rest hd'

/-- **The documents in a mapping that is read from YAML are ordered.** -/
theorem ordered_of_readMapping? {text : String} {fields : Keyed Document}
    (h : readMapping? text = some fields) : (Document.object fields.entries).ordered := by
  obtain ⟨ts, -, hts⟩ := Option.bind_eq_some_iff.1 h
  obtain ⟨d, hd, hfields⟩ := Option.bind_eq_some_iff.1 hts
  have hd : d.ordered := ordered_of_documentOf? hd
  split at hfields
  next entries =>
    cases hfields
    exact Document.ordered_object
      (Keyed.forall_entries_ofEntries (Document.orderedFields_iff.1 hd.2))
  next => cases hfields

end Yaml

end RandExpr
