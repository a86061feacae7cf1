import RandExpr.Proofs.Document.Ordered
import RandExpr.Proofs.Document.Reading

/-!
# Options as keyed documents

What options hold after documents have been filed in them, and after they have been written as JSON
and read again.

## The model

`Options.insertAll` files documents one after the other, in any order and under keys that come
again. `Options.Made` says how options come about at all: they are empty at first, have ordered
documents filed in them, or are read from a text. `Document.leaves` are the parts of a document
without parts of their own, which is where numbers with a fraction stand.

## What is proved

* `Options.find?_insertAll` — what was filed last under a key is found there.
* `Options.ext_find?`, `Options.beq_of_find?` — options are told apart by what is found in them, and
  by nothing else, whichever of the two equalities is asked.
* `Options.Made.ordered` — in all options the fields of every object are in order.
* `Document.exact_of_leaves`, `Options.ofJson_print` — options without fractions that nest no deeper
  than the reader allows are read back from their JSON text.
* `Options.keyed_and_written` — all of this at once.
-/

namespace RandExpr

namespace Document

/-! ### Documents without fractions -/

mutual

/-- The leaves of a document, in order. -/
def leaves : Document → List Leaf
  | leaf l => [l]
  | array items => leavesOfItems items
  | object fields => leavesOfFields fields

/-- The leaves of documents one after the other. -/
def leavesOfItems : List Document → List Leaf
  | [] => []
  | d :: ds => d.leaves ++ leavesOfItems ds

/-- The leaves of the documents under keys. -/
def leavesOfFields : List (String × Document) → List Leaf
  | [] => []
  | (_, d) :: fs => d.leaves ++ leavesOfFields fs

end

mutual

/-- **An ordered document without fractions can be read back**, if the reader allows its depth. -/
theorem exact_of_leaves {levels : Nat} : (d : Document) → d.ordered →
    (∀ l ∈ d.leaves, l.IsExact) → d.depth ≤ levels → d.Exact levels
  | leaf l, _, hleaves, _ => .leaf (hleaves l List.mem_cons_self)
  | array items, hordered, hleaves, hdepth => by
    obtain ⟨n, rfl⟩ : ∃ n, levels = n + 1 :=
      Nat.exists_eq_add_one.2 (by rw [depth] at hdepth; omega)
    exact .array (exact_of_leavesOfItems items hordered hleaves (Nat.le_of_succ_le_succ hdepth))
  | object fields, hordered, hleaves, hdepth => by
    obtain ⟨n, rfl⟩ : ∃ n, levels = n + 1 :=
      Nat.exists_eq_add_one.2 (by rw [depth] at hdepth; omega)
    exact .object hordered.1
      (exact_of_leavesOfFields fields hordered.2 hleaves (Nat.le_of_succ_le_succ hdepth))

theorem exact_of_leavesOfItems {levels : Nat} : (items : List Document) → orderedItems items →
    (∀ l ∈ leavesOfItems items, l.IsExact) → depthItems items ≤ levels →
      ∀ d ∈ items, d.Exact levels
  | [], _, _, _ => nofun
  | d :: ds, hordered, hleaves, hdepth => by
    rw [leavesOfItems, List.forall_mem_append] at hleaves
    rw [depthItems, Nat.max_le] at hdepth
    exact List.forall_mem_cons.2 ⟨exact_of_leaves d hordered.1 hleaves.1 hdepth.1,
      exact_of_leavesOfItems ds hordered.2 hleaves.2 hdepth.2⟩

theorem exact_of_leavesOfFields {levels : Nat} : (fields : List (String × Document)) →
    orderedFields fields → (∀ l ∈ leavesOfFields fields, l.IsExact) →
      depthFields fields ≤ levels → ∀ f ∈ fields, f.2.Exact levels
  | [], _, _, _ => nofun
  | (k, d) :: fs, hordered, hleaves, hdepth => by
    rw [leavesOfFields, List.forall_mem_append] at hleaves
    rw [depthFields, Nat.max_le] at hdepth
    exact List.forall_mem_cons.2 ⟨exact_of_leaves d hordered.1 hleaves.1 hdepth.1,
      exact_of_leavesOfFields fs hordered.2 hleaves.2 hdepth.2⟩

end

/-! ### Equal documents -/

theorem sameItems_self {items : List Document} (h : ∀ d ∈ items, d.same d = true) :
    sameItems items items = true := by
  induction items with
  | nil => rfl
  | cons d ds ih =>
    obtain ⟨hd, hds⟩ := List.forall_mem_cons.1 h
    rw [sameItems, hd, ih hds]
    rfl

theorem sameFields_of_keys {fs gs : List (String × Document)}
    (hkeys : fs.map Prod.fst = gs.map Prod.fst)
    (h : ∀ f ∈ fs, ∀ g ∈ gs, f.1 = g.1 → f.2.same g.2 = true) : sameFields fs gs = true := by
  induction fs generalizing gs with
  | nil =>
    obtain rfl : gs = [] := by simpa using hkeys.symm
    rfl
  | cons f fs ih =>
    cases gs with
    | nil => cases hkeys
    | cons g gs =>
      obtain ⟨hkey, hrest⟩ : f.1 = g.1 ∧ _ := List.cons.inj hkeys
      have hsame := h f List.mem_cons_self g List.mem_cons_self hkey
      have ih := ih hrest fun f hf g hg =>
        h f (List.mem_cons_of_mem _ hf) g (List.mem_cons_of_mem _ hg)
      rw [sameFields, hkey, hsame, ih, BEq.rfl]
      rfl

theorem Exact.same_self {levels : Nat} {d : Document} (h : d.Exact levels) : d.same d = true := by
  induction h with
  | @leaf levels l hexact =>
    cases l with
    | null => rfl
    | boolean b => exact (BEq.rfl : (b == b) = true)
    | whole n => exact (BEq.rfl : (n == n) = true)
    | real => exact hexact.elim
    | text s => exact (BEq.rfl : (s == s) = true)
  | array _ ih => exact sameItems_self ih
  | @object levels fields hkeys _ ih =>
    refine sameFields_of_keys rfl fun f hf g hg hkey => ?_
    let filed : Keyed Document := ⟨fields, hkeys⟩
    have hfound : filed.find? f.1 = some f.2 := Keyed.mem_entries_iff.1 hf
    have hfound' : filed.find? g.1 = some g.2 := Keyed.mem_entries_iff.1 hg
    have hvalue : f.2 = g.2 := Option.some.inj (hfound.symm.trans (hkey ▸ hfound'))
    rw [← hvalue]
    exact ih f hf

end Document

namespace Options

variable {options a b : Options}

/-! ### Histories -/

/-- Files documents one after the other. -/
def insertAll (options : Options) (calls : List (String × Document)) : Options :=
  calls.foldl (fun options call => options.insert call.1 call.2) options

theorem fields_insertAll (options : Options) (calls : List (String × Document)) :
    (options.insertAll calls).fields = options.fields.insertAll calls := by
  induction calls generalizing options with
  | nil => rfl
  | cons call calls ih => exact ih _

/-- **What was filed last under a key is found there**, or else what was there before. -/
theorem find?_insertAll (options : Options) (calls : List (String × Document)) (key : String) :
    (options.insertAll calls).find? key = (calls.reverse.lookup key).or (options.find? key) := by
  rw [find?, fields_insertAll, Keyed.find?_insertAll]
  rfl

/-- **Options in which the same is found are equal.** -/
theorem ext_find? (h : ∀ key, a.find? key = b.find? key) : a = b :=
  congrArg Options.mk (Keyed.ext_find? h)

theorem isSome_iff_of_beq {x y : Option Document} (h : (x == y) = true) :
    x.isSome = true ↔ y.isSome = true := by
  cases x with
  | none =>
    cases y with
    | none => rfl
    | some e => cases h
  | some d =>
    cases y with
    | none => cases h
    | some e => exact iff_of_true rfl rfl

/-- **Options in which documents are found that are the same are the same**, under every key. -/
theorem beq_of_find? (h : ∀ key, (a.find? key == b.find? key) = true) : (a == b) = true := by
  have hkeys : a.fields.keys = b.fields.keys := by
    refine Keyed.keys_eq_of_mem_iff fun key => ?_
    rw [Keyed.mem_keys_iff, Keyed.mem_keys_iff]
    exact isSome_iff_of_beq (h key)
  refine Document.sameFields_of_keys hkeys fun f hf g hg hkey => ?_
  have hfound := h f.1
  have hf := Keyed.mem_entries_iff.1 hf
  have hg := Keyed.mem_entries_iff.1 hg
  rw [find?, find?, hf, hkey, hg] at hfound
  exact hfound

/-- Options as they come about. -/
inductive Made : Options → Prop where
  /-- There are none at first. -/
  | empty : Made empty
  /-- An ordered document is filed. -/
  | insert {options : Options} (h : Made options) (key : String) {d : Document} (hd : d.ordered) :
      Made (options.insert key d)
  /-- They are read from JSON. -/
  | ofJson {text : String} {options : Options} (h : ofJson text = .ok options) : Made options
  /-- They are read from YAML. -/
  | ofYaml {text : String} {options : Options} (h : ofYaml text = .ok options) : Made options

/-- **In all options the fields of every object are in order.** -/
theorem Made.ordered (h : options.Made) : options.toDocument.ordered := by
  induction h with
  | empty => exact ⟨List.Pairwise.nil, trivial⟩
  | @insert options _ key d hd ih =>
    exact Document.ordered_object
      (Keyed.forall_entries_insert (Document.orderedFields_iff.1 ih.2) key hd)
  | @ofJson text options h =>
    unfold Options.ofJson at h
    split at h
    next read hread =>
      cases h
      obtain ⟨d, hd, hfields⟩ := Option.bind_eq_some_iff.1 hread
      have hd : d.ordered := Document.ordered_of_read? hd
      cases d with
      | object entries =>
        cases hfields
        exact Document.ordered_object
          (Keyed.forall_entries_ofEntries (Document.orderedFields_iff.1 hd.2))
      | leaf | array => cases hfields
    next => cases h
  | @ofYaml text options h =>
    unfold Options.ofYaml at h
    split at h
    next fields hread =>
      cases h
      exact Yaml.ordered_of_readMapping? hread
    next => cases h

/-! ### JSON -/

/-- **Options without fractions are read back from their JSON text.** -/
theorem ofJson_print (h : options.toDocument.Exact maxNesting) :
    ofJson options.print = .ok options := by
  have hfields : ofDocument? options.toDocument = some options :=
    congrArg (fun fields => some (Options.mk fields)) (Keyed.ofEntries_entries options.fields)
  rw [ofJson, print, h.read?_print, Option.bind_some, hfields]

/-- **Options are documents under keys, and survive JSON.** What was filed last under a key is found
there; options in which the same is found are equal and have one text, in whatever order and however
often it was filed; and options without fractions, nested no deeper than the reader allows, are read
back from their text, with their seed. -/
theorem keyed_and_written :
    (∀ (options : Options) (calls : List (String × Document)) (key : String),
      (options.insertAll calls).find? key = (calls.reverse.lookup key).or (options.find? key)) ∧
    (∀ (a b : Options) (calls calls' : List (String × Document)),
      ((∀ key, (a.insertAll calls).find? key = (b.insertAll calls').find? key) →
        a.insertAll calls = b.insertAll calls' ∧
          (a.insertAll calls).print = (b.insertAll calls').print) ∧
      ((∀ key, ((a.insertAll calls).find? key == (b.insertAll calls').find? key) = true) →
        (a.insertAll calls == b.insertAll calls') = true)) ∧
    (∀ options : Options, options.Made → options.toDocument.ordered) ∧
    ∀ options : Options, options.toDocument.ordered →
      (∀ l ∈ options.toDocument.leaves, l.IsExact) → options.toDocument.depth ≤ 127 →
        ∃ read, ofJson options.print = .ok read ∧ read = options ∧ (read == options) = true ∧
          read.seed? = options.seed? := by
  refine ⟨find?_insertAll, fun a b calls calls' => ⟨fun h => ?_, beq_of_find?⟩,
    fun options h => h.ordered, fun options hordered hleaves hdepth => ?_⟩
  · have heq : a.insertAll calls = b.insertAll calls' := ext_find? h
    exact ⟨heq, congrArg print heq⟩
  · have hexact := Document.exact_of_leaves options.toDocument hordered hleaves hdepth
    exact ⟨options, ofJson_print hexact, rfl, hexact.same_self, rfl⟩

/-- The greatest seed, filed over another, beside an object whose keys have to be put in order. -/
theorem keyed_and_written_greatest :
    let most : Document := .leaf (.whole ⟨0xffff_ffff_ffff_ffff, by decide, by decide⟩)
    let least : Document := .leaf (.whole ⟨-0x8000_0000_0000_0000, by decide, by decide⟩)
    let d : Document := .object
      (Keyed.ofEntries
        [("é\n", .array [least, .leaf .null]), ("\"", .leaf (.text "\x01𝄞"))]).entries
    let calls := [("seed", least), ("ключ", most), ("seed", most), ("ключ", d)]
    let options := Options.empty.insertAll calls
    options.find? "seed" = some most ∧
      options = Options.empty.insertAll [("ключ", d), ("seed", most)] ∧
      ∃ read, ofJson options.print = .ok read ∧ read.seed? = some 0xffff_ffff_ffff_ffff := by
  intro most least d calls options
  obtain ⟨hfind, hsame, -, hread⟩ := keyed_and_written
  have hordered : options.toDocument.ordered := by
    have hitem : (Document.array [least, .leaf .null]).ordered :=
      ⟨Document.ordered_leaf _, Document.ordered_leaf _, trivial⟩
    have hd : d.ordered := Document.ordered_object
      (Keyed.forall_entries_ofEntries (by simp [hitem, Document.ordered_leaf]))
    exact (((Made.empty.insert "seed" (Document.ordered_leaf _)).insert "ключ"
      (Document.ordered_leaf _)).insert "seed" (Document.ordered_leaf _)).insert "ключ" hd
      |>.ordered
  have hseed : options.find? "seed" = some most := (hfind _ _ _).trans (by rfl)
  refine ⟨hseed, ((hsame _ _ _ _).1 fun key => ?_).1, ?_⟩
  · rw [hfind, hfind]
    by_cases hkey : key = "ключ"
    · subst hkey
      rfl
    · have hkey : (key == "ключ") = false := by simpa using hkey
      cases hseed : key == "seed" <;> simp [calls, List.lookup_cons, hkey, hseed]
  · obtain ⟨read, hread, -, -, hread'⟩ := hread options hordered (by decide) (by decide)
    refine ⟨read, hread, hread'.trans ?_⟩
    rw [seed?, hseed]
    rfl

end Options

end RandExpr
