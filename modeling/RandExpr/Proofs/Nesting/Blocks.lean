import RandExpr.Proofs.Delivery.Settling
import RandExpr.Proofs.Generator.Pulls
import RandExpr.Proofs.Nesting
import Mathlib.Algebra.BigOperators.Group.List.Basic

/-!
# Blocks of a leaf

How a repetition that is nested by counts uses up what its leaf gives.

## The model

The product of the counts is the size of a block: so many draws of the leaf go into one value of the
nested repetition. `Source.Drawn` lists the results of draws of the leaf between which nothing but
notes has been kept. `Delivery.Makes` relates the deliveries of a block to the value they make: the
block of a repetition is made of the blocks of what it repeats. A draw of a source takes a block of
the leaf (`Source.Takes`) if it draws a full block, and gives the value it makes, or if it draws up
to the first fault within the block, and gives that fault (`Taken`). Every level of nesting keeps
its own first value, so the states of a source and of the leaf are related, and the relation is kept
by every draw.

## What is proved

* `Makes.settles` — a block whose deliveries settle makes a value that settles with their texts.
* `takes_toSource`, `takes_repetition` — generators and repetitions take blocks when what is below
  them does.
* `buildAt_takes` — building a nested repetition draws one block, the one of its first value, or
  fails with the first fault.
-/

namespace RandExpr

variable {W : Type}

/-! ### Blocks -/

namespace Delivery

/-- The deliveries of a block of the leaf, and the value of the nested repetition that they make. -/
def Makes : (counts : List Nat) → List (Delivery W) → Delivery W → Prop
  | [], ds, d => ds = [d]
  | count :: counts, ds, d => ∃ (blocks : List (List (Delivery W))) (parts : List (Delivery W)),
    blocks.length = count ∧ ds = blocks.flatten ∧ List.Forall₂ (Makes counts) blocks parts ∧
      d = gather parts

theorem length_flatten_of_forall₂ {R : List (Delivery W) → Delivery W → Prop} {n : Nat}
    {blocks : List (List (Delivery W))} {parts : List (Delivery W)}
    (h : List.Forall₂ R blocks parts) (hR : ∀ ds d, R ds d → ds.length = n) :
    blocks.flatten.length = blocks.length * n := by
  induction h with
  | nil => simp
  | cons hb _ ih =>
    rw [List.flatten_cons, List.length_append, ih, hR _ _ hb, List.length_cons, Nat.succ_mul,
      Nat.add_comm]

theorem Makes.length_eq {counts : List Nat} {ds : List (Delivery W)} {d : Delivery W}
    (h : Makes counts ds d) : ds.length = counts.prod := by
  induction counts generalizing ds d with
  | nil =>
    obtain rfl : ds = [d] := h
    rfl
  | cons count counts ih =>
    obtain ⟨blocks, parts, hlen, rfl, hparts, -⟩ := h
    rw [length_flatten_of_forall₂ hparts fun ds d hd => ih hd, hlen, List.prod_cons]

theorem Makes.isLate_iff {counts : List Nat} {ds : List (Delivery W)} {d : Delivery W}
    (h : Makes counts ds d) : d.isLate = true ↔ ∃ part ∈ ds, part.isLate = true := by
  induction counts generalizing ds d with
  | nil =>
    obtain rfl : ds = [d] := h
    simp
  | cons count counts ih =>
    obtain ⟨blocks, parts, -, rfl, hparts, rfl⟩ := h
    rw [isLate_gather_iff]
    clear * - hparts ih
    induction hparts with
    | nil => simp
    | cons hb _ ih' => simp only [List.exists_mem_cons_iff, List.flatten_cons, List.mem_append,
        or_and_right, exists_or, ih', ih hb]

/-- A block whose deliveries settle makes a value that settles with their texts, one after the
other. -/
theorem Makes.settles [Nonempty W] {counts : List Nat} {ds : List (Delivery W)} {d : Delivery W}
    (h : Makes counts ds d) {vs : List Value} (hvs : List.Forall₂ (fun d v => d.Settles v) ds vs) :
    ∃ v : Value, d.Settles v ∧ v.display = String.join (vs.map Value.display) ∧
      (counts ≠ [] → v = .text (String.join (vs.map Value.display))) := by
  induction counts generalizing ds d vs with
  | nil =>
    obtain rfl : ds = [d] := h
    obtain ⟨v, vs, hd, hnil, rfl⟩ := List.forall₂_cons_left_iff.1 hvs
    obtain rfl := List.forall₂_nil_left_iff.1 hnil
    exact ⟨v, hd, by simp [String.join], by simp⟩
  | cons count counts ih =>
    obtain ⟨blocks, parts, -, rfl, hparts, rfl⟩ := h
    obtain ⟨us, hus, htext⟩ : ∃ us : List Value,
        List.Forall₂ (fun d v => d.Settles v) parts us ∧
          String.join (us.map Value.display) = String.join (vs.map Value.display) := by
      clear * - hparts hvs ih
      induction hparts generalizing vs with
      | nil =>
        obtain rfl := List.forall₂_nil_left_iff.1 hvs
        exact ⟨[], .nil, rfl⟩
      | @cons block part blocks parts hb _ ih' =>
        have hfirst := (List.forall₂_take_append _ _ _ hvs.flip).flip
        have hrest := (List.forall₂_drop_append _ _ _ hvs.flip).flip
        obtain ⟨v, hv, htext, -⟩ := ih hb hfirst
        obtain ⟨us, hus, htexts⟩ := ih' hrest
        refine ⟨v :: us, .cons hv hus, ?_⟩
        rw [List.map_cons, String.join_cons, htext, htexts, ← String.join_append,
          ← List.map_append, List.take_append_drop]
    refine ⟨.joined us, settles_gather hus, ?_, fun _ => ?_⟩
    · rw [Value.joined, Value.display, htext]
    · rw [Value.joined, htext]

end Delivery

/-! ### Draws of the leaf -/

namespace Source

section Drawn

variable [Host W]

/-- Draws with nothing but notes before, between and after them: their results, and the states and
worlds between which they are made. -/
inductive Drawn (S : Source W) (s : S.State) (w : W) :
    List (Except Fault (Delivery W)) → S.State → W → Prop where
  /-- Nothing has happened. -/
  | start : Drawn S s w [] s w
  /-- A note has been kept. -/
  | note {rs : List (Except Fault (Delivery W))} {s' : S.State} {w' : W}
      (h : Drawn S s w rs s' w') (n : Note) : Drawn S s w rs s' (Host.note n w')
  /-- A draw has been made. -/
  | pull {rs : List (Except Fault (Delivery W))} {s₁ s' : S.State} {w₁ w' : W}
      {r : Except Fault (Delivery W)} (h : Drawn S s w rs s₁ w₁)
      (hp : S.pull s₁ w₁ = (r, s', w')) : Drawn S s w (rs ++ [r]) s' w'

theorem Drawn.trans {S : Source W} {s s₁ s₂ : S.State} {w w₁ w₂ : W}
    {rs rs' : List (Except Fault (Delivery W))} (h : S.Drawn s w rs s₁ w₁)
    (h' : S.Drawn s₁ w₁ rs' s₂ w₂) : S.Drawn s w (rs ++ rs') s₂ w₂ := by
  induction h' with
  | start => rwa [List.append_nil]
  | note _ n ih => exact ih.note n
  | pull _ hp ih =>
    rw [← List.append_assoc]
    exact ih.pull hp

end Drawn

end Source

/-- What a draw that takes a block of the leaf has drawn, and what it gives: a full block and its
value, or less than a block up to a fault and that fault. -/
inductive Taken (counts : List Nat) :
    List (Except Fault (Delivery W)) → Except Fault (Delivery W) → Prop where
  /-- A full block. -/
  | block {ds : List (Delivery W)} {d : Delivery W} (h : Delivery.Makes counts ds d) :
      Taken counts (ds.map .ok) (.ok d)
  /-- A fault within the block. -/
  | fault {ds : List (Delivery W)} {f : Fault} (h : ds.length < counts.prod) :
      Taken counts (ds.map .ok ++ [.error f]) (.error f)

/-- What a row of `n` draws that take blocks has drawn of the leaf: `n` blocks, or less than that
many up to a fault, at which the row has ended. -/
inductive TakenRow (counts : List Nat) (n : Nat) :
    List (Except Fault (Delivery W)) → List (Except Fault (Delivery W)) → Prop where
  /-- As many blocks as there are draws. -/
  | blocks {blocks : List (List (Delivery W))} {parts : List (Delivery W)}
      (hlen : blocks.length = n) (h : List.Forall₂ (Delivery.Makes counts) blocks parts) :
      TakenRow counts n (blocks.flatten.map .ok) (parts.map .ok)
  /-- A fault on the way. -/
  | fault {ds parts : List (Delivery W)} {f : Fault} (hlt : parts.length < n)
      (h : ds.length < n * counts.prod) :
      TakenRow counts n (ds.map .ok ++ [.error f]) (parts.map .ok ++ [.error f])

theorem TakenRow.cons {counts : List Nat} {n : Nat} {rs rs' : List (Except Fault (Delivery W))}
    {block : List (Delivery W)} {d : Delivery W} (hblock : Delivery.Makes counts block d)
    (h : TakenRow counts n rs rs') :
    TakenRow counts (n + 1) (block.map .ok ++ rs) (.ok d :: rs') := by
  cases h with
  | @blocks blocks parts hlen h =>
    have hlength : (block :: blocks).length = n + 1 := by rw [List.length_cons, hlen]
    have hrow := TakenRow.blocks hlength (.cons hblock h)
    rwa [List.flatten_cons, List.map_append] at hrow
  | @fault ds parts f hlt h =>
    have hparts : (d :: parts).length < n + 1 := by
      rw [List.length_cons]
      omega
    have hsize : (block ++ ds).length < (n + 1) * counts.prod := by
      rw [List.length_append, hblock.length_eq, Nat.succ_mul]
      omega
    have hrow : TakenRow counts (n + 1) ((block ++ ds).map .ok ++ [.error f])
        ((d :: parts).map .ok ++ [.error f]) := .fault hparts hsize
    rwa [List.map_append, List.append_assoc] at hrow

variable [Host W]

/-- Every draw of the source, from a state that is ready with a state of the leaf, takes a block of
the leaf and leaves the two ready again. -/
def Source.Takes (T S : Source W) (ready : T.State → S.State → Prop) (counts : List Nat) : Prop :=
  ∀ t s w, ready t s → ∃ r t' w' rs s', T.pull t w = (r, t', w') ∧ S.Drawn s w rs s' w' ∧
    ready t' s' ∧ Taken counts rs r

theorem Source.takes_self (S : Source W) (t : S.State) :
    ({ S with state := t } : Source W).Takes S (fun t s => t = s) [] := by
  rintro t s w rfl
  obtain ⟨r, s', w', hp⟩ : ∃ r s' w', S.pull t w = (r, s', w') := ⟨_, _, _, rfl⟩
  refine ⟨r, s', w', [r], s', hp, .pull .start hp, rfl, ?_⟩
  cases r with
  | ok d =>
    have hmakes : Delivery.Makes [] [d] d := rfl
    exact .block hmakes
  | error f =>
    have hlt : ([] : List (Delivery W)).length < ([] : List Nat).prod := by simp
    exact .fault hlt

theorem Generator.takes_toSource {g : Generator W} {S : Source W}
    {ready : g.source.State → S.State → Prop} {counts : List Nat}
    (h : g.source.Takes S ready counts) :
    g.toSource.Takes S (fun (t : g.State) s => t.1 = none ∧ ready t.2 s) counts := by
  rintro ⟨first, t⟩ s w ⟨hfirst, hready⟩
  obtain rfl : first = none := hfirst
  obtain ⟨r, t', w', rs, s', hp, hdrawn, hready', htaken⟩ := h t s w hready
  have hnone : g.toSource.pull (none, t) w = g.pull (none, t) w := rfl
  cases r with
  | error f =>
    refine ⟨.error f, (none, t'), w', rs, s', ?_, hdrawn, ⟨rfl, hready'⟩, htaken⟩
    rw [hnone, pull, hp]
    rfl
  | ok d =>
    obtain ⟨w'', hpull, hnotes⟩ : ∃ w'', g.pull (none, t) w = (.ok d, (none, t'), w'') ∧
        S.Drawn s w rs s' w'' := by
      rw [pull, hp]
      refine ⟨_, rfl, ?_⟩
      split
      · exact hdrawn.note _
      · exact (hdrawn.note _).note _
    exact ⟨.ok d, (none, t'), w'', rs, s', hnone.trans hpull, hnotes, ⟨rfl, hready'⟩, htaken⟩

/-- A row of draws, up to the first fault, from a source that takes blocks. -/
theorem Source.Takes.row {T S : Source W} {ready : T.State → S.State → Prop} {counts : List Nat}
    (h : T.Takes S ready counts) (n : Nat) {t : T.State} {s : S.State} (hready : ready t s)
    (w : W) : ∃ rs rs' t' s' w', T.Pulls t w rs' t' w' ∧ S.Drawn s w rs s' w' ∧ ready t' s' ∧
      TakenRow counts n rs rs' := by
  induction n generalizing t s w with
  | zero => exact ⟨[], [], t, s, w, .nil, .start, hready, .blocks rfl .nil⟩
  | succ n ih =>
    obtain ⟨r, t₁, w₁, rs, s₁, hp, hdrawn, hready₁, htaken⟩ := h t s w hready
    cases htaken with
    | @block ds d hmakes =>
      obtain ⟨rs, rs', t', s', w', hps, hdrawn', hready', hrow⟩ := ih hready₁ w₁
      exact ⟨_, _, t', s', w', .cons hp hps, hdrawn.trans hdrawn', hready', hrow.cons hmakes⟩
    | @fault ds f hlt =>
      have hsize : ds.length < (n + 1) * counts.prod := by
        rw [Nat.succ_mul]
        omega
      have hrow : TakenRow counts (n + 1) (ds.map .ok ++ [.error f]) ([].map .ok ++ [.error f]) :=
        .fault (Nat.succ_pos n) hsize
      exact ⟨_, _, t₁, s₁, w₁, .cons hp .nil, hdrawn, hready₁, hrow⟩

theorem Recipe.repetition_pull_of_row {g : Generator W} {counts : List Nat} {count : Nat}
    {rs rs' : List (Except Fault (Delivery W))} {t t' : g.State} {w w' : W}
    (hps : g.toSource.Pulls t w rs' t' w') (hrow : TakenRow counts count rs rs') :
    ∃ r, (repetition count g).pull t w = (r, t', w') ∧ Taken (count :: counts) rs r := by
  cases hrow with
  | @blocks blocks parts hlen h =>
    have hcount : parts.length = count := by rw [← h.length_eq, hlen]
    have hp := repetition_pull_of_ok hps
    rw [hcount] at hp
    have hmakes : Delivery.Makes (count :: counts) blocks.flatten (.gather parts) :=
      ⟨blocks, parts, hlen, rfl, h, rfl⟩
    exact ⟨.ok (.gather parts), hp, .block hmakes⟩
  | @fault ds parts f hlt h =>
    refine ⟨.error f, repetition_pull_of_error hps hlt, .fault ?_⟩
    rwa [List.prod_cons]

/-- **A repetition takes blocks when its generator does**, and its blocks are made of as many of
those as its count says. -/
theorem Recipe.takes_repetition {g : Generator W} {S : Source W} {ready : g.State → S.State → Prop}
    {counts : List Nat} (h : g.toSource.Takes S ready counts) (count : Nat) (t : g.State) :
    ({ repetition count g with state := t } : Source W).Takes S ready (count :: counts) := by
  intro t s w hready
  obtain ⟨rs, rs', t', s', w', hps, hdrawn, hready', hrow⟩ := h.row count hready w
  obtain ⟨r, hp, htaken⟩ := repetition_pull_of_row hps hrow
  exact ⟨r, t', w', rs, s', hp, hdrawn, hready', htaken⟩

/-! ### Building -/

/-- The generator has drawn the block of its first value, has not handed it out, and its source
takes blocks of the leaf from where it has left it. -/
def Generator.Follows (g : Generator W) (S : Source W) (counts : List Nat)
    (block : List (Delivery W)) (s : S.State) : Prop :=
  ∃ d ready, g.first = some d ∧ Delivery.Makes counts block d ∧ g.source.Takes S ready counts ∧
    ready g.source.state s

/-- What building comes to when it has drawn this of the leaf: a generator that follows the leaf
from a first block, or the first fault, within that block. -/
inductive Built (S : Source W) (counts : List Nat) (s : S.State) :
    List (Except Fault (Delivery W)) → Except Fault (Generator W) → Prop where
  /-- A generator. -/
  | generator {block : List (Delivery W)} {g : Generator W} (h : g.Follows S counts block s) :
      Built S counts s (block.map .ok) (.ok g)
  /-- A fault within the first block. -/
  | fault {ds : List (Delivery W)} {f : Fault} (h : ds.length < counts.prod) :
      Built S counts s (ds.map .ok ++ [.error f]) (.error f)

/-- A generator over a source whose draw takes the rest of a first block, when `start` of it has
been drawn before. -/
theorem Generator.built_ofSource {T S : Source W} {ready : T.State → S.State → Prop}
    {counts : List Nat} {start rs : List (Except Fault (Delivery W))}
    {r : Except Fault (Delivery W)}
    {t : T.State} {s₀ s₁ s : S.State} {w₀ w₁ w : W}
    (htakes : ∀ t, ({ T with state := t } : Source W).Takes S ready counts)
    (hp : T.pull T.state w₁ = (r, t, w)) (hstart : S.Drawn s₀ w₀ start s₁ w₁)
    (hdrawn : S.Drawn s₁ w₁ rs s w) (hready : ready t s) (htaken : Taken counts (start ++ rs) r)
    (kind : String) (args : List String) (depth : Nat) :
    ∃ result w', ofSource kind args depth T w₁ = (result, w') ∧
      S.Drawn s₀ w₀ (start ++ rs) s w' ∧ Built S counts s (start ++ rs) result := by
  have hall := hstart.trans hdrawn
  generalize start ++ rs = all at htaken hall ⊢
  rw [ofSource, hp]
  cases htaken with
  | @block ds d hmakes =>
    refine ⟨_, _, rfl, hall.note _, .generator ⟨d, ready, rfl, hmakes, htakes t, hready⟩⟩
  | @fault ds f hlt => exact ⟨_, _, rfl, hall, .fault hlt⟩

namespace Catalog

/-- **Building a nested repetition draws one block of its leaf**, the block of its first value, or
fails with the first fault within that block. -/
theorem buildAt_takes {catalog : Catalog W} {options : Options} {leaf text : String}
    {counts : List Nat} (levels : Nat) (h : Nested catalog leaf counts text)
    (hpos : ∀ count ∈ counts, 0 < count) {w : W} (hleaf : ∀ w', Noted w w' → ∃ e S w'',
      catalog.prepare options (catalog.buildAt options levels) (maxDepth - levels) leaf w' =
        (.ok (e, S), w'')) :
    ∃ w₀ e S w₁ drawn s result w', Noted w w₀ ∧
      catalog.prepare options (catalog.buildAt options levels) (maxDepth - levels) leaf w₀ =
        (.ok (e, S), w₁) ∧
      catalog.buildAt options (counts.length + levels + 1) text w = (result, w') ∧
      S.Drawn S.state w₁ drawn s w' ∧ Built S counts s drawn result := by
  induction h generalizing w with
  | leaf =>
    obtain ⟨e, S, w₁, hprep⟩ := hleaf w (.refl w)
    obtain ⟨r, t, w₂, rs, s, hp, hdrawn, hready, htaken⟩ := S.takes_self S.state S.state _ w₁ rfl
    obtain ⟨result, w', hof, hdrawn', hbuilt⟩ :=
      Generator.built_ofSource S.takes_self hp .start hdrawn hready htaken e.kind e.args
        (maxDepth - levels)
    refine ⟨w, e, S, w₁, _, s, result, w', .refl w, hprep, ?_, hdrawn', hbuilt⟩
    rw [List.length_nil, Nat.zero_add, buildAt, hprep]
    exact hof
  | @repeated count counts text _ _ _ e hparse hkind hargs hcount _ ih =>
    obtain ⟨w₀, eleaf, S, w₁, drawn, s₁, result, w₂, hnoted, hprep, hbuild, hdrawn, hbuilt⟩ :=
      @ih (fun c hc => hpos c (List.mem_cons_of_mem _ hc)) (noteShorthand text w) fun w' hw' =>
        hleaf w' ((noted_noteShorthand text w).trans hw')
    have hnoted := (noted_noteShorthand text w).trans hnoted
    have hlevel : (count :: counts).length + levels + 1 = counts.length + levels + 1 + 1 := by
      rw [List.length_cons]
      omega
    rw [hlevel, buildAt_repeated hparse hkind hargs hcount, hbuild]
    cases hbuilt with
    | @fault ds f hlt =>
      refine ⟨w₀, eleaf, S, w₁, _, s₁, _, w₂, hnoted, hprep, rfl, hdrawn, .fault ?_⟩
      have hcount := hpos count List.mem_cons_self
      rw [List.prod_cons]
      exact Nat.lt_of_lt_of_le hlt (Nat.le_mul_of_pos_left _ hcount)
    | @generator block g hfollows =>
      -- the first of its parts has been drawn by building what is repeated
      obtain ⟨d, ready, hfirst, hmakes, htakes, hready⟩ := hfollows
      obtain ⟨n, rfl⟩ : ∃ n, count = n + 1 := by
        have := hpos count List.mem_cons_self
        exact ⟨count - 1, by omega⟩
      have htakes := Generator.takes_toSource htakes
      obtain ⟨rs, rs', t', s', w₃, hps, hdrawn', hready', hrow⟩ :=
        htakes.row (t := (none, g.source.state)) n ⟨rfl, hready⟩ w₂
      have hpull : g.toSource.pull (g.first, g.source.state) w₂ =
          (.ok d, (none, g.source.state), w₂) := by
        rw [hfirst]
        rfl
      obtain ⟨r, hp, htaken⟩ :=
        Recipe.repetition_pull_of_row (.cons hpull hps) (hrow.cons hmakes)
      obtain ⟨result, w', hof, hall, hbuilt⟩ :=
        Generator.built_ofSource (Recipe.takes_repetition htakes (n + 1)) hp hdrawn hdrawn' hready'
          htaken e.kind e.args (maxDepth - (counts.length + levels + 1))
      exact ⟨w₀, eleaf, S, w₁, _, s', result, w', hnoted, hprep, hof, hall, hbuilt⟩

end Catalog

end RandExpr
