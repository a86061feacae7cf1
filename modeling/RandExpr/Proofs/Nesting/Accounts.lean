import RandExpr.Proofs.Generator.Calls
import RandExpr.Proofs.Generator.Sequences
import RandExpr.Proofs.Nesting.Blocks
import Mathlib.Algebra.Order.BigOperators.GroupWithZero.List
import Mathlib.Algebra.Order.Ring.Nat

/-!
# Accounts of a leaf

Which draws of the leaf of a nested repetition go into which value, by their numbers.

## The model

The draws of the leaf are numbered from the first one, which is made while the repetition is built,
through all the calls of what has been built. The first call hands out the value that was drawn for
building; every later call draws from the leaf, in a run of its own (`Source.DrawnIn`). With blocks
of `N` draws, the `j`-th call accounts for the draws from number `j * N` up to `(j + 1) * N`
(`Accounted`).

## What is proved

* `Plays.drawnIn` — runs of draws from a source that plays a sequence take it in order.
* `block_of_taken`, `fault_of_taken`, `length_of_taken` — what blocks taken one after the other say
  of the draws by their numbers.
* `nested_accounts` — every run of calls of a nested repetition accounts for its leaf.
-/

namespace RandExpr

variable {W : Type} [Host W]

/-! ### Calls -/

/-- Runs of draws, each from a world of its own and from where the run before has left the
source. -/
inductive Source.DrawnIn (S : Source W) :
    S.State → List W → List (List (Except Fault (Delivery W))) → S.State → Prop where
  /-- No run. -/
  | nil {s : S.State} : DrawnIn S s [] [] s
  /-- A run, and the runs after it. -/
  | cons {s s₁ s' : S.State} {w w₁ : W} {ws : List W} {rs : List (Except Fault (Delivery W))}
      {rss : List (List (Except Fault (Delivery W)))} (h : S.Drawn s w rs s₁ w₁)
      (hs : DrawnIn S s₁ ws rss s') : DrawnIn S s (w :: ws) (rs :: rss) s'

theorem Source.Takes.pullIn {T S : Source W} {ready : T.State → S.State → Prop} {counts : List Nat}
    (h : T.Takes S ready counts) {t : T.State} {s : S.State} (hready : ready t s) (ws : List W) :
    ∃ rss s', S.DrawnIn s ws rss s' ∧ List.Forall₂ (Taken counts) rss (T.pullIn t ws).1 := by
  induction ws generalizing t s with
  | nil => exact ⟨[], s, .nil, .nil⟩
  | cons w ws ih =>
    obtain ⟨r, t₁, w₁, rs, s₁, hp, hdrawn, hready₁, htaken⟩ := h t s w hready
    obtain ⟨rss, s', hdrawns, htakens⟩ := ih hready₁
    refine ⟨rs :: rss, s', .cons hdrawn hdrawns, ?_⟩
    rw [Source.pullIn, hp]
    exact .cons htaken htakens

theorem Source.Plays.drawn {S : Source W} {s s' : S.State} {r : Nat → Except Fault (Delivery W)}
    {w w' : W} {rs : List (Except Fault (Delivery W))} (h : S.Plays s r)
    (hdrawn : S.Drawn s w rs s' w') :
    rs = (List.range rs.length).map r ∧ S.Plays s' fun k => r (rs.length + k) := by
  induction hdrawn with
  | start =>
    refine ⟨rfl, ?_⟩
    simpa only [List.length_nil, Nat.zero_add] using h
  | note _ _ ih => exact ih
  | pull _ hp ih =>
    obtain ⟨hrs, hplays⟩ := ih
    obtain ⟨hr, hrest⟩ := hplays.pull hp
    rw [List.length_append, List.length_singleton]
    constructor
    · rw [List.range_succ, List.map_append, ← hrs, hr]
      rfl
    · simpa only [Nat.add_assoc, Nat.add_comm 1] using hrest

theorem Source.Plays.drawnIn {S : Source W} {s s' : S.State} {r : Nat → Except Fault (Delivery W)}
    {ws : List W} {rss : List (List (Except Fault (Delivery W)))} (h : S.Plays s r)
    (hruns : S.DrawnIn s ws rss s') :
    rss.flatten = (List.range rss.flatten.length).map r := by
  induction hruns generalizing r with
  | nil => rfl
  | cons hdrawn _ ih =>
    obtain ⟨hrs, hrest⟩ := h.drawn hdrawn
    rw [List.flatten_cons, List.length_append, List.range_add, List.map_append, List.map_map]
    exact congrArg₂ (· ++ ·) hrs (ih hrest)

/-- The values that a generator hands out: the first one, and then what its source gives. -/
theorem Generator.answerAll_resolve {g : Generator W} {d : Delivery W} (hfirst : g.first = some d)
    (w : W) (ws : List W) :
    (g.answerAll ((w :: ws).map fun w => (.resolve, w))).1 =
      .ok d :: (g.source.pullIn g.source.state ws).1 := by
  have hstate : g.withState (some d, g.source.state) = g := by
    rw [← hfirst]
    rfl
  have hanswer := g.answer_of_first d g.source.state .resolve w
  rw [hstate] at hanswer
  have hhand (rs : List (Except Fault (Delivery W))) (hrs : rs.length = ws.length) :
      List.zipWith (fun c r => r.map c.1.hand) (ws.map fun w => (Call.resolve, w)) rs = rs := by
    clear * - hrs
    induction ws generalizing rs with
    | nil => exact (List.length_eq_zero_iff.1 hrs).symm
    | cons w ws ih =>
      cases rs with
      | nil => simp at hrs
      | cons r rs =>
        rw [List.map_cons, List.zipWith_cons_cons, ih rs (by simpa using hrs)]
        cases r <;> rfl
  rw [List.map_cons, answerAll, hanswer]
  simp only [answerAll_of_none, List.map_map, Function.comp_def, List.map_id']
  rw [hhand _ (g.source.length_pullIn _ _)]
  rfl

/-! ### By the numbers of the draws -/

section Numbers

variable {counts : List Nat} {rss : List (List (Except Fault (Delivery W)))}
  {outs : List (Except Fault (Delivery W))}

omit [Host W] in
/-- Where no draw up to the end of a block has failed, the block makes the value of its number. -/
theorem block_of_taken (h : List.Forall₂ (Taken counts) rss outs) (j : Nat)
    (hok : ∀ i < (j + 1) * counts.prod, ∃ d, rss.flatten[i]? = some (.ok d))
    (hpos : 0 < counts.prod) :
    ∃ block d, outs[j]? = some (.ok d) ∧ Delivery.Makes counts block d ∧
      (rss.flatten.drop (j * counts.prod)).take counts.prod = block.map .ok := by
  induction h generalizing j with
  | nil =>
    obtain ⟨d, hd⟩ := hok 0 (Nat.mul_pos (Nat.succ_pos j) hpos)
    simp at hd
  | @cons rs r rss outs htaken _ ih =>
    rw [List.flatten_cons] at hok ⊢
    cases htaken with
    | @fault ds f hlt =>
      obtain ⟨d, hd⟩ := hok ds.length
        (Nat.lt_of_lt_of_le hlt (Nat.le_mul_of_pos_left _ (Nat.succ_pos j)))
      simp at hd
    | @block ds d hmakes =>
      have hlen : (ds.map (Except.ok (ε := Fault))).length = counts.prod := by
        rw [List.length_map, hmakes.length_eq]
      cases j with
      | zero =>
        refine ⟨ds, d, rfl, hmakes, ?_⟩
        rw [Nat.zero_mul, List.drop_zero, ← hlen, List.take_left]
      | succ j =>
        have hrest : ∀ i < (j + 1) * counts.prod, ∃ d, rss.flatten[i]? = some (.ok d) := by
          intro i hi
          obtain ⟨d, hd⟩ := hok (counts.prod + i) (by rw [Nat.succ_mul]; omega)
          rw [← hlen, List.getElem?_append_right (Nat.le_add_right _ _), Nat.add_sub_cancel_left]
            at hd
          exact ⟨d, hd⟩
        obtain ⟨block, d, hout, hmakes, hblock⟩ := ih j hrest
        refine ⟨block, d, hout, hmakes, ?_⟩
        rw [Nat.succ_mul, Nat.add_comm, ← List.drop_drop]
        rw [← hlen, List.drop_left, hlen]
        exact hblock

omit [Host W] in
/-- The first draw that fails makes the value of its block fail. -/
theorem fault_of_taken (h : List.Forall₂ (Taken counts) rss outs) {m : Nat} {f : Fault}
    (hf : rss.flatten[m]? = some (.error f))
    (hok : ∀ i < m, ∃ d, rss.flatten[i]? = some (.ok d)) (hpos : 0 < counts.prod) :
    outs[m / counts.prod]? = some (.error f) := by
  induction h generalizing m with
  | nil => simp at hf
  | @cons rs r rss outs htaken _ ih =>
    rw [List.flatten_cons] at hf hok
    cases htaken with
    | @fault ds f' hlt =>
      have hm : m = ds.length := by
        rcases Nat.lt_trichotomy m ds.length with hlt | heq | hgt
        · rw [List.append_assoc, List.getElem?_append_left (by simpa using hlt)] at hf
          simp at hf
        · exact heq
        · obtain ⟨d, hd⟩ := hok ds.length hgt
          simp at hd
      subst hm
      obtain rfl : f' = f := by simpa using hf
      rw [Nat.div_eq_of_lt hlt]
      rfl
    | @block ds d hmakes =>
      have hlen : (ds.map (Except.ok (ε := Fault))).length = counts.prod := by
        rw [List.length_map, hmakes.length_eq]
      have hle : counts.prod ≤ m := by
        by_contra hlt
        rw [List.getElem?_append_left (by omega)] at hf
        simp at hf
      obtain ⟨k, rfl⟩ : ∃ k, m = counts.prod + k := ⟨m - counts.prod, by omega⟩
      rw [Nat.add_div_left _ hpos]
      refine ih ?_ ?_
      · rwa [List.getElem?_append_right (by omega), hlen, Nat.add_sub_cancel_left] at hf
      · intro i hi
        obtain ⟨d, hd⟩ := hok (counts.prod + i) (by omega)
        rw [List.getElem?_append_right (by omega), hlen, Nat.add_sub_cancel_left] at hd
        exact ⟨d, hd⟩

omit [Host W] in
theorem length_of_taken (h : List.Forall₂ (Taken counts) rss outs)
    (hok : ∀ r ∈ rss.flatten, ∃ d, r = .ok d) :
    rss.flatten.length = rss.length * counts.prod := by
  induction h with
  | nil => simp
  | @cons rs r rss outs htaken _ ih =>
    rw [List.flatten_cons] at hok ⊢
    cases htaken with
    | @fault ds f hlt =>
      obtain ⟨d, hd⟩ := hok (.error f) (by simp)
      simp at hd
    | @block ds d hmakes =>
      rw [List.length_append, List.length_map, hmakes.length_eq,
        ih fun r hr => hok r (List.mem_append_right _ hr), List.length_cons, Nat.succ_mul,
        Nat.add_comm]

end Numbers

/-- How the answers of a number of calls account for the draws of the leaf. -/
structure Accounted (counts : List Nat) (calls : Nat)
    (drawn outs : List (Except Fault (Delivery W))) : Prop where
  /-- A call whose block has been drawn without a fault gives the value of its block, which comes
  later exactly if one of the block does, and settles with the texts of the block in order. -/
  value : ∀ j < calls, (∀ i < (j + 1) * counts.prod, ∃ d, drawn[i]? = some (.ok d)) →
    ∃ block d, outs[j]? = some (.ok d) ∧
      (drawn.drop (j * counts.prod)).take counts.prod = block.map .ok ∧
      Delivery.Makes counts block d ∧
      (d.isLate = true ↔ ∃ part ∈ block, part.isLate = true) ∧
      ∀ vs, List.Forall₂ (fun d v => d.Settles v) block vs →
        d.Settles (.text (String.join (vs.map Value.display)))
  /-- The first draw that fails makes the call that it is for fail, and no call before. -/
  fault : ∀ m f, drawn[m]? = some (.error f) → (∀ i < m, ∃ d, drawn[i]? = some (.ok d)) →
    outs[m / counts.prod]? = some (.error f) ∧
      ∀ j < m / counts.prod, ∃ d, outs[j]? = some (.ok d)
  /-- Where no draw fails there is a block for each call, and one if there is no call. -/
  size : (∀ r ∈ drawn, ∃ d, r = .ok d) → drawn.length = max 1 calls * counts.prod

omit [Host W] in
/-- Draws go on to the end of the blocks as long as none of them fails. -/
theorem Accounted.lt_length {counts : List Nat} {calls m : Nat}
    {drawn outs : List (Except Fault (Delivery W))} (h : Accounted counts calls drawn outs)
    (hm : m < max 1 calls * counts.prod)
    (hok : ∀ i < m, i < drawn.length → ∃ d, drawn[i]? = some (.ok d)) : m < drawn.length := by
  by_contra hshort
  have hlength := h.size fun r hr => by
    obtain ⟨i, hi, rfl⟩ := List.getElem_of_mem hr
    obtain ⟨d, hd⟩ := hok i (by omega) hi
    exact ⟨d, Option.some.inj ((List.getElem?_eq_getElem hi).symm.trans hd)⟩
  omega

omit [Host W] in
theorem accounted_of_taken [Nonempty W] {counts : List Nat}
    {rss : List (List (Except Fault (Delivery W)))} {outs : List (Except Fault (Delivery W))}
    (h : List.Forall₂ (Taken counts) rss outs) (hne : counts ≠ []) (hpos : 0 < counts.prod)
    (hrss : rss ≠ []) : Accounted counts rss.length rss.flatten outs where
  value := by
    intro j _ hok
    obtain ⟨block, d, hout, hmakes, hblock⟩ := block_of_taken h j hok hpos
    refine ⟨block, d, hout, hblock, hmakes, hmakes.isLate_iff, fun vs hvs => ?_⟩
    obtain ⟨v, hv, -, htext⟩ := hmakes.settles hvs
    rwa [htext hne] at hv
  fault := by
    intro m f hf hok
    refine ⟨fault_of_taken h hf hok hpos, fun j hj => ?_⟩
    have hle : (j + 1) * counts.prod ≤ m :=
      Nat.le_trans (Nat.mul_le_mul_right _ hj) (Nat.div_mul_le_self _ _)
    obtain ⟨block, d, hout, -⟩ :=
      block_of_taken h j (fun i hi => hok i (Nat.lt_of_lt_of_le hi hle)) hpos
    exact ⟨d, hout⟩
  size := by
    intro hok
    have hlen : max 1 rss.length = rss.length := by
      have := List.length_pos_iff.2 hrss
      omega
    rw [length_of_taken h hok, hlen]

/-- **A nested repetition accounts for every draw of its leaf.** Take a repetition by positive
counts around a leaf that is prepared wherever nothing but notes has been kept. Building it draws
from the leaf up to the first fault, which is then the fault of building, but at most one block.
When a generator has been built exactly one block has been drawn, and in every run of calls, each in
a world of its own, the calls after the first draw from the leaf and from nothing else, so that all
the calls together account for all the draws. -/
theorem nested_accounts (catalog : Catalog W) (options : Options) (counts : List Nat)
    (hne : counts ≠ []) (hdepth : counts.length ≤ maxDepth) (hpos : ∀ count ∈ counts, 0 < count)
    (leaf text : String) (hnested : catalog.Nested leaf counts text) (w : W)
    (hleaf : ∀ w', Noted w w' → ∃ e S w'',
      catalog.prepare options (catalog.buildAt options (maxDepth - counts.length)) counts.length
        leaf w' = (.ok (e, S), w'')) :
    ∃ w₀ e S w₁ built s w₂, Noted w w₀ ∧
      catalog.prepare options (catalog.buildAt options (maxDepth - counts.length)) counts.length
        leaf w₀ = (.ok (e, S), w₁) ∧
      S.Drawn S.state w₁ built s w₂ ∧
      ((∃ (ds : List (Delivery W)) (f : Fault), built = ds.map .ok ++ [.error f] ∧
          ds.length < counts.prod ∧ catalog.build options text w = (.error f, w₂)) ∨
        ∃ (ds : List (Delivery W)) (g : Generator W), built = ds.map .ok ∧
          ds.length = counts.prod ∧ catalog.build options text w = (.ok g, w₂) ∧
          ∀ us : List W, ∃ later s', S.DrawnIn s us.tail later s' ∧
            Accounted counts us.length (built ++ later.flatten)
              (g.answerAll (us.map fun u => (.resolve, u))).1) := by
  have : Nonempty W := ⟨w⟩
  have hprod : 0 < counts.prod := List.prod_pos hpos
  have hlevels : maxDepth - (maxDepth - counts.length) = counts.length := by omega
  have hbuildAt : counts.length + (maxDepth - counts.length) + 1 = maxDepth + 1 := by omega
  obtain ⟨w₀, e, S, w₁, built, s, result, w₂, hnoted, hprep, hbuild, hdrawn, hbuilt⟩ :=
    Catalog.buildAt_takes (maxDepth - counts.length) hnested hpos (by rw [hlevels]; exact hleaf)
  rw [hlevels] at hprep
  rw [hbuildAt] at hbuild
  refine ⟨w₀, e, S, w₁, built, s, w₂, hnoted, hprep, hdrawn, ?_⟩
  cases hbuilt with
  | @fault ds f hlt => exact .inl ⟨ds, f, rfl, hlt, hbuild⟩
  | @generator block g hfollows =>
    obtain ⟨d, ready, hfirst, hmakes, htakes, hready⟩ := hfollows
    refine .inr ⟨block, g, rfl, hmakes.length_eq, hbuild, fun us => ?_⟩
    cases us with
    | nil =>
      refine ⟨[], s, .nil, ?_, ?_, ?_⟩
      · simp
      · intro m f hm
        simp [List.getElem?_map] at hm
      · simp [hmakes.length_eq]
    | cons u us =>
      obtain ⟨rss, s', hruns, htakens⟩ := htakes.pullIn hready us
      have hall := List.Forall₂.cons (Taken.block hmakes) htakens
      refine ⟨rss, s', hruns, ?_⟩
      rw [Generator.answerAll_resolve hfirst, ← List.flatten_cons]
      have hlen : us.length = rss.length := by
        rw [htakens.length_eq, Source.length_pullIn]
      rw [List.length_cons, hlen]
      exact accounted_of_taken hall hne hprod (by simp)

/-- Two times two coins, the sixth of which falls on its edge: building takes four coins, the first
call gives them, and the second call fails. -/
theorem nested_accounts_coin :
    let script : Nat → Except Fault (Delivery Diary) := fun n =>
      if n = 5 then .error (.sourceFailed "edge") else .ok (.now (.text "heads"))
    let coin := Source.scripted script 0
    let built := (Catalog.scripted script).build {} (repetitionText [2, 2] "coin") ⟨[]⟩
    ∃ g w s d, built.1 = .ok g ∧
      coin.Drawn coin.state w (List.replicate 4 (.ok (.now (.text "heads")))) s built.2 ∧
      d.Settles (.text "headsheadsheadsheads") ∧
      let answers := (g.answerAll [(.resolve, ⟨[]⟩), (.resolve, ⟨[]⟩)]).1
      answers[0]? = some (.ok d) ∧ answers[1]? = some (.error (.sourceFailed "edge")) := by
  intro script coin built
  have hplays : coin.Plays coin.state script := Source.plays_scripted script 0
  have hheads (n : Nat) (hn : n < 5) : script n = .ok (.now (.text "heads")) :=
    if_neg (Nat.ne_of_lt hn)
  obtain ⟨w₀, e, S, w₁, drawn, s, w₂, -, hprep, hdrawn, hbuilt⟩ :=
    nested_accounts (Catalog.scripted script) {} [2, 2] (by decide) (by decide) (by decide) "coin"
      (repetitionText [2, 2] "coin") (Catalog.nested_scripted script (by decide)) ⟨[]⟩
      fun w _ => ⟨_, _, _, Catalog.prepare_scripted script _ _ _ w⟩
  rw [Catalog.prepare_scripted] at hprep
  cases hprep
  obtain ⟨hscript, -⟩ := hplays.drawn hdrawn
  rcases hbuilt with ⟨ds, f, rfl, hlt, -⟩ | ⟨ds, g, rfl, hlen, hok, haccounts⟩
  · -- the fault would be that of one of the first four draws
    have hlast := congrArg (·[ds.length]?) hscript
    have hfault : script ds.length = .error f := by simpa using hlast.symm
    rw [hheads _ (Nat.lt_of_lt_of_le hlt (by decide))] at hfault
    cases hfault
  · have hinj : (List.map (Except.ok (ε := Fault) (α := Delivery Diary))).Injective :=
      List.map_injective_iff.2 fun _ _ => Except.ok.inj
    obtain rfl : ds = List.replicate 4 (.now (.text "heads")) := by
      refine hinj (hscript.trans ?_)
      rw [List.length_map, hlen]
      rfl
    obtain ⟨later, s', hruns, haccounted⟩ := haccounts [⟨[]⟩, ⟨[]⟩]
    have hall := hplays.drawnIn (.cons hdrawn hruns)
    rw [List.flatten_cons] at hall
    generalize hblocks : _ ++ later.flatten = all at hall haccounted
    have hget (i : Nat) (hi : i < all.length) : all[i]? = some (script i) := by
      rw [hall, List.getElem?_map, List.getElem?_range hi, Option.map_some]
    have hlong : 5 < all.length :=
      haccounted.lt_length (by decide) fun i hi hlt =>
        ⟨_, (hget i hlt).trans (congrArg some (hheads i hi))⟩
    have hfirst (i : Nat) (hi : i < 5) : ∃ d, all[i]? = some (.ok d) :=
      ⟨_, (hget i (hi.trans hlong)).trans (congrArg some (hheads i hi))⟩
    obtain ⟨block, d, hd, hblock, -, -, hsettles⟩ :=
      haccounted.value 0 (by decide) fun i hi => hfirst i (Nat.lt_of_lt_of_le hi (by decide))
    obtain ⟨hedge, -⟩ := haccounted.fault 5 _ (hget 5 hlong) hfirst
    obtain rfl : block = List.replicate 4 (.now (.text "heads")) := by
      refine hinj (hblock.symm.trans ?_)
      rw [← hblocks]
      rfl
    have hnow := Delivery.settles_now (W := Diary) (.text "heads")
    have hw : built.2 = w₂ := congrArg Prod.snd hok
    exact ⟨g, _, s, d, congrArg Prod.fst hok, hw ▸ hdrawn,
      hsettles (List.replicate 4 (.text "heads"))
        (.cons hnow (.cons hnow (.cons hnow (.cons hnow .nil)))), hd, hedge⟩

end RandExpr
