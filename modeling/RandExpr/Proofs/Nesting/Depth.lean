import RandExpr.Proofs.Form.Multiplier
import RandExpr.Proofs.Generator.Scripted
import RandExpr.Proofs.Nesting.Constructions
import RandExpr.Proofs.Watching

/-!
# The depth of nesting

Which recipes are called for a leaf in multipliers, one around the other.

## The model

`multipliedText` writes multipliers around a leaf. A text can stand in a multiplier and be parsed
back (`Multiplicand`) if it is closed, on one line and not empty, and a multiplier around such a
text is one again.

## What is proved

* `calls_multiplierText` — a multiplier calls the recipe of repetitions once, whatever its count,
  and then come the calls for what it multiplies.
* `calls_of_lt`, `calls_of_le` — the calls for a leaf in multipliers, where there are levels for all
  of them, and where there are not.
* `nesting_disciplined` — the limit on nesting, for every catalog, and for multipliers.
-/

namespace RandExpr

/-! ### Texts of multipliers -/

/-- The text multiplied by the counts, the outermost first. -/
def multipliedText : (counts : List String) → (leaf : String) → String
  | [], leaf => leaf
  | count :: counts, leaf => multiplierText count (multipliedText counts leaf)

/-- The text can stand in a multiplier. -/
structure Multiplicand (text : String) : Prop where
  /-- There is something to multiply. -/
  ne_empty : text ≠ ""
  /-- What the text opens, it closes. -/
  closed : Scan.Closed text.toList
  /-- The text is on one line. -/
  line : '\n' ∉ text.toList

/-- The text is a count that a multiplier takes. -/
structure Multiplies (count : String) : Prop where
  /-- There is a digit. -/
  ne_empty : count ≠ ""
  /-- There is nothing but digits. -/
  digits : ∀ c ∈ count.toList, c.isDigit = true
  /-- The number is not too great. -/
  value_le : Decimal.digitsValue count.toList ≤ maxRepeat

theorem Multiplies.readCount {count : String} (h : Multiplies count) :
    Recipe.readCount count = .ok (Decimal.digitsValue count.toList) := by
  have hne : count.toList ≠ [] := by simpa using h.ne_empty
  exact Recipe.readCount_eq_ok_iff.2 (isCount_of_isDigit hne h.digits h.value_le)

theorem Multiplies.not_mem {count : String} (h : Multiplies count) {c : Char}
    (hc : c.isDigit = false) : c ∉ count.toList := by
  intro hmem
  simp [h.digits c hmem] at hc

namespace Multiplicand

variable {count payload : String}

theorem multiplied (hcount : Multiplies count) (hpayload : Multiplicand payload) :
    Multiplicand (multiplierText count payload) := by
  refine ⟨?_, ?_, ?_⟩
  · intro hempty
    have htext := toList_multiplierText count payload
    rw [hempty] at htext
    simp at htext
  · have hrepeat := Scan.closed_repeatText hcount.digits hpayload.closed
    have hquotes : Even (payload.toList.count '"') := (Scan.closed_iff.1 hpayload.closed).2
    have hnone : count.toList.count '"' = 0 := List.count_eq_zero.2 (hcount.not_mem rfl)
    refine Scan.closed_iff.2 ⟨?_, ?_⟩
    · rw [Scan.balanced_multiplierText hcount.digits]
      exact (Scan.closed_iff.1 hrepeat).1
    · rw [toList_multiplierText]
      simpa [List.count_append, List.count_cons, hnone] using hquotes
  · rw [toList_multiplierText]
    simpa using ⟨hcount.not_mem rfl, hpayload.line⟩

theorem multipliedText {counts : List String} (hcounts : ∀ count ∈ counts, Multiplies count)
    {leaf : String} (hleaf : Multiplicand leaf) :
    Multiplicand (multipliedText counts leaf) := by
  induction counts with
  | nil => exact hleaf
  | cons count counts ih =>
    obtain ⟨hcount, hinner⟩ := List.forall_mem_cons.1 hcounts
    exact (ih hinner).multiplied hcount

theorem parse_multiplierText (hcount : Multiplies count) (hpayload : Multiplicand payload) :
    Expr.parse (multiplierText count payload) =
      .ok ⟨repeatText count payload, "repeat", [count, "(" ++ payload ++ ")"], ⟨0, 6⟩⟩ := by
  rw [Expr.parse_multiplierText hcount.ne_empty hcount.digits hpayload.ne_empty hpayload.line]
  exact Expr.parse_repeatText hcount.digits hpayload.closed

end Multiplicand

/-! ### Calls -/

variable {W : Type} [Host W]

omit [Host W] in
theorem Plan.snd_trace_of_isLeaf
    (build : String → W → (Except Fault (Generator W) × W) × Construction) {p : Plan W}
    (h : p.IsLeaf) (w : W) : (p.trace build w).2 = [] := by
  induction p generalizing w with
  | fail f => rfl
  | yield source => rfl
  | act effect rest ih => exact ih _ (h _) _
  | nest text rest => exact h.elim

/-- A repetition asks for one construction, however great its count is. -/
theorem Recipe.snd_trace_repeated
    (build : String → W → (Except Fault (Generator W) × W) × Construction)
    {countText payload : String} {more : List String} {count : Nat}
    (hcount : readCount countText = .ok count) (setting : Setting) (w : W) :
    ((repeated setting (countText :: payload :: more)).trace build w).2 =
      [(build (String.ofList (unwrapGroup payload.toList)) w).2] := by
  have hfirst : setting.arg (countText :: payload :: more) 0 "count" = .ok countText := rfl
  have hsecond : setting.arg (countText :: payload :: more) 1 "expression" = .ok payload := rfl
  obtain ⟨r, w', c, hbuild⟩ : ∃ r w' c,
      build (String.ofList (unwrapGroup payload.toList)) w = ((r, w'), c) := ⟨_, _, _, rfl⟩
  simp only [repeated, hfirst, hsecond, hcount, Plan.ofExcept, Plan.nested, Plan.trace, hbuild]
  cases r <;> rfl

theorem Recipe.not_isLeaf_repeated :
    ¬∀ setting args, (repeated setting args : Plan W).IsLeaf := by
  intro h
  exact h ⟨"repeat", {}, [], 0⟩ ["1", "x"]

namespace Catalog

variable {catalog : Catalog W} (options : Options)

/-- The settings of repetitions, one inside the other. -/
def repeatSettings (catalog : Catalog W) (options : Options) (depth count : Nat) : List Setting :=
  (List.range' depth count).map fun depth => ⟨"repeat", options, catalog.kinds, depth⟩

omit [Host W] in
theorem repeatSettings_succ {levels : Nat} (hlevels : levels < maxDepth + 1) (count : Nat) :
    catalog.repeatSettings options (maxDepth + 1 - (levels + 1)) (count + 1) =
      ⟨"repeat", options, catalog.kinds, maxDepth - levels⟩ ::
        catalog.repeatSettings options (maxDepth + 1 - levels) count := by
  have hdepth : maxDepth + 1 - (levels + 1) = maxDepth - levels := by omega
  have hnext : maxDepth + 1 - levels = maxDepth - levels + 1 := by omega
  rw [hdepth, hnext]
  rfl

/-- A multiplier calls the recipe of repetitions, and what it multiplies is constructed once. -/
theorem calls_multiplierText (hrepeat : catalog.find? "repeat" = some Recipe.repeated)
    {count payload : String} (hcount : Multiplies count) (hpayload : Multiplicand payload)
    (levels : Nat) (w : W) :
    (catalog.traceAt options (levels + 1) (multiplierText count payload) w).2.calls =
      ⟨"repeat", options, catalog.kinds, maxDepth - levels⟩ ::
        (catalog.traceAt options levels payload
          (noteShorthand (multiplierText count payload) w)).2.calls := by
  rw [snd_traceAt options (hpayload.parse_multiplierText hcount) hrepeat,
    Recipe.snd_trace_repeated _ hcount.readCount, ofList_unwrapGroup hpayload.closed]
  simp only [Construction.calls, Construction.callsIn, List.append_nil]

theorem calls_of_isLeaf {leaf : String} {e : Expr} {recipe : Recipe W}
    (hparse : Expr.parse leaf = .ok e) (hkind : catalog.find? e.kind = some recipe)
    (hleaf : ∀ setting args, (recipe setting args).IsLeaf) (levels : Nat) (w : W) :
    (catalog.traceAt options (levels + 1) leaf w).2.calls =
      [⟨e.kind, options, catalog.kinds, maxDepth - levels⟩] := by
  rw [snd_traceAt options hparse hkind, Plan.snd_trace_of_isLeaf _ (hleaf _ _)]
  rfl

variable (hrepeat : catalog.find? "repeat" = some Recipe.repeated) {counts : List String}
  (hcounts : ∀ count ∈ counts, Multiplies count) {leaf : String} (hleaf : Multiplicand leaf)

include hrepeat hcounts hleaf

/-- **Where there are levels for all multipliers**, there is a call for each of them, and then the
one for the leaf. -/
theorem calls_of_lt {e : Expr} {recipe : Recipe W} (hparse : Expr.parse leaf = .ok e)
    (hkind : catalog.find? e.kind = some recipe)
    (hnests : ∀ setting args, (recipe setting args).IsLeaf) {levels : Nat}
    (hlevels : levels ≤ maxDepth + 1) (hlt : counts.length < levels) (w : W) :
    (catalog.traceAt options levels (multipliedText counts leaf) w).2.calls =
      catalog.repeatSettings options (maxDepth + 1 - levels) counts.length ++
        [⟨e.kind, options, catalog.kinds, maxDepth + 1 - levels + counts.length⟩] := by
  induction counts generalizing levels w with
  | nil =>
    obtain ⟨levels, rfl⟩ : ∃ l, levels = l + 1 := ⟨levels - 1, by omega⟩
    have hdepth : maxDepth + 1 - (levels + 1) + 0 = maxDepth - levels := by omega
    show _ = [(⟨e.kind, options, catalog.kinds, maxDepth + 1 - (levels + 1) + 0⟩ : Setting)]
    rw [hdepth]
    exact calls_of_isLeaf options hparse hkind hnests levels w
  | cons count counts ih =>
    obtain ⟨levels, rfl⟩ : ∃ l, levels = l + 1 := ⟨levels - 1, by omega⟩
    obtain ⟨hcount, hinner⟩ := List.forall_mem_cons.1 hcounts
    have hdepth : maxDepth + 1 - levels + counts.length =
        maxDepth + 1 - (levels + 1) + (counts.length + 1) := by omega
    rw [multipliedText, calls_multiplierText options hrepeat hcount
      (Multiplicand.multipliedText hinner hleaf), ih hinner (by omega) (by simpa using hlt),
      List.length_cons, repeatSettings_succ options hlevels, List.cons_append, hdepth]

/-- **Where there are not**, there is a call for each level, and none for the leaf. -/
theorem calls_of_le {levels : Nat} (hlevels : levels ≤ maxDepth + 1) (hle : levels ≤ counts.length)
    (w : W) : (catalog.traceAt options levels (multipliedText counts leaf) w).2.calls =
      catalog.repeatSettings options (maxDepth + 1 - levels) levels := by
  induction counts generalizing levels w with
  | nil =>
    obtain rfl : levels = 0 := by simpa using hle
    rfl
  | cons count counts ih =>
    cases levels with
    | zero => rfl
    | succ levels =>
      obtain ⟨hcount, hinner⟩ := List.forall_mem_cons.1 hcounts
      rw [multipliedText, calls_multiplierText options hrepeat hcount
        (Multiplicand.multipliedText hinner hleaf), ih hinner (by omega) (by simpa using hle),
        repeatSettings_succ options hlevels]

theorem buildAt_of_le {levels : Nat} (hle : levels ≤ counts.length) (w : W) :
    ∃ w', catalog.buildAt options levels (multipliedText counts leaf) w =
      (.error (.tooDeep (maxDepth + 1) maxDepth), w') := by
  induction counts generalizing levels w with
  | nil =>
    obtain rfl : levels = 0 := by simpa using hle
    exact ⟨w, rfl⟩
  | cons count counts ih =>
    cases levels with
    | zero => exact ⟨w, rfl⟩
    | succ levels =>
      obtain ⟨hcount, hinner⟩ := List.forall_mem_cons.1 hcounts
      have hpayload := Multiplicand.multipliedText hinner hleaf
      have hle : levels ≤ counts.length := by simpa using hle
      obtain ⟨w', hbuild⟩ := ih hinner hle
        (noteShorthand (multiplierText count (multipliedText counts leaf)) w)
      refine ⟨w', ?_⟩
      rw [multipliedText, buildAt_repeated (hpayload.parse_multiplierText hcount) hrepeat rfl
        hcount.readCount, ofList_unwrapGroup hpayload.closed, hbuild]

end Catalog

/-- **Nesting is disciplined.** The construction of every generator is, whatever the recipes of the
catalog nest: the depth that a recipe sees is the number of constructions around it and never above
32, its options and its kinds are those of the outermost construction, and the fault of the limit
is raised at level 33 only. So a leaf in as many multipliers as the counts is reached exactly if
there are no more than 32 of them, and then by one call of its recipe. -/
theorem nesting_disciplined (catalog : Catalog W) (options : Options) :
    (∀ text w, (catalog.trace options text w).1 = catalog.build options text w ∧
      Construction.Disciplined catalog options 0 (catalog.trace options text w).2 ∧
      ∀ setting ∈ (catalog.trace options text w).2.calls,
        setting.depth ≤ 32 ∧ setting.options = options ∧ setting.kinds = catalog.kinds) ∧
    (catalog.find? "repeat" = some Recipe.repeated →
      ∀ counts : List String, (∀ count ∈ counts, count ≠ "" ∧
        (∀ c ∈ count.toList, c.isDigit = true) ∧ Decimal.digitsValue count.toList ≤ 100000) →
      ∀ leaf : String, leaf ≠ "" → Scan.balanced {} leaf.toList = true →
        Even (leaf.toList.count '"') → '\n' ∉ leaf.toList →
      ∀ (e : Expr) (recipe : Recipe W), Expr.parse leaf = .ok e →
        catalog.find? e.kind = some recipe → (∀ setting args, (recipe setting args).IsLeaf) →
      ∀ w, e.kind ≠ "repeat" ∧
        (counts.length ≤ 32 → (catalog.trace options (multipliedText counts leaf) w).2.calls =
          catalog.repeatSettings options 0 counts.length ++
            [⟨e.kind, options, catalog.kinds, counts.length⟩]) ∧
        (32 < counts.length →
          (catalog.trace options (multipliedText counts leaf) w).2.calls =
            catalog.repeatSettings options 0 33 ∧
          ∃ w', catalog.build options (multipliedText counts leaf) w =
            (.error (.tooDeep 33 32), w'))) := by
  refine ⟨fun text w => ?_, ?_⟩
  · have hdisciplined := catalog.disciplined_traceAt options (Nat.le_refl (maxDepth + 1)) text w
    exact ⟨Catalog.fst_traceAt options _ text w, hdisciplined,
      fun setting hmem => hdisciplined.setting_of_mem_calls hmem⟩
  · intro hrepeat counts hcounts leaf hne hbalanced hquotes hline e recipe hparse hkind hnests w
    have hcounts : ∀ count ∈ counts, Multiplies count := by
      intro count hcount
      obtain ⟨hsome, hdigits, hle⟩ := hcounts count hcount
      exact ⟨hsome, hdigits, hle⟩
    have hleaf : Multiplicand leaf := ⟨hne, Scan.closed_iff.2 ⟨hbalanced, hquotes⟩, hline⟩
    refine ⟨?_, ?_, ?_⟩
    · intro hsame
      rw [hsame, hrepeat] at hkind
      obtain rfl := Option.some.inj hkind
      exact Recipe.not_isLeaf_repeated hnests
    · intro hle
      have hlt : counts.length < maxDepth + 1 := Nat.lt_succ_of_le hle
      have hcalls := Catalog.calls_of_lt options hrepeat hcounts hleaf hparse hkind hnests
        (Nat.le_refl _) hlt w
      rw [Nat.sub_self, Nat.zero_add] at hcalls
      exact hcalls
    · intro hlt
      exact ⟨Catalog.calls_of_le options hrepeat hcounts hleaf (Nat.le_refl _) hlt w,
        Catalog.buildAt_of_le options hrepeat hcounts hleaf hlt w⟩

/-- A coin in two multipliers is called once, and in 33 it is not. -/
theorem nesting_disciplined_coin :
    let catalog : Catalog Diary := Catalog.scripted fun _ => .ok (.now (.text "heads"))
    (catalog.trace {} "2*(3*(coin))" ⟨[]⟩).2.calls =
        [⟨"repeat", {}, catalog.kinds, 0⟩, ⟨"repeat", {}, catalog.kinds, 1⟩,
          ⟨"coin", {}, catalog.kinds, 2⟩] ∧
      ∃ w', catalog.build {} (multipliedText (List.replicate 33 "1") "coin") ⟨[]⟩ =
        (.error (.tooDeep 33 32), w') := by
  intro catalog
  have hcoin := Catalog.find?_scripted_coin fun _ => .ok (.now (.text "heads") : Delivery Diary)
  have hrepeat : catalog.find? "repeat" = some Recipe.repeated := Catalog.find?_scripted_repeat _
  have hdigits : ∀ count ∈ ["2", "3", "1"], count ≠ "" ∧
      (∀ c ∈ count.toList, c.isDigit = true) ∧ Decimal.digitsValue count.toList ≤ 100000 := by
    intro count hcount
    simp only [List.mem_cons, List.not_mem_nil, or_false] at hcount
    rcases hcount with rfl | rfl | rfl
    · exact ⟨by decide, by simp, by decide⟩
    · exact ⟨by decide, by simp, by decide⟩
    · exact ⟨by decide, by simp, by decide⟩
  have hreached := (nesting_disciplined catalog {}).2 hrepeat ["2", "3"]
    (fun count h => hdigits count (by grind)) "coin" (by decide) (by decide) (by decide) (by decide)
    ⟨"coin", "coin", [], ⟨0, 4⟩⟩ _ (by rfl) hcoin (fun _ _ => trivial) ⟨[]⟩
  have hdeep := (nesting_disciplined catalog {}).2 hrepeat (List.replicate 33 "1")
    (fun count h => hdigits count (by grind)) "coin" (by decide) (by decide) (by decide) (by decide)
    ⟨"coin", "coin", [], ⟨0, 4⟩⟩ _ (by rfl) hcoin (fun _ _ => trivial) ⟨[]⟩
  exact ⟨hreached.2.1 (by decide), (hdeep.2.2 (by decide)).2⟩

end RandExpr
