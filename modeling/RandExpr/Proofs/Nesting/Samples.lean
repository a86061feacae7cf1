import RandExpr.Proofs.Generator.Scripted
import RandExpr.Proofs.Generator.Yields
import RandExpr.Proofs.Nesting
import RandExpr.Sample

/-!
# Samples of nested repetitions

A sample that waits for its values does not show which of them came later.

## The model

`nestedValue` gives the values of a repetition nested by counts from the values of its leaf:
the `j`-th value of a repetition by `c` joins the texts of the values from number `j * c` on.
`Catalog.Repeats` says of an expression that it is such a repetition around a leaf that yields given
values (`Source.Yields`). A sampling finishes (`Sampling.Finishes`) with what it settles to once it
is asked often enough.

## What is proved

* `buildAt_of_nested` — building a nested repetition succeeds, and what is built yields the
  joined values of the leaf.
* `finishes_advance` — a sampling from a generator that yields values finishes with these values.
* `sampleBlocking_of_repeats` — so a sample of a nested repetition is known from the values of the
  leaf alone, and two leaves that yield the same values make the same sample.
-/

namespace RandExpr

/-- The values of a repetition nested by the counts, the outermost first, around values. -/
def nestedValue : (counts : List Nat) → (Nat → Value) → Nat → Value
  | [], x => x
  | count :: counts, x => fun j =>
    .joined ((List.range count).map fun i => nestedValue counts x (j * count + i))

section Build

variable {W : Type} [Host W]

namespace Catalog

/-- A nested repetition is built if its leaf is, and yields the joined values of the leaf. -/
theorem buildAt_of_nested {catalog : Catalog W} {options : Options} {leaf text : String}
    {counts : List Nat} {x : Nat → Value} (levels : Nat) (h : Nested catalog leaf counts text)
    {w : W} (hleaf : ∀ w', Noted w w' → ∃ e S w'',
      catalog.prepare options (catalog.buildAt options levels) (maxDepth - levels) leaf w' =
        (.ok (e, S), w'') ∧ S.Yields S.state x) :
    ∃ g w', catalog.buildAt options (counts.length + levels + 1) text w = (.ok g, w') ∧
      g.toSource.Yields g.toSource.state (nestedValue counts x) := by
  induction h generalizing w with
  | leaf =>
    obtain ⟨e, S, w₁, hprep, hyields⟩ := hleaf w (.refl w)
    obtain ⟨g, w₂, hg, hyields⟩ :=
      Generator.yields_ofSource hyields e.kind e.args (maxDepth - levels) w₁
    refine ⟨g, w₂, ?_, hyields⟩
    rw [List.length_nil, Nat.zero_add, buildAt, hprep]
    exact hg
  | @repeated count counts text _ _ _ e hparse hkind hargs hcount _ ih =>
    obtain ⟨g, w₁, hg, hyields⟩ :=
      @ih (noteShorthand text w) fun w' hw' => hleaf w' ((noted_noteShorthand text w).trans hw')
    obtain ⟨g', w₂, hg', hyields'⟩ :=
      Generator.yields_ofSource (S := Recipe.repetition count g)
        (Recipe.yields_repetition hyields count) e.kind e.args
        (maxDepth - (counts.length + levels + 1)) w₁
    refine ⟨g', w₂, ?_, hyields'⟩
    rw [List.length_cons, Nat.add_right_comm counts.length 1,
      buildAt_repeated hparse hkind hargs hcount, hg]
    exact hg'

/-- The text is a repetition, nested by the counts, around a leaf that yields the values, wherever
nothing but notes has been kept since the world. -/
def Repeats (catalog : Catalog W) (options : Options) (w : W) (counts : List Nat)
    (x : Nat → Value) (text : String) : Prop :=
  ∃ leaf, Nested catalog leaf counts text ∧ ∀ w', Noted w w' → ∃ e S w'',
    catalog.prepare options (catalog.buildAt options (maxDepth - counts.length)) counts.length
      leaf w' = (.ok (e, S), w'') ∧ S.Yields S.state x

theorem build_of_repeats {catalog : Catalog W} {options : Options} {w : W} {counts : List Nat}
    {x : Nat → Value} {text : String} (hdepth : counts.length ≤ maxDepth)
    (h : catalog.Repeats options w counts x text) :
    ∃ g w', catalog.build options text w = (.ok g, w') ∧
      g.toSource.Yields g.toSource.state (nestedValue counts x) := by
  obtain ⟨leaf, hnested, hleaf⟩ := h
  have hdepth' : maxDepth - (maxDepth - counts.length) = counts.length := by omega
  obtain ⟨g, w', hg, hyields⟩ := buildAt_of_nested (maxDepth - counts.length) hnested
    (by rw [hdepth']; exact hleaf)
  refine ⟨g, w', ?_, hyields⟩
  rw [build, ← hg]
  congr 1
  omega

end Catalog

/-! ### Samplings -/

namespace Sampling

/-- Asked often enough, the sampling has the result. -/
def Finishes (s : Sampling W) (w : W) (result : Except Fault (List Value)) : Prop :=
  ∃ n, ∀ patience, n ≤ patience → (s.settle patience w).1 = some result

theorem finishes_done (result : Except Fault (List Value)) (w : W) :
    (done result).Finishes w result := by
  refine ⟨1, fun patience hp => ?_⟩
  obtain ⟨patience, rfl⟩ : ∃ k, patience = k + 1 := ⟨patience - 1, by omega⟩
  rfl

theorem finishes_of_poll {s s' : Sampling W} {w w' : W} {result : Except Fault (List Value)}
    (hp : s.poll w = (s', w')) (h : s'.Finishes w' result) : s.Finishes w result := by
  obtain ⟨n, hn⟩ := h
  refine ⟨n + 2, fun patience hle => ?_⟩
  obtain ⟨patience, rfl⟩ : ∃ k, patience = k + 2 := ⟨patience - 2, by omega⟩
  have hn := hn (patience + 1) (by omega)
  rw [settle, hp]
  cases s' with
  | done r =>
    obtain rfl : r = result := by simpa [settle, poll] using hn
    rfl
  | fresh => exact hn
  | waiting => exact hn

theorem finishes_waiting {d : Delivery W} {v : Value} (hd : d.Settles v) {left : Nat}
    {drawn : List Value} {g : Generator W} {result : Except Fault (List Value)}
    (hrest : ∀ w, (advance left (v :: drawn) g w).1.Finishes (advance left (v :: drawn) g w).2
      result) (w : W) : (waiting d left drawn g).Finishes w result := by
  induction hd generalizing w with
  | @intro d hpoll _ ih =>
    obtain ⟨p, w₁, hp⟩ : ∃ p w₁, d.poll w = (p, w₁) := ⟨_, _, rfl⟩
    rcases hpoll w with h | ⟨rest, h⟩
    · obtain rfl : p = .settled (.ok v) := by simpa [hp] using h
      refine finishes_of_poll ?_ (hrest w₁)
      rw [poll, hp]
    · obtain rfl : p = .pending rest := by simpa [hp] using h
      refine finishes_of_poll ?_ (ih w rest h w₁)
      rw [poll, hp]

/-- A sampling from a generator that yields values finishes with the values drawn before and as
many of these as are left. -/
theorem finishes_advance {g : Generator W} {x : Nat → Value}
    (h : g.toSource.Yields g.toSource.state x) (left : Nat) (drawn : List Value) (w : W) :
    (advance left drawn g w).1.Finishes (advance left drawn g w).2
      (.ok (drawn.reverse ++ (List.range left).map x)) := by
  induction left generalizing g x drawn w with
  | zero =>
    rw [advance, List.range_zero, List.map_nil, List.append_nil]
    exact finishes_done _ w
  | succ left ih =>
    obtain ⟨d, g', w₁, hres, ⟨hpoll, hrest⟩, hy⟩ := Generator.resolve_of_yields h w
    have hnext (w : W) := ih hy (x 0 :: drawn) w
    have hvalues : (x 0 :: drawn).reverse ++ (List.range left).map (fun k => x (k + 1)) =
        drawn.reverse ++ (List.range (left + 1)).map x := by
      rw [List.range_succ_eq_map, List.map_cons, List.map_map, List.reverse_cons,
        List.append_assoc, List.singleton_append]
      rfl
    rw [hvalues] at hnext
    obtain ⟨p, w₂, hp⟩ : ∃ p w₂, d.poll w₁ = (p, w₂) := ⟨_, _, rfl⟩
    rw [advance, hres]
    simp only [hp]
    rcases hpoll w₁ with hset | ⟨rest, hpend⟩
    · obtain rfl : p = .settled (.ok (x 0)) := by simpa [hp] using hset
      exact hnext w₂
    · obtain rfl : p = .pending rest := by simpa [hp] using hpend
      exact finishes_waiting (hrest w₁ rest hpend) hnext w₂

end Sampling

theorem Catalog.finishes_of_repeats {catalog : Catalog W} {options : Options} {w : W}
    {counts : List Nat} {x : Nat → Value} {text : String} (hdepth : counts.length ≤ maxDepth)
    (h : catalog.Repeats options w counts x text) (count : Nat) :
    (Sampling.fresh catalog options text count).Finishes w
      (.ok ((List.range count).map (nestedValue counts x))) := by
  obtain ⟨g, w', hg, hyields⟩ := build_of_repeats hdepth h
  refine Sampling.finishes_of_poll ?_ (Sampling.finishes_advance hyields count [] w')
  rw [Sampling.poll, hg]

end Build

/-- **A sample does not show when its values came.** Two expressions that are repetitions by the
same counts, around leaves that yield the same values, make the same sample, whichever of the values
come later and however long they take, once enough patience is had with both; and it is the sample
of the joined values. -/
theorem sampleBlocking_of_repeats {W₁ W₂ : Type} [Host W₁] [Host W₂] (counts : List Nat)
    (hdepth : counts.length ≤ maxDepth) (x : Nat → Value) (count : Nat)
    (catalog₁ : Catalog W₁) (options₁ : Options) (text₁ : String) (w₁ : W₁)
    (h₁ : catalog₁.Repeats options₁ w₁ counts x text₁)
    (catalog₂ : Catalog W₂) (options₂ : Options) (text₂ : String) (w₂ : W₂)
    (h₂ : catalog₂.Repeats options₂ w₂ counts x text₂) :
    ∃ n, ∀ patience, n ≤ patience →
      (sampleBlocking patience catalog₁ options₁ text₁ count w₁).1 =
          (sampleBlocking patience catalog₂ options₂ text₂ count w₂).1 ∧
        (sampleBlocking patience catalog₁ options₁ text₁ count w₁).1 =
          some (.ok ((List.range count).map (nestedValue counts x))) := by
  obtain ⟨n₁, hn₁⟩ := Catalog.finishes_of_repeats hdepth h₁ count
  obtain ⟨n₂, hn₂⟩ := Catalog.finishes_of_repeats hdepth h₂ count
  refine ⟨max n₁ n₂, fun patience hle => ?_⟩
  have hfirst := hn₁ patience (by omega)
  have hsecond := hn₂ patience (by omega)
  exact ⟨hfirst.trans hsecond.symm, hfirst⟩

/-- Coins that show at once, and coins that take longer and longer. -/
theorem sampleBlocking_of_repeats_coin :
    let x : Nat → Value := fun k => .text (if k % 2 = 0 then "heads" else "tails")
    let soon : Catalog Diary := .scripted fun k => .ok (.now (x k))
    let late : Catalog Diary := .scripted fun k => .ok (.after (k + 1) (.ok (x k)))
    ∃ n, ∀ patience, n ≤ patience →
      (sampleBlocking patience soon {} (repetitionText [2, 3] "coin") 4 ⟨[]⟩).1 =
        (sampleBlocking patience late {} (repetitionText [2, 3] "coin") 4 ⟨[]⟩).1 := by
  intro x soon late
  have hrepeats (script : Nat → Except Fault (Delivery Diary))
      (h : ∀ k, ∃ d, script k = .ok d ∧ d.Settles (x k)) :
      (Catalog.scripted script).Repeats {} ⟨[]⟩ [2, 3] x (repetitionText [2, 3] "coin") :=
    ⟨"coin", Catalog.nested_scripted script (by decide), fun w _ =>
      ⟨_, _, _, Catalog.prepare_scripted script _ _ _ w, Source.yields_scripted h⟩⟩
  have hsoon := hrepeats _ fun k => ⟨_, rfl, Delivery.settles_now (x k)⟩
  have hlate := hrepeats _ fun k => ⟨_, rfl, Delivery.settles_after (k + 1) (x k)⟩
  obtain ⟨n, hn⟩ :=
    sampleBlocking_of_repeats [2, 3] (by decide) x 4 soon {} _ _ hsoon late {} _ _ hlate
  exact ⟨n, fun patience hle => (hn patience hle).1⟩

end RandExpr
