import RandExpr.Proofs.Generator.Outcomes
import RandExpr.Proofs.Generator.Scripted
import RandExpr.Sample

/-!
# The two samples

Where a sample that takes only values that are there at once and a sample that waits agree.

## The model

The two samples build a generator each, in worlds of their own. `Catalog.Supplies` says what the
recipe of the expression comes to in such a world: a fault, or a source with given outcomes. It is
all that the two runs are supposed to have in common.

## What is proved

* `build_of_supplies` — both runs fail to build with the same fault, or both build generators with
  the same outcomes.
* `drawNow_of_outcomes`, `advance_of_outcomes` — what the two samples make of these outcomes.
* `sample_agrees` — hence the two samples agree but for values that come later.
-/

namespace RandExpr

variable {W : Type} [Host W]

/-! ### Building twice -/

/-- What carrying out a plan comes to: a fault, or a source with the outcomes. -/
inductive Supplied : Except Fault (Source W) × W → Except Fault Outcomes → Prop where
  /-- There is no source. -/
  | fault {f : Fault} {w : W} : Supplied (.error f, w) (.error f)
  /-- There is one. -/
  | source {S : Source W} {w : W} {r : Outcomes} (h : HasOutcomes S.pull S.state w r) :
      Supplied (.ok S, w) (.ok r)

namespace Catalog

/-- The recipe that the expression names, if it names one, comes to the result in the world. -/
def Supplies (catalog : Catalog W) (options : Options) (expression : String) (w : W)
    (result : Except Fault Outcomes) : Prop :=
  ∀ e recipe, Expr.parse expression = .ok e → catalog.find? e.kind = some recipe →
    Supplied ((recipe ⟨e.kind, options, catalog.kinds, 0⟩ e.args).run
      (catalog.buildAt options maxDepth) (noteShorthand expression w)) result

variable {catalog : Catalog W} {options : Options} {expression : String} {w w₁ w₂ : W}
  {result : Except Fault Outcomes}

theorem build_of_supplied {e : Expr} {recipe : Recipe W} (hparse : Expr.parse expression = .ok e)
    (hkind : catalog.find? e.kind = some recipe)
    (h : catalog.Supplies options expression w result) :
    (∃ f w', catalog.build options expression w = (.error f, w') ∧
        (result = .error f ∨ ∃ r, result = .ok r ∧ r 0 = .error f)) ∨
      ∃ r g w', result = .ok r ∧ catalog.build options expression w = (.ok g, w') ∧
        g.HasOutcomes w' r ∧ ∀ f, r 0 ≠ .error f := by
  have hdepth : maxDepth - maxDepth = 0 := Nat.sub_self maxDepth
  have hsupplied := h e recipe hparse hkind
  rw [build, buildAt_of_parse hparse hkind, hdepth]
  generalize hrun : (recipe ⟨e.kind, options, catalog.kinds, 0⟩ e.args).run
    (catalog.buildAt options maxDepth) (noteShorthand expression w) = run at hsupplied ⊢
  cases hsupplied with
  | fault => exact .inl ⟨_, _, rfl, .inl rfl⟩
  | @source S w r hr =>
    rcases Generator.outcomes_ofSource hr e.kind e.args 0 with ⟨f, w', hg, hf⟩ | ⟨g, w', hg, hout⟩
    · exact .inl ⟨f, w', hg, .inr ⟨r, rfl, hf⟩⟩
    · exact .inr ⟨r, g, w', rfl, hg, hout⟩

/-- **Building twice comes to the same**: a fault, or generators with the same outcomes. -/
theorem build_of_supplies (h₁ : catalog.Supplies options expression w₁ result)
    (h₂ : catalog.Supplies options expression w₂ result) :
    (∃ f w₁' w₂', catalog.build options expression w₁ = (.error f, w₁') ∧
        catalog.build options expression w₂ = (.error f, w₂')) ∨
      ∃ r g₁ w₁' g₂ w₂', result = .ok r ∧
        (catalog.build options expression w₁ = (.ok g₁, w₁') ∧ g₁.HasOutcomes w₁' r) ∧
        catalog.build options expression w₂ = (.ok g₂, w₂') ∧ g₂.HasOutcomes w₂' r := by
  cases hparse : Expr.parse expression with
  | error f =>
    exact .inl ⟨f, _, _, buildAt_of_fault hparse .., buildAt_of_fault hparse ..⟩
  | ok e =>
    cases hkind : catalog.find? e.kind with
    | none =>
      exact .inl ⟨_, _, _, buildAt_of_unknown hparse hkind .., buildAt_of_unknown hparse hkind ..⟩
    | some recipe =>
      rcases build_of_supplied hparse hkind h₁ with
        ⟨f₁, w₁', hg₁, hf₁⟩ | ⟨r₁, g₁, w₁', hr₁, hg₁, hout₁, hok₁⟩ <;>
      rcases build_of_supplied hparse hkind h₂ with
        ⟨f₂, w₂', hg₂, hf₂⟩ | ⟨r₂, g₂, w₂', hr₂, hg₂, hout₂, hok₂⟩
      · obtain rfl : f₁ = f₂ := by grind
        exact .inl ⟨f₁, w₁', w₂', hg₁, hg₂⟩
      · grind
      · grind
      · obtain rfl : r₁ = r₂ := Except.ok.inj (hr₁.symm.trans hr₂)
        exact .inr ⟨r₁, g₁, w₁', g₂, w₂', hr₁, ⟨hg₁, hout₁⟩, hg₂, hout₂⟩

end Catalog

/-! ### Sampling -/

/-- What a sample makes of the values that it has drawn and of what it reads then, if it takes only
values that are there at once. -/
def verdict (expression : String) (drawn : List Value) :
    Except (Option Fault) (List Value) → Except Fault (List Value)
  | .ok vs => .ok (drawn.reverse ++ vs)
  | .error (some f) => .error f
  | .error none => .error (.notYet expression)

theorem verdict_map (expression : String) (drawn : List Value) (v : Value)
    (read : Except (Option Fault) (List Value)) :
    verdict expression drawn (read.map (v :: ·)) = verdict expression (v :: drawn) read := by
  match read with
  | .ok vs => simp [verdict, Except.map]
  | .error (some f) => rfl
  | .error none => rfl

/-- **A sample that takes only values that are there at once** gives what it reads. -/
theorem drawNow_of_outcomes {g : Generator W} {w : W} {r : Outcomes} (h : g.HasOutcomes w r)
    (expression : String) (left : Nat) (drawn : List Value) :
    (g.drawNow expression left drawn w).1 = verdict expression drawn (r.read left) := by
  induction left generalizing g w r drawn with
  | zero => simp [Generator.drawNow, Outcomes.read, verdict]
  | succ left ih =>
    obtain ⟨res, g', w', hres, hzero, hrest⟩ := Generator.resolve_of_outcomes h
    cases res with
    | error f =>
      rw [Outcomes.read_of_fault hzero.symm, Generator.drawNow, hres]
      rfl
    | ok d =>
      cases d with
      | now v =>
        rw [Outcomes.read_of_value hzero.symm, verdict_map, Generator.drawNow, hres]
        exact ih (hrest v rfl) (v :: drawn)
      | _ =>
        rw [Outcomes.read_of_late hzero.symm, Generator.drawNow, hres]
        rfl

/-- **A sample that waits** gives the same, unless a value comes later. -/
theorem advance_of_outcomes {g : Generator W} {w : W} {r : Outcomes} (h : g.HasOutcomes w r)
    (expression : String) (left : Nat) (drawn : List Value) (hread : r.read left ≠ .error none) :
    (Sampling.advance left drawn g w).1 = .done (verdict expression drawn (r.read left)) := by
  induction left generalizing g w r drawn with
  | zero => simp [Sampling.advance, Outcomes.read, verdict]
  | succ left ih =>
    obtain ⟨res, g', w', hres, hzero, hrest⟩ := Generator.resolve_of_outcomes h
    cases res with
    | error f =>
      rw [Outcomes.read_of_fault hzero.symm, Sampling.advance, hres]
      rfl
    | ok d =>
      cases d with
      | now v =>
        rw [Outcomes.read_of_value hzero.symm] at hread ⊢
        rw [verdict_map, Sampling.advance, hres]
        simp only [Delivery.poll]
        refine ih (hrest v rfl) (v :: drawn) fun hlate => hread ?_
        exact Outcomes.map_eq_error_iff.2 hlate
      | _ => exact absurd (Outcomes.read_of_late hzero.symm left) hread

section Built

variable {catalog : Catalog W} {options : Options} {expression : String} {w w' : W}

theorem sample_of_build {g : Generator W} (hg : catalog.build options expression w = (.ok g, w'))
    (count : Nat) :
    sample catalog options expression count w = g.drawNow expression count [] w' := by
  rw [sample, hg]

theorem sample_of_fault {f : Fault} (hf : catalog.build options expression w = (.error f, w'))
    (count : Nat) : (sample catalog options expression count w).1 = .error f := by
  rw [sample, hf]

theorem sampleBlocking_of_build {g : Generator W}
    (hg : catalog.build options expression w = (.ok g, w')) {count : Nat}
    {result : Except Fault (List Value)} (hdone : (Sampling.advance count [] g w').1 = .done result)
    {patience : Nat} (hp : 0 < patience) :
    (sampleBlocking patience catalog options expression count w).1 = some result := by
  obtain ⟨patience, rfl⟩ : ∃ n, patience = n + 1 := ⟨patience - 1, by omega⟩
  obtain ⟨w'', hadvance⟩ : ∃ w'', Sampling.advance count [] g w' = (.done result, w'') :=
    ⟨_, Prod.ext hdone rfl⟩
  rw [sampleBlocking, Sampling.settle, Sampling.poll, hg]
  simp only [hadvance]

theorem sampleBlocking_of_fault {f : Fault}
    (hf : catalog.build options expression w = (.error f, w')) (count : Nat) {patience : Nat}
    (hp : 0 < patience) :
    (sampleBlocking patience catalog options expression count w).1 = some (.error f) := by
  obtain ⟨patience, rfl⟩ : ∃ n, patience = n + 1 := ⟨patience - 1, by omega⟩
  rw [sampleBlocking, Sampling.settle, Sampling.poll, hf]

end Built

/-- **The two samples agree but for values that come later.** Let the recipe of an expression come
to the same fault or to sources with the same outcomes in two worlds, and take a sample that takes
only values that are there at once in the one and a sample that waits in the other. If the first
gives values, there are as many as were asked for, and the second gives the same. If the generator
cannot be built, or a draw fails before a value comes later, both give the fault of it. And the
first complains of a value that comes later, naming the expression as it is written, exactly if
there is one among the first values and no draw before it fails. -/
theorem sample_agrees (catalog : Catalog W) (options : Options) (expression : String)
    (count : Nat) (w₁ w₂ : W) (result : Except Fault Outcomes)
    (h₁ : catalog.Supplies options expression w₁ result)
    (h₂ : catalog.Supplies options expression w₂ result) :
    (∀ vs, (sample catalog options expression count w₁).1 = .ok vs →
      vs.length = count ∧ ∀ patience, 0 < patience →
        (sampleBlocking patience catalog options expression count w₂).1 = some (.ok vs)) ∧
    (∀ f, (catalog.build options expression w₁).1 = .error f ∨
        (catalog.build options expression w₂).1 = .error f →
      (sample catalog options expression count w₁).1 = .error f ∧ ∀ patience, 0 < patience →
        (sampleBlocking patience catalog options expression count w₂).1 = some (.error f)) ∧
    ∀ g w', catalog.build options expression w₁ = (.ok g, w') → ∃ r, result = .ok r ∧
      (∀ f, r.FailsFirst count f →
        (sample catalog options expression count w₁).1 = .error f ∧ ∀ patience, 0 < patience →
          (sampleBlocking patience catalog options expression count w₂).1 = some (.error f)) ∧
      (r.IsLateFirst count ↔
        (sample catalog options expression count w₁).1 = .error (.notYet expression) ∧
          ∀ f, ¬r.FailsFirst count f) := by
  rcases Catalog.build_of_supplies h₁ h₂ with
    ⟨f, w₁', w₂', hf₁, hf₂⟩ | ⟨r, g₁, w₁', g₂, w₂', hr, ⟨hg₁, hout₁⟩, hg₂, hout₂⟩
  · have hsample := sample_of_fault hf₁ count
    refine ⟨?_, ?_, ?_⟩
    · intro vs hvs
      rw [hsample] at hvs
      cases hvs
    · intro f' hf'
      obtain rfl : f = f' := by
        rw [hf₁, hf₂, or_self] at hf'
        exact Except.error.inj hf'
      exact ⟨hsample, fun patience hp => sampleBlocking_of_fault hf₂ count hp⟩
    · intro g w' hg
      rw [hf₁] at hg
      cases hg
  · have hsample : (sample catalog options expression count w₁).1 =
        verdict expression [] (r.read count) := by
      rw [sample_of_build hg₁, drawNow_of_outcomes hout₁]
    have hblocking (hread : r.read count ≠ .error none) (patience : Nat) (hp : 0 < patience) :
        (sampleBlocking patience catalog options expression count w₂).1 =
          some (verdict expression [] (r.read count)) :=
      sampleBlocking_of_build hg₂ (advance_of_outcomes hout₂ expression count [] hread) hp
    rw [hsample]
    refine ⟨?_, ?_, ?_⟩
    · intro vs hvs
      match hread : r.read count with
      | .ok us =>
        rw [hread] at hvs hblocking
        obtain rfl := Except.ok.inj hvs
        refine ⟨Outcomes.length_of_read hread, fun patience hp => ?_⟩
        exact hblocking (by simp) patience hp
      | .error (some f) =>
        rw [hread] at hvs
        cases hvs
      | .error none =>
        rw [hread] at hvs
        cases hvs
    · rintro f (hf | hf)
      · rw [hg₁] at hf
        cases hf
      · rw [hg₂] at hf
        cases hf
    · intro g w' _
      refine ⟨r, hr, ?_, ?_⟩
      · intro f hfails
        have hread := Outcomes.read_eq_fault_iff.2 hfails
        rw [hread] at hblocking ⊢
        exact ⟨rfl, hblocking (by simp)⟩
      · constructor
        · intro hlate
          have hread := Outcomes.read_eq_late_iff.2 hlate
          refine ⟨by rw [hread]; rfl, fun f hfails => ?_⟩
          rw [← Outcomes.read_eq_fault_iff, hread] at hfails
          cases hfails
        · rintro ⟨hnotYet, hnone⟩
          match hread : r.read count with
          | .ok vs =>
            rw [hread] at hnotYet
            cases hnotYet
          | .error (some f) => exact absurd (Outcomes.read_eq_fault_iff.1 hread) (hnone f)
          | .error none => exact Outcomes.read_eq_late_iff.1 hread

theorem Catalog.supplies_scripted (script : Nat → Except Fault (Delivery W)) (options : Options)
    (w : W) : (Catalog.scripted script).Supplies options "coin" w
      (.ok fun k => (script k).map Delivery.value?) := by
  intro e recipe hparse hkind
  obtain rfl : ⟨"coin", "coin", [], ⟨0, 4⟩⟩ = e := by
    have hcoin : Expr.parse "coin" = .ok ⟨"coin", "coin", [], ⟨0, 4⟩⟩ := by rfl
    exact Except.ok.inj (hcoin.symm.trans hparse)
  obtain rfl : Recipe.scripted script = recipe :=
    Option.some.inj ((find?_scripted_coin script).symm.trans hkind)
  refine .source fun k n w' hreach => ?_
  suffices h : n = k by
    show (script n).map _ = _
    rw [h]
  induction hreach with
  | start => rfl
  | note _ _ ih => exact ih
  | draw _ hp ih =>
    obtain ⟨-, rfl, -⟩ := Prod.mk.inj hp |>.imp_right Prod.mk.inj
    exact congrArg (· + 1) ih

/-- Two coins that show at once, and one that takes longer. -/
theorem sample_agrees_coin :
    let script : Nat → Except Fault (Delivery Diary) := fun n =>
      if n < 2 then .ok (.now (.text "heads")) else .ok (.after 1 (.ok (.text "tails")))
    (sampleBlocking 1 (Catalog.scripted script) {} "coin" 2 ⟨[.pulled "coin"]⟩).1 =
        some (.ok [.text "heads", .text "heads"]) ∧
      (sample (Catalog.scripted script) {} "coin" 3 ⟨[]⟩).1 = .error (.notYet "coin") := by
  intro script
  have hsupplies (w : Diary) := Catalog.supplies_scripted script {} w
  obtain ⟨g, w', hg, hsample⟩ : ∃ g w',
      (Catalog.scripted script).build {} "coin" ⟨[]⟩ = (.ok g, w') ∧
        (g.drawNow "coin" 2 [] w').1 = .ok [.text "heads", .text "heads"] := by
    rw [Catalog.build, Catalog.buildAt, Catalog.prepare_scripted]
    exact ⟨_, _, rfl, rfl⟩
  rw [← sample_of_build hg] at hsample
  obtain ⟨hvalues, -, -⟩ := sample_agrees (Catalog.scripted script) {} "coin" 2 ⟨[]⟩
    ⟨[.pulled "coin"]⟩ _ (hsupplies _) (hsupplies _)
  obtain ⟨-, -, hlate⟩ := sample_agrees (Catalog.scripted script) {} "coin" 3 ⟨[]⟩ ⟨[]⟩ _
    (hsupplies _) (hsupplies _)
  obtain ⟨r, hr, -, hnotYet⟩ := hlate g w' hg
  obtain rfl := Except.ok.inj hr
  refine ⟨(hvalues _ hsample).2 1 (by decide), (hnotYet.1 ⟨2, by decide, rfl, ?_⟩).1⟩
  intro j hj f
  have hheads : script j = .ok (.now (.text "heads")) := if_pos hj
  show (script j).map _ ≠ _
  rw [hheads]
  intro hf
  cases hf

end RandExpr
