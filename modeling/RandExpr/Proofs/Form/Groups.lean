import RandExpr.Proofs.Expr.Balance
import RandExpr.Proofs.Form.Build
import RandExpr.Proofs.Generator.Scripted

/-!
# Groups that do not fit together

Faults of groups are found in the text as it was written, and in no expression nested in it.

## What is proved

* `not_isGroup_of_parse` — where an expression can be taken apart, so can what is nested in it, and
  building it never fails for its groups, at whatever depth it fails.
-/

namespace RandExpr

/-- The groups of a text do not fit together. -/
def Fault.IsGroup : Fault → Prop
  | strayClose .. | unclosedGroup .. => True
  | unknownKind .. | tooDeep .. | refused .. | sourceFailed .. | badOptions .. | notYet ..
  | brokenOff => False

namespace Form

/-- An expression that can be taken apart is read without a fault of groups. -/
theorem not_isGroup_of_read {levels : Nat} {text : String} {e : Expr} {f : Fault}
    (hparse : Expr.parse text = .ok e) (h : read levels text = .error f) : ¬f.IsGroup := by
  induction levels generalizing text e with
  | zero =>
    obtain rfl : .tooDeep (maxDepth + 1) maxDepth = f := Except.error.inj h
    exact id
  | succ levels ih =>
    have h : ofExpr (read levels) e = .error f := by
      rw [read, hparse] at h
      exact h
    rcases of_ofExpr_error h with rfl | ⟨reason, rfl⟩ | ⟨payload, hpayload, hinner⟩
    · exact id
    · exact id
    · obtain ⟨e', hparse'⟩ := Expr.exists_parse_of_mem_args hparse (List.mem_of_getElem? hpayload)
      exact ih hparse' hinner

end Form

open Catalog (builtin)

/-- **Faults of groups are found in the text as it was written.** If an expression can be taken
apart, so can each of its arguments, without the parentheses around it and as the shorthand it may
be; and building the expression does not fail for groups that do not fit together. -/
theorem not_isGroup_of_parse {W : Type} [Host W] {text : String} {e : Expr}
    (h : Expr.parse text = .ok e) :
    (∀ arg ∈ e.args, ∃ e', Expr.parse (String.ofList (unwrapGroup arg.toList)) = .ok e') ∧
      ∀ (options : Options) (w : W) f w', builtin.build options text w = (.error f, w') →
        ¬f.IsGroup := by
  refine ⟨fun arg harg => Expr.exists_parse_of_mem_args h harg, fun options w f w' hbuild => ?_⟩
  have hbuilt := Form.built_buildAt options (maxDepth + 1) text w
  have hbuild : builtin.buildAt options (maxDepth + 1) text w = (.error f, w') := hbuild
  rw [hbuild] at hbuilt
  cases hread : Form.read (maxDepth + 1) text with
  | error f' =>
    rw [hread] at hbuilt
    cases hbuilt with
    | fault => exact Form.not_isGroup_of_read h hread
  | ok form =>
    rw [hread] at hbuilt
    cases hbuilt with
    | brokenOff => exact id

/-- Two groups side by side are not one group, nor a kind, but they are no fault of groups. -/
theorem not_isGroup_of_parse_sides :
    Expr.parse "2*((a)(b))" = .ok ⟨"repeat:2:((a)(b))", "repeat", ["2", "((a)(b))"], ⟨0, 6⟩⟩ ∧
      (∃ e', Expr.parse (String.ofList (unwrapGroup "((a)(b))".toList)) = .ok e') ∧
      ∀ f w', builtin.build {} "2*((a)(b))" (⟨[]⟩ : Diary) = (.error f, w') → ¬f.IsGroup := by
  have hparse : Expr.parse "2*((a)(b))" =
      .ok ⟨"repeat:2:((a)(b))", "repeat", ["2", "((a)(b))"], ⟨0, 6⟩⟩ := by rfl
  obtain ⟨hargs, hbuild⟩ := not_isGroup_of_parse (W := Diary) hparse
  exact ⟨hparse, hargs "((a)(b))" (by simp), hbuild {} ⟨[]⟩⟩

end RandExpr
