import RandExpr.Proofs.Expr.Balance
import RandExpr.Proofs.Form.Language

/-!
# Answers of forms

What a generator that the built-in catalog has built answers, call by call.

## The model

A generator hands out values in a row (`Generator.HandsOut`) if its calls get them one by one, at
once. `Form.Answered` says of a generator that it is named as the expression names it, is early, and
hands out the values of a form: those of the stream of the seed if the options set one.

## What is proved

* `Written.answered_of_build`, `Written.exists_answered` — so it is with what is built of an
  expression that stands for a form.
* `Written.of_parse_eq` — which form an expression stands for depends on its parts only.
* `Written.repeated` — a repetition of a closed text stands for a repetition of its form.
* `find?_builtin_of_head`, `build_of_head` — an expression whose kind does not start as one of the
  built-in kinds does is not built, and nothing else happens.
-/

namespace RandExpr

open Catalog (builtin)
open RandExpr.Random (Keystream)

variable {W : Type} [Host W]

/-- Options that set a seed and nothing else. -/
def Options.seeded (seed : UInt64) : Options :=
  Options.empty.insert "seed"
    (.leaf (.whole ⟨seed.toNat, by omega, by have := seed.toNat_lt; omega⟩))

/-- The calls get the values one by one, at once. -/
def Generator.HandsOut (g : Generator W) (x : Nat → Value) : Prop :=
  ∀ calls : List (Call W × W), (g.answerAll calls).1 =
    (List.range calls.length).map fun k => .ok (.now (x k))

namespace Form

variable {options : Options} {text : String} {form : Form}

/-- The generator is named as the expression names it, and hands out the values of the form. -/
structure Answered (options : Options) (text : String) (form : Form) (g : Generator W) : Prop where
  /-- The values can be drawn. -/
  drawable : form.Drawable
  /-- The kind and the arguments are those of the expression. -/
  named : ∃ e, Expr.parse text = .ok e ∧ g.kind = e.kind ∧ g.args = e.args
  /-- The first value was there at once. -/
  early : g.isLate = false
  /-- The values are those of a stream, which the seed determines. -/
  answers : ∃ stream, (∀ seed, options.seed? = some seed → stream = Keystream.ofSeed seed) ∧
    g.HandsOut (form.value stream)

/-- **What is built of an expression hands out the values of the form** that it stands for. -/
theorem Written.answered_of_build (h : Written 0 text form) {w w' : W} {g : Generator W}
    (hg : builtin.build options text w = (.ok g, w')) : Answered options text form g := by
  have hbuilt := h.built options w
  rw [hg] at hbuilt
  cases hbuilt with
  | @generator _ e _ stream hdrawable hparse hkind hargs hlate hseed hgives =>
    exact ⟨hdrawable, ⟨e, hparse, hkind, hargs⟩, hlate, stream, hseed,
      fun calls => Generator.answerAll_of_gives hgives calls⟩

theorem Written.exists_answered (h : Written 0 text form) (hdrawable : form.Drawable)
    (options : Options) (w : W) : ∃ g w', builtin.build options text w = (.ok g, w') ∧
      Answered options text form g := by
  obtain ⟨g, w', hg⟩ := h.exists_build hdrawable options w
  exact ⟨g, w', hg, h.answered_of_build hg⟩

theorem Answered.of_seed {g : Generator W} (h : Answered options text form g) {seed : UInt64}
    (hseed : options.seed? = some seed) : g.HandsOut (form.value (.ofSeed seed)) := by
  obtain ⟨stream, hstream, hanswers⟩ := h.answers
  rwa [hstream seed hseed] at hanswers

theorem Answered.of_value_eq {g : Generator W} (h : Answered options text form g) {v : Value}
    (hv : ∀ stream k, form.value stream k = v) : g.HandsOut fun _ => v := by
  obtain ⟨stream, -, hanswers⟩ := h.answers
  have hvalue : form.value stream = fun _ => v := funext (hv stream)
  rwa [hvalue] at hanswers

omit [Host W] in
theorem Written.exists_kind {depth : Nat} (h : Written depth text form) :
    ∃ e, Expr.parse text = .ok e ∧ e.kind ∈ ["number", "char", "literal", "repeat"] := by
  cases h with
  | integers _ hparse hkind => exact ⟨_, hparse, by simp [hkind]⟩
  | decimals _ hparse hkind => exact ⟨_, hparse, by simp [hkind]⟩
  | characters _ hparse hkind => exact ⟨_, hparse, by simp [hkind]⟩
  | literal _ hparse hkind => exact ⟨_, hparse, by simp [hkind]⟩
  | repetition _ hparse hkind => exact ⟨_, hparse, by simp [hkind]⟩

omit [Host W] in
theorem Written.exists_inner {depth : Nat} {e : Expr} {payload : String}
    (h : Written depth text form) (hparse : Expr.parse text = .ok e) (hkind : e.kind = "repeat")
    (hpayload : e.args[1]? = some payload) :
    ∃ inner, Written (depth + 1) (String.ofList (unwrapGroup payload.toList)) inner := by
  have hother {e' : Expr} (hparse' : Expr.parse text = .ok e') : e'.kind = "repeat" := by
    obtain rfl := Except.ok.inj (hparse'.symm.trans hparse)
    exact hkind
  cases h with
  | @repetition _ _ _ payload' e' _ inner _ hparse' _ _ _ hpayload' hinner =>
    obtain rfl := Except.ok.inj (hparse'.symm.trans hparse)
    obtain rfl := Option.some.inj (hpayload'.symm.trans hpayload)
    exact ⟨inner, hinner⟩
  | integers _ hparse' hkind' => simp [hother hparse'] at hkind'
  | decimals _ hparse' hkind' => simp [hother hparse'] at hkind'
  | characters _ hparse' hkind' => simp [hother hparse'] at hkind'
  | literal _ hparse' hkind' => simp [hother hparse'] at hkind'

omit [Host W] in
theorem Written.of_parse_eq {depth : Nat} {text' : String}
    (heq : Expr.parse text = Expr.parse text') (h : Written depth text form) :
    Written depth text' form := by
  cases h with
  | integers hdepth hparse hkind harg htext hlo hhi hle =>
    exact .integers hdepth (heq ▸ hparse) hkind harg htext hlo hhi hle
  | decimals hdepth hparse hkind harg hread =>
    exact .decimals hdepth (heq ▸ hparse) hkind harg hread
  | characters hdepth hparse hkind harg htext hle =>
    exact .characters hdepth (heq ▸ hparse) hkind harg htext hle
  | literal hdepth hparse hkind => exact .literal hdepth (heq ▸ hparse) hkind
  | repetition hdepth hparse hkind harg hcount hpayload hinner =>
    exact .repetition hdepth (heq ▸ hparse) hkind harg hcount hpayload hinner

omit [Host W] in
/-- **A repetition of a closed text stands for a repetition of its form.** -/
theorem Written.repeated {depth n : Nat} {count : String} (hcount : Recipe.IsCount count n)
    (hdigits : ∀ c ∈ count.toList, c.isDigit = true) (hclosed : Scan.Closed text.toList)
    (h : Written (depth + 1) text form) :
    Written depth (repeatText count text) (.repetition n form) := by
  have hdepth : depth ≤ maxDepth := Nat.le_of_succ_le h.depth_le
  refine .repetition hdepth (Expr.parse_repeatText hdigits hclosed) rfl rfl hcount rfl ?_
  rwa [ofList_unwrapGroup hclosed]

end Form

/-! ### Expressions of no kind -/

theorem Catalog.find?_builtin_of_head {kind : String} {c : Char} {cs : List Char}
    (hkind : kind.toList = c :: cs) (hc : c ∉ ['n', 'c', 'l', 'r']) :
    (builtin : Catalog W).find? kind = none := by
  apply find?_builtin_other <;>
  · rintro rfl
    obtain ⟨rfl, -⟩ : _ ∧ _ := List.cons.inj hkind
    exact hc (by decide)

theorem Scan.head_of_pieces {s next : Scan} {c : Char} {cs first : List Char}
    {rest : List (List Char)} (hmove : s.move c = .keep next)
    (h : s.pieces (c :: cs) = .ok (first, rest)) : ∃ more, first = c :: more := by
  rw [pieces, hmove] at h
  cases hp : next.pieces cs with
  | error f => simp [hp, Except.map] at h
  | ok p =>
    obtain ⟨rfl, -⟩ : c :: p.1 = first ∧ _ := by simpa [hp, Except.map] using h
    exact ⟨p.1, rfl⟩

/-- **A balanced text that is no shorthand and starts like no built-in kind is not built.** Its kind
is unknown, and nothing has happened to the surroundings. -/
theorem Catalog.build_of_head {text : String} {c : Char} {cs : List Char}
    (hclassify : Shorthand.classify text = none) (htext : text.toList = c :: cs)
    (hmove : ∃ next, Scan.move {} c = .keep next) (hc : c ∉ ['n', 'c', 'l', 'r'])
    (hbalanced : Scan.balanced {} text.toList = true) (options : Options) (w : W) :
    ∃ kind span, builtin.build options text w = (.error (.unknownKind kind text span), w) := by
  obtain ⟨next, hmove⟩ := hmove
  obtain ⟨e, hparse⟩ := (Expr.exists_parse_iff text).2 hbalanced
  have hnote : noteShorthand text w = w := by rw [noteShorthand, hclassify]
  have hsplit := hparse
  rw [Expr.parse, canonicalText, hclassify, Expr.split] at hsplit
  cases hpieces : Scan.pieces {} text.toList with
  | error f => simp [hpieces] at hsplit
  | ok p =>
    obtain ⟨first, rest⟩ := p
    simp only [hpieces, Except.ok.injEq] at hsplit
    rw [htext] at hpieces
    obtain ⟨more, rfl⟩ := Scan.head_of_pieces hmove hpieces
    obtain rfl := hsplit
    have hfind := find?_builtin_of_head (W := W) (String.toList_ofList (l := c :: more)) hc
    have hbuild := buildAt_of_unknown hparse hfind options maxDepth w
    rw [hnote] at hbuild
    exact ⟨_, _, hbuild⟩

end RandExpr
