import RandExpr.Catalog.Builtin
import RandExpr.Proofs.Form.Values
import RandExpr.Proofs.Generator.Draws

/-!
# Building forms

What the built-in catalog builds from an expression is known from its form.

## The model

`Form.Built` relates what is read of an expression to what building it comes to: the fault found in
reading; or the generator of the values of the form, all of which are there at once; or the fault of
a draw that breaks off, if nothing can be drawn from the form. Where the options set a seed the
values are those of the stream of the seed; otherwise they are those of some stream.

## What is proved

* `gives_drawing`, `gives_numbers` — what the sources of the leaves give.
* `built_buildAt` — whatever the options and the surroundings are, building an expression comes to
  what is read of it.
-/

namespace RandExpr

open RandExpr.Random (Keystream Words)

variable {W : Type} [Host W]

/-! ### The sources of leaves -/

namespace Recipe

omit [Host W] in
theorem gives_drawing {α : Type} (draw : Words → α × Words) (value : α → Value) (words : Words) :
    (drawing draw value words : Source W).Gives words fun k =>
      value (Random.drawn draw words k) := by
  refine Source.draws_of_invariant
    (fun k (ws : Words) => ∀ i, Random.drawn draw ws i = Random.drawn draw words (k + i)) ?_ ?_
  · intro i
    rw [Nat.zero_add]
  · intro k (ws : Words) w hws
    have hnow : (draw ws).1 = Random.drawn draw words k := hws 0
    have hlater (i : Nat) :
        Random.drawn draw (draw ws).2 i = Random.drawn draw words (k + 1 + i) := by
      rw [Nat.add_assoc, Nat.add_comm 1]
      exact hws (i + 1)
    exact ⟨.now (value (draw ws).1), (draw ws).2, w, rfl, by rw [hnow], hlater⟩

omit [Host W] in
theorem gives_constant (v : Value) : (constant v : Source W).Gives () fun _ => v :=
  fun _ w => ⟨.now v, (), w, rfl, rfl⟩

omit [Host W] in
theorem gives_numbers {range : NumberRange} (h : (Form.numbers range).Drawable)
    (stream : Keystream) :
    (numbers { stream } range : Source W).Gives (numbers { stream } range : Source W).state
      ((Form.numbers range).value stream) := by
  cases range with
  | integers low high =>
    have hvalue : (Form.numbers (.integers low high)).value stream = fun k =>
        .integer (Random.drawn (Random.Integer.draw low high) { stream } k) := by
      funext k
      rw [Form.value]
    rw [hvalue, numbers]
    exact gives_drawing _ _ _
  | decimals low high places =>
    obtain ⟨scale, hscale⟩ := Option.isSome_iff_exists.1 h
    have hvalue : (Form.numbers (.decimals low high places)).value stream = fun k =>
        .number (Random.drawn (Random.Real.draw low high scale places) { stream } k) := by
      funext k
      rw [Form.value, hscale]
      rfl
    rw [hvalue, numbers, hscale]
    exact gives_drawing _ _ _

omit [Host W] in
theorem numbers_of_not_drawable {range : NumberRange} (h : ¬(Form.numbers range).Drawable)
    (words : Words) : (numbers words range : Source W) = breaking := by
  cases range with
  | integers => exact absurd trivial h
  | decimals low high places =>
    have hscale : Random.Real.scale? low high = none := by simpa [Form.Drawable] using h
    rw [numbers, hscale]

omit [Host W] in
theorem gives_characters (stream : Keystream) (range : CharRange) :
    (characters { stream } range : Source W).Gives (characters { stream } range : Source W).state
      ((Form.characters range).value stream) := by
  have hvalue : (Form.characters range).value stream = fun k =>
      .text (.singleton
        (Random.drawn (Random.Character.draw range.low range.high) { stream } k)) := by
    funext k
    rw [Form.value]
  rw [hvalue, characters]
  exact gives_drawing _ _ _

/-- The recipe of a kind whose values are drawn from the range that the argument gives. -/
def ranged {α : Type} (reader : String → Except Refusal α) (source : Words → α → Source W) :
    Recipe W := fun setting args =>
  Plan.ofExcept (setting.arg args 0 "range") fun text =>
    match reader text with
    | .error reason => .fail (.refused setting.kind reason)
    | .ok range => withWords setting.options fun words => .yield (source words range)

theorem number_eq_ranged : (number : Recipe W) = ranged NumberRange.read numbers := by
  funext setting args
  rw [number, ranged]
  congr 1
  funext text
  cases NumberRange.read text <;> rfl

theorem character_eq_ranged : (character : Recipe W) = ranged CharRange.read characters := by
  funext setting args
  rw [character, ranged]
  congr 1
  funext text
  cases CharRange.read text <;> rfl

/-- A recipe that draws gets the stream of the seed, or some stream. -/
theorem run_withWords (options : Options) (source : Words → Source W)
    (build : String → W → Except Fault (Generator W) × W) (w : W) :
    ∃ stream w', (∀ seed, options.seed? = some seed → stream = .ofSeed seed) ∧
      (withWords options fun words => .yield (source words)).run build w =
        (.ok (source { stream }), w') := by
  rw [withWords]
  cases hseed : options.seed? with
  | some seed =>
    refine ⟨.ofSeed seed, w, ?_, rfl⟩
    rintro _ ⟨⟩
    rfl
  | none => exact ⟨(Host.entropy w).1, (Host.entropy w).2, by simp, rfl⟩

end Recipe

/-! ### Building by the kind -/

namespace Catalog

theorem find?_builtin_number : (builtin : Catalog W).find? "number" = some Recipe.number := by
  simp [builtin, find?, insert, Keyed.find?_insert]

theorem find?_builtin_char : (builtin : Catalog W).find? "char" = some Recipe.character := by
  simp [builtin, find?, insert, Keyed.find?_insert]

theorem find?_builtin_literal : (builtin : Catalog W).find? "literal" = some Recipe.literal := by
  simp [builtin, find?, insert, Keyed.find?_insert]

theorem find?_builtin_repeat : (builtin : Catalog W).find? "repeat" = some Recipe.repeated := by
  simp [builtin, find?, insert, Keyed.find?_insert]

theorem find?_builtin_other {kind : String} (hnumber : kind ≠ "number") (hchar : kind ≠ "char")
    (hliteral : kind ≠ "literal") (hrepeat : kind ≠ "repeat") :
    (builtin : Catalog W).find? kind = none := by
  have hempty : (empty : Catalog W).recipes.find? kind = none := Keyed.find?_empty kind
  simp [builtin, find?, insert, Keyed.find?_insert, hempty, hnumber, hchar, hliteral, hrepeat]

end Catalog

namespace Form

open Catalog (builtin)

/-- What building an expression comes to, by what is read of it. -/
inductive Built (options : Options) (text : String) :
    Except Fault Form → Except Fault (Generator W) → Prop where
  /-- There is no form. -/
  | fault {f : Fault} : Built options text (.error f) (.error f)
  /-- Nothing can be drawn from the form. -/
  | brokenOff {form : Form} (h : ¬form.Drawable) :
      Built options text (.ok form) (.error .brokenOff)
  /-- The generator hands out the values of the form. -/
  | generator {form : Form} {e : Expr} {g : Generator W} {stream : Keystream}
      (hdrawable : form.Drawable) (hparse : Expr.parse text = .ok e)
      (hkind : g.kind = e.kind) (hargs : g.args = e.args) (hlate : g.isLate = false)
      (hseed : ∀ seed, options.seed? = some seed → stream = .ofSeed seed)
      (hgives : g.toSource.Gives g.toSource.state (form.value stream)) :
      Built options text (.ok form) (.ok g)

variable {options : Options} {text : String} {form : Form} {e : Expr} {stream : Keystream}

theorem built_ofSource (hdrawable : form.Drawable) (hparse : Expr.parse text = .ok e)
    (hseed : ∀ seed, options.seed? = some seed → stream = .ofSeed seed) {S : Source W}
    (h : S.Gives S.state (form.value stream)) (depth : Nat) (w : W) :
    Built options text (.ok form) (Generator.ofSource e.kind e.args depth S w).1 := by
  obtain ⟨g, w', hg, hkind, hargs, ⟨d, rfl, hlate⟩, hgives⟩ :=
    Generator.draws_ofSource h e.kind e.args depth w
  rw [hg]
  exact .generator hdrawable hparse hkind hargs hlate hseed hgives

variable {inner : String → Except Fault Form} {levels : Nat}

/-- A kind whose values are drawn from the range that the argument gives. -/
theorem built_ranged {α : Type} {reader : String → Except Refusal α} {toForm : α → Form}
    {source : Words → α → Source W} (hparse : Expr.parse text = .ok e)
    (hfind : (builtin : Catalog W).find? e.kind = some (Recipe.ranged reader source))
    (hsource : ∀ range stream,
      (toForm range).Drawable ∧ (source { stream } range).Gives (source { stream } range).state
          ((toForm range).value stream) ∨
        ¬(toForm range).Drawable ∧ source { stream } range = Recipe.breaking) (w : W) :
    Built options text (do let range ← argument e 0 "range" reader; return toForm range)
      (builtin.buildAt options (levels + 1) text w).1 := by
  rw [Catalog.buildAt_of_parse hparse hfind, Recipe.ranged, Setting.arg, argument]
  cases e.args[0]? with
  | none => exact .fault
  | some arg =>
    simp only [Plan.ofExcept]
    cases reader arg with
    | error reason => exact .fault
    | ok range =>
      obtain ⟨stream, w', hseed, hrun⟩ := Recipe.run_withWords options
        (fun words => source words range) (builtin.buildAt options levels)
        (Catalog.noteShorthand text w)
      simp only [hrun]
      rcases hsource range stream with ⟨hdrawable, hgives⟩ | ⟨hnot, hbreaking⟩
      · exact built_ofSource hdrawable hparse hseed hgives _ w'
      · rw [hbreaking]
        exact .brokenOff hnot

theorem built_number (hparse : Expr.parse text = .ok e) (hkind : e.kind = "number") (w : W) :
    Built options text (ofExpr inner e) (builtin.buildAt options (levels + 1) text w).1 := by
  have hfind : (builtin : Catalog W).find? e.kind =
      some (Recipe.ranged NumberRange.read Recipe.numbers) := by
    rw [hkind, Catalog.find?_builtin_number, Recipe.number_eq_ranged]
  rw [ofExpr, if_pos hkind]
  refine built_ranged hparse hfind (fun range stream => ?_) w
  by_cases hdrawable : (numbers range).Drawable
  · exact .inl ⟨hdrawable, Recipe.gives_numbers hdrawable stream⟩
  · exact .inr ⟨hdrawable, Recipe.numbers_of_not_drawable hdrawable _⟩

theorem built_char (hparse : Expr.parse text = .ok e) (hkind : e.kind = "char") (w : W) :
    Built options text (ofExpr inner e) (builtin.buildAt options (levels + 1) text w).1 := by
  have hfind : (builtin : Catalog W).find? e.kind =
      some (Recipe.ranged CharRange.read Recipe.characters) := by
    rw [hkind, Catalog.find?_builtin_char, Recipe.character_eq_ranged]
  rw [ofExpr, if_neg (by rw [hkind]; decide), if_pos hkind]
  refine built_ranged hparse hfind (fun range stream => ?_) w
  exact .inl ⟨trivial, Recipe.gives_characters stream range⟩

theorem built_literal (hparse : Expr.parse text = .ok e) (hkind : e.kind = "literal") (w : W) :
    Built options text (ofExpr inner e) (builtin.buildAt options (levels + 1) text w).1 := by
  have hfind : (builtin : Catalog W).find? e.kind = some Recipe.literal := by
    rw [hkind, Catalog.find?_builtin_literal]
  rw [Catalog.buildAt_of_parse hparse hfind, ofExpr_literal hkind]
  have hstream : ∃ stream, ∀ seed, options.seed? = some seed → stream = Keystream.ofSeed seed :=
    ⟨.ofSeed (options.seed?.getD 0), fun seed hseed => by rw [hseed]; rfl⟩
  obtain ⟨stream, hseed⟩ := hstream
  have hdrawable : (literal (Recipe.literalText e.args)).Drawable := trivial
  exact built_ofSource hdrawable hparse hseed (Recipe.gives_constant _) _ _

theorem built_repeat (hparse : Expr.parse text = .ok e) (hkind : e.kind = "repeat") (w : W)
    (ih : ∀ text (w : W),
      Built options text (inner text) (builtin.buildAt options levels text w).1) :
    Built options text (ofExpr inner e) (builtin.buildAt options (levels + 1) text w).1 := by
  have hfind : (builtin : Catalog W).find? e.kind = some Recipe.repeated := by
    rw [hkind, Catalog.find?_builtin_repeat]
  rw [Catalog.buildAt_of_parse hparse hfind, ofExpr, if_neg (by rw [hkind]; decide),
    if_neg (by rw [hkind]; decide), if_neg (by rw [hkind]; decide), if_pos hkind, Recipe.repeated,
    Setting.arg, argument]
  cases e.args[0]? with
  | none => exact .fault
  | some arg =>
    simp only [Plan.ofExcept, bind, Except.bind]
    cases Recipe.readCount arg with
    | error reason => exact .fault
    | ok count =>
      simp only [Setting.arg, argument, Except.mapError]
      cases e.args[1]? with
      | none => exact .fault
      | some payload =>
        obtain ⟨r, w', hbuild⟩ : ∃ r w', builtin.buildAt options levels
            (String.ofList (unwrapGroup payload.toList)) (Catalog.noteShorthand text w) =
              (r, w') := ⟨_, _, rfl⟩
        have hinner := ih (String.ofList (unwrapGroup payload.toList))
          (Catalog.noteShorthand text w)
        rw [hbuild] at hinner
        simp only [Plan.nested, Plan.run, hbuild]
        generalize inner (String.ofList (unwrapGroup payload.toList)) = part at hinner ⊢
        cases hinner with
        | fault => exact .fault
        | brokenOff h => exact .brokenOff h
        | @generator form _ g stream hdrawable _ _ _ _ hseed hgives =>
          have hdrawable : (repetition count form).Drawable := hdrawable
          exact built_ofSource hdrawable hparse hseed (Recipe.gives_repetition hgives count) _ w'

/-- **Building an expression comes to what is read of it**, whatever the options and the
surroundings are. -/
theorem built_buildAt (options : Options) (levels : Nat) (text : String) (w : W) :
    Built options text (read levels text) (builtin.buildAt options levels text w).1 := by
  induction levels generalizing text w with
  | zero => exact .fault
  | succ levels ih =>
    rw [read]
    cases hparse : Expr.parse text with
    | error f =>
      rw [Catalog.buildAt_of_fault hparse]
      exact .fault
    | ok e =>
      show Built options text (ofExpr (read levels) e) _
      by_cases hnumber : e.kind = "number"
      · exact built_number hparse hnumber w
      by_cases hchar : e.kind = "char"
      · exact built_char hparse hchar w
      by_cases hliteral : e.kind = "literal"
      · exact built_literal hparse hliteral w
      by_cases hrepeat : e.kind = "repeat"
      · exact built_repeat hparse hrepeat w ih
      · have hfind := Catalog.find?_builtin_other (W := W) hnumber hchar hliteral hrepeat
        rw [Catalog.buildAt_of_unknown hparse hfind, ofExpr_other hnumber hchar hliteral hrepeat]
        exact .fault

end Form

end RandExpr
