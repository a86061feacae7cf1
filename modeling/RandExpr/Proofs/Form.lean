import RandExpr.Proofs.Recipe.Arguments
import RandExpr.Recipe.Drawn
import RandExpr.Recipe.Literal

/-!
# Forms

What an expression of the built-in kinds stands for, found out without drawing anything.

## The model

A form (`Form`) is an expression read to its end: a range of numbers or of characters, a text, or a
repetition of another form. `Form.read` reads one, or finds the fault that building runs into before
it draws. `Form.Written` says apart from it, in terms of the texts, when an expression at a depth of
nesting stands for a form.

## What is proved

* `read_eq_ok_iff` — a form is read from an expression exactly if it is written there.
* `of_ofExpr_error` — a fault in reading is one of the kind, of an argument, or of the nested
  expression.
-/

namespace RandExpr

/-- What an expression of the built-in kinds stands for. -/
inductive Form where
  /-- Numbers of a range. -/
  | numbers (range : NumberRange)
  /-- Characters of a range. -/
  | characters (range : CharRange)
  /-- A text. -/
  | literal (text : String)
  /-- Joined texts of several values of a form. -/
  | repetition (count : Nat) (inner : Form)

namespace Form

open Recipe (IsCount)
open NumberRange (IsInteger)

/-! ### Reading -/

/-- Reads an argument of an expression. -/
def argument {α : Type} (e : Expr) (index : Nat) (what : String)
    (reader : String → Except Refusal α) : Except Fault α :=
  match e.args[index]? with
  | some arg => (reader arg).mapError (.refused e.kind)
  | none => .error (.refused e.kind (.missing what))

/-- The form of an expression that has been taken apart, where `inner` reads nested expressions. -/
def ofExpr (inner : String → Except Fault Form) (e : Expr) : Except Fault Form :=
  if e.kind = "number" then do
    let range ← argument e 0 "range" NumberRange.read
    return numbers range
  else if e.kind = "char" then do
    let range ← argument e 0 "range" CharRange.read
    return characters range
  else if e.kind = "literal" then
    return literal (Recipe.literalText e.args)
  else if e.kind = "repeat" then do
    let count ← argument e 0 "count" Recipe.readCount
    let payload ← argument e 1 "expression" .ok
    let form ← inner (String.ofList (unwrapGroup payload.toList))
    return repetition count form
  else .error (.unknownKind e.kind e.source e.kindSpan)

/-- Reads the form of an expression in which `levels` expressions may be nested, this one
counted. -/
def read : (levels : Nat) → String → Except Fault Form
  | 0, _ => .error (.tooDeep (maxDepth + 1) maxDepth)
  | levels + 1, text => do
    let e ← Expr.parse text
    ofExpr (read levels) e

/-- The expression at the depth of nesting stands for the form. -/
inductive Written : (depth : Nat) → String → Form → Prop where
  /-- A range of whole numbers. -/
  | integers {depth : Nat} {text arg : String} {e : Expr} {lo hi : List Char} {low high : Int64}
      (hdepth : depth ≤ maxDepth) (hparse : Expr.parse text = .ok e) (hkind : e.kind = "number")
      (harg : e.args[0]? = some arg) (htext : arg.toList = lo ++ '-' :: hi)
      (hlo : IsInteger lo low.toInt) (hhi : IsInteger hi high.toInt) (hle : low ≤ high) :
      Written depth text (numbers (.integers low high))
  /-- A range of numbers with decimal places. -/
  | decimals {depth : Nat} {text arg : String} {e : Expr} {low high : Float} {places : Nat}
      (hdepth : depth ≤ maxDepth) (hparse : Expr.parse text = .ok e) (hkind : e.kind = "number")
      (harg : e.args[0]? = some arg)
      (hread : NumberRange.read arg = .ok (.decimals low high places)) :
      Written depth text (numbers (.decimals low high places))
  /-- A range of characters. -/
  | characters {depth : Nat} {text arg : String} {e : Expr} {low high : Char}
      (hdepth : depth ≤ maxDepth) (hparse : Expr.parse text = .ok e) (hkind : e.kind = "char")
      (harg : e.args[0]? = some arg) (htext : arg.toList = [low, '-', high]) (hle : low ≤ high) :
      Written depth text (characters ⟨low, high⟩)
  /-- A text. -/
  | literal {depth : Nat} {text : String} {e : Expr}
      (hdepth : depth ≤ maxDepth) (hparse : Expr.parse text = .ok e) (hkind : e.kind = "literal") :
      Written depth text (literal (Recipe.literalText e.args))
  /-- A repetition of an expression that is nested one level deeper, in parentheses or not. -/
  | repetition {depth : Nat} {text arg payload : String} {e : Expr} {count : Nat} {inner : Form}
      (hdepth : depth ≤ maxDepth) (hparse : Expr.parse text = .ok e) (hkind : e.kind = "repeat")
      (harg : e.args[0]? = some arg) (hcount : IsCount arg count)
      (hpayload : e.args[1]? = some payload)
      (hinner : Written (depth + 1) (String.ofList (unwrapGroup payload.toList)) inner) :
      Written depth text (repetition count inner)

theorem Written.depth_le {depth : Nat} {text : String} {form : Form}
    (h : Written depth text form) : depth ≤ maxDepth := by
  cases h <;> assumption

/-! ### What is read is written -/

theorem bind_eq_ok_iff {α β : Type} {result : Except Fault α} {rest : α → Except Fault β} {b : β} :
    result >>= rest = .ok b ↔ ∃ a, result = .ok a ∧ rest a = .ok b := by
  cases result with
  | error f => simp [bind, Except.bind]
  | ok a => simp [bind, Except.bind]

theorem bind_eq_error_iff {α β : Type} {result : Except Fault α} {rest : α → Except Fault β}
    {f : Fault} : result >>= rest = .error f ↔
      result = .error f ∨ ∃ a, result = .ok a ∧ rest a = .error f := by
  cases result with
  | error f' => simp [bind, Except.bind]
  | ok a => simp [bind, Except.bind]

theorem argument_eq_ok_iff {α : Type} {e : Expr} {index : Nat} {what : String}
    {reader : String → Except Refusal α} {a : α} : argument e index what reader = .ok a ↔
      ∃ arg, e.args[index]? = some arg ∧ reader arg = .ok a := by
  rw [argument]
  cases e.args[index]? with
  | none => simp
  | some arg => cases h : reader arg <;> simp [h, Except.mapError]

theorem argument_map_eq_ok_iff {α : Type} {e : Expr} {index : Nat} {what : String}
    {reader : String → Except Refusal α} {toForm : α → Form} {form : Form} :
    (do let a ← argument e index what reader; return toForm a) = .ok form ↔
      ∃ arg a, e.args[index]? = some arg ∧ reader arg = .ok a ∧ toForm a = form := by
  rw [bind_eq_ok_iff]
  simp only [argument_eq_ok_iff, pure, Except.pure, Except.ok.injEq]
  constructor
  · rintro ⟨a, ⟨arg, harg, hread⟩, hform⟩
    exact ⟨arg, a, harg, hread, hform⟩
  · rintro ⟨arg, a, harg, hread, hform⟩
    exact ⟨a, ⟨arg, harg, hread⟩, hform⟩

theorem of_argument_error {α : Type} {e : Expr} {index : Nat} {what : String}
    {reader : String → Except Refusal α} {f : Fault} (h : argument e index what reader = .error f) :
    ∃ reason, .refused e.kind reason = f := by
  rw [argument] at h
  split at h
  next arg _ =>
    cases hread : reader arg with
    | error reason => exact ⟨reason, by simpa [hread, Except.mapError] using h⟩
    | ok a => simp [hread, Except.mapError] at h
  next => exact ⟨_, Except.error.inj h⟩

section OfExpr

variable {inner : String → Except Fault Form} {e : Expr} {form : Form}

theorem ofExpr_number (hkind : e.kind = "number") :
    ofExpr inner e = .ok form ↔
      ∃ arg range, e.args[0]? = some arg ∧ NumberRange.read arg = .ok range ∧
        numbers range = form := by
  rw [ofExpr, if_pos hkind, argument_map_eq_ok_iff]

theorem ofExpr_char (hkind : e.kind = "char") :
    ofExpr inner e = .ok form ↔
      ∃ arg range, e.args[0]? = some arg ∧ CharRange.read arg = .ok range ∧
        characters range = form := by
  rw [ofExpr, if_neg (by rw [hkind]; decide), if_pos hkind, argument_map_eq_ok_iff]

theorem ofExpr_literal (hkind : e.kind = "literal") :
    ofExpr inner e = .ok (literal (Recipe.literalText e.args)) := by
  rw [ofExpr, if_neg (by rw [hkind]; decide), if_neg (by rw [hkind]; decide), if_pos hkind]
  rfl

theorem ofExpr_repeat (hkind : e.kind = "repeat") :
    ofExpr inner e = .ok form ↔
      ∃ arg count payload part, e.args[0]? = some arg ∧ IsCount arg count ∧
        e.args[1]? = some payload ∧ inner (String.ofList (unwrapGroup payload.toList)) = .ok part ∧
        repetition count part = form := by
  rw [ofExpr, if_neg (by rw [hkind]; decide), if_neg (by rw [hkind]; decide),
    if_neg (by rw [hkind]; decide), if_pos hkind, bind_eq_ok_iff]
  simp only [bind_eq_ok_iff, argument_eq_ok_iff, Recipe.readCount_eq_ok_iff, pure, Except.pure,
    Except.ok.injEq, exists_eq_right]
  constructor
  · rintro ⟨count, ⟨arg, harg, hcount⟩, payload, hpayload, part, hpart, hform⟩
    exact ⟨arg, count, payload, part, harg, hcount, hpayload, hpart, hform⟩
  · rintro ⟨arg, count, payload, part, harg, hcount, hpayload, hpart, hform⟩
    exact ⟨count, ⟨arg, harg, hcount⟩, payload, hpayload, part, hpart, hform⟩

theorem ofExpr_other (hnumber : e.kind ≠ "number") (hchar : e.kind ≠ "char")
    (hliteral : e.kind ≠ "literal") (hrepeat : e.kind ≠ "repeat") :
    ofExpr inner e = .error (.unknownKind e.kind e.source e.kindSpan) := by
  rw [ofExpr, if_neg hnumber, if_neg hchar, if_neg hliteral, if_neg hrepeat]

/-- A fault in reading is one of the kind, of an argument, or of the nested expression. -/
theorem of_ofExpr_error {f : Fault} (h : ofExpr inner e = .error f) :
    .unknownKind e.kind e.source e.kindSpan = f ∨ (∃ reason, .refused e.kind reason = f) ∨
      ∃ payload, e.args[1]? = some payload ∧
        inner (String.ofList (unwrapGroup payload.toList)) = .error f := by
  rw [ofExpr] at h
  split_ifs at h
  · rw [bind_eq_error_iff] at h
    rcases h with harg | ⟨range, -, h⟩
    · exact .inr (.inl (of_argument_error harg))
    · nomatch h
  · rw [bind_eq_error_iff] at h
    rcases h with harg | ⟨range, -, h⟩
    · exact .inr (.inl (of_argument_error harg))
    · nomatch h
  · nomatch h
  · rw [bind_eq_error_iff] at h
    rcases h with harg | ⟨count, -, h⟩
    · exact .inr (.inl (of_argument_error harg))
    rw [bind_eq_error_iff] at h
    rcases h with harg | ⟨payload, hpayload, h⟩
    · exact .inr (.inl (of_argument_error harg))
    rw [bind_eq_error_iff] at h
    rcases h with hinner | ⟨form, -, h⟩
    · obtain ⟨arg, harg, hpayload⟩ := argument_eq_ok_iff.1 hpayload
      obtain rfl : arg = payload := Except.ok.inj hpayload
      exact .inr (.inr ⟨arg, harg, hinner⟩)
    · nomatch h
  · exact .inl (Except.error.inj h)

end OfExpr

/-- **A form is read from an expression exactly if it is written there.** -/
theorem read_eq_ok_iff {levels : Nat} (hlevels : levels ≤ maxDepth + 1) {text : String}
    {form : Form} : read levels text = .ok form ↔ Written (maxDepth + 1 - levels) text form := by
  induction levels generalizing text form with
  | zero =>
    constructor
    · intro h
      simp [read] at h
    · intro h
      exact absurd h.depth_le (by decide)
  | succ levels ih =>
    have hdepth : maxDepth + 1 - (levels + 1) ≤ maxDepth := by omega
    have hinner : maxDepth + 1 - levels = maxDepth + 1 - (levels + 1) + 1 := by omega
    have ih {text : String} {form : Form} := @ih (by omega) text form
    rw [read, bind_eq_ok_iff]
    constructor
    · rintro ⟨e, hparse, hform⟩
      by_cases hnumber : e.kind = "number"
      · obtain ⟨arg, range, harg, hread, rfl⟩ := (ofExpr_number hnumber).1 hform
        cases range with
        | integers low high =>
          obtain ⟨lo, hi, htext, hlo, hhi, hle⟩ := NumberRange.read_eq_integers_iff.1 hread
          exact .integers hdepth hparse hnumber harg htext hlo hhi hle
        | decimals low high places => exact .decimals hdepth hparse hnumber harg hread
      by_cases hchar : e.kind = "char"
      · obtain ⟨arg, range, harg, hread, rfl⟩ := (ofExpr_char hchar).1 hform
        obtain ⟨htext, hle⟩ := CharRange.read_eq_ok_iff.1 hread
        exact .characters hdepth hparse hchar harg htext hle
      by_cases hliteral : e.kind = "literal"
      · obtain rfl : literal _ = form := by simpa [ofExpr_literal hliteral] using hform
        exact .literal hdepth hparse hliteral
      by_cases hrepeat : e.kind = "repeat"
      · obtain ⟨arg, count, payload, part, harg, hcount, hpayload, hpart, rfl⟩ :=
          (ofExpr_repeat hrepeat).1 hform
        rw [ih, hinner] at hpart
        exact .repetition hdepth hparse hrepeat harg hcount hpayload hpart
      · simp [ofExpr_other hnumber hchar hliteral hrepeat] at hform
    · intro h
      cases h with
      | integers _ hparse hkind harg htext hlo hhi hle =>
        have hread := NumberRange.read_eq_integers_iff.2 ⟨_, _, htext, hlo, hhi, hle⟩
        exact ⟨_, hparse, (ofExpr_number hkind).2 ⟨_, _, harg, hread, rfl⟩⟩
      | decimals _ hparse hkind harg hread =>
        exact ⟨_, hparse, (ofExpr_number hkind).2 ⟨_, _, harg, hread, rfl⟩⟩
      | characters _ hparse hkind harg htext hle =>
        exact ⟨_, hparse, (ofExpr_char hkind).2
          ⟨_, ⟨_, _⟩, harg, CharRange.read_eq_ok_iff.2 ⟨htext, hle⟩, rfl⟩⟩
      | literal _ hparse hkind => exact ⟨_, hparse, ofExpr_literal hkind⟩
      | repetition _ hparse hkind harg hcount hpayload hpart =>
        rw [← hinner, ← ih] at hpart
        exact ⟨_, hparse, (ofExpr_repeat hkind).2
          ⟨_, _, _, _, harg, hcount, hpayload, hpart, rfl⟩⟩

end Form

end RandExpr
