import RandExpr.Document.Lexer
import RandExpr.Proofs.Recipe.Arguments

/-!
# Reading back the tokens of JSON

The tokens that a JSON text was written with are the tokens that are read from it.

## The model

Numbers with a fraction apart (`Leaf.IsExact`), every leaf can be told from its text. Tokens are
written without spaces, so two leaves must not follow one another: in `Readable` tokens a mark, or
the end, stands behind every leaf. What a machine makes of the rest of a text is `Lexer.finish`.

## What is proved

* `Leaf.ofNumeral?_intText` — a whole number is read back from its digits.
* `Lexer.run_flatMap_jsonChar` — a text is read back from its characters as they are written, be
  they escaped or not.
* `Lexer.finish_leaf`, `Lexer.finish_readable` — one leaf with a mark behind it, and from it all
  tokens.
* `Token.ofText?_flatMap_chars` — readable tokens are read back from their text.
-/

namespace RandExpr

/-- The leaf is no number with a fraction. -/
def Leaf.IsExact : Leaf → Prop
  | .real _ => False
  | _ => True

instance : DecidablePred Leaf.IsExact
  | .real _ => isFalse id
  | .null | .boolean _ | .whole _ | .text _ => isTrue trivial

/-- The token is no leaf. -/
def Token.IsMark : Token → Prop
  | .leaf _ => False
  | _ => True

/-- A mark stands first, or nothing. -/
def BeginsWithMark (ts : List Token) : Prop := ∀ t ∈ ts.head?, t.IsMark

theorem beginsWithMark_nil : BeginsWithMark [] := by
  intro t ht
  cases ht

theorem beginsWithMark_cons (t : Token) (hmark : t.IsMark) (ts : List Token) :
    BeginsWithMark (t :: ts) := by
  rintro _ ⟨⟩
  exact hmark

/-- There is a mark or the end behind every leaf, and no leaf is a number with a fraction. -/
inductive Readable : List Token → Prop where
  /-- No tokens. -/
  | nil : Readable []
  /-- A mark, and anything behind it. -/
  | mark {t : Token} {ts : List Token} (hmark : t.IsMark) (h : Readable ts) : Readable (t :: ts)
  /-- A leaf, and a mark behind it if anything is. -/
  | leaf {l : Leaf} {ts : List Token} (hexact : l.IsExact) (hnext : BeginsWithMark ts)
      (h : Readable ts) : Readable (.leaf l :: ts)

theorem Token.IsMark.exists_chars {t : Token} (h : t.IsMark) : ∃ c, t.chars = [c] := by
  cases t with
  | leaf => exact h.elim
  | openArray | closeArray | openObject | closeObject | colon | comma => exact ⟨_, rfl⟩

/-! ### Whole numbers -/

theorem head?_toDigits_ne_zero {n : Nat} (h : 0 < n) : (Nat.toDigits 10 n).head? ≠ some '0' := by
  induction n using Nat.strongRecOn with
  | ind n ih =>
    by_cases hlt : n < 10
    · rw [Nat.toDigits_of_lt_base hlt]
      have hdigit : ∀ m < 10, 0 < m → [m.digitChar].head? ≠ some '0' := by decide
      exact hdigit n hlt h
    · have hne : Nat.toDigits 10 (n / 10) ≠ [] := Nat.toDigits_ne_nil
      rw [Nat.toDigits_of_base_le (by decide) (Nat.not_lt.1 hlt), List.head?_append,
        List.head?_eq_some_head hne, Option.some_or, ← List.head?_eq_some_head hne]
      exact ih (n / 10) (by omega) (by omega)

namespace Leaf

/-- The number of a numeral, from its sign and what follows. -/
def ofUnsigned? (negative : Bool) (cs : List Char) : Option Leaf :=
  let whole := cs.takeWhile Char.isDigit
  if whole = [] ∨ (whole.head? = some '0' ∧ whole ≠ ['0']) then none
  else
    (takeFraction? (cs.dropWhile Char.isDigit)).bind fun (fraction, power) =>
      ofParts? negative whole fraction power

theorem ofNumeral?_minus (cs : List Char) : ofNumeral? ('-' :: cs) = ofUnsigned? true cs := rfl

theorem ofNumeral?_of_ne {cs : List Char} (h : ∀ rest, cs ≠ '-' :: rest) :
    ofNumeral? cs = ofUnsigned? false cs := by
  simp only [ofNumeral?]
  rfl

theorem ofUnsigned?_toDigits (negative : Bool) (m : Nat) :
    ofUnsigned? negative (Nat.toDigits 10 m) =
      ofParts? negative (Nat.toDigits 10 m) none [] := by
  have htake : (Nat.toDigits 10 m).takeWhile Char.isDigit = Nat.toDigits 10 m :=
    List.takeWhile_eq_self_iff.2 isDigit_of_mem_toDigits
  have hdrop : (Nat.toDigits 10 m).dropWhile Char.isDigit = [] :=
    List.dropWhile_eq_nil_iff.2 isDigit_of_mem_toDigits
  have hgood : ¬(Nat.toDigits 10 m = [] ∨
      ((Nat.toDigits 10 m).head? = some '0' ∧ Nat.toDigits 10 m ≠ ['0'])) := by
    rintro (hnil | ⟨hhead, hne⟩)
    · exact Nat.toDigits_ne_nil hnil
    · rcases Nat.eq_zero_or_pos m with rfl | hpos
      · exact hne rfl
      · exact head?_toDigits_ne_zero hpos hhead
  simp only [ofUnsigned?, htake, hdrop, if_neg hgood]
  rfl

/-- Digits stand for a whole number, if 64 bits hold it and it is not zero with a sign. -/
theorem ofParts?_toDigits {n : Whole} {negative : Bool} {m : Nat}
    (hn : n.val = if negative then -(m : Int) else m) (hzero : ¬(negative = true ∧ n.val = 0)) :
    ofParts? negative (Nat.toDigits 10 m) none [] = some (.whole n) := by
  have hvalue : Decimal.digitsValue (Nat.toDigits 10 m) = m := digitsValue_toDigits m
  have hwhole : Whole.ofInt? n.val = some n := by
    rw [Whole.ofInt?, dif_pos ⟨n.least, n.greatest⟩]
  simp only [ofParts?, hvalue, ← hn, hzero, not_false_eq_true, and_self, if_true, hwhole]

/-- **A whole number is read back from its digits.** -/
theorem ofNumeral?_intText (n : Whole) : ofNumeral? (intText n.val) = some (.whole n) := by
  cases hval : n.val with
  | ofNat m =>
    have hminus (rest : List Char) : Nat.toDigits 10 m ≠ '-' :: rest :=
      ne_cons_of_forall rfl isDigit_of_mem_toDigits rest
    rw [intText, ofNumeral?_of_ne hminus, ofUnsigned?_toDigits]
    exact ofParts?_toDigits hval (by simp)
  | negSucc m =>
    rw [intText, ofNumeral?_minus, ofUnsigned?_toDigits]
    exact ofParts?_toDigits hval (by simp [hval])

end Leaf

namespace Lexer

variable {before : List Token} {rest : List Char}

/-- What a machine makes of the rest of a text. -/
def finish (lexer : Lexer) (cs : List Char) : Option (List Token) := (lexer.run cs).bind stop

theorem finish_cons (lexer : Lexer) (c : Char) (cs : List Char) :
    lexer.finish (c :: cs) = (lexer.step c).bind fun next => next.finish cs := by
  rw [finish, run, Option.bind_assoc]
  rfl

theorem finish_append {lexer next : Lexer} {cs : List Char} (h : lexer.run cs = some next)
    (rest : List Char) : lexer.finish (cs ++ rest) = next.finish rest := by
  induction cs generalizing lexer with
  | nil =>
    obtain rfl := Option.some.inj h
    rfl
  | cons c cs ih =>
    obtain ⟨middle, hstep, hrun⟩ := Option.bind_eq_some_iff.1 h
    rw [List.cons_append, finish_cons, hstep, Option.bind_some]
    exact ih hrun

/-! ### Texts -/

theorem hexValue?_digitChar {d : Nat} (h : d < 16) : hexValue? d.digitChar = some d := by
  have hall : ∀ d < 16, hexValue? d.digitChar = some d := by decide
  exact hall d h

/-- A control character is read back from the number of its code point. -/
theorem run_control {chars : List Char} {c : Char} (h : c.toNat < 0x20) :
    run ⟨.text chars, before⟩
      ['\\', 'u', '0', '0', Nat.digitChar (c.toNat / 16), Nat.digitChar (c.toNat % 16)] =
        some ⟨.text (c :: chars), before⟩ := by
  have hhigh : hexValue? (Nat.digitChar (c.toNat / 16)) = some (c.toNat / 16) :=
    hexValue?_digitChar (by omega)
  have hlow : hexValue? (Nat.digitChar (c.toNat % 16)) = some (c.toNat % 16) :=
    hexValue?_digitChar (by omega)
  have hvalue : 16 * (c.toNat / 16) + c.toNat % 16 = c.toNat := Nat.div_add_mod ..
  have hclose : closeUnit chars none (16 * (c.toNat / 16) + c.toNat % 16) =
      some (.text (c :: chars)) := by
    rw [hvalue, closeUnit, if_neg (by omega), if_neg (by omega), Char.ofNat_toNat]
  show run ⟨.unit chars none 0 1, before⟩
    [Nat.digitChar (c.toNat / 16), Nat.digitChar (c.toNat % 16)] = _
  simp [run, step, hhigh, hlow, hclose]

/-- **A character is read back as it is written in a text.** -/
theorem run_jsonChar (chars : List Char) (c : Char) :
    run ⟨.text chars, before⟩ (jsonChar c) = some ⟨.text (c :: chars), before⟩ := by
  unfold jsonChar
  split_ifs with hquote hback hb hf hn hr ht hcontrol
  · subst hquote; rfl
  · subst hback; rfl
  · subst hb; rfl
  · subst hf; rfl
  · subst hn; rfl
  · subst hr; rfl
  · subst ht; rfl
  · exact run_control hcontrol
  · show (stepText before chars c).bind _ = _
    rw [stepText, if_neg hquote, if_neg hback, if_neg hcontrol]
    rfl

theorem run_append (lexer : Lexer) (cs ds : List Char) :
    lexer.run (cs ++ ds) = (lexer.run cs).bind fun next => next.run ds := by
  induction cs generalizing lexer with
  | nil => rfl
  | cons c cs ih =>
    rw [List.cons_append, run, run, Option.bind_assoc]
    congr 1
    funext next
    exact ih next

/-- **A text is read back as it is written.** -/
theorem run_flatMap_jsonChar (chars cs : List Char) :
    run ⟨.text chars, before⟩ (cs.flatMap jsonChar) =
      some ⟨.text (cs.reverse ++ chars), before⟩ := by
  induction cs generalizing chars with
  | nil => rfl
  | cons c cs ih =>
    rw [List.flatMap_cons, run_append, run_jsonChar, Option.bind_some, ih, List.reverse_cons,
      List.append_assoc]
    rfl

/-! ### Leaves -/

/-- The characters of marks. -/
def IsBreak (c : Char) : Prop := ∃ t : Token, t.IsMark ∧ t.chars = [c]

theorem IsBreak.cases {c : Char} (h : IsBreak c) :
    c = '[' ∨ c = ']' ∨ c = '\x7b' ∨ c = '\x7d' ∨ c = ':' ∨ c = ',' := by
  obtain ⟨t, hmark, hchars⟩ := h
  cases t with
  | leaf => exact hmark.elim
  | openArray | closeArray | openObject | closeObject | colon | comma =>
    obtain rfl := List.singleton_inj.1 hchars
    decide

/-- What is being read ends where a mark follows, and the mark is read from between tokens. -/
theorem finish_of_stop {lexer : Lexer} {tokens : List Token} (hstop : lexer.stop = some tokens)
    (hstep : ∀ c, IsBreak c → lexer.step c = lexer.stop.bind fun tokens => start tokens c)
    (hrest : ∀ c ∈ rest.head?, IsBreak c) : lexer.finish rest = finish ⟨.between, tokens⟩ rest := by
  cases rest with
  | nil => exact hstop
  | cons c cs =>
    rw [finish_cons, finish_cons, hstep c (hrest c rfl), hstop]
    rfl

theorem finish_word {letters : List Char} {l : Leaf} (h : wordLeaf? letters.reverse = some l)
    (hrest : ∀ c ∈ rest.head?, IsBreak c) :
    finish ⟨.word letters, before⟩ rest = finish ⟨.between, .leaf l :: before⟩ rest := by
  refine finish_of_stop (by simp only [stop, h, Option.map_some]) (fun c hc => ?_) hrest
  have hlower : ¬c.isLower = true := by
    rcases hc.cases with rfl | rfl | rfl | rfl | rfl | rfl <;> decide
  exact if_neg hlower

theorem finish_numeral {chars : List Char} {l : Leaf} (h : Leaf.ofNumeral? chars.reverse = some l)
    (hrest : ∀ c ∈ rest.head?, IsBreak c) :
    finish ⟨.numeral chars, before⟩ rest = finish ⟨.between, .leaf l :: before⟩ rest := by
  refine finish_of_stop (by simp only [stop, h, Option.map_some]) (fun c hc => ?_) hrest
  have hother : ¬(c.isDigit = true ∨ c = '-' ∨ c = '+' ∨ c = '.' ∨ c = 'e' ∨ c = 'E') := by
    rcases hc.cases with rfl | rfl | rfl | rfl | rfl | rfl <;> decide
  exact if_neg hother

theorem start_digit {c : Char} (h : c.isDigit = true) :
    start before c = some ⟨.numeral [c], before⟩ := by
  have hne (other : Char) (hother : other.isDigit = false) : c ≠ other := by
    rintro rfl
    rw [h] at hother
    cases hother
  simp [start, h, hne]

theorem run_digits {chars digits : List Char} (h : ∀ c ∈ digits, c.isDigit = true) :
    run ⟨.numeral chars, before⟩ digits = some ⟨.numeral (digits.reverse ++ chars), before⟩ := by
  induction digits generalizing chars with
  | nil => rfl
  | cons c digits ih =>
    have hc := h c List.mem_cons_self
    have hstep : step ⟨.numeral chars, before⟩ c = some ⟨.numeral (c :: chars), before⟩ := by
      simp only [step, hc, true_or, if_true]
    rw [run, hstep, Option.bind_some, ih fun d hd => h d (List.mem_cons_of_mem _ hd),
      List.reverse_cons, List.append_assoc]
    rfl

theorem run_intText (n : Int) :
    run ⟨.between, before⟩ (intText n) = some ⟨.numeral (intText n).reverse, before⟩ := by
  cases n with
  | ofNat m =>
    obtain ⟨c, digits, hm⟩ :=
      List.exists_cons_of_ne_nil (Nat.toDigits_ne_nil : Nat.toDigits 10 m ≠ [])
    have hdigits : ∀ d ∈ c :: digits, d.isDigit = true := by
      rw [← hm]
      exact isDigit_of_mem_toDigits
    have hstart : step ⟨.between, before⟩ c = some ⟨.numeral [c], before⟩ :=
      start_digit (hdigits c List.mem_cons_self)
    rw [intText, hm, run, hstart, Option.bind_some,
      run_digits fun d hd => hdigits d (List.mem_cons_of_mem _ hd), List.reverse_cons]
  | negSucc m =>
    have hminus : step ⟨.between, before⟩ '-' = some ⟨.numeral ['-'], before⟩ := rfl
    rw [intText, run, hminus, Option.bind_some, run_digits isDigit_of_mem_toDigits,
      List.reverse_cons]

/-- **A leaf is read back if a mark stands behind it.** -/
theorem finish_leaf {l : Leaf} (hexact : l.IsExact) (hrest : ∀ c ∈ rest.head?, IsBreak c) :
    finish ⟨.between, before⟩ (l.chars ++ rest) = finish ⟨.between, .leaf l :: before⟩ rest := by
  cases l with
  | null =>
    have hrun : run ⟨.between, before⟩ "null".toList = some ⟨.word "llun".toList, before⟩ := rfl
    exact (finish_append hrun rest).trans (finish_word rfl hrest)
  | boolean b =>
    cases b with
    | true =>
      have hrun : run ⟨.between, before⟩ "true".toList = some ⟨.word "eurt".toList, before⟩ := rfl
      exact (finish_append hrun rest).trans (finish_word rfl hrest)
    | false =>
      have hrun : run ⟨.between, before⟩ "false".toList = some ⟨.word "eslaf".toList, before⟩ := rfl
      exact (finish_append hrun rest).trans (finish_word rfl hrest)
  | whole n =>
    refine (finish_append (run_intText n.val) rest).trans (finish_numeral ?_ hrest)
    rw [List.reverse_reverse]
    exact Leaf.ofNumeral?_intText n
  | real x => exact hexact.elim
  | text s =>
    have hrun : run ⟨.between, before⟩ ('"' :: (s.toList.flatMap jsonChar ++ ['"'])) =
        some ⟨.between, .leaf (.text s) :: before⟩ := by
      show run ⟨.text [], before⟩ _ = _
      rw [run_append, run_flatMap_jsonChar, Option.bind_some]
      show some (Lexer.mk _ (.leaf (.text (String.ofList _)) :: before)) = _
      simp
    exact finish_append hrun rest

theorem finish_mark {t : Token} (hmark : t.IsMark) :
    finish ⟨.between, before⟩ (t.chars ++ rest) = finish ⟨.between, t :: before⟩ rest := by
  cases t with
  | leaf => exact hmark.elim
  | openArray | closeArray | openObject | closeObject | colon | comma => rfl

/-- **Readable tokens are read back**, whatever has been read before. -/
theorem finish_readable {ts : List Token} (h : Readable ts) (before : List Token) :
    finish ⟨.between, before⟩ (ts.flatMap Token.chars) = some (ts.reverse ++ before) := by
  induction h generalizing before with
  | nil => rfl
  | @mark t ts hmark _ ih =>
    rw [List.flatMap_cons, finish_mark hmark, ih, List.reverse_cons, List.append_assoc]
    rfl
  | @leaf l ts hexact hnext _ ih =>
    have hrest : ∀ c ∈ (ts.flatMap Token.chars).head?, IsBreak c := by
      cases ts with
      | nil => simp
      | cons t ts =>
        obtain ⟨c, hc⟩ := (hnext t rfl).exists_chars
        rw [List.flatMap_cons, hc]
        rintro _ ⟨⟩
        exact ⟨t, hnext t rfl, hc⟩
    rw [List.flatMap_cons, Token.chars, finish_leaf hexact hrest, ih, List.reverse_cons,
      List.append_assoc]
    rfl

end Lexer

/-- **Readable tokens are read back from their text.** -/
theorem Token.ofText?_flatMap_chars {ts : List Token} (h : Readable ts) :
    Token.ofText? (String.ofList (ts.flatMap Token.chars)) = some ts := by
  have hfinish :
      (Lexer.run {} (ts.flatMap Token.chars)).bind Lexer.stop = some (ts.reverse ++ []) :=
    Lexer.finish_readable h []
  rw [Token.ofText?, String.toList_ofList, hfinish, List.append_nil]
  simp

end RandExpr
