import RandExpr.Proofs.Expr.Balance
import RandExpr.Proofs.Expr.Shorthand
import RandExpr.Proofs.Recipe.Arguments

/-!
# Spellings of shorthands

Which texts are shorthands, said by the parts that they are put together of, and that no text is two
shorthands at once.

## The model

`Shorthand.Spells` has a constructor for each short form, which puts the text together: a count in
digits before a group on one line, two numerals joined by `-`, two letters joined by `-`, a line
between quotes. `Shorthand.recognisers` are the four recognisers, each asked by itself, in the order
in which they are tried.

## What is proved

* `RangeForm.foldl_start_iff` — what is read as a numeric range is two numerals joined by `-`;
  before it, what is read when a part of the range has been read, from the last form back to the
  first.
* `isNumericRange_iff`, `isCharRange_iff`, `isLiteral_iff` — which texts a recogniser accepts by
  itself.
* `classify_of_spells` — a text that spells a shorthand is taken for that one, whichever is tried
  before it.
* `classify_any_order` — a text is taken for a shorthand exactly if it spells it, it spells one at
  most, and in which order the recognisers are tried makes no difference.
-/

namespace RandExpr

open NumberRange (IsNumeral)

/-! ### Numerals -/

namespace NumberRange

theorem not_isNumeral_nil : ¬IsNumeral [] := by
  rintro ⟨digits, hne, -, heq | heq⟩
  · exact hne heq.symm
  · nomatch heq

theorem isNumeral_minus_iff {cs : List Char} :
    IsNumeral ('-' :: cs) ↔ cs ≠ [] ∧ ∀ c ∈ cs, isNumeral c = true := by
  constructor
  · rintro ⟨digits, hne, hdigits, heq | heq⟩
    · exact absurd heq.symm (ne_cons_of_forall rfl hdigits cs)
    · obtain rfl := (List.cons.inj heq).2
      exact ⟨hne, hdigits⟩
  · rintro ⟨hne, hdigits⟩
    exact ⟨cs, hne, hdigits, .inr rfl⟩

theorem isNumeral_cons_iff {c : Char} (hc : c ≠ '-') {cs : List Char} :
    IsNumeral (c :: cs) ↔ ∀ d ∈ c :: cs, isNumeral d = true := by
  constructor
  · rintro ⟨digits, -, hdigits, rfl | heq⟩
    · exact hdigits
    · exact absurd (List.cons.inj heq).1 hc
  · intro hdigits
    exact ⟨c :: cs, by simp, hdigits, .inl rfl⟩

end NumberRange

/-! ### Numeric ranges, from their end to their start -/

namespace RangeForm

variable {cs : List Char} {c : Char}

theorem foldl_cons_of_broken {form : RangeForm} (h : form.step c = broken) (cs : List Char) :
    (c :: cs).foldl step form ≠ high := by
  rw [List.foldl_cons, h, foldl_step_broken]
  decide

theorem ne_minus_of_isNumeral (hc : isNumeral c = true) : c ≠ '-' := by
  rintro rfl
  exact absurd hc (by decide)

/-- When a part of the upper end has been read, the rest of it is left. -/
theorem foldl_high_iff : cs.foldl step high = high ↔ ∀ c ∈ cs, isNumeral c = true := by
  induction cs with
  | nil => simp
  | cons c cs ih =>
    rw [List.forall_mem_cons]
    by_cases hc : isNumeral c = true
    · have hstep : step high c = high := if_pos hc
      rw [List.foldl_cons, hstep, ih]
      simp [hc]
    · have hbroken : step high c = broken := if_neg hc
      exact iff_of_false (foldl_cons_of_broken hbroken cs) fun h => hc h.1

theorem foldl_highSign_iff :
    cs.foldl step highSign = high ↔ cs ≠ [] ∧ ∀ c ∈ cs, isNumeral c = true := by
  cases cs with
  | nil => simp
  | cons c cs =>
    have hstep : step highSign c = step high c := rfl
    rw [List.foldl_cons, hstep, ← List.foldl_cons, foldl_high_iff]
    simp

theorem foldl_between_iff : cs.foldl step between = high ↔ IsNumeral cs := by
  cases cs with
  | nil => simp [NumberRange.not_isNumeral_nil]
  | cons c cs =>
    by_cases hminus : c = '-'
    · subst hminus
      rw [NumberRange.isNumeral_minus_iff]
      exact foldl_highSign_iff
    · have hstep : step between c = step high c := if_neg hminus
      rw [NumberRange.isNumeral_cons_iff hminus, List.foldl_cons, hstep, ← List.foldl_cons]
      exact foldl_high_iff

theorem step_low_of_isNumeral (hc : isNumeral c = true) : step low c = low := by
  simp [step, ne_minus_of_isNumeral hc, hc]

theorem foldl_low_append {digits : List Char} (h : ∀ c ∈ digits, isNumeral c = true)
    (rest : List Char) : (digits ++ rest).foldl step low = rest.foldl step low := by
  induction digits with
  | nil => rfl
  | cons d digits ih =>
    obtain ⟨hd, hdigits⟩ := List.forall_mem_cons.1 h
    rw [List.cons_append, List.foldl_cons, step_low_of_isNumeral hd]
    exact ih hdigits

/-- When a part of the lower end has been read, the rest of it is left, then `-` and the upper
end. -/
theorem foldl_low_iff : cs.foldl step low = high ↔
    ∃ digits upper, (∀ c ∈ digits, isNumeral c = true) ∧ IsNumeral upper ∧
      cs = digits ++ '-' :: upper := by
  constructor
  · intro h
    have hdigits : ∀ c ∈ cs.takeWhile isNumeral, isNumeral c = true :=
      fun c hc => List.mem_takeWhile_imp hc
    have hspan : cs.takeWhile isNumeral ++ cs.dropWhile isNumeral = cs :=
      List.takeWhile_append_dropWhile
    have hend := List.head?_dropWhile_not isNumeral cs
    rw [← hspan, foldl_low_append hdigits] at h
    generalize cs.dropWhile isNumeral = rest at h hspan hend
    cases rest with
    | nil => nomatch h
    | cons c upper =>
      have hc : isNumeral c = false := by simpa using hend
      by_cases hminus : c = '-'
      · subst hminus
        exact ⟨_, upper, hdigits, foldl_between_iff.1 h, hspan.symm⟩
      · have hbroken : step low c = broken := by simp [step, hminus, hc]
        exact absurd h (foldl_cons_of_broken hbroken upper)
  · rintro ⟨digits, upper, hdigits, hupper, rfl⟩
    rw [foldl_low_append hdigits]
    exact foldl_between_iff.2 hupper

/-- Behind the sign of the lower end stands what may stand behind a part of it, if that starts as a
number does. -/
theorem foldl_lowSign_iff : cs.foldl step lowSign = high ↔
    ∃ digits upper, digits ≠ [] ∧ (∀ c ∈ digits, isNumeral c = true) ∧ IsNumeral upper ∧
      cs = digits ++ '-' :: upper := by
  constructor
  · intro h
    cases cs with
    | nil => nomatch h
    | cons c cs =>
      by_cases hc : isNumeral c = true
      · have hstep : step lowSign c = low := if_pos hc
        rw [List.foldl_cons, hstep] at h
        obtain ⟨digits, upper, hdigits, hupper, rfl⟩ := foldl_low_iff.1 h
        exact ⟨c :: digits, upper, by simp, List.forall_mem_cons.2 ⟨hc, hdigits⟩, hupper, rfl⟩
      · have hbroken : step lowSign c = broken := if_neg hc
        exact absurd h (foldl_cons_of_broken hbroken cs)
  · rintro ⟨digits, upper, hne, hdigits, hupper, rfl⟩
    obtain ⟨d, digits, rfl⟩ := List.exists_cons_of_ne_nil hne
    obtain ⟨hd, hdigits⟩ := List.forall_mem_cons.1 hdigits
    have hstep : step lowSign d = low := if_pos hd
    rw [List.cons_append, List.foldl_cons, hstep]
    exact foldl_low_iff.2 ⟨digits, upper, hdigits, hupper, rfl⟩

/-- **What is read as a numeric range is two numerals joined by `-`.** -/
theorem foldl_start_iff : cs.foldl step start = high ↔
    ∃ lower upper, IsNumeral lower ∧ IsNumeral upper ∧ cs = lower ++ '-' :: upper := by
  cases cs with
  | nil => simp
  | cons c cs =>
    by_cases hminus : c = '-'
    · subst hminus
      refine foldl_lowSign_iff.trans ⟨?_, ?_⟩
      · rintro ⟨digits, upper, hne, hdigits, hupper, rfl⟩
        exact ⟨'-' :: digits, upper, ⟨digits, hne, hdigits, .inr rfl⟩, hupper, rfl⟩
      · rintro ⟨lower, upper, ⟨digits, hne, hdigits, rfl | rfl⟩, hupper, heq⟩
        · obtain ⟨d, digits, rfl⟩ := List.exists_cons_of_ne_nil hne
          have hd := ne_minus_of_isNumeral (hdigits d List.mem_cons_self)
          exact absurd (List.cons.inj heq).1.symm hd
        · exact ⟨digits, upper, hne, hdigits, hupper, (List.cons.inj heq).2⟩
    · have hstep : step start c = step lowSign c := if_neg hminus
      rw [List.foldl_cons, hstep, ← List.foldl_cons, foldl_lowSign_iff]
      constructor
      · rintro ⟨digits, upper, hne, hdigits, hupper, heq⟩
        exact ⟨digits, upper, ⟨digits, hne, hdigits, .inl rfl⟩, hupper, heq⟩
      · rintro ⟨lower, upper, ⟨digits, hne, hdigits, rfl | rfl⟩, hupper, heq⟩
        · exact ⟨lower, upper, hne, hdigits, hupper, heq⟩
        · exact absurd (List.cons.inj heq).1 hminus

end RangeForm

/-! ### What each recogniser accepts -/

theorem isNumericRange_iff {cs : List Char} : isNumericRange cs = true ↔
    ∃ lower upper, IsNumeral lower ∧ IsNumeral upper ∧ cs = lower ++ '-' :: upper := by
  rw [isNumericRange, beq_iff_eq]
  exact RangeForm.foldl_start_iff

theorem isCharRange_iff {cs : List Char} : isCharRange cs = true ↔
    ∃ low high : Char, low.isAlpha = true ∧ high.isAlpha = true ∧ cs = [low, '-', high] := by
  constructor
  · intro h
    unfold isCharRange at h
    split at h
    next low high =>
      obtain ⟨hlow, hhigh⟩ := Bool.and_eq_true_iff.1 h
      exact ⟨low, high, hlow, hhigh, rfl⟩
    next => nomatch h
  · rintro ⟨low, high, hlow, hhigh, rfl⟩
    exact Bool.and_eq_true_iff.2 ⟨hlow, hhigh⟩

theorem isNumeral_of_isAlpha {c : Char} (h : c.isAlpha = true) : isNumeral c = false := by
  by_contra hnumeral
  simp only [isNumeral, Bool.not_eq_false, Bool.or_eq_true, beq_iff_eq] at hnumeral
  rcases hnumeral with hdigit | rfl
  · have hle : c.val.toNat ≤ 57 :=
      UInt32.le_iff_toNat_le.1 (of_decide_eq_true (Bool.and_eq_true_iff.1 hdigit).2)
    have hge : 65 ≤ c.val.toNat := by
      rcases Bool.or_eq_true_iff.1 h with hupper | hlower
      · exact UInt32.le_iff_toNat_le.1 (of_decide_eq_true hupper).1
      · have hlower : 97 ≤ c.val.toNat :=
          UInt32.le_iff_toNat_le.1 (of_decide_eq_true (Bool.and_eq_true_iff.1 hlower).1)
        omega
    omega
  · exact absurd h (by decide)

theorem isLiteral_iff {cs : List Char} : isLiteral cs = true ↔
    ∃ inner, '\n' ∉ inner ∧ cs = '"' :: (inner ++ ['"']) := by
  constructor
  · intro h
    unfold isLiteral at h
    split at h
    next inner henclosed =>
      exact ⟨inner, by simpa using h, Text.enclosed?_eq_some_iff.1 henclosed⟩
    next => nomatch h
  · rintro ⟨inner, hline, rfl⟩
    rw [isLiteral_quoted]
    simpa using hline

namespace Shorthand

/-! ### Shorthands and their spellings -/

/-- The text spells the shorthand. -/
inductive Spells : Shorthand → String → Prop where
  /-- A count in digits, `*`, and what it repeats, on one line between parentheses. -/
  | multiplier {count payload : String} (hcount : count ≠ "")
      (hdigits : ∀ c ∈ count.toList, c.isDigit = true) (hpayload : payload ≠ "")
      (hline : '\n' ∉ payload.toList) :
      Spells (.multiplier count ("(" ++ payload ++ ")")) (multiplierText count payload)
  /-- Two numerals joined by `-`. -/
  | numericRange {lower upper : String} (hlower : IsNumeral lower.toList)
      (hupper : IsNumeral upper.toList) :
      Spells (.numericRange (lower ++ "-" ++ upper)) (lower ++ "-" ++ upper)
  /-- Two letters joined by `-`. -/
  | charRange {low high : Char} (hlow : low.isAlpha = true) (hhigh : high.isAlpha = true) :
      Spells (.charRange (String.ofList [low, '-', high])) (String.ofList [low, '-', high])
  /-- A line between double quotes. -/
  | literal {text : String} (hline : '\n' ∉ text.toList) :
      Spells (.literal (quotedText text)) (quotedText text)

/-- The recognisers of the four short forms, each by itself. -/
def recognisers : List (String → Option Shorthand) :=
  [fun text => (multiplier? text.toList).map fun (count, payload) =>
      .multiplier (String.ofList count) (String.ofList payload),
    fun text => if isNumericRange text.toList then some (.numericRange text) else none,
    fun text => if isCharRange text.toList then some (.charRange text) else none,
    fun text => if isLiteral text.toList then some (.literal text) else none]

theorem classify_eq_findSome? (text : String) :
    classify text = recognisers.findSome? fun recognise => recognise text := by
  simp only [classify, recognisers, List.findSome?_cons, List.findSome?_nil]
  cases multiplier? text.toList with
  | some p => rfl
  | none =>
    simp only [Option.map_none]
    split_ifs <;> rfl

theorem spells_of_recogniser {text : String} {shorthand : Shorthand}
    {recognise : String → Option Shorthand} (hmem : recognise ∈ recognisers)
    (h : recognise text = some shorthand) : Spells shorthand text := by
  simp only [recognisers, List.mem_cons, List.not_mem_nil, or_false] at hmem
  rcases hmem with rfl | rfl | rfl | rfl
  · obtain ⟨⟨count, payload⟩, hmultiplier, rfl⟩ := Option.map_eq_some_iff.1 h
    obtain ⟨hcount, hdigits, ⟨inner, hinner, hline, rfl⟩, htext⟩ := of_multiplier? hmultiplier
    obtain rfl : multiplierText (String.ofList count) (String.ofList inner) = text := by
      rw [← String.toList_inj, toList_multiplierText, htext]
      simp
    have hgroup : String.ofList ('(' :: (inner ++ [')'])) = "(" ++ String.ofList inner ++ ")" := by
      rw [← String.toList_inj, toList_group]
      simp
    rw [hgroup]
    exact .multiplier (by simpa using hcount) (by simpa using hdigits) (by simpa using hinner)
      (by simpa using hline)
  · obtain ⟨hrange, rfl⟩ : isNumericRange text.toList = true ∧ .numericRange text = shorthand := by
      simpa using h
    obtain ⟨lower, upper, hlower, hupper, htext⟩ := isNumericRange_iff.1 hrange
    obtain rfl : String.ofList lower ++ "-" ++ String.ofList upper = text := by
      rw [← String.toList_inj, htext]
      simp
    exact .numericRange (by simpa using hlower) (by simpa using hupper)
  · obtain ⟨hrange, rfl⟩ : isCharRange text.toList = true ∧ .charRange text = shorthand := by
      simpa using h
    obtain ⟨low, high, hlow, hhigh, htext⟩ := isCharRange_iff.1 hrange
    obtain rfl : String.ofList [low, '-', high] = text := by
      rw [← String.toList_inj, htext, String.toList_ofList]
    exact .charRange hlow hhigh
  · obtain ⟨hliteral, rfl⟩ : isLiteral text.toList = true ∧ .literal text = shorthand := by
      simpa using h
    obtain ⟨inner, hline, htext⟩ := isLiteral_iff.1 hliteral
    obtain rfl : quotedText (String.ofList inner) = text := by
      rw [← String.toList_inj, toList_quotedText, htext, String.toList_ofList]
    exact .literal (by simpa using hline)

theorem multiplier?_of_range {cs : List Char}
    (h : isNumericRange cs = true ∨ isCharRange cs = true) : multiplier? cs = none := by
  by_contra hsome
  obtain ⟨⟨count, payload⟩, hmultiplier⟩ := Option.ne_none_iff_exists'.1 hsome
  obtain ⟨-, -, -, rfl⟩ := of_multiplier? hmultiplier
  have hstar : '*' ∈ count ++ '*' :: payload := by simp
  simp [not_range_of_mem hstar] at h

/-- **A text that spells a shorthand is taken for that one**, whichever is tried before it. -/
theorem classify_of_spells {text : String} {shorthand : Shorthand} (h : Spells shorthand text) :
    classify text = some shorthand := by
  cases h with
  | @multiplier count payload hcount hdigits hpayload hline =>
    rw [classify_multiplierText hcount hdigits, if_neg (not_or.2 ⟨hpayload, hline⟩)]
  | @numericRange lower upper hlower hupper =>
    have hrange : isNumericRange (lower ++ "-" ++ upper).toList = true := by
      refine isNumericRange_iff.2 ⟨_, _, hlower, hupper, ?_⟩
      simp [String.toList_append]
    rw [classify, multiplier?_of_range (.inl hrange)]
    simp only [hrange, if_true]
  | @charRange low high hlow hhigh =>
    have hchars : isCharRange (String.ofList [low, '-', high]).toList = true := by
      rw [String.toList_ofList]
      exact isCharRange_iff.2 ⟨low, high, hlow, hhigh, rfl⟩
    have hrange : ¬isNumericRange (String.ofList [low, '-', high]).toList = true := by
      rw [String.toList_ofList]
      intro hrange
      rcases mem_of_isNumericRange hrange List.mem_cons_self with hnumeral | rfl
      · simp [isNumeral_of_isAlpha hlow] at hnumeral
      · exact absurd hlow (by decide)
    rw [classify, multiplier?_of_range (.inr hchars)]
    simp only [hrange, hchars, if_true]
    rfl
  | @literal inner hline =>
    rw [classify_quotedText, if_neg hline]

/-- **A text spells the shorthand that it is taken for.** -/
theorem spells_of_classify {text : String} {shorthand : Shorthand}
    (h : classify text = some shorthand) : Spells shorthand text := by
  rw [classify_eq_findSome?] at h
  obtain ⟨recognise, hmem, h⟩ := List.exists_of_findSome?_eq_some h
  exact spells_of_recogniser hmem h

/-- Recognisers that agree on a text recognise it in every order. -/
theorem findSome?_eq_of_perm {order : List (String → Option Shorthand)}
    (horder : order.Perm recognisers) (text : String) :
    (order.findSome? fun recognise => recognise text) = classify text := by
  cases hfound : order.findSome? fun recognise => recognise text with
  | some shorthand =>
    obtain ⟨recognise, hmem, h⟩ := List.exists_of_findSome?_eq_some hfound
    exact (classify_of_spells (spells_of_recogniser (horder.mem_iff.1 hmem) h)).symm
  | none =>
    symm
    rw [classify_eq_findSome?, List.findSome?_eq_none_iff]
    intro recognise hmem
    exact List.findSome?_eq_none_iff.1 hfound recognise (horder.mem_iff.2 hmem)

/-- **A text is taken for a shorthand exactly if it spells it.** It spells one at most, and so it is
taken for the same one in whichever order the recognisers are tried. -/
theorem classify_any_order (text : String) :
    (∀ shorthand, classify text = some shorthand ↔ Spells shorthand text) ∧
      (∀ shorthand shorthand', Spells shorthand text → Spells shorthand' text →
        shorthand = shorthand') ∧
      ∀ order : List (String → Option Shorthand), order.Perm recognisers →
        (order.findSome? fun recognise => recognise text) = classify text := by
  refine ⟨fun shorthand => ⟨fun h => spells_of_classify h, classify_of_spells⟩, ?_,
    fun order horder => findSome?_eq_of_perm horder text⟩
  intro shorthand shorthand' h h'
  exact Option.some.inj ((classify_of_spells h).symm.trans (classify_of_spells h'))

/-- A range that ends below zero, found by the recognisers in reverse. -/
theorem classify_any_order_minus : Spells (.numericRange "5--3") "5--3" ∧
    (recognisers.reverse.findSome? fun recognise => recognise "5--3") =
      some (.numericRange "5--3") := by
  obtain ⟨hspells, -, horder⟩ := classify_any_order "5--3"
  have hclassify : classify "5--3" = some (.numericRange "5--3") := by rfl
  exact ⟨(hspells _).1 hclassify,
    (horder recognisers.reverse (List.reverse_perm _)).trans hclassify⟩

end Shorthand

end RandExpr
