import RandExpr.Expr.Basic
import RandExpr.Proofs.Expr.Closed
import Mathlib.Data.List.TakeWhile

/-!
# Shorthand texts

Which texts are taken for multipliers and for quoted literals, and which for no shorthand.

## The model

The texts themselves are put together of their parts: `multiplierText` of a count in digits and what
stands between the parentheses, `quotedText` of what stands between the quotes. `repeatText` is the
canonical text that a multiplier is short for.

## What is proved

* `classify_multiplierText` — a count in digits before a group is a multiplier exactly if the group
  is not empty and holds no line feed.
* `classify_quotedText` — a text between quotes is a literal exactly if it holds no line feed.
* `classify_of_colon` — a text with a kind and a cut is no shorthand.
* `scan_quotedText` — whatever stands between quotes, a scan reads it as one piece.
* `parse_repeatText` — a repetition of a closed text is taken apart into the count and the group.
-/

namespace RandExpr

/-- A count before a group. -/
def multiplierText (count payload : String) : String := count ++ "*(" ++ payload ++ ")"

/-- The kind `repeat` with a count and a group. -/
def repeatText (count payload : String) : String := "repeat:" ++ count ++ ":(" ++ payload ++ ")"

/-- A text between double quotes. -/
def quotedText (text : String) : String := "\"" ++ text ++ "\""

theorem toList_group (payload : String) :
    ("(" ++ payload ++ ")").toList = '(' :: (payload.toList ++ [')']) := by
  simp [String.toList_append]

theorem toList_multiplierText (count payload : String) :
    (multiplierText count payload).toList =
      count.toList ++ '*' :: '(' :: (payload.toList ++ [')']) := by
  simp [multiplierText, String.toList_append]

theorem toList_repeatText (count payload : String) :
    (repeatText count payload).toList =
      Scan.call "repeat".toList count.toList payload.toList := by
  simp [repeatText, Scan.call, String.toList_append]

theorem toList_quotedText (text : String) :
    (quotedText text).toList = '"' :: (text.toList ++ ['"']) := by
  simp [quotedText, String.toList_append]

/-! ### Ranges -/

theorem foldl_step_broken (cs : List Char) : cs.foldl RangeForm.step .broken = .broken := by
  induction cs with
  | nil => rfl
  | cons c cs ih => exact ih

theorem mem_of_isNumericRange {cs : List Char} (h : isNumericRange cs = true) {c : Char}
    (hc : c ∈ cs) : isNumeral c = true ∨ c = '-' := by
  by_contra hother
  obtain ⟨hnumeral, hminus⟩ := not_or.1 hother
  have hbroken (form : RangeForm) : form.step c = .broken := by
    cases form <;> simp [RangeForm.step, hnumeral, hminus]
  obtain ⟨before, after, rfl⟩ := List.append_of_mem hc
  rw [isNumericRange, List.foldl_append, List.foldl_cons, hbroken, foldl_step_broken] at h
  exact absurd h (by decide)

theorem mem_of_isCharRange {cs : List Char} (h : isCharRange cs = true) {c : Char} (hc : c ∈ cs) :
    c.isAlpha = true ∨ c = '-' := by
  unfold isCharRange at h
  split at h
  next low high =>
    obtain ⟨hlow, hhigh⟩ := Bool.and_eq_true_iff.1 h
    rcases List.mem_cons.1 hc with rfl | hc
    · exact .inl hlow
    rcases List.mem_cons.1 hc with rfl | hc
    · exact .inr rfl
    · obtain rfl := List.mem_singleton.1 hc
      exact .inl hhigh
  next => simp at h

theorem not_range_of_mem {cs : List Char} {c : Char} (hc : c ∈ cs)
    (hmark : c = ':' ∨ c = '*' ∨ c = '"') :
    isNumericRange cs = false ∧ isCharRange cs = false := by
  have hother : isNumeral c = false ∧ c.isAlpha = false ∧ c ≠ '-' := by
    rcases hmark with rfl | rfl | rfl <;> decide
  obtain ⟨hnumeral, halpha, hminus⟩ := hother
  rw [← Bool.not_eq_true, ← Bool.not_eq_true]
  refine ⟨fun h => ?_, fun h => ?_⟩
  · simpa [hnumeral, hminus] using mem_of_isNumericRange h hc
  · simpa [halpha, hminus] using mem_of_isCharRange h hc

/-! ### Multipliers and literals -/

/-- Digits before a `*` are the count of a multiplier if a group that may stand there follows. -/
theorem multiplier?_append {count : List Char} (hcount : count ≠ [])
    (hdigits : ∀ c ∈ count, c.isDigit = true) (inner : List Char) :
    multiplier? (count ++ '*' :: '(' :: (inner ++ [')'])) =
      if inner = [] ∨ inner.contains '\n' then none
      else some (count, '(' :: (inner ++ [')'])) := by
  obtain ⟨digit, digits, rfl⟩ := List.exists_cons_of_ne_nil hcount
  have htake : (digit :: digits ++ '*' :: '(' :: (inner ++ [')'])).takeWhile Char.isDigit =
      digit :: digits := by
    rw [List.takeWhile_append_of_pos hdigits]
    simp
  have hdrop : (digit :: digits ++ '*' :: '(' :: (inner ++ [')'])).dropWhile Char.isDigit =
      '*' :: '(' :: (inner ++ [')']) := by
    rw [List.dropWhile_append_of_pos hdigits]
    simp
  simp only [multiplier?, htake, hdrop, Text.enclosed?_cons_append]

theorem multiplier?_of_not_isDigit {c : Char} (hc : c.isDigit = false) (cs : List Char) :
    multiplier? (c :: cs) = none := by
  simp [multiplier?, hc]

theorem isLiteral_of_ne {c : Char} (hc : c ≠ '"') (cs : List Char) :
    isLiteral (c :: cs) = false := by
  simp [isLiteral, Text.enclosed?, hc]

theorem isLiteral_quoted (inner : List Char) :
    isLiteral ('"' :: (inner ++ ['"'])) = !inner.contains '\n' := by
  simp only [isLiteral, Text.enclosed?_cons_append]

namespace Shorthand

/-- **A count before a group is a multiplier**, if the group is not empty and holds no line feed;
else it is no shorthand at all. -/
theorem classify_multiplierText {count : String} (hcount : count ≠ "")
    (hdigits : ∀ c ∈ count.toList, c.isDigit = true) (payload : String) :
    classify (multiplierText count payload) =
      if payload = "" ∨ '\n' ∈ payload.toList then none
      else some (.multiplier count ("(" ++ payload ++ ")")) := by
  have hcount : count.toList ≠ [] := by simpa using hcount
  have hinner : (payload.toList = [] ∨ payload.toList.contains '\n' = true) ↔
      payload = "" ∨ '\n' ∈ payload.toList := by simp
  rw [classify, toList_multiplierText, multiplier?_append hcount hdigits]
  simp only [hinner]
  by_cases hbroken : payload = "" ∨ '\n' ∈ payload.toList
  · obtain ⟨digit, digits, htext⟩ := List.exists_cons_of_ne_nil hcount
    have hquote : digit ≠ '"' := by
      rintro rfl
      exact absurd (hdigits '"' (by simp [htext])) (by decide)
    have hstar : '*' ∈ count.toList ++ '*' :: '(' :: (payload.toList ++ [')']) := by simp
    have hrange := not_range_of_mem hstar (by simp)
    have hliteral :
        isLiteral (count.toList ++ '*' :: '(' :: (payload.toList ++ [')'])) = false := by
      rw [htext]
      exact isLiteral_of_ne hquote _
    simp [hbroken, hrange, hliteral]
  · have hgroup : String.ofList ('(' :: (payload.toList ++ [')'])) = "(" ++ payload ++ ")" := by
      rw [← toList_group, String.ofList_toList]
    simp only [if_neg hbroken, String.ofList_toList, hgroup]

/-- **A text between quotes is a literal**, if it holds no line feed; else it is no shorthand at
all. -/
theorem classify_quotedText (text : String) :
    classify (quotedText text) =
      if '\n' ∈ text.toList then none else some (.literal (quotedText text)) := by
  have hmultiplier := multiplier?_of_not_isDigit (c := '"') rfl (text.toList ++ ['"'])
  have hquote : '"' ∈ '"' :: (text.toList ++ ['"']) := List.mem_cons_self
  have hrange := not_range_of_mem hquote (by simp)
  rw [classify, toList_quotedText]
  simp only [hmultiplier, hrange, isLiteral_quoted]
  by_cases hline : '\n' ∈ text.toList <;> simp [hline]

theorem classify_of_colon {text : String} {c : Char} {cs : List Char}
    (htext : text.toList = c :: cs) (hdigit : c.isDigit = false) (hquote : c ≠ '"')
    (hcolon : ':' ∈ cs) : classify text = none := by
  have hrange := not_range_of_mem (List.mem_cons_of_mem c hcolon) (by simp)
  rw [classify, htext]
  simp [multiplier?_of_not_isDigit hdigit, hrange, isLiteral_of_ne hquote]

end Shorthand

/-! ### Scans of quoted texts -/

namespace Scan

/-- **A scan reads a text between quotes as one piece**, whatever the text is. -/
theorem scan_quotedText {text : String} (h : '"' ∉ text.toList) (pos : Nat) :
    (∃ pos', run ⟨pos, false, []⟩ (quotedText text).toList = some ⟨pos', false, []⟩) ∧
      pieces ⟨pos, false, []⟩ (quotedText text).toList = .ok ((quotedText text).toList, []) := by
  have hopen : move ⟨pos, false, []⟩ '"' = .keep ⟨pos + 1, true, []⟩ := rfl
  obtain ⟨pos', hrun, hpieces⟩ := pieces_inQuote h (pos + 1) []
  have hclose : move ⟨pos', true, []⟩ '"' = .keep ⟨pos' + 1, false, []⟩ := rfl
  rw [toList_quotedText]
  constructor
  · refine ⟨pos' + 1, ?_⟩
    rw [run, hopen]
    simp only
    rw [run_append, hrun, Option.bind_some, run, hclose]
    rfl
  · rw [pieces, hopen]
    simp only
    rw [hpieces, pieces, hclose]
    simp [pieces, Except.map]

theorem closed_quotedText {text : String} (h : '"' ∉ text.toList) :
    Closed (quotedText text).toList :=
  (scan_quotedText h 0).1

/-- A repetition of a closed text is closed, and falls into its kind, the count and the group. -/
theorem scan_repeatText {count payload : String} (hcount : ∀ c ∈ count.toList, c.isDigit = true)
    (hpayload : Closed payload.toList) :
    Closed (repeatText count payload).toList ∧
      pieces {} (repeatText count payload).toList =
        .ok ("repeat".toList, [count.toList, '(' :: (payload.toList ++ [')'])]) := by
  have hplain : count.toList.all plain = true := by
    apply List.all_eq_true.2
    intro c hc
    exact plain_of_isDigit (hcount c hc)
  rw [toList_repeatText]
  exact scan_call rfl hplain hpayload

theorem closed_repeatText {count payload : String} (hcount : ∀ c ∈ count.toList, c.isDigit = true)
    (hpayload : Closed payload.toList) : Closed (repeatText count payload).toList :=
  (scan_repeatText hcount hpayload).1

end Scan

/-! ### Canonical texts -/

theorem ofList_unwrapGroup {payload : String} (hpayload : Scan.Closed payload.toList) :
    String.ofList (unwrapGroup ("(" ++ payload ++ ")").toList) = payload := by
  rw [toList_group, Scan.unwrapGroup_of_closed hpayload, String.ofList_toList]

theorem Shorthand.classify_repeatText (count payload : String) :
    classify (repeatText count payload) = none := by
  have htext : (repeatText count payload).toList =
      'r' :: ("epeat:".toList ++ (count.toList ++ ':' :: '(' :: (payload.toList ++ [')']))) := by
    rw [toList_repeatText]
    rfl
  exact classify_of_colon htext rfl (by decide) (by simp)

/-- **A repetition of a closed text is taken apart into the count and the group.** -/
theorem Expr.parse_repeatText {count payload : String}
    (hcount : ∀ c ∈ count.toList, c.isDigit = true) (hpayload : Scan.Closed payload.toList) :
    Expr.parse (repeatText count payload) =
      .ok ⟨repeatText count payload, "repeat", [count, "(" ++ payload ++ ")"], ⟨0, 6⟩⟩ := by
  have hpieces := (Scan.scan_repeatText hcount hpayload).2
  rw [parse, canonicalText, Shorthand.classify_repeatText]
  refine (split_of_ok hpieces).trans ?_
  rw [← toList_group]
  simp only [List.map_cons, List.map_nil, String.ofList_toList]
  rfl

end RandExpr
