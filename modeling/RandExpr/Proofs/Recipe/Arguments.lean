import RandExpr.Recipe.Range
import RandExpr.Recipe.Repeat
import Mathlib.Data.List.TakeWhile

/-!
# Arguments

Which texts are read as ranges and as counts.

## The model

What a text has to look like is said apart from the readers, by the parts that it is put together of
(`IsNumeral`, `IsInteger`, `IsCount`).

## What is proved

* `numerals?_eq_some_iff` — a text is taken for two numerals exactly if it joins them with `-`, and
  so it does in one way at most.
* `read_eq_integers_iff` — a text is read as a range of whole numbers exactly if it joins two whole
  numbers in digits that signed words hold, the lower one first.
* `CharRange.read_eq_ok_iff` — and as a range of characters exactly if it joins two characters so.
* `readCount_eq_ok_iff` — a text is read as a count exactly if it is one in digits, with blanks
  around and a `+` before them allowed, and not too great.
-/

namespace RandExpr

theorem digitsValue_toDigits (n : Nat) : Decimal.digitsValue (Nat.toDigits 10 n) = n :=
  Nat.ofDigitChars_ten_toDigits

theorem isDigit_of_mem_toDigits {n : Nat} : ∀ c ∈ Nat.toDigits 10 n, c.isDigit = true :=
  fun _ hc => Nat.isDigit_of_mem_toDigits (by decide) (by decide) hc

theorem ne_cons_of_forall {p : Char → Bool} {sign : Char} (hsign : p sign = false)
    {cs : List Char} (h : ∀ c ∈ cs, p c = true) (rest : List Char) : cs ≠ sign :: rest := by
  rintro rfl
  simpa [hsign] using h sign List.mem_cons_self

namespace NumberRange

/-- Digits and points, at least one, with a `-` before them or not. -/
def IsNumeral (cs : List Char) : Prop :=
  ∃ digits, digits ≠ [] ∧ (∀ c ∈ digits, isNumeral c = true) ∧ (cs = digits ∨ cs = '-' :: digits)

/-- Digits, at least one, with a `-` before them or not, of a whole number. -/
def IsInteger (cs : List Char) (n : Int) : Prop :=
  ∃ digits, digits ≠ [] ∧ (∀ c ∈ digits, c.isDigit = true) ∧
    (cs = digits ∧ n = Decimal.digitsValue digits ∨
      cs = '-' :: digits ∧ n = -(Decimal.digitsValue digits : Int))

/-! ### Two numerals -/

theorem takeNumeral?_minus (cs : List Char) :
    takeNumeral? ('-' :: cs) =
      match cs.takeWhile isNumeral with
      | [] => none
      | digits => some ('-' :: digits, cs.dropWhile isNumeral) := rfl

theorem takeNumeral?_of_ne {cs : List Char} (h : ∀ rest, cs ≠ '-' :: rest) :
    takeNumeral? cs =
      match cs.takeWhile isNumeral with
      | [] => none
      | digits => some (digits, cs.dropWhile isNumeral) := by
  simp only [takeNumeral?]
  rfl

theorem takeNumeral?_append {numeral rest : List Char} (h : IsNumeral numeral)
    (hrest : ∀ c ∈ rest.head?, isNumeral c = false) :
    takeNumeral? (numeral ++ rest) = some (numeral, rest) := by
  obtain ⟨digits, hne, hdigits, hnumeral⟩ := h
  have htake : (digits ++ rest).takeWhile isNumeral = digits := by
    rw [List.takeWhile_append_of_pos hdigits]
    cases rest with
    | nil => simp
    | cons c rest => simp [hrest c rfl]
  have hdrop : (digits ++ rest).dropWhile isNumeral = rest := by
    rw [List.dropWhile_append_of_pos hdigits]
    cases rest with
    | nil => rfl
    | cons c rest => simp [hrest c rfl]
  obtain ⟨c, ds, rfl⟩ := List.exists_cons_of_ne_nil hne
  rcases hnumeral with rfl | rfl
  · have hminus : ∀ more, c :: ds ++ rest ≠ '-' :: more := by
      rintro more heq
      exact ne_cons_of_forall rfl hdigits ds (by rw [(List.cons.inj heq).1])
    rw [takeNumeral?_of_ne hminus, htake, hdrop]
  · rw [List.cons_append, takeNumeral?_minus, htake, hdrop]

theorem of_takeNumeral? {cs numeral rest : List Char} (h : takeNumeral? cs = some (numeral, rest)) :
    IsNumeral numeral ∧ cs = numeral ++ rest := by
  have hspan (ds : List Char) : ds = ds.takeWhile isNumeral ++ ds.dropWhile isNumeral :=
    List.takeWhile_append_dropWhile.symm
  have hall (ds : List Char) : ∀ c ∈ ds.takeWhile isNumeral, isNumeral c = true :=
    fun c hc => List.mem_takeWhile_imp hc
  by_cases hminus : ∃ ds, cs = '-' :: ds
  · obtain ⟨ds, rfl⟩ := hminus
    rw [takeNumeral?_minus] at h
    split at h
    next => simp at h
    next hne =>
      obtain ⟨rfl, rfl⟩ : '-' :: ds.takeWhile isNumeral = numeral ∧
          ds.dropWhile isNumeral = rest := by simpa using h
      refine ⟨⟨ds.takeWhile isNumeral, hne, hall ds, .inr rfl⟩, ?_⟩
      rw [List.cons_append, ← hspan]
  · rw [takeNumeral?_of_ne (not_exists.1 hminus)] at h
    split at h
    next => simp at h
    next hne =>
      obtain ⟨rfl, rfl⟩ : cs.takeWhile isNumeral = numeral ∧
          cs.dropWhile isNumeral = rest := by simpa using h
      exact ⟨⟨cs.takeWhile isNumeral, hne, hall cs, .inl rfl⟩, hspan cs⟩

/-- **A text is taken for two numerals exactly if it joins them with `-`.** -/
theorem numerals?_eq_some_iff {cs low high : List Char} :
    numerals? cs = some (low, high) ↔ IsNumeral low ∧ IsNumeral high ∧ cs = low ++ '-' :: high := by
  constructor
  · intro h
    rw [numerals?] at h
    split at h
    next low' rest hlow =>
      split at h
      next high' hhigh =>
        obtain ⟨rfl, rfl⟩ : low' = low ∧ high' = high := by simpa using h
        obtain ⟨hlow', rfl⟩ := of_takeNumeral? hlow
        obtain ⟨hhigh', rfl⟩ := of_takeNumeral? hhigh
        exact ⟨hlow', hhigh', by simp⟩
      next => simp at h
    next => simp at h
  · rintro ⟨hlow, hhigh, rfl⟩
    have hrest : takeNumeral? (high ++ []) = some (high, []) := takeNumeral?_append hhigh (by simp)
    have hminus : takeNumeral? (low ++ '-' :: high) = some (low, '-' :: high) := by
      refine takeNumeral?_append hlow fun c hc => ?_
      obtain rfl : '-' = c := by simpa using hc
      rfl
    rw [List.append_nil] at hrest
    rw [numerals?, hminus]
    simp only [hrest]

/-! ### Whole numbers -/

theorem IsInteger.isNumeral {cs : List Char} {n : Int} (h : IsInteger cs n) : IsNumeral cs := by
  obtain ⟨digits, hne, hdigits, hcs⟩ := h
  refine ⟨digits, hne, fun c hc => ?_, hcs.imp And.left And.left⟩
  rw [RandExpr.isNumeral, hdigits c hc]
  rfl

theorem IsInteger.contains_point {cs : List Char} {n : Int} (h : IsInteger cs n) :
    cs.contains '.' = false := by
  obtain ⟨digits, -, hdigits, hcs⟩ := h
  have hpoint : '.' ∉ digits := fun hmem => absurd (hdigits '.' hmem) (by decide)
  rw [List.contains_eq_mem, decide_eq_false_iff_not]
  rcases hcs with ⟨rfl, -⟩ | ⟨rfl, -⟩
  · exact hpoint
  · simpa using hpoint

theorem ofInt_eq_some_iff {k : Int} {n : Int64} :
    (if -0x8000_0000_0000_0000 ≤ k ∧ k < 0x8000_0000_0000_0000 then some (Int64.ofInt k)
      else none) = some n ↔ n.toInt = k := by
  rw [Option.ite_none_right_eq_some, Option.some.injEq]
  constructor
  · rintro ⟨⟨hleast, hgreatest⟩, rfl⟩
    exact Int64.toInt_ofInt_of_le hleast hgreatest
  · rintro rfl
    exact ⟨⟨n.le_toInt, n.toInt_lt⟩, n.ofInt_toInt⟩

theorem integer?_minus (ds : List Char) :
    integer? ('-' :: ds) =
      if ds ≠ [] ∧ ds.all Char.isDigit then
        if -0x8000_0000_0000_0000 ≤ -(Decimal.digitsValue ds : Int) ∧
            -(Decimal.digitsValue ds : Int) < 0x8000_0000_0000_0000 then
          some (Int64.ofInt (-(Decimal.digitsValue ds : Int)))
        else none
      else none := rfl

theorem integer?_of_ne {ds : List Char} (h : ∀ rest, ds ≠ '-' :: rest) :
    integer? ds =
      if ds ≠ [] ∧ ds.all Char.isDigit then
        if -0x8000_0000_0000_0000 ≤ (Decimal.digitsValue ds : Int) ∧
            (Decimal.digitsValue ds : Int) < 0x8000_0000_0000_0000 then
          some (Int64.ofInt (Decimal.digitsValue ds))
        else none
      else none := by
  simp only [integer?]
  rfl

/-- **A numeral stands for a whole number exactly if it is that number in digits.** Any number of
zeros may stand before them. -/
theorem integer?_eq_some_iff {cs : List Char} {n : Int64} :
    integer? cs = some n ↔ IsInteger cs n.toInt := by
  by_cases hminus : ∃ ds, cs = '-' :: ds
  · obtain ⟨ds, rfl⟩ := hminus
    rw [integer?_minus, Option.ite_none_right_eq_some, ofInt_eq_some_iff, List.all_eq_true]
    constructor
    · rintro ⟨⟨hne, hdigits⟩, hn⟩
      exact ⟨ds, hne, hdigits, .inr ⟨rfl, hn⟩⟩
    · rintro ⟨digits, hne, hdigits, ⟨rfl, -⟩ | ⟨hds, hn⟩⟩
      · exact absurd rfl (ne_cons_of_forall rfl hdigits ds)
      · obtain rfl : ds = digits := by simpa using hds
        exact ⟨⟨hne, hdigits⟩, hn⟩
  · rw [integer?_of_ne (not_exists.1 hminus), Option.ite_none_right_eq_some, ofInt_eq_some_iff,
      List.all_eq_true]
    constructor
    · rintro ⟨⟨hne, hdigits⟩, hn⟩
      exact ⟨cs, hne, hdigits, .inl ⟨rfl, hn⟩⟩
    · rintro ⟨digits, hne, hdigits, ⟨rfl, hn⟩ | ⟨rfl, -⟩⟩
      · exact ⟨⟨hne, hdigits⟩, hn⟩
      · exact absurd ⟨digits, rfl⟩ hminus

/-! ### Ranges -/

/-- **A range is read from a text exactly if the text joins two numerals of it**, and it is neither
empty nor too wide nor too precise. -/
theorem read_eq_ok_iff {text : String} {range : NumberRange} :
    read text = .ok range ↔
      (∃ lo hi, IsNumeral lo ∧ IsNumeral hi ∧ text.toList = lo ++ '-' :: hi ∧
        ofNumerals? lo hi = some range) ∧
      range.isEmpty = false ∧ range.isTooWide = false ∧ range.isTooPrecise = false := by
  have hparts : (∃ lo hi, IsNumeral lo ∧ IsNumeral hi ∧ text.toList = lo ++ '-' :: hi ∧
      ofNumerals? lo hi = some range) ↔
        ∃ p, numerals? text.toList = some p ∧ ofNumerals? p.1 p.2 = some range := by
    simp only [Prod.exists, numerals?_eq_some_iff, and_assoc]
  rw [hparts, read]
  cases numerals? text.toList with
  | none => simp
  | some p =>
    simp only [Option.bind_some, Option.some.injEq, exists_eq_left']
    cases ofNumerals? p.1 p.2 with
    | none => simp
    | some r =>
      simp only [Option.some.injEq]
      constructor
      · intro h
        split_ifs at h with hempty hwide hprecise
        obtain rfl : r = range := by simpa using h
        simp_all
      · rintro ⟨rfl, hempty, hwide, hprecise⟩
        simp [hempty, hwide, hprecise]

/-- Two numerals are the ends of a range of whole numbers exactly if both are whole numbers in
digits that signed words hold. -/
theorem ofNumerals?_eq_integers_iff {lo hi : List Char} {low high : Int64} :
    ofNumerals? lo hi = some (integers low high) ↔
      IsInteger lo low.toInt ∧ IsInteger hi high.toInt := by
  rw [← integer?_eq_some_iff, ← integer?_eq_some_iff]
  constructor
  · intro h
    unfold ofNumerals? at h
    split at h <;> split at h <;> simp_all
  · rintro ⟨hlo, hhi⟩
    rw [ofNumerals?, (integer?_eq_some_iff.1 hlo).contains_point,
      (integer?_eq_some_iff.1 hhi).contains_point, hlo, hhi]
    rfl

/-- **A range of whole numbers is read from a text exactly if the text joins two whole numbers in
digits**, the lower one first. -/
theorem read_eq_integers_iff {text : String} {low high : Int64} :
    read text = .ok (integers low high) ↔
      ∃ lo hi, text.toList = lo ++ '-' :: hi ∧ IsInteger lo low.toInt ∧ IsInteger hi high.toInt ∧
        low ≤ high := by
  rw [read_eq_ok_iff]
  constructor
  · rintro ⟨⟨lo, hi, -, -, htext, hbetween⟩, hempty, -, -⟩
    obtain ⟨hlo, hhi⟩ := ofNumerals?_eq_integers_iff.1 hbetween
    exact ⟨lo, hi, htext, hlo, hhi, by simpa [isEmpty] using hempty⟩
  · rintro ⟨lo, hi, htext, hlo, hhi, hle⟩
    have hbetween := ofNumerals?_eq_integers_iff.2 ⟨hlo, hhi⟩
    exact ⟨⟨lo, hi, hlo.isNumeral, hhi.isNumeral, htext, hbetween⟩, by simpa [isEmpty] using hle,
      rfl, rfl⟩

end NumberRange

/-- **A range of characters is read from a text exactly if the text joins two characters**, the
lower one first. -/
theorem CharRange.read_eq_ok_iff {text : String} {range : CharRange} :
    CharRange.read text = .ok range ↔
      text.toList = [range.low, '-', range.high] ∧ range.low ≤ range.high := by
  constructor
  · intro h
    rw [CharRange.read] at h
    split at h
    next low high htext =>
      split_ifs at h with hempty
      obtain rfl : ⟨low, high⟩ = range := by simpa using h
      exact ⟨htext, Char.not_lt.1 hempty⟩
    next => simp at h
  · rintro ⟨htext, hle⟩
    rw [CharRange.read, htext]
    exact if_neg (Char.not_lt.2 hle)

/-! ### Counts -/

namespace Recipe

/-- Digits, at least one, of a count that is not too great, with a `+` before them or not and blanks
around. -/
def IsCount (text : String) (count : Nat) : Prop :=
  ∃ digits, digits ≠ [] ∧ (∀ c ∈ digits, c.isDigit = true) ∧
    (Text.trimBlank text.toList = digits ∨ Text.trimBlank text.toList = '+' :: digits) ∧
    count = Decimal.digitsValue digits ∧ count ≤ maxRepeat

theorem count?_of_plus {text : String} {ds : List Char}
    (h : Text.trimBlank text.toList = '+' :: ds) :
    count? text =
      if ds ≠ [] ∧ ds.all Char.isDigit then
        if Decimal.digitsValue ds < 0x1_0000_0000_0000_0000 then some (Decimal.digitsValue ds)
        else none
      else none := by
  rw [count?, h]
  rfl

theorem count?_of_ne {text : String} (h : ∀ ds, Text.trimBlank text.toList ≠ '+' :: ds) :
    count? text =
      if Text.trimBlank text.toList ≠ [] ∧ (Text.trimBlank text.toList).all Char.isDigit then
        if Decimal.digitsValue (Text.trimBlank text.toList) < 0x1_0000_0000_0000_0000 then
          some (Decimal.digitsValue (Text.trimBlank text.toList))
        else none
      else none := by
  simp only [count?]

theorem count?_eq_some_iff {text : String} {count : Nat} :
    count? text = some count ↔
      ∃ digits, digits ≠ [] ∧ (∀ c ∈ digits, c.isDigit = true) ∧
        (Text.trimBlank text.toList = digits ∨ Text.trimBlank text.toList = '+' :: digits) ∧
        count = Decimal.digitsValue digits ∧ count < 0x1_0000_0000_0000_0000 := by
  have hdigits (ds : List Char) :
      (if ds ≠ [] ∧ ds.all Char.isDigit then
        if Decimal.digitsValue ds < 0x1_0000_0000_0000_0000 then some (Decimal.digitsValue ds)
        else none
      else none) = some count ↔
        ds ≠ [] ∧ (∀ c ∈ ds, c.isDigit = true) ∧ count = Decimal.digitsValue ds ∧
          count < 0x1_0000_0000_0000_0000 := by
    simp only [Option.ite_none_right_eq_some, Option.some.injEq, List.all_eq_true]
    constructor
    · rintro ⟨⟨hne, hds⟩, hlt, rfl⟩
      exact ⟨hne, hds, rfl, hlt⟩
    · rintro ⟨hne, hds, rfl, hlt⟩
      exact ⟨⟨hne, hds⟩, hlt, rfl⟩
  by_cases hplus : ∃ ds, Text.trimBlank text.toList = '+' :: ds
  · obtain ⟨ds, hplus⟩ := hplus
    rw [count?_of_plus hplus, hdigits]
    constructor
    · rintro ⟨hne, hds, hcount⟩
      exact ⟨ds, hne, hds, .inr hplus, hcount⟩
    · rintro ⟨digits, hne, hds, htext | htext, hcount⟩
      · exact absurd (htext.symm.trans hplus) (ne_cons_of_forall rfl hds ds)
      · obtain rfl : ds = digits := by simpa [hplus] using htext
        exact ⟨hne, hds, hcount⟩
  · rw [count?_of_ne (not_exists.1 hplus), hdigits]
    constructor
    · rintro ⟨hne, hds, hcount⟩
      exact ⟨_, hne, hds, .inl rfl, hcount⟩
    · rintro ⟨digits, hne, hds, rfl | htext, hcount⟩
      · exact ⟨hne, hds, hcount⟩
      · exact absurd ⟨digits, htext⟩ hplus

/-- **A count is read from a text exactly if the text gives it in digits.** -/
theorem readCount_eq_ok_iff {text : String} {count : Nat} :
    readCount text = .ok count ↔ IsCount text count := by
  have hmax : maxRepeat < 0x1_0000_0000_0000_0000 := by decide
  have hread : readCount text = .ok count ↔ count? text = some count ∧ count ≤ maxRepeat := by
    rw [readCount]
    cases count? text with
    | none => simp
    | some n =>
      simp only [Option.some.injEq]
      constructor
      · intro h
        split_ifs at h with hle
        obtain rfl : n = count := by simpa using h
        exact ⟨rfl, hle⟩
      · rintro ⟨rfl, hle⟩
        exact if_pos hle
  rw [hread, count?_eq_some_iff]
  constructor
  · rintro ⟨⟨digits, hne, hdigits, htext, hcount, -⟩, hle⟩
    exact ⟨digits, hne, hdigits, htext, hcount, hle⟩
  · rintro ⟨digits, hne, hdigits, htext, hcount, hle⟩
    exact ⟨⟨digits, hne, hdigits, htext, hcount, by omega⟩, hle⟩

end Recipe

end RandExpr
