import RandExpr.Proofs.Form.Build
import RandExpr.Proofs.Generator.Scripted

/-!
# Ranges of whole numbers

What the recipe of numbers makes of a text without a point.

## The model

A text joins two whole numbers (`NumberRange.Joins`) if it is each of them in digits, any number of
zeros and a `-` before them or not, with a `-` between. The recipe reads numbers that signed words
hold, so what is read is told by the words `low` and `high` whose numbers the text joins, if there
are any.

## What is proved

* `NumberRange.read_of_joins`, `NumberRange.read_of_not_joins` — what is read of a text that joins
  two such numbers, and of any other.
* `NumberRange.joins_display` — two numbers as they are shown, with a `-` between, are joined.
* `Recipe.number_reads_integers` — the recipe builds a source over exactly these two numbers if the
  first is not above the second, and says what is wrong with every other text.
-/

namespace RandExpr

namespace NumberRange

/-- The text is the two whole numbers in digits, with a `-` between. -/
def Joins (text : String) (a b : Int) : Prop :=
  ∃ lo hi, text.toList = lo ++ '-' :: hi ∧ IsInteger lo a ∧ IsInteger hi b

variable {text : String} {low high : Int64}

/-- **Two numbers that a text joins are the ends of its range**, unless the range is empty. -/
theorem read_of_joins (h : Joins text low.toInt high.toInt) :
    read text = if high < low then .error (.emptyRange text) else .ok (integers low high) := by
  obtain ⟨lo, hi, htext, hlo, hhi⟩ := h
  have hparts : numerals? text.toList = some (lo, hi) :=
    numerals?_eq_some_iff.2 ⟨hlo.isNumeral, hhi.isNumeral, htext⟩
  have hbetween : ofNumerals? lo hi = some (integers low high) :=
    ofNumerals?_eq_integers_iff.2 ⟨hlo, hhi⟩
  unfold read
  rw [hparts]
  simp only [Option.bind_some, hbetween, isEmpty, isTooWide, isTooPrecise, decide_eq_true_eq,
    Bool.false_eq_true, if_false]

theorem exists_integers_of_ofNumerals? {lo hi : List Char} {range : NumberRange}
    (hlo : '.' ∉ lo) (hhi : '.' ∉ hi) (h : ofNumerals? lo hi = some range) :
    ∃ low high, range = integers low high := by
  unfold ofNumerals? at h
  rw [if_neg (by simp [hlo, hhi])] at h
  split at h
  next low high _ _ => exact ⟨low, high, (Option.some.inj h).symm⟩
  next => cases h

/-- **A text without a point that joins no two numbers is no range**, be it that it is not in digits
or that a signed word does not hold one of the numbers. -/
theorem read_of_not_joins (hpoint : '.' ∉ text.toList)
    (h : ∀ low high : Int64, ¬Joins text low.toInt high.toInt) :
    read text = .error (.notNumericRange text) := by
  unfold read
  split
  next => rfl
  next range hrange =>
    obtain ⟨⟨lo, hi⟩, hparts, hbetween⟩ := Option.bind_eq_some_iff.1 hrange
    obtain ⟨-, -, htext⟩ := numerals?_eq_some_iff.1 hparts
    rw [htext, List.mem_append, not_or] at hpoint
    have hhi : '.' ∉ hi := fun hmem => hpoint.2 (List.mem_cons_of_mem _ hmem)
    obtain ⟨low, high, rfl⟩ := exists_integers_of_ofNumerals? hpoint.1 hhi hbetween
    obtain ⟨hlow, hhigh⟩ := ofNumerals?_eq_integers_iff.1 hbetween
    exact absurd ⟨lo, hi, htext, hlow, hhigh⟩ (h low high)

/-- A text without a point joins two numbers in order, or two others, or none; what is read of it
says which. -/
theorem read_cases (hpoint : '.' ∉ text.toList) :
    (∃ low high : Int64, Joins text low.toInt high.toInt ∧ low ≤ high ∧
        read text = .ok (integers low high)) ∨
      (∃ low high : Int64, Joins text low.toInt high.toInt ∧ high < low ∧
        read text = .error (.emptyRange text)) ∨
      (∀ low high : Int64, ¬Joins text low.toInt high.toInt) ∧
        read text = .error (.notNumericRange text) := by
  by_cases hjoins : ∃ low high : Int64, Joins text low.toInt high.toInt
  · obtain ⟨low, high, hjoins⟩ := hjoins
    have hread := read_of_joins hjoins
    by_cases hempty : high < low
    · rw [if_pos hempty] at hread
      exact .inr (.inl ⟨low, high, hjoins, hempty, hread⟩)
    · rw [if_neg hempty] at hread
      exact .inl ⟨low, high, hjoins, Int64.not_lt.1 hempty, hread⟩
  · have hnone : ∀ low high : Int64, ¬Joins text low.toInt high.toInt := fun low high h =>
      hjoins ⟨low, high, h⟩
    exact .inr (.inr ⟨hnone, read_of_not_joins hpoint hnone⟩)

/-! ### Numbers as they are shown -/

theorem isInteger_intText (n : Int) : IsInteger (intText n) n := by
  cases n with
  | ofNat k =>
    refine ⟨Nat.toDigits 10 k, Nat.toDigits_ne_nil, isDigit_of_mem_toDigits, .inl ⟨rfl, ?_⟩⟩
    rw [digitsValue_toDigits]
    rfl
  | negSucc k =>
    refine ⟨Nat.toDigits 10 (k + 1), Nat.toDigits_ne_nil, isDigit_of_mem_toDigits, .inr ⟨rfl, ?_⟩⟩
    rw [digitsValue_toDigits]
    rfl

/-- **Two numbers as they are shown, with a `-` between, are joined.** -/
theorem joins_display (low high : Int64) :
    Joins ((Value.integer low).display ++ "-" ++ (Value.integer high).display) low.toInt
      high.toInt := by
  refine ⟨intText low.toInt, intText high.toInt, ?_, isInteger_intText _, isInteger_intText _⟩
  simp [Value.display, String.toList_append]

end NumberRange

namespace Recipe

open NumberRange (Joins)

variable {W : Type} [Host W]
variable {setting : Setting} {text : String} {build : String → W → Except Fault (Generator W) × W}
  {w : W}

theorem run_number_of_ok {range : NumberRange} (h : NumberRange.read text = .ok range) :
    ∃ words w', (number setting [text]).run build w = (.ok (numbers words range), w') := by
  obtain ⟨stream, w', -, hrun⟩ :=
    run_withWords setting.options (fun words => numbers words range) build w
  refine ⟨{ stream }, w', ?_⟩
  rw [number_eq_ranged, ranged]
  simp only [Setting.arg, List.getElem?_cons_zero, Plan.ofExcept, h]
  exact hrun

theorem run_number_of_error {reason : Refusal} (h : NumberRange.read text = .error reason) :
    (number setting [text]).run build w = (.error (.refused setting.kind reason), w) := by
  rw [number_eq_ranged, ranged]
  simp only [Setting.arg, List.getElem?_cons_zero, Plan.ofExcept, h]
  rfl

theorem exists_run_number_iff : (∃ S w', (number setting [text]).run build w = (.ok S, w')) ↔
    ∃ range, NumberRange.read text = .ok range := by
  constructor
  · rintro ⟨S, w', hrun⟩
    cases hread : NumberRange.read text with
    | ok range => exact ⟨range, rfl⟩
    | error reason =>
      rw [run_number_of_error (W := W) hread] at hrun
      cases hrun
  · rintro ⟨range, hread⟩
    obtain ⟨words, w', hrun⟩ := run_number_of_ok (W := W) hread
    exact ⟨_, w', hrun⟩

theorem run_number_eq_refused_iff {reason : Refusal} :
    (number setting [text]).run build w = (.error (.refused setting.kind reason), w) ↔
      NumberRange.read text = .error reason := by
  constructor
  · intro hrun
    cases hread : NumberRange.read text with
    | ok range =>
      obtain ⟨words, w', hok⟩ := run_number_of_ok (W := W) hread
      rw [hrun] at hok
      cases hok
    | error reason' =>
      rw [run_number_of_error (W := W) hread] at hrun
      obtain rfl : reason' = reason := by simpa using hrun
      rfl
  · exact run_number_of_error

/-- **Ranges of whole numbers are read exactly.** Of a text without a point the recipe of numbers
builds a source if and only if the text joins two whole numbers that signed words hold, the first
not above the second, and then the source draws from the first to the second. It finds the range
empty if and only if the first is above the second, and no range in every other case, and then it
does nothing to the surroundings. Two numbers as they are shown, with a `-` between, are read as
these two. -/
theorem number_reads_integers (setting : Setting)
    (build : String → W → Except Fault (Generator W) × W) (w : W) :
    (∀ text : String, '.' ∉ text.toList →
      ((∃ S w', (number setting [text]).run build w = (.ok S, w')) ↔
        ∃ low high : Int64, Joins text low.toInt high.toInt ∧ low ≤ high) ∧
      (∀ low high : Int64, Joins text low.toInt high.toInt → low ≤ high → ∃ words w',
        (number setting [text]).run build w = (.ok (numbers words (.integers low high)), w')) ∧
      ((number setting [text]).run build w =
          (.error (.refused setting.kind (.emptyRange text)), w) ↔
        ∃ low high : Int64, Joins text low.toInt high.toInt ∧ high < low) ∧
      ((number setting [text]).run build w =
          (.error (.refused setting.kind (.notNumericRange text)), w) ↔
        ∀ low high : Int64, ¬Joins text low.toInt high.toInt)) ∧
    ∀ low high : Int64, low ≤ high → ∃ words w',
      (number setting [(Value.integer low).display ++ "-" ++ (Value.integer high).display]).run
        build w = (.ok (numbers words (.integers low high)), w') := by
  have hordered {text : String} {low high : Int64} (hjoins : Joins text low.toInt high.toInt)
      (hle : low ≤ high) : NumberRange.read text = .ok (.integers low high) := by
    rw [NumberRange.read_of_joins hjoins, if_neg (Int64.not_lt.2 hle)]
  refine ⟨fun text hpoint => ⟨?_, fun low high hjoins hle => run_number_of_ok (hordered hjoins hle),
    ?_, ?_⟩, fun low high hle => run_number_of_ok (hordered (NumberRange.joins_display ..) hle)⟩
  · rw [exists_run_number_iff]
    constructor
    · rintro ⟨range, hread⟩
      rcases NumberRange.read_cases hpoint with ⟨low, high, hjoins, hle, -⟩ | ⟨_, _, -, -, herror⟩ |
        ⟨-, herror⟩
      · exact ⟨low, high, hjoins, hle⟩
      · cases hread.symm.trans herror
      · cases hread.symm.trans herror
    · rintro ⟨low, high, hjoins, hle⟩
      exact ⟨_, hordered hjoins hle⟩
  · rw [run_number_eq_refused_iff]
    constructor
    · intro hread
      rcases NumberRange.read_cases hpoint with ⟨_, _, -, -, hok⟩ | ⟨low, high, hjoins, hlt, -⟩ |
        ⟨-, herror⟩
      · cases hread.symm.trans hok
      · exact ⟨low, high, hjoins, hlt⟩
      · cases hread.symm.trans herror
    · rintro ⟨low, high, hjoins, hlt⟩
      rw [NumberRange.read_of_joins hjoins, if_pos hlt]
  · rw [run_number_eq_refused_iff]
    constructor
    · intro hread
      rcases NumberRange.read_cases hpoint with ⟨_, _, -, -, hok⟩ | ⟨_, _, -, -, herror⟩ |
        ⟨hnone, -⟩
      · cases hread.symm.trans hok
      · cases hread.symm.trans herror
      · exact hnone
    · exact NumberRange.read_of_not_joins hpoint

/-- Two numbers below zero, the first with zeros before it; the same two the other way round; and a
number that a signed word does not hold, though it holds the number below zero. -/
theorem number_reads_integers_signed :
    let setting : Setting := ⟨"number", {}, [], 0⟩
    let build : String → Diary → Except Fault (Generator Diary) × Diary := fun _ w =>
      (.error (.notYet "nothing"), w)
    (∃ words w', (number setting ["-007--5"]).run build ⟨[]⟩ =
        (.ok (numbers words (.integers (-7) (-5))), w')) ∧
      (number setting ["-5--7"]).run build ⟨[]⟩ =
        (.error (.refused "number" (.emptyRange "-5--7")), ⟨[]⟩) ∧
      (number setting ["5-9223372036854775808"]).run build ⟨[]⟩ =
        (.error (.refused "number" (.notNumericRange "5-9223372036854775808")), ⟨[]⟩) := by
  intro setting build
  have hreads := (number_reads_integers setting build ⟨[]⟩).1
  have hlow : NumberRange.IsInteger "-007".toList (-7) :=
    ⟨"007".toList, by simp, by simp, .inr ⟨rfl, rfl⟩⟩
  have hhigh : NumberRange.IsInteger "-5".toList (-5) :=
    ⟨"5".toList, by simp, by simp, .inr ⟨rfl, rfl⟩⟩
  have hread : NumberRange.read "5-9223372036854775808" =
      .error (.notNumericRange "5-9223372036854775808") := by rfl
  have hnone (low high : Int64) : ¬Joins "5-9223372036854775808" low.toInt high.toInt := by
    intro hjoins
    have hjoined := NumberRange.read_of_joins hjoins
    rw [hread] at hjoined
    split at hjoined
    next => simp at hjoined
    next => cases hjoined
  refine ⟨?_, ?_, ?_⟩
  · exact (hreads "-007--5" (by decide)).2.1 (-7) (-5) ⟨_, _, rfl, hlow, hhigh⟩ (by decide)
  · refine (hreads "-5--7" (by decide)).2.2.1.2 ⟨-5, -7, ⟨_, _, rfl, hhigh, ?_⟩, by decide⟩
    exact ⟨"7".toList, by simp, by simp, .inr ⟨rfl, rfl⟩⟩
  · exact (hreads "5-9223372036854775808" (by decide)).2.2.2.2 hnone

end Recipe

end RandExpr
