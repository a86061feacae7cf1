import RandExpr.Proofs.Form.Language
import RandExpr.Proofs.Recipe.Integers

/-!
# Ranges that are drawn from

Which ranges of numbers the recipe of numbers accepts, and when a draw from one of them breaks off.

## The model

What two numerals stand for (`NumberRange.Ends`) is told by the numerals alone: two whole numbers
that signed words hold, or two floats and the number of decimal places, which is the greater of the
numbers of characters behind the first points (`NumberRange.Places`), each counted modulo `2 ^ 32`.
A range is accepted if it is `NumberRange.Sound`; what a draw relies on is that it is
`NumberRange.Ready`.

## What is proved

* `Random.Real.isFinite_of_isFinite_sub`, `Random.Real.le_of_not_lt` — floats whose difference is
  finite are finite, and of two finite floats one is at most the other.
* `NumberRange.read_eq_ok_iff_sound` — a text is read as a range exactly if it joins two numerals
  that stand for it and it is sound.
* `NumberRange.Sound.ready` — a draw finds in every range that is accepted what it relies on.
* `Recipe.number_accepts_sound` — the recipe builds a source over the sound ranges and refuses all
  other texts; a draw breaks off exactly if no float holds what its fractions are scaled by.
* `Recipe.number_accepts_unsound` — there is such a range, though its ends are finitely far apart;
  and there is one with more decimal places than a range may have.
-/

namespace RandExpr

/-! ### Finite differences -/

namespace Random.Real

open Float.Model (UnpackedFloat)

theorem not_isFinite_notANumber : ¬(Float.Model.pack .notANumber).unpack.isFinite = true := by
  decide +kernel

theorem not_isFinite_infinity (s : UnpackedFloat.Sign) :
    ¬(Float.Model.pack (.infinity s)).unpack.isFinite = true := by
  cases s <;> decide +kernel

theorem isFinite_of_isFinite_sub {x y : Float} (h : (x - y).isFinite = true) :
    x.isFinite = true ∧ y.isFinite = true := by
  have hsub : (Float.Model.pack (UnpackedFloat.sub .binary64 x.toModel.unpack
      y.toModel.unpack)).unpack.isFinite = true := h
  show x.toModel.unpack.isFinite = true ∧ y.toModel.unpack.isFinite = true
  generalize x.toModel.unpack = a at hsub ⊢
  generalize y.toModel.unpack = b at hsub ⊢
  cases a with
  | notANumber => exact absurd hsub not_isFinite_notANumber
  | infinity s =>
    cases b with
    | notANumber => exact absurd hsub not_isFinite_notANumber
    | infinity t =>
      cases s with
      | positive =>
        cases t with
        | positive => exact absurd hsub not_isFinite_notANumber
        | negative => exact absurd hsub (not_isFinite_infinity .positive)
      | negative =>
        cases t with
        | positive => exact absurd hsub (not_isFinite_infinity .negative)
        | negative => exact absurd hsub not_isFinite_notANumber
    | zero | finite => exact absurd hsub (not_isFinite_infinity s)
  | zero s | finite s =>
    cases b with
    | notANumber => exact absurd hsub not_isFinite_notANumber
    | infinity t => exact absurd hsub (not_isFinite_infinity (-t))
    | zero | finite => exact ⟨rfl, rfl⟩

/-- Compared the other way round, two floats stand the other way round. -/
theorem swap_compare (a b : UnpackedFloat) : (a.compare b).map Ordering.swap = b.compare a := by
  have hmagnitude (e k : Int) (m n : Nat) : ((compare e k).then (compare m n)).swap =
      (compare k e).then (compare n m) := by
    rw [Ordering.swap_then, ← Std.OrientedOrd.eq_swap, ← Std.OrientedOrd.eq_swap]
  cases a with
  | finite s m e hm =>
    cases b with
    | finite t n k hn =>
      cases s with
      | positive =>
        cases t with
        | positive => exact congrArg some (hmagnitude e k m n)
        | negative => rfl
      | negative =>
        cases t with
        | positive => rfl
        | negative => exact congrArg (fun o => some o.swap) (hmagnitude e k m n)
    | infinity t => cases s <;> cases t <;> rfl
    | zero t => cases s <;> rfl
    | notANumber => rfl
  | zero s =>
    cases b with
    | finite t n k hn => cases t <;> rfl
    | infinity t => cases t <;> rfl
    | zero | notANumber => rfl
  | infinity s =>
    cases b with
    | finite t n k hn => cases s <;> cases t <;> rfl
    | infinity t => cases s <;> cases t <;> rfl
    | zero t => cases s <;> rfl
    | notANumber => rfl
  | notANumber => cases b <;> rfl

theorem exists_compare {a b : UnpackedFloat} (ha : a.isFinite = true) (hb : b.isFinite = true) :
    ∃ o, a.compare b = some o := by
  cases a with
  | notANumber | infinity s => cases ha
  | zero s =>
    cases b with
    | notANumber | infinity t => cases hb
    | zero t => exact ⟨_, rfl⟩
    | finite t n k hn => cases t <;> exact ⟨_, rfl⟩
  | finite s m e hm =>
    cases b with
    | notANumber | infinity t => cases hb
    | zero t => cases s <;> exact ⟨_, rfl⟩
    | finite t n k hn => cases s <;> cases t <;> exact ⟨_, rfl⟩

theorem le_of_not_lt {x y : Float} (hx : x.isFinite = true) (hy : y.isFinite = true)
    (h : ¬y < x) : x ≤ y := by
  obtain ⟨o, ho⟩ : ∃ o, x.toModel.unpack.compare y.toModel.unpack = some o := exists_compare hx hy
  have hswap : y.toModel.unpack.compare x.toModel.unpack = some o.swap := by
    rw [← swap_compare, ho]
    rfl
  have hlt : ¬(y.toModel.unpack.compare x.toModel.unpack == some .lt) = true := fun hlt =>
    h (decide_eq_true hlt)
  have hle : (x.toModel.unpack.compare y.toModel.unpack).any (·.isLE) = true := by
    rw [hswap] at hlt
    rw [ho]
    cases o with
    | gt => exact absurd rfl hlt
    | lt | eq => rfl
  exact decide_eq_true hle

end Random.Real

namespace NumberRange

/-! ### What two numerals stand for -/

/-- How many characters stand behind the first point of a numeral. -/
inductive Places : List Char → Nat → Prop where
  /-- There is no point. -/
  | whole {cs : List Char} (h : '.' ∉ cs) : Places cs 0
  /-- There is one. -/
  | point {cs fraction : List Char} (h : '.' ∉ cs) : Places (cs ++ '.' :: fraction) fraction.length

/-- The range that two numerals stand for, be there anything in it or not. -/
inductive Ends (lo hi : List Char) : NumberRange → Prop where
  /-- Two whole numbers. -/
  | integers {low high : Int64} (hlow : IsInteger lo low.toInt) (hhigh : IsInteger hi high.toInt) :
      Ends lo hi (.integers low high)
  /-- Two floats, at least one of them with a point. -/
  | decimals {low high : Float} {m n : Nat} (hpoint : '.' ∈ lo ∨ '.' ∈ hi)
      (hlow : Decimal.read? lo = some low) (hhigh : Decimal.read? hi = some high)
      (hm : Places lo m) (hn : Places hi n) :
      Ends lo hi (.decimals low high (max (m % 2 ^ 32) (n % 2 ^ 32)))

theorem Places.placesOf_eq {cs : List Char} {n : Nat} (h : Places cs n) :
    placesOf cs = n % 2 ^ 32 := by
  have hother {cs : List Char} (h : '.' ∉ cs) : ∀ c ∈ cs, (c != '.') = true := by
    intro c hc
    rw [bne_iff_ne]
    rintro rfl
    exact h hc
  cases h with
  | whole h =>
    have hdrop : cs.dropWhile (· != '.') = [] := List.dropWhile_eq_nil_iff.2 (hother h)
    rw [placesOf, hdrop]
    rfl
  | @point whole fraction h =>
    have hdrop : (whole ++ '.' :: fraction).dropWhile (· != '.') = '.' :: fraction := by
      rw [List.dropWhile_append_of_pos (hother h)]
      rfl
    rw [placesOf, hdrop]
    rfl

theorem exists_places (cs : List Char) : ∃ n, Places cs n := by
  by_cases h : '.' ∈ cs
  · obtain ⟨whole, fraction, rfl, hwhole⟩ := List.eq_append_cons_of_mem h
    exact ⟨_, .point hwhole⟩
  · exact ⟨0, .whole h⟩

/-- **What two numerals are read as is what they stand for.** -/
theorem ofNumerals?_eq_some_iff {lo hi : List Char} {range : NumberRange} :
    ofNumerals? lo hi = some range ↔ Ends lo hi range := by
  by_cases hpoint : '.' ∈ lo ∨ '.' ∈ hi
  · have hcontains : lo.contains '.' = true ∨ hi.contains '.' = true := by simpa using hpoint
    rw [ofNumerals?, if_pos hcontains]
    obtain ⟨m, hm⟩ := exists_places lo
    obtain ⟨n, hn⟩ := exists_places hi
    constructor
    · intro h
      split at h
      next low high hlow hhigh =>
        obtain rfl := Option.some.inj h
        rw [hm.placesOf_eq, hn.placesOf_eq]
        exact .decimals hpoint hlow hhigh hm hn
      next => cases h
    · rintro (⟨hlow, hhigh⟩ | ⟨-, hlow, hhigh, hm, hn⟩)
      · have hlow := hlow.contains_point
        have hhigh := hhigh.contains_point
        simp_all
      · rw [hlow, hhigh]
        simp only [hm.placesOf_eq, hn.placesOf_eq]
  · constructor
    · intro h
      have hlo : '.' ∉ lo := fun hmem => hpoint (.inl hmem)
      have hhi : '.' ∉ hi := fun hmem => hpoint (.inr hmem)
      obtain ⟨low, high, rfl⟩ := exists_integers_of_ofNumerals? hlo hhi h
      obtain ⟨hlow, hhigh⟩ := ofNumerals?_eq_integers_iff.1 h
      exact .integers hlow hhigh
    · rintro (⟨hlow, hhigh⟩ | ⟨hpoint', -, -, -, -⟩)
      · exact ofNumerals?_eq_integers_iff.2 ⟨hlow, hhigh⟩
      · exact absurd hpoint' hpoint

/-! ### Sound ranges -/

/-- The range is not empty; its ends, if they are floats, are finitely far apart; and it has no more
decimal places than are allowed. -/
def Sound : NumberRange → Prop
  | integers low high => low ≤ high
  | decimals low high places =>
    ¬high < low ∧ (high - low).isFinite = true ∧ places ≤ maxDecimals

/-- The range is what a draw and the move into the range ask for: the ends are numbers, finite ones,
and stand in order. -/
def Ready : NumberRange → Prop
  | integers low high => low ≤ high
  | decimals low high _ => low ≤ high ∧ low.isFinite = true ∧ high.isFinite = true

/-- No float holds what the fractions drawn from the range are scaled by. -/
def Overflows : NumberRange → Prop
  | integers .. => False
  | decimals low high _ => ((high - low) / Random.Real.greatest).isFinite = false

theorem sound_iff {range : NumberRange} :
    range.Sound ↔
      range.isEmpty = false ∧ range.isTooWide = false ∧ range.isTooPrecise = false := by
  cases range with
  | integers low high => simp [Sound, isEmpty, isTooWide, isTooPrecise]
  | decimals low high places => simp [Sound, isEmpty, isTooWide, isTooPrecise]

/-- **A draw finds in a sound range what it asks for.** -/
theorem Sound.ready {range : NumberRange} (h : range.Sound) : range.Ready := by
  cases range with
  | integers low high => exact h
  | decimals low high places =>
    obtain ⟨hempty, hwide, -⟩ := h
    obtain ⟨hhigh, hlow⟩ := Random.Real.isFinite_of_isFinite_sub hwide
    exact ⟨Random.Real.le_of_not_lt hlow hhigh hempty, hlow, hhigh⟩

/-- **A text is read as a range exactly if it joins two numerals that stand for it, and it is
sound.** -/
theorem read_eq_ok_iff_sound {text : String} {range : NumberRange} :
    read text = .ok range ↔
      (∃ lo hi, IsNumeral lo ∧ IsNumeral hi ∧ text.toList = lo ++ '-' :: hi ∧ Ends lo hi range) ∧
        range.Sound := by
  rw [read_eq_ok_iff, sound_iff]
  simp only [ofNumerals?_eq_some_iff]

end NumberRange

namespace Recipe

open NumberRange (Ends IsNumeral Places)
open RandExpr.Random (Words)

variable {W : Type}

theorem overflows_iff {low high : Float} {places : Nat} :
    (NumberRange.decimals low high places).Overflows ↔ Random.Real.scale? low high = none := by
  rw [NumberRange.Overflows, Random.Real.scale?]
  split
  next h => simp [h]
  next h => simp [h]

theorem exists_pull_drawing {α : Type} (draw : Words → α × Words) (value : α → Value)
    (words : Words) (state : (drawing draw value words : Source W).State) (w : W) :
    ∃ v, ((drawing draw value words : Source W).pull state w).1 = .ok (.now v) := ⟨_, rfl⟩

/-- **A draw from a range breaks off exactly if no float holds what its fractions are scaled by**,
and gives a value at once in every other case. -/
theorem pull_numbers (words : Words) (range : NumberRange)
    (state : (numbers words range : Source W).State) (w : W) :
    range.Overflows ∧ ((numbers words range).pull state w).1 = .error .brokenOff ∨
      ¬range.Overflows ∧ ∃ v, ((numbers words range).pull state w).1 = .ok (.now v) := by
  cases range with
  | integers low high =>
    revert state
    rw [numbers]
    exact fun state => .inr ⟨id, exists_pull_drawing _ _ words state w⟩
  | decimals low high places =>
    have hover := @overflows_iff low high places
    revert state
    rw [hover, numbers]
    cases Random.Real.scale? low high with
    | none => exact fun _ => .inl ⟨rfl, rfl⟩
    | some scale =>
      exact fun state => .inr ⟨Option.some_ne_none scale, exists_pull_drawing _ _ words state w⟩

variable [Host W]

theorem number_cons (setting : Setting) (text : String) (rest : List String) :
    (number setting (text :: rest) : Plan W) = number setting [text] := rfl

/-- **The recipe of numbers accepts exactly the sound ranges.** A source is built only over a range
for which the first argument joins two numerals, and the range is sound; then it is what a draw
relies on, however much has been drawn before, and a draw breaks off only if no float holds what the
fractions are scaled by. Over every sound range a source is built. And a text that joins two
numerals which stand for no sound range is refused, without anything being done to the
surroundings. -/
theorem number_accepts_sound (setting : Setting) (args : List String)
    (build : String → W → Except Fault (Generator W) × W) (w : W) :
    (∀ S w', (number setting args).run build w = (.ok S, w') →
      ∃ text rest lo hi range words, args = text :: rest ∧
        IsNumeral lo ∧ IsNumeral hi ∧ text.toList = lo ++ '-' :: hi ∧ Ends lo hi range ∧
        range.Sound ∧ range.Ready ∧ S = numbers words range ∧
        ∀ state w, range.Overflows ∧ (S.pull state w).1 = .error .brokenOff ∨
          ¬range.Overflows ∧ ∃ v, (S.pull state w).1 = .ok (.now v)) ∧
    ∀ text rest lo hi, args = text :: rest → IsNumeral lo → IsNumeral hi →
      text.toList = lo ++ '-' :: hi →
      (∀ range, Ends lo hi range → range.Sound →
        ∃ words w', (number setting args).run build w = (.ok (numbers words range), w')) ∧
      ((∀ range, Ends lo hi range → ¬range.Sound) →
        ∃ reason,
          (number setting args).run build w = (.error (.refused setting.kind reason), w)) := by
  constructor
  · intro S w' hrun
    cases args with
    | nil => cases hrun
    | cons text rest =>
      rw [number_cons] at hrun
      obtain ⟨range, hread⟩ := (exists_run_number_iff (W := W)).1 ⟨S, w', hrun⟩
      obtain ⟨⟨lo, hi, hlo, hhi, htext, hends⟩, hsound⟩ :=
        NumberRange.read_eq_ok_iff_sound.1 hread
      obtain ⟨words, w'', hok⟩ := run_number_of_ok (W := W) hread
      rw [hrun] at hok
      obtain ⟨rfl, rfl⟩ : S = numbers words range ∧ w' = w'' := by simpa using hok
      exact ⟨text, rest, lo, hi, range, words, rfl, hlo, hhi, htext, hends, hsound, hsound.ready,
        rfl, pull_numbers words range⟩
  · rintro text rest lo hi rfl hlo hhi htext
    rw [number_cons]
    constructor
    · intro range hends hsound
      exact run_number_of_ok
        (NumberRange.read_eq_ok_iff_sound.2 ⟨⟨lo, hi, hlo, hhi, htext, hends⟩, hsound⟩)
    · intro hnone
      cases hread : NumberRange.read text with
      | error reason => exact ⟨reason, run_number_of_error hread⟩
      | ok range =>
        obtain ⟨⟨lo', hi', hlo', hhi', htext', hends⟩, hsound⟩ :=
          NumberRange.read_eq_ok_iff_sound.1 hread
        -- a text joins two numerals in one way at most
        have hparts := NumberRange.numerals?_eq_some_iff.2 ⟨hlo, hhi, htext⟩
        have hparts' := NumberRange.numerals?_eq_some_iff.2 ⟨hlo', hhi', htext'⟩
        obtain ⟨rfl, rfl⟩ : lo = lo' ∧ hi = hi' := by simpa [hparts] using hparts'
        exact absurd hsound (hnone range hends)

/-- A range with decimal places, of which there are two; and a text with two points in one
number. -/
theorem number_accepts_sound_quarters :
    let setting : Setting := ⟨"number", {}, [], 0⟩
    let build : String → Diary → Except Fault (Generator Diary) × Diary := fun _ w =>
      (.error (.notYet "nothing"), w)
    (∃ words w', (number setting ["-0.5-2.25", "more"]).run build ⟨[]⟩ =
        (.ok (numbers words (.decimals (-0.5) 2.25 2)), w')) ∧
      ∃ reason, (number setting ["1.2.3-4"]).run build ⟨[]⟩ =
        (.error (.refused "number" reason), ⟨[]⟩) := by
  intro setting build
  have hquarters : Ends "-0.5".toList "2.25".toList (.decimals (-0.5) 2.25 2) :=
    .decimals (.inl (by decide)) (by decide +kernel) (by decide +kernel)
      (.point (by decide : '.' ∉ "-0".toList)) (.point (by decide : '.' ∉ "2".toList))
  have hsound : (NumberRange.decimals (-0.5) 2.25 2).Sound := by
    unfold NumberRange.Sound
    decide +kernel
  have hnone (range : NumberRange) (hends : Ends "1.2.3".toList "4".toList range) :
      ¬range.Sound := by
    cases hends with
    | integers hlow => exact absurd hlow.contains_point (by decide)
    | decimals _ hlow =>
      have hread : Decimal.read? "1.2.3".toList = none := by decide +kernel
      rw [hread] at hlow
      cases hlow
  constructor
  · refine ((number_accepts_sound setting ["-0.5-2.25", "more"] build ⟨[]⟩).2 "-0.5-2.25" ["more"]
      "-0.5".toList "2.25".toList rfl ?_ ?_ rfl).1 _ hquarters hsound
    · exact ⟨"0.5".toList, by decide, List.all_eq_true.1 rfl, .inr rfl⟩
    · exact ⟨"2.25".toList, by decide, List.all_eq_true.1 rfl, .inl rfl⟩
  · refine ((number_accepts_sound setting ["1.2.3-4"] build ⟨[]⟩).2 "1.2.3-4" []
      "1.2.3".toList "4".toList rfl ?_ ?_ rfl).2 hnone
    · exact ⟨"1.2.3".toList, by decide, List.all_eq_true.1 rfl, .inl rfl⟩
    · exact ⟨"4".toList, by decide, List.all_eq_true.1 rfl, .inl rfl⟩

/-! ### Ranges that are accepted all the same -/

/-- Zero, with zeros behind the point. -/
def zeros (n : Nat) : List Char := '0' :: '.' :: List.replicate n '0'

theorem places_zeros (n : Nat) : Places (zeros n) n := by
  have hpoint : Places (['0'] ++ '.' :: List.replicate n '0') (List.replicate n '0').length :=
    .point (by decide)
  rwa [List.length_replicate] at hpoint

theorem isNumeral_zeros (n : Nat) : IsNumeral (zeros n) := by
  refine ⟨zeros n, nofun, fun c hc => ?_, .inl rfl⟩
  rcases List.mem_cons.1 hc with rfl | hc
  · rfl
  rcases List.mem_cons.1 hc with rfl | hc
  · rfl
  obtain rfl := List.eq_of_mem_replicate hc
  rfl

theorem read?_zeros (n : Nat) : Decimal.read? (zeros n) = some 0 := by
  have hdigits : ∀ c ∈ List.replicate n '0', c.isDigit = true := by
    intro c hc
    obtain rfl := List.eq_of_mem_replicate hc
    rfl
  have htake : (List.replicate n '0').takeWhile Char.isDigit = List.replicate n '0' :=
    List.takeWhile_eq_self_iff.2 hdigits
  have hdrop : (List.replicate n '0').dropWhile Char.isDigit = [] :=
    List.dropWhile_eq_nil_iff.2 hdigits
  have hvalue : Decimal.digitsValue ('0' :: List.replicate n '0') = 0 := by
    show Nat.ofDigitChars 10 (List.replicate (n + 1) '0') 0 = 0
    rw [Nat.ofDigitChars_replicate_zero, Nat.mul_zero]
  have hparts : Decimal.takeDigits (zeros n) =
      (['0'], (List.replicate n '0').takeWhile Char.isDigit,
        (List.replicate n '0').dropWhile Char.isDigit) := rfl
  rw [htake, hdrop] at hparts
  have hmagnitude : Decimal.magnitude? (zeros n) = some 0 := by
    rw [Decimal.magnitude?, hparts]
    simp [Decimal.exponent?, hvalue, Decimal.nearest]
  show ((Decimal.magnitude? (zeros n)).or _).map _ = _
  rw [hmagnitude]
  rfl

/-- The range from zero, with so many zeros behind the point that their number is counted as none,
to one. -/
def longRange : String := String.ofList (zeros (2 ^ 32) ++ '-' :: "1.0".toList)

theorem read_longRange : NumberRange.read longRange = .ok (.decimals 0 1 1) := by
  have hends : Ends (zeros (2 ^ 32)) "1.0".toList
      (.decimals 0 1 (max (2 ^ 32 % 2 ^ 32) (1 % 2 ^ 32))) :=
    .decimals (.inl (List.mem_cons_of_mem _ List.mem_cons_self)) (read?_zeros _) (by decide +kernel)
      (places_zeros _) (.point (by decide : '.' ∉ "1".toList))
  have hsound : (NumberRange.decimals 0 1 1).Sound := by
    unfold NumberRange.Sound
    decide +kernel
  refine NumberRange.read_eq_ok_iff_sound.2
    ⟨⟨zeros (2 ^ 32), "1.0".toList, isNumeral_zeros _, ?_, String.toList_ofList, hends⟩, hsound⟩
  exact ⟨"1.0".toList, by decide, List.all_eq_true.1 rfl, .inl rfl⟩

/-- **Ranges are accepted that should not be.** The ends of the first are finitely far apart, but no
float holds what its fractions are scaled by, so the first draw breaks off. The lower end of the
second has far more decimal places than are allowed. -/
theorem number_accepts_unsound :
    let setting : Setting := ⟨"number", {}, [], 0⟩
    let build : String → Diary → Except Fault (Generator Diary) × Diary := fun _ w =>
      (.error (.notYet "nothing"), w)
    (∃ S w', (number setting [wideRange]).run build ⟨[]⟩ = (.ok S, w') ∧
        (S.pull S.state w').1 = .error .brokenOff) ∧
      ∃ S w', (number setting [longRange]).run build ⟨[]⟩ = (.ok S, w') ∧
        longRange.toList = zeros (2 ^ 32) ++ '-' :: "1.0".toList ∧
        Places (zeros (2 ^ 32)) (2 ^ 32) ∧ maxDecimals < 2 ^ 32 := by
  intro setting build
  constructor
  · have hok : ∃ words w', (number setting [wideRange]).run build ⟨[]⟩ =
        (.ok (numbers words (.decimals 0 greatFloat 1)), w') := run_number_of_ok read_wideRange
    obtain ⟨words, w', hrun⟩ := hok
    have hscale : Random.Real.scale? 0 greatFloat = none := by decide +kernel
    have hbreaks (range : NumberRange) (hover : range.Overflows) :
        ((numbers words range : Source Diary).pull (numbers words range).state w').1 =
          .error .brokenOff := by
      rcases pull_numbers words range (numbers words range).state w' with ⟨-, h⟩ | ⟨hnot, -⟩
      · exact h
      · exact absurd hover hnot
    exact ⟨_, w', hrun, hbreaks _ (overflows_iff.2 hscale)⟩
  · have hok : ∃ words w', (number setting [longRange]).run build ⟨[]⟩ =
        (.ok (numbers words (.decimals 0 1 1)), w') := run_number_of_ok read_longRange
    obtain ⟨words, w', hrun⟩ := hok
    exact ⟨_, w', hrun, String.toList_ofList, places_zeros _, by decide⟩

end Recipe

end RandExpr
