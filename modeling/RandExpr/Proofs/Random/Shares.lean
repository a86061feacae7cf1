import RandExpr.Proofs.Random.Range
import Mathlib.Algebra.Order.Floor.Div
import Mathlib.Data.Set.Card.Arithmetic
import Mathlib.Order.Interval.Set.Nat

/-!
# Draws are even

Every value of a range is made of as many words as every other.

## The model

The words that a value is made of are those that `accept?` makes it of; a draw takes the first word
that is not refused, and gives up where it has looked at `patience` of them in vain. The products of
the words with the size of a range are the multiples of the size, and a place in the range is the
high half of a product (`base` is the number of words). Of the products with one high half, those
are accepted whose low half is less than a multiple of the size, so that as many are accepted at
every place.

## What is proved

* `ncard_window`, `ncard_accepted` — how many words are accepted at a place, and at all together.
* `drawUntil_of_first` — a draw is what is made of the first word that is not refused.
* `Integer.half_accepted`, `Character.half_accepted` — of the words at least every other one is
  accepted.
* `Integer.numbers_drawn_evenly` — whole numbers are drawn evenly, whatever the ends of the range
  are: also where the size of the range does not fit in a word, or the distance of the ends in a
  signed one.
* `Character.characters_drawn_evenly` — and so are characters, also where surrogates lie between the
  ends; and what is made of a word is never a surrogate.
-/

namespace RandExpr.Random

/-- A draw is what is made of the first word that is not refused. -/
theorem drawUntil_of_first {ω α : Type} {take : Words → ω × Words} {accept? : ω → Option α}
    {fallback a : α} {patience k : Nat} {ws : Words} (hk : k < patience)
    (hrefused : ∀ i < k, accept? (drawn take ws i) = none)
    (ha : accept? (drawn take ws k) = some a) :
    (drawUntil take accept? fallback patience ws).1 = a := by
  induction k generalizing patience ws with
  | zero =>
    obtain ⟨patience, rfl⟩ := Nat.exists_eq_succ_of_ne_zero (Nat.ne_of_gt hk)
    have hword : accept? (take ws).1 = some a := ha
    simp only [drawUntil, hword]
  | succ k ih =>
    obtain ⟨patience, rfl⟩ := Nat.exists_eq_succ_of_ne_zero (Nat.ne_of_gt (Nat.zero_lt_of_lt hk))
    have hword : accept? (take ws).1 = none := hrefused 0 (Nat.succ_pos k)
    simp only [drawUntil, hword]
    exact ih (Nat.lt_of_succ_lt_succ hk) (fun i hi => hrefused (i + 1) (Nat.succ_lt_succ hi)) ha

/-! ### Multiples in a window -/

section Window

variable {base size share place word : Nat}

/-- The high half of a product is `place` and its low half less than `size * share` exactly if the
product lies in a window of that length. -/
theorem halves_iff (hshare : size * share ≤ base) :
    word * size / base = place ∧ word * size % base < size * share ↔
      place * base ≤ word * size ∧ word * size < place * base + size * share := by
  have hsum := Nat.div_add_mod (word * size) base
  constructor
  · rintro ⟨rfl, hlow⟩
    rw [Nat.mul_comm base] at hsum
    omega
  · rintro ⟨hleast, hgreatest⟩
    have hplace : word * size / base = place := by
      refine Nat.div_eq_of_lt_le hleast ?_
      rw [Nat.succ_mul]
      omega
    rw [hplace, Nat.mul_comm base] at hsum
    exact ⟨hplace, by omega⟩

/-- The factors of the multiples of `size` that lie in the window follow one another. -/
theorem window_iff (hsize : 0 < size) :
    place * base ≤ word * size ∧ word * size < place * base + size * share ↔
      word ∈ Set.Ico (place * base ⌈/⌉ size) (place * base ⌈/⌉ size + share) := by
  have hceil (n : Nat) : place * base ⌈/⌉ size ≤ n ↔ place * base ≤ n * size := by
    rw [ceilDiv_le_iff_le_mul hsize, Nat.mul_comm size]
  rw [Set.mem_Ico, hceil, and_congr_right_iff]
  intro _
  rw [← Nat.not_le, ← Nat.not_le, not_iff_not]
  by_cases hword : share ≤ word
  · rw [← Nat.le_sub_iff_add_le hword, hceil, Nat.sub_mul, Nat.le_sub_iff_add_le, Nat.mul_comm size]
    exact Nat.mul_le_mul_right size hword
  · have hlt : word * size < size * share := by
      rw [Nat.mul_comm size]
      exact Nat.mul_lt_mul_of_pos_right (Nat.not_le.1 hword) hsize
    omega

/-- **At every place as many words are accepted**, namely `share` of them. -/
theorem ncard_window {ω : Type} {toNat : ω → Nat} (hinjective : Function.Injective toNat)
    (hrange : ∀ n < base, n ∈ Set.range toNat) (hsize : 0 < size) (hshare : size * share ≤ base)
    (hplace : place < size) :
    Set.ncard {word | toNat word * size / base = place ∧
      toNat word * size % base < size * share} = share := by
  have hwindow : {word | toNat word * size / base = place ∧
      toNat word * size % base < size * share} =
        Set.preimage toNat (Set.Ico (place * base ⌈/⌉ size) (place * base ⌈/⌉ size + share)) := by
    ext word
    rw [Set.mem_ofPred_eq, halves_iff hshare, window_iff hsize, Set.mem_preimage]
  have hword : Set.Ico (place * base ⌈/⌉ size) (place * base ⌈/⌉ size + share) ⊆
      Set.range toNat := by
    intro n hn
    have hlt := ((window_iff hsize).2 hn).2
    -- the window of the last place ends at `size * base` at the latest
    have hlast : (place + 1) * base ≤ size * base := Nat.mul_le_mul_right base hplace
    rw [Nat.succ_mul, Nat.mul_comm size base] at hlast
    have hbase : n * size < base * size := by omega
    exact hrange n (Nat.lt_of_mul_lt_mul_right hbase)
  rw [hwindow, Set.ncard_preimage_of_injective_subset_range hinjective hword,
    Set.ncard_Ico_nat, Nat.add_sub_cancel_left]

/-- **At all places together `size * share` words are accepted.** -/
theorem ncard_accepted {ω : Type} {toNat : ω → Nat}
    (hinjective : Function.Injective toNat) (hrange : ∀ n < base, n ∈ Set.range toNat)
    (hword : ∀ word, toNat word < base) (hsize : 0 < size) (hshare : size * share ≤ base) :
    Set.ncard {word | toNat word * size % base < size * share} = size * share := by
  have : Finite ω := Finite.of_injective (fun word => (⟨toNat word, hword word⟩ : Fin base))
    fun _ _ heq => hinjective (congrArg Fin.val heq)
  let accepted (place : Fin size) : Set ω :=
    {word | toNat word * size / base = place ∧ toNat word * size % base < size * share}
  have hplaces : {word | toNat word * size % base < size * share} = ⋃ place, accepted place := by
    ext word
    rw [Set.mem_iUnion]
    constructor
    · exact fun hlow => ⟨⟨_, high_half_lt (hword word) hsize⟩, rfl, hlow⟩
    · rintro ⟨place, -, hlow⟩
      exact hlow
  have hdisjoint : Pairwise (Function.onFun Disjoint accepted) := by
    intro place place' hne
    refine Set.disjoint_left.2 fun word hword hword' => hne (Fin.ext ?_)
    exact hword.1.symm.trans hword'.1
  have hcount (place : Fin size) : (accepted place).ncard = share :=
    ncard_window hinjective hrange hsize hshare place.isLt
  rw [hplaces, Set.ncard_iUnion_of_finite (fun _ => Set.toFinite _) hdisjoint,
    finsum_eq_sum_of_fintype]
  simp only [hcount, Finset.sum_const, Finset.card_univ, Fintype.card_fin, smul_eq_mul]

end Window

namespace Integer

variable {low high n : Int64} {word : UInt64}

/-- How many words every whole number from `low` to `high` is made of. -/
def share (low high : Int64) : Nat :=
  if size low high = 0 then 1 else 2 ^ (63 - (size low high).toNat.log2)

theorem share_pos (low high : Int64) : 0 < share low high := by
  unfold share
  split
  · exact Nat.one_pos
  · exact Nat.two_pow_pos _

/-- The size of a range is the number of its whole numbers, but for the range of all words. -/
theorem toNat_size (h : low ≤ high) :
    ((size low high).toNat : Int) = (high.toInt - low.toInt + 1) % 2 ^ 64 := by
  have hsize : (size low high).toNat = ((high - low).toUInt64.toNat + 1) % 2 ^ 64 := by
    rw [size, UInt64.toNat_add]
    rfl
  rw [hsize, Int.natCast_emod, Int.natCast_add, toNat_sub h]
  rfl

theorem toNat_size_of_ne (h : low ≤ high) (hfull : size low high ≠ 0) :
    ((size low high).toNat : Int) = high.toInt - low.toInt + 1 := by
  have hsize := toNat_size h
  have hle : low.toInt ≤ high.toInt := Int64.le_iff_toInt_le.1 h
  have hlow := low.le_toInt
  have hhigh := high.toInt_lt
  have hpos : (size low high).toNat ≠ 0 := fun hzero =>
    hfull (UInt64.toNat_inj.1 (by rw [hzero, UInt64.toNat_zero]))
  omega

/-- As many windows of the length of the zone fit in a word as the range has places. -/
theorem size_mul_share_le {size : UInt64} (hfull : size ≠ 0) :
    size.toNat * 2 ^ (63 - size.toNat.log2) < 2 ^ 64 := by
  have hpos : size.toNat ≠ 0 := fun hzero =>
    hfull (UInt64.toNat_inj.1 (by rw [hzero, UInt64.toNat_zero]))
  have hlog : size.toNat.log2 < 64 := (Nat.log2_lt hpos).2 size.toNat_lt
  calc size.toNat * 2 ^ (63 - size.toNat.log2)
      < 2 ^ (size.toNat.log2 + 1) * 2 ^ (63 - size.toNat.log2) :=
        Nat.mul_lt_mul_of_pos_right Nat.lt_log2_self (Nat.two_pow_pos _)
    _ = 2 ^ 64 := by
        rw [← Nat.pow_add]
        congr 1
        omega

theorem toNat_zone {size : UInt64} (hfull : size ≠ 0) :
    (zone size).toNat = size.toNat * 2 ^ (63 - size.toNat.log2) - 1 := by
  have hlt := size_mul_share_le hfull
  have hpos : 0 < size.toNat := Nat.pos_of_ne_zero fun hzero =>
    hfull (UInt64.toNat_inj.1 (by rw [hzero, UInt64.toNat_zero]))
  have hshift : (UInt64.ofNat (63 - size.toNat.log2)).toNat % 64 = 63 - size.toNat.log2 := by
    rw [UInt64.toNat_ofNat']
    omega
  have hstart : (size <<< UInt64.ofNat (63 - size.toNat.log2)).toNat =
      size.toNat * 2 ^ (63 - size.toNat.log2) := by
    rw [UInt64.toNat_shiftLeft, hshift, Nat.shiftLeft_eq, Nat.mod_eq_of_lt hlt]
  have hone : 1 ≤ size.toNat * 2 ^ (63 - size.toNat.log2) :=
    Nat.mul_pos hpos (Nat.two_pow_pos _)
  rw [zone, UInt64.toNat_sub_of_le, hstart]
  · rfl
  · rw [UInt64.le_iff_toNat_le, hstart]
    exact hone

theorem le_zone_iff {size : UInt64} (hfull : size ≠ 0) {product : Nat} :
    UInt64.ofNat product ≤ zone size ↔
      product % 2 ^ 64 < size.toNat * 2 ^ (63 - size.toNat.log2) := by
  have hpos : 0 < size.toNat := Nat.pos_of_ne_zero fun hzero =>
    hfull (UInt64.toNat_inj.1 (by rw [hzero, UInt64.toNat_zero]))
  have hone : 0 < size.toNat * 2 ^ (63 - size.toNat.log2) := Nat.mul_pos hpos (Nat.two_pow_pos _)
  rw [UInt64.le_iff_toNat_le, UInt64.toNat_ofNat', toNat_zone hfull]
  omega

/-- **A number is made of a word exactly if it stands at the place that the high half tells**, and
the low half is not beyond the zone. -/
theorem accept?_eq_some_iff (h : low ≤ high) (hfull : size low high ≠ 0) :
    accept? low high word = some n ↔
      n.toInt = low.toInt + (word.toNat * (size low high).toNat / 2 ^ 64 : Nat) ∧
        word.toNat * (size low high).toNat % 2 ^ 64 <
          (size low high).toNat * 2 ^ (63 - (size low high).toNat.log2) := by
  have hsize := toNat_size_of_ne h hfull
  have hpos : 0 < (size low high).toNat := by
    have hle : low.toInt ≤ high.toInt := Int64.le_iff_toInt_le.1 h
    omega
  have hplace := high_half_lt word.toNat_lt hpos
  have hvalue : (low + (UInt64.ofNat (word.toNat * (size low high).toNat / 2 ^ 64)).toInt64).toInt =
      low.toInt + (word.toNat * (size low high).toNat / 2 ^ 64 : Nat) :=
    have hle : low.toInt + (word.toNat * (size low high).toNat / 2 ^ 64 : Nat) ≤ high.toInt := by
      omega
    toInt_add_place hle
  simp only [accept?, if_neg hfull, Option.ite_none_right_eq_some, Option.some.injEq,
    le_zone_iff hfull]
  rw [← Int64.toInt_inj, and_comm, eq_comm]
  exact and_congr_left' (by rw [← hvalue]; rfl)

theorem ncard_words (hlow : low ≤ n) (hhigh : n ≤ high) :
    Set.ncard {word | accept? low high word = some n} = share low high := by
  have h := Int64.le_trans hlow hhigh
  by_cases hfull : size low high = 0
  · -- every word is taken as it is
    have hword (word : UInt64) : accept? low high word = some n ↔ word = n.toUInt64 := by
      simp only [accept?, hfull, if_true, Option.some.injEq]
      constructor
      · rintro rfl
        rfl
      · rintro rfl
        rfl
    simp only [hword, share, hfull, if_true, Set.ofPred_eq_eq_singleton, Set.ncard_singleton]
  · have hleast : low.toInt ≤ n.toInt := Int64.le_iff_toInt_le.1 hlow
    have hgreatest : n.toInt ≤ high.toInt := Int64.le_iff_toInt_le.1 hhigh
    have hsize := toNat_size_of_ne h hfull
    have hwindow : Set.ncard {word : UInt64 |
        word.toNat * (size low high).toNat / 2 ^ 64 = (n.toInt - low.toInt).toNat ∧
          word.toNat * (size low high).toNat % 2 ^ 64 <
            (size low high).toNat * 2 ^ (63 - (size low high).toNat.log2)} =
        2 ^ (63 - (size low high).toNat.log2) :=
      ncard_window (fun _ _ => UInt64.toNat_inj.1)
        (fun k hk => ⟨.ofNat k, UInt64.toNat_ofNat_of_lt' hk⟩) (by omega)
        (Nat.le_of_lt (size_mul_share_le hfull)) (by omega)
    rw [share, if_neg hfull, ← hwindow]
    congr 1
    ext word
    rw [Set.mem_ofPred_eq, Set.mem_ofPred_eq, accept?_eq_some_iff h hfull]
    constructor
    · rintro ⟨hn, hzone⟩
      exact ⟨by omega, hzone⟩
    · rintro ⟨hn, hzone⟩
      exact ⟨by omega, hzone⟩

/-- **At least every other word is accepted.** -/
theorem half_accepted (low high : Int64) :
    2 ^ 63 ≤ Set.ncard {word | accept? low high word ≠ none} := by
  have hrange : ∀ k < 2 ^ 64, k ∈ Set.range UInt64.toNat := fun k hk =>
    ⟨.ofNat k, UInt64.toNat_ofNat_of_lt' hk⟩
  by_cases hfull : size low high = 0
  · -- every word is accepted, as it would be for a single place with as many words
    have hall := ncard_accepted (fun _ _ => UInt64.toNat_inj.1) hrange UInt64.toNat_lt
      Nat.one_pos (Nat.le_of_eq (Nat.one_mul (2 ^ 64)))
    have hset : {word | accept? low high word ≠ none} =
        {word : UInt64 | word.toNat * 1 % 2 ^ 64 < 1 * 2 ^ 64} := by
      ext word
      have hlt : word.toNat * 1 % 2 ^ 64 < 1 * 2 ^ 64 := Nat.mod_lt _ (by decide)
      exact iff_of_true (by simp [accept?, hfull]) hlt
    rw [hset, hall]
    decide
  · have hpos : (size low high).toNat ≠ 0 := fun hzero =>
      hfull (UInt64.toNat_inj.1 (by rw [hzero, UInt64.toNat_zero]))
    have hlog : (size low high).toNat.log2 < 64 := (Nat.log2_lt hpos).2 (size low high).toNat_lt
    have hset : {word | accept? low high word ≠ none} = {word : UInt64 |
        word.toNat * (size low high).toNat % 2 ^ 64 <
          (size low high).toNat * 2 ^ (63 - (size low high).toNat.log2)} := by
      ext word
      rw [Set.mem_ofPred_eq, Set.mem_ofPred_eq, ← le_zone_iff hfull]
      simp only [accept?, if_neg hfull, ne_eq, ite_eq_right_iff, reduceCtorEq, imp_false, not_not]
    rw [hset, ncard_accepted (fun _ _ => UInt64.toNat_inj.1) hrange UInt64.toNat_lt
      (Nat.pos_of_ne_zero hpos) (Nat.le_of_lt (size_mul_share_le hfull))]
    calc 2 ^ 63
        = 2 ^ (size low high).toNat.log2 * 2 ^ (63 - (size low high).toNat.log2) := by
          rw [← Nat.pow_add]
          congr 1
          omega
      _ ≤ (size low high).toNat * 2 ^ (63 - (size low high).toNat.log2) :=
          Nat.mul_le_mul_right _ (Nat.log2_self_le hpos)

/-- **Whole numbers are drawn evenly.** Each from `low` to `high` is made of the same positive
number of words, and no other is made of any; if there are as many numbers as words, no word is
refused. Whatever the range is, at least every other word is accepted, and a draw is what is made of
the first word that is, where that is among the 1024 that a draw looks at. -/
theorem numbers_drawn_evenly (h : low ≤ high) :
    0 < share low high ∧
      (∀ n, low ≤ n → n ≤ high →
        Set.ncard {word | accept? low high word = some n} = share low high) ∧
      (∀ word n, accept? low high word = some n → low ≤ n ∧ n ≤ high) ∧
      (high.toInt - low.toInt + 1 = 2 ^ 64 → ∀ word, accept? low high word ≠ none) ∧
      2 ^ 63 ≤ Set.ncard {word | accept? low high word ≠ none} ∧
      ∀ ws k n, k < 1024 →
        (∀ i < k, accept? low high (drawn Words.takeDouble ws i) = none) →
        accept? low high (drawn Words.takeDouble ws k) = some n → (draw low high ws).1 = n := by
  refine ⟨share_pos low high, fun n => ncard_words, fun word n => mem_of_accept h, ?_,
    half_accepted low high, fun ws k n hk hrefused hn => drawUntil_of_first hk hrefused hn⟩
  intro hall word
  have hsize := toNat_size h
  rw [hall] at hsize
  have hfull : size low high = 0 := UInt64.toNat_inj.1 (by rw [UInt64.toNat_zero]; omega)
  simp [accept?, hfull]

/-- A die, a range whose ends no signed word holds the distance of, and the range of all words. -/
theorem numbers_drawn_evenly_die :
    Set.ncard {word | accept? 1 6 word = some 4} = 2 ^ 61 ∧
      Set.ncard {word | accept? Int64.minValue 0 word = some (-1)} = 1 ∧
      ∀ word, accept? Int64.minValue Int64.maxValue word ≠ none := by
  have hdie : share 1 6 = 2 ^ 61 := by decide +kernel
  have hnegative : share Int64.minValue 0 = 1 := by decide +kernel
  refine ⟨?_, ?_, (numbers_drawn_evenly (by decide)).2.2.2.1 (by decide)⟩
  · rw [← hdie]
    exact (numbers_drawn_evenly (by decide)).2.1 4 (by decide) (by decide)
  · rw [← hnegative]
    exact (numbers_drawn_evenly (by decide)).2.1 (-1) (by decide) (by decide)

end Integer

namespace Character

variable {low high c : Char} {word : UInt32}

/-- How many words every character from `low` to `high` is made of. -/
def share (low high : Char) : Nat := 2 ^ 32 / size low high

/-- The code point at a place among those that are no surrogates. -/
def codePoint (place : Nat) : Nat := if place < 0xd800 then place else place + 0x800

/-- The place that the high half of a word's product tells. -/
def placeOf (low high : Char) (word : UInt32) : Nat :=
  low.ordinal.val + word.toNat * size low high / 2 ^ 32

theorem toNat_ofOrdinal (f : Fin Char.numCodePoints) :
    (Char.ofOrdinal f).toNat = codePoint f.val := by
  rw [← Char.toNat_val, Char.val_ofOrdinal, codePoint]
  split
  · exact UInt32.toNat_ofNatLT
  · exact UInt32.toNat_ofNatLT

theorem size_le (low high : Char) : size low high ≤ Char.numCodePoints := by
  have hhigh := high.ordinal.isLt
  unfold size
  omega

theorem share_pos (low high : Char) : 0 < share low high := by
  have hsize := size_le low high
  exact Nat.div_pos (Nat.le_trans hsize (by decide)) (Nat.succ_pos _)

theorem le_zone_iff {k : Nat} : k ≤ zone (size low high) ↔ k < size low high * share low high := by
  have hsize := size_le low high
  have hpos : 0 < size low high := Nat.succ_pos _
  have hmod : (0x1_0000_0000 - size low high) % size low high = 2 ^ 32 % size low high :=
    (Nat.mod_eq_sub_mod (Nat.le_trans hsize (by decide))).symm
  have hlt : 2 ^ 32 % size low high < size low high := Nat.mod_lt _ hpos
  have hsum := Nat.div_add_mod (2 ^ 32) (size low high)
  rw [zone, hmod, share]
  simp only [Char.numCodePoints] at hsize
  omega

/-- The place is in the range, so that the number of characters is no bound of its own. -/
theorem placeOf_le (h : low ≤ high) (word : UInt32) : placeOf low high word ≤ high.ordinal.val := by
  have hle : low.ordinal.val ≤ high.ordinal.val := Char.le_iff_ordinal_le.1 h
  have hplace : word.toNat * size low high / 2 ^ 32 < size low high :=
    high_half_lt word.toNat_lt (Nat.succ_pos _)
  have hsize : size low high = high.ordinal.val - low.ordinal.val + 1 := rfl
  unfold placeOf
  omega

/-- **A character is made of a word exactly if it stands at the place of the word**, and the low
half is not beyond the zone. -/
theorem accept?_eq_some_iff (h : low ≤ high) :
    accept? low high word = some c ↔
      c.ordinal.val = placeOf low high word ∧
        word.toNat * size low high % 2 ^ 32 ≤ zone (size low high) := by
  have hplace : placeOf low high word < Char.numCodePoints :=
    Nat.lt_of_le_of_lt (placeOf_le h word) high.ordinal.isLt
  have hchar : Char.ofOrdinal ⟨placeOf low high word, hplace⟩ = c ↔
      c.ordinal.val = placeOf low high word := by
    rw [← Char.ordinal_inj, Char.ordinal_ofOrdinal, Fin.ext_iff, eq_comm]
  rw [← hchar, and_comm]
  simp only [accept?, Option.dite_none_right_eq_some, Option.some.injEq]
  constructor
  · rintro ⟨⟨hzone, -⟩, rfl⟩
    exact ⟨hzone, rfl⟩
  · rintro ⟨hzone, rfl⟩
    exact ⟨⟨hzone, hplace⟩, rfl⟩

theorem ncard_words (hlow : low ≤ c) (hhigh : c ≤ high) :
    Set.ncard {word | accept? low high word = some c} = share low high := by
  have hleast : low.ordinal.val ≤ c.ordinal.val := Char.le_iff_ordinal_le.1 hlow
  have hgreatest : c.ordinal.val ≤ high.ordinal.val := Char.le_iff_ordinal_le.1 hhigh
  have hsize : size low high = high.ordinal.val - low.ordinal.val + 1 := rfl
  have hwindow : Set.ncard {word : UInt32 |
      word.toNat * size low high / 2 ^ 32 = c.ordinal.val - low.ordinal.val ∧
        word.toNat * size low high % 2 ^ 32 < size low high * share low high} = share low high :=
    ncard_window (fun _ _ => UInt32.toNat_inj.1)
      (fun k hk => ⟨.ofNat k, UInt32.toNat_ofNat_of_lt' hk⟩) (Nat.succ_pos _) (Nat.mul_div_le _ _)
      (by omega)
  rw [← hwindow]
  congr 1
  ext word
  rw [Set.mem_ofPred_eq, Set.mem_ofPred_eq, accept?_eq_some_iff (Char.le_trans hlow hhigh),
    le_zone_iff, placeOf]
  exact and_congr_left' (by omega)

/-- **At least every other word is accepted.** -/
theorem half_accepted (h : low ≤ high) :
    2 ^ 31 ≤ Set.ncard {word | accept? low high word ≠ none} := by
  have hset : {word | accept? low high word ≠ none} = {word : UInt32 |
      word.toNat * size low high % 2 ^ 32 < size low high * share low high} := by
    ext word
    rw [Set.mem_ofPred_eq, Set.mem_ofPred_eq, ← le_zone_iff, Option.ne_none_iff_exists']
    constructor
    · rintro ⟨c, hc⟩
      exact ((accept?_eq_some_iff h).1 hc).2
    · intro hzone
      have hplace := Nat.lt_of_le_of_lt (placeOf_le h word) high.ordinal.isLt
      exact ⟨.ofOrdinal ⟨placeOf low high word, hplace⟩,
        (accept?_eq_some_iff h).2 ⟨by rw [Char.ordinal_ofOrdinal], hzone⟩⟩
  have hpos : 0 < size low high := Nat.succ_pos _
  have haccepted : Set.ncard {word : UInt32 |
      word.toNat * size low high % 2 ^ 32 < size low high * share low high} =
        size low high * share low high :=
    ncard_accepted (fun _ _ => UInt32.toNat_inj.1)
      (fun k hk => ⟨.ofNat k, UInt32.toNat_ofNat_of_lt' hk⟩) UInt32.toNat_lt hpos
      (Nat.mul_div_le _ _)
  rw [hset, haccepted]
  -- fewer words are refused than there are characters
  have hsize := size_le low high
  have hlt : 2 ^ 32 % size low high < size low high := Nat.mod_lt _ hpos
  have hsum := Nat.div_add_mod (2 ^ 32) (size low high)
  rw [share]
  simp only [Char.numCodePoints] at hsize
  omega

/-- **Characters are drawn evenly.** Each from `low` to `high` is made of the same positive number
of words. A word is refused exactly if the low half is beyond the zone; what the others are made
into is a code point from `low` to `high` that is no surrogate. At least every other word is
accepted, and a draw is what is made of the first word that is, where that is among the 1024 that a
draw looks at. -/
theorem characters_drawn_evenly (h : low ≤ high) :
    0 < share low high ∧
      (∀ c, low ≤ c → c ≤ high →
        Set.ncard {word | accept? low high word = some c} = share low high) ∧
      (∀ word, zone (size low high) < word.toNat * size low high % 2 ^ 32 →
        accept? low high word = none) ∧
      (∀ word, word.toNat * size low high % 2 ^ 32 ≤ zone (size low high) →
        ∃ c, accept? low high word = some c ∧ c.toNat = codePoint (placeOf low high word) ∧
          (codePoint (placeOf low high word)).isValidChar ∧ low ≤ c ∧ c ≤ high) ∧
      2 ^ 31 ≤ Set.ncard {word | accept? low high word ≠ none} ∧
      ∀ ws k c, k < 1024 →
        (∀ i < k, accept? low high (drawn Words.take ws i) = none) →
        accept? low high (drawn Words.take ws k) = some c → (draw low high ws).1 = c := by
  refine ⟨share_pos low high, fun c => ncard_words, fun word hzone => ?_, fun word hzone => ?_,
    half_accepted h, fun ws k c hk hrefused hc => drawUntil_of_first hk hrefused hc⟩
  · rw [Option.eq_none_iff_forall_ne_some]
    intro c hc
    exact Nat.not_le.2 hzone ((accept?_eq_some_iff h).1 hc).2
  · have hplace : placeOf low high word < Char.numCodePoints :=
      Nat.lt_of_le_of_lt (placeOf_le h word) high.ordinal.isLt
    have hchar : (Char.ofOrdinal ⟨placeOf low high word, hplace⟩).toNat =
        codePoint (placeOf low high word) := toNat_ofOrdinal _
    have haccept : accept? low high word = some (.ofOrdinal ⟨placeOf low high word, hplace⟩) :=
      (accept?_eq_some_iff h).2 ⟨by rw [Char.ordinal_ofOrdinal], hzone⟩
    refine ⟨_, haccept, hchar, ?_, mem_of_accept h haccept⟩
    rw [← hchar]
    exact Char.valid _

/-- The two characters on either side of the surrogates, and the last of all characters. -/
theorem characters_drawn_evenly_gap :
    Set.ncard {word | accept? '\ud7ff' '\ue000' word = some '\ue000'} = 2 ^ 31 ∧
      Set.ncard {word | accept? '\x00' (Char.ofNat 0x10ffff) word = some (Char.ofNat 0x10ffff)} =
        3862 := by
  have hgap : share '\ud7ff' '\ue000' = 2 ^ 31 := by decide +kernel
  have hall : share '\x00' (Char.ofNat 0x10ffff) = 3862 := by decide +kernel
  constructor
  · rw [← hgap]
    exact (characters_drawn_evenly (by decide)).2.1 _ (by decide) (by decide)
  · rw [← hall]
    exact (characters_drawn_evenly (by decide)).2.1 _ (by decide) (by decide)

end Character

end RandExpr.Random
