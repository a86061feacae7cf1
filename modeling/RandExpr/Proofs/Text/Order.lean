import Mathlib.Data.List.Basic
import Mathlib.Data.String.Basic
import Mathlib.Tactic.SplitIfs

/-!
# The order of texts

Texts are compared character by character, by code point. Their UTF-8 forms, compared byte by byte,
stand in the same order.

## What is proved

* `utf8EncodeChar_append_lt` — a lesser character has lesser bytes, whatever stands behind.
* `utf8_lt_iff` — so one text is less than another exactly if its UTF-8 form is.
-/

namespace RandExpr.Text

/-- The UTF-8 form of a text, byte by byte. -/
def utf8 (s : String) : List UInt8 := s.toUTF8.data.toList

theorem utf8_eq_flatMap (s : String) : utf8 s = s.toList.flatMap String.utf8EncodeChar := by
  rw [utf8, String.toUTF8_eq_toByteArray, ← String.utf8Encode_toList, List.utf8Encode]
  simp

theorem ofNat_cons_lt {m n : Nat} {bs bs' : List UInt8} (hn : n < 256) (hle : m ≤ n)
    (hrest : m = n → bs < bs') : UInt8.ofNat m :: bs < UInt8.ofNat n :: bs' := by
  rw [List.cons_lt_cons_iff]
  rcases Nat.lt_or_eq_of_le hle with hlt | rfl
  · left
    rw [UInt8.lt_iff_toNat_lt, UInt8.toNat_ofNat', UInt8.toNat_ofNat']
    omega
  · exact .inr ⟨rfl, hrest rfl⟩

theorem ofNat_cons_lt_of_lt {m n : Nat} (hn : n < 256) (hlt : m < n) (bs bs' : List UInt8) :
    UInt8.ofNat m :: bs < UInt8.ofNat n :: bs' :=
  ofNat_cons_lt hn (Nat.le_of_lt hlt) fun h => absurd h (Nat.ne_of_lt hlt)

/-- **The bytes of a lesser character come first**, whatever stands behind the characters. Either it
has fewer bytes, and then a lesser first one, or as many, and they differ as digits of its number
do. -/
theorem utf8EncodeChar_append_lt {c d : Char} (h : c < d) (cs ds : List UInt8) :
    String.utf8EncodeChar c ++ cs < String.utf8EncodeChar d ++ ds := by
  have hlt : c.val.toNat < d.val.toNat := UInt32.lt_iff_toNat_lt.1 h
  have hd : d.val.toNat < 0x110000 := by
    rcases d.valid with h | h <;> omega
  unfold String.utf8EncodeChar
  generalize c.val.toNat = m at hlt ⊢
  generalize d.val.toNat = n at hlt hd ⊢
  dsimp only
  by_cases hm : m ≤ 0x7f
  · rw [if_pos hm]
    split_ifs <;> exact ofNat_cons_lt_of_lt (by omega) (by omega) _ _
  · rw [if_neg hm, if_neg (show ¬n ≤ 0x7f by omega)]
    by_cases hm : m ≤ 0x7ff
    · rw [if_pos hm]
      split_ifs with hn hn
      · refine ofNat_cons_lt (by omega) (by omega) fun _ => ?_
        exact ofNat_cons_lt_of_lt (by omega) (by omega) _ _
      · exact ofNat_cons_lt_of_lt (by omega) (by omega) _ _
      · exact ofNat_cons_lt_of_lt (by omega) (by omega) _ _
    · rw [if_neg hm, if_neg (show ¬n ≤ 0x7ff by omega)]
      by_cases hm : m ≤ 0xffff
      · rw [if_pos hm]
        split_ifs with hn
        · refine ofNat_cons_lt (by omega) (by omega) fun _ => ?_
          refine ofNat_cons_lt (by omega) (by omega) fun _ => ?_
          exact ofNat_cons_lt_of_lt (by omega) (by omega) _ _
        · exact ofNat_cons_lt_of_lt (by omega) (by omega) _ _
      · rw [if_neg hm, if_neg (show ¬n ≤ 0xffff by omega)]
        refine ofNat_cons_lt (by omega) (by omega) fun _ => ?_
        refine ofNat_cons_lt (by omega) (by omega) fun _ => ?_
        refine ofNat_cons_lt (by omega) (by omega) fun _ => ?_
        exact ofNat_cons_lt_of_lt (by omega) (by omega) _ _

/-- Where texts differ in a character, so do their bytes; what stands before it is the same. -/
theorem flatMap_utf8EncodeChar_lt {cs ds : List Char} (h : cs < ds) :
    cs.flatMap String.utf8EncodeChar < ds.flatMap String.utf8EncodeChar := by
  induction h with
  | @nil d ds =>
    rw [List.flatMap_nil, List.flatMap_cons]
    obtain ⟨b, bs, hb⟩ := List.exists_cons_of_ne_nil (@String.utf8EncodeChar_ne_nil d)
    rw [hb]
    exact List.nil_lt_cons ..
  | @rel c cs d ds h => exact utf8EncodeChar_append_lt h _ _
  | @cons c cs ds h ih =>
    rw [List.flatMap_cons, List.flatMap_cons]
    exact List.append_left_lt ih

theorem utf8_lt {s t : String} (h : s < t) : utf8 s < utf8 t := by
  rw [utf8_eq_flatMap, utf8_eq_flatMap]
  exact flatMap_utf8EncodeChar_lt (String.lt_iff.1 h)

/-- **Texts are ordered as their UTF-8 forms are, byte by byte.** -/
theorem utf8_lt_iff {s t : String} : utf8 s < utf8 t ↔ s < t := by
  refine ⟨fun h => ?_, utf8_lt⟩
  rcases lt_trichotomy s t with hlt | rfl | hgt
  · exact hlt
  · exact absurd h (List.lt_irrefl _)
  · exact absurd h (List.lt_asymm (utf8_lt hgt))

end RandExpr.Text
