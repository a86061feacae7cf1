/-!
# Enclosed text

A text that stands between a given first and a given last character.

## What is proved

`enclosed?_eq_some_iff`: the text between is found exactly when the whole is the first character,
that text and the last character, so the two ends are never one and the same character.
-/

namespace RandExpr.Text

/-- The text between the characters `first` and `last`, when these are its two ends. -/
def enclosed? (first last : Char) : List Char → Option (List Char)
  | [] => none
  | c :: cs => if c = first ∧ cs.getLast? = some last then some cs.dropLast else none

theorem enclosed?_eq_some_iff {first last : Char} {cs inner : List Char} :
    enclosed? first last cs = some inner ↔ cs = first :: (inner ++ [last]) := by
  cases cs with
  | nil => simp [enclosed?]
  | cons c cs =>
    simp only [enclosed?, Option.ite_none_right_eq_some, Option.some.injEq, List.cons.injEq]
    constructor
    · rintro ⟨⟨rfl, hl⟩, rfl⟩
      obtain ⟨inner, rfl⟩ := List.getLast?_eq_some_iff.1 hl
      simp
    · rintro ⟨rfl, rfl⟩
      simp

@[simp] theorem enclosed?_cons_append (first last : Char) (inner : List Char) :
    enclosed? first last (first :: (inner ++ [last])) = some inner :=
  enclosed?_eq_some_iff.2 rfl

end RandExpr.Text
