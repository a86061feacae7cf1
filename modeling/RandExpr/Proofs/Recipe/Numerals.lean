import RandExpr.Proofs.Expr.Spelling
import Mathlib.Computability.RegularExpressions

/-!
# Numerals

What a range of numbers looks like is decided twice. An expression is read one character at a time
to tell whether it is a range, without a word on where its ends are. An argument is taken apart into
its two ends. Whatever the first one lets through comes to the second one, so they have to agree.

## The model

Each of the two readers follows a pattern of its own. The patterns are written out here as they are
usually given, `-?[0-9.]+--?[0-9.]+` for expressions and `(-?[0-9.]+)-(-?[0-9.]+)` for arguments, as
regular expressions in the sense of formal languages: `oneOf` is a class of characters, `optional`
is `?` and `oneOrMore` is `+`.

## What is proved

* `Pattern.mem_oneOf`, `Pattern.mem_optional`, `Pattern.mem_oneOrMore_oneOf` — the texts of a class,
  of an optional pattern and of a repeated class.
* `mem_numeralPattern`, `mem_argumentPattern` — a numeral is what the pattern of an end matches, and
  two of them joined by `-` are what the pattern of an argument matches.
* `matches'_shorthandPattern` — the two patterns match the same texts.
* `isNumericRange_iff_mem`, `isSome_numerals?_iff_mem` — each reader accepts what its pattern
  matches.
* `ends_unique` — two numerals are joined by `-` at one place only.
* `classify_eq_numericRange_iff` — an expression that is read as a range of numbers is not taken for
  another short form before.
* `numericRange_read_alike` — the readers accept the same texts, and there is one way to take each
  of them apart.
-/

namespace RandExpr

/-- A pattern of characters. -/
abbrev Pattern := RegularExpression Char

namespace Pattern

open RegularExpression (matches'_add matches'_mul matches'_star)

variable {p : Pattern} {cs text : List Char}

/-- A single character out of some. -/
def oneOf (cs : List Char) : Pattern := (cs.map RegularExpression.char).sum

/-- What the pattern matches, or nothing. -/
def optional (p : Pattern) : Pattern := 1 + p

/-- What the pattern matches, once or several times in a row. -/
def oneOrMore (p : Pattern) : Pattern := p * p.star

theorem mem_oneOf : text ∈ (oneOf cs).matches' ↔ ∃ c ∈ cs, text = [c] := by
  induction cs with
  | nil => exact iff_of_false (Language.notMem_zero text) (by simp)
  | cons c cs ih =>
    have hcons : oneOf (c :: cs) = .char c + oneOf cs := rfl
    have hchar : text ∈ (RegularExpression.char c).matches' ↔ text = [c] := Iff.rfl
    rw [hcons, matches'_add, Language.mem_add, hchar, ih, List.exists_mem_cons_iff]

theorem mem_optional : text ∈ (optional p).matches' ↔ text = [] ∨ text ∈ p.matches' := by
  rw [optional, matches'_add, Language.mem_add, RegularExpression.matches'_epsilon,
    Language.mem_one]

theorem mem_star_oneOf : text ∈ (oneOf cs).star.matches' ↔ ∀ c ∈ text, c ∈ cs := by
  rw [matches'_star, Language.mem_kstar]
  constructor
  · rintro ⟨parts, rfl, hparts⟩ c hc
    obtain ⟨part, hpart, hc⟩ := List.mem_flatten.1 hc
    obtain ⟨d, hd, rfl⟩ := mem_oneOf.1 (hparts part hpart)
    obtain rfl := List.mem_singleton.1 hc
    exact hd
  · intro hall
    have hflat : text = (text.map fun c => [c]).flatten := by
      rw [← List.flatMap_def, List.flatMap_singleton']
    refine ⟨text.map fun c => [c], hflat, fun part hpart => ?_⟩
    obtain ⟨c, hc, rfl⟩ := List.mem_map.1 hpart
    exact mem_oneOf.2 ⟨c, hall c hc, rfl⟩

theorem mem_oneOrMore_oneOf :
    text ∈ (oneOrMore (oneOf cs)).matches' ↔ text ≠ [] ∧ ∀ c ∈ text, c ∈ cs := by
  rw [oneOrMore, matches'_mul, Language.mem_mul]
  constructor
  · rintro ⟨first, hfirst, rest, hrest, rfl⟩
    obtain ⟨c, hc, rfl⟩ := mem_oneOf.1 hfirst
    exact ⟨List.cons_ne_nil c rest, List.forall_mem_cons.2 ⟨hc, mem_star_oneOf.1 hrest⟩⟩
  · rintro ⟨hne, hall⟩
    obtain ⟨c, rest, rfl⟩ := List.exists_cons_of_ne_nil hne
    obtain ⟨hc, hrest⟩ := List.forall_mem_cons.1 hall
    exact ⟨[c], mem_oneOf.2 ⟨c, hc, rfl⟩, rest, mem_star_oneOf.2 hrest, rfl⟩

end Pattern

namespace NumberRange

open Pattern

/-! ### The two patterns -/

/-- The characters of the class `[0-9.]`. -/
def numeralClass : List Char := ['0', '1', '2', '3', '4', '5', '6', '7', '8', '9', '.']

/-- The sign of an end, `-?`. -/
def signPattern : Pattern := optional (.char '-')

/-- The digits and points of an end, `[0-9.]+`. -/
def digitsPattern : Pattern := oneOrMore (oneOf numeralClass)

/-- An end of a range, `-?[0-9.]+`. -/
def numeralPattern : Pattern := signPattern * digitsPattern

/-- The pattern of an expression, `-?[0-9.]+--?[0-9.]+`. -/
def shorthandPattern : Pattern :=
  signPattern * digitsPattern * .char '-' * signPattern * digitsPattern

/-- The pattern of an argument, `(-?[0-9.]+)-(-?[0-9.]+)`. -/
def argumentPattern : Pattern := numeralPattern * .char '-' * numeralPattern

/-! ### What they match -/

variable {text : List Char}

/-- Telling the characters of numerals by their codes is listing them. -/
theorem isNumeral_iff_mem {c : Char} : isNumeral c = true ↔ c ∈ numeralClass := by
  constructor
  · intro hnumeral
    have hcode : c.toNat < 58 := by
      rcases Bool.or_eq_true_iff.1 hnumeral with hdigit | hpoint
      · exact Nat.lt_succ_of_le (Char.isDigit_iff_toNat.1 hdigit).2
      · rw [beq_iff_eq.1 hpoint]
        decide
    have hlisted : ∀ n < 58, isNumeral (Char.ofNat n) = true → Char.ofNat n ∈ numeralClass := by
      decide
    rw [← Char.ofNat_toNat c] at hnumeral ⊢
    exact hlisted c.toNat hcode hnumeral
  · have hnumerals : numeralClass.all isNumeral = true := by decide
    exact List.all_eq_true.1 hnumerals c

theorem mem_digitsPattern :
    text ∈ digitsPattern.matches' ↔ text ≠ [] ∧ ∀ c ∈ text, isNumeral c = true := by
  simp only [digitsPattern, mem_oneOrMore_oneOf, isNumeral_iff_mem]

theorem mem_signPattern : text ∈ signPattern.matches' ↔ text = [] ∨ text = ['-'] := mem_optional

theorem mem_numeralPattern : text ∈ numeralPattern.matches' ↔ IsNumeral text := by
  rw [numeralPattern, RegularExpression.matches'_mul, Language.mem_mul]
  constructor
  · rintro ⟨sign, hsign, digits, hdigits, rfl⟩
    obtain ⟨hne, hdigits⟩ := mem_digitsPattern.1 hdigits
    rcases mem_signPattern.1 hsign with rfl | rfl
    · exact ⟨digits, hne, hdigits, .inl rfl⟩
    · exact ⟨digits, hne, hdigits, .inr rfl⟩
  · rintro ⟨digits, hne, hdigits, rfl | rfl⟩
    · exact ⟨[], mem_signPattern.2 (.inl rfl), text, mem_digitsPattern.2 ⟨hne, hdigits⟩, rfl⟩
    · exact ⟨['-'], mem_signPattern.2 (.inr rfl), digits, mem_digitsPattern.2 ⟨hne, hdigits⟩, rfl⟩

theorem mem_argumentPattern : text ∈ argumentPattern.matches' ↔
    ∃ low high, IsNumeral low ∧ IsNumeral high ∧ text = low ++ '-' :: high := by
  rw [argumentPattern, RegularExpression.matches'_mul, RegularExpression.matches'_mul,
    Language.mem_mul]
  constructor
  · rintro ⟨front, hfront, high, hhigh, rfl⟩
    obtain ⟨low, hlow, minus, rfl, rfl⟩ := Language.mem_mul.1 hfront
    exact ⟨low, high, mem_numeralPattern.1 hlow, mem_numeralPattern.1 hhigh, by simp⟩
  · rintro ⟨low, high, hlow, hhigh, rfl⟩
    have hfront : low ++ ['-'] ∈ numeralPattern.matches' * {['-']} :=
      Language.mem_mul.2 ⟨low, mem_numeralPattern.2 hlow, ['-'], rfl, rfl⟩
    exact ⟨low ++ ['-'], hfront, high, mem_numeralPattern.2 hhigh, by simp⟩

/-- **The two patterns match the same texts.** They differ in how their parts are put into
groups. -/
theorem matches'_shorthandPattern : shorthandPattern.matches' = argumentPattern.matches' := by
  simp only [shorthandPattern, argumentPattern, numeralPattern, RegularExpression.matches'_mul,
    mul_assoc]

/-! ### The two readers -/

theorem isSome_numerals?_iff : (numerals? text).isSome = true ↔
    ∃ low high, IsNumeral low ∧ IsNumeral high ∧ text = low ++ '-' :: high := by
  simp only [Option.isSome_iff_exists, Prod.exists, numerals?_eq_some_iff]

/-- The reader of expressions accepts what its pattern matches. -/
theorem isNumericRange_iff_mem :
    isNumericRange text = true ↔ text ∈ shorthandPattern.matches' := by
  rw [isNumericRange_iff, matches'_shorthandPattern, mem_argumentPattern]

/-- The reader of arguments accepts what its pattern matches. -/
theorem isSome_numerals?_iff_mem :
    (numerals? text).isSome = true ↔ text ∈ argumentPattern.matches' := by
  rw [isSome_numerals?_iff, mem_argumentPattern]

/-- `-` joins the ends of a range at one place only. -/
theorem ends_unique {low high low' high' : List Char} (hlow : IsNumeral low)
    (hhigh : IsNumeral high) (hlow' : IsNumeral low') (hhigh' : IsNumeral high')
    (h : low' ++ '-' :: high' = low ++ '-' :: high) : low' = low ∧ high' = high := by
  have hends : numerals? (low ++ '-' :: high) = some (low, high) :=
    numerals?_eq_some_iff.2 ⟨hlow, hhigh, rfl⟩
  have hends' : numerals? (low ++ '-' :: high) = some (low', high') :=
    numerals?_eq_some_iff.2 ⟨hlow', hhigh', h.symm⟩
  simpa using hends'.symm.trans hends

theorem classify_eq_numericRange_iff {text : String} :
    Shorthand.classify text = some (.numericRange text) ↔ isNumericRange text.toList = true := by
  constructor
  · intro h
    by_contra hrange
    rw [Shorthand.classify] at h
    split at h
    next => simp at h
    next =>
      rw [if_neg hrange] at h
      split_ifs at h <;> simp at h
  · intro hrange
    rw [Shorthand.classify, Shorthand.multiplier?_of_range (.inl hrange)]
    exact if_pos hrange

/-- **Both readers have the same idea of a range of numbers.** Each accepts what its pattern
matches, and the patterns match the same texts, which are those that are taken for such a range.
Where they match, the ends that the argument is taken apart into are numerals joined by `-` to the
text, and no others are. -/
theorem numericRange_read_alike (text : String) :
    (isNumericRange text.toList = true ↔ text.toList ∈ shorthandPattern.matches') ∧
      ((numerals? text.toList).isSome = true ↔ text.toList ∈ argumentPattern.matches') ∧
      (isNumericRange text.toList = true ↔ (numerals? text.toList).isSome = true) ∧
      (Shorthand.classify text = some (.numericRange text) ↔
        (numerals? text.toList).isSome = true) ∧
      (isNumericRange text.toList = true →
        ∃ low high, numerals? text.toList = some (low, high) ∧
          ∀ low' high', IsNumeral low' ∧ IsNumeral high' ∧ text.toList = low' ++ '-' :: high' ↔
            low' = low ∧ high' = high) := by
  have hagree : isNumericRange text.toList = true ↔ (numerals? text.toList).isSome = true := by
    rw [isNumericRange_iff, isSome_numerals?_iff]
  refine ⟨isNumericRange_iff_mem, isSome_numerals?_iff_mem, hagree,
    classify_eq_numericRange_iff.trans hagree, fun hrange => ?_⟩
  obtain ⟨low, high, hlow, hhigh, htext⟩ := isNumericRange_iff.1 hrange
  refine ⟨low, high, numerals?_eq_some_iff.2 ⟨hlow, hhigh, htext⟩, fun low' high' => ?_⟩
  constructor
  · rintro ⟨hlow', hhigh', htext'⟩
    exact ends_unique hlow hhigh hlow' hhigh' (htext'.symm.trans htext)
  · rintro ⟨rfl, rfl⟩
    exact ⟨hlow, hhigh, htext⟩

/-- Two signs in a row leave one way to read `-1--2`. -/
theorem numericRange_read_alike_signs :
    "-1--2".toList ∈ shorthandPattern.matches' ∧ "-1--2".toList ∈ argumentPattern.matches' ∧
      numerals? "-1--2".toList = some (['-', '1'], ['-', '2']) ∧
      ∀ low high, IsNumeral low ∧ IsNumeral high ∧ "-1--2".toList = low ++ '-' :: high →
        low = ['-', '1'] ∧ high = ['-', '2'] := by
  have hrange : isNumericRange "-1--2".toList = true := by decide
  have hends : numerals? "-1--2".toList = some (['-', '1'], ['-', '2']) := by decide
  obtain ⟨hshorthand, hargument, hagree, -, hunique⟩ := numericRange_read_alike "-1--2"
  refine ⟨hshorthand.1 hrange, hargument.1 (hagree.1 hrange), hends, fun low high h => ?_⟩
  obtain ⟨low', high', hends', hjoins⟩ := hunique hrange
  obtain ⟨rfl, rfl⟩ : low' = ['-', '1'] ∧ high' = ['-', '2'] := by
    simpa using hends'.symm.trans hends
  exact (hjoins low high).1 h

end NumberRange

end RandExpr
