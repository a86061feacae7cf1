import RandExpr.Proofs.Form.Quoting

/-!
# Literals

The text of a literal in canonical form, whatever colons, groups and quotes are in it.

## The model

`withoutQuotes` takes off the double quotes at the two ends of a text, if the text starts with one
and ends with another.

## What is proved

* `Recipe.literalText_eq` — the text of a literal is its arguments joined again, without quotes.
* `build_literal` — a literal that can be taken apart is built, and every value is the text behind
  the first colon, without quotes.
-/

namespace RandExpr

open Catalog (builtin)

variable {W : Type} [Host W]

/-- A text without the double quotes at its two ends, if it has them there. -/
def withoutQuotes (text : String) : String :=
  if 2 ≤ text.length ∧ text.toList.head? = some '"' ∧ text.toList.getLast? = some '"' then
    String.ofList text.toList.tail.dropLast
  else text

/-- A text has two ends of its own if it has two characters at least. -/
theorem Text.exists_enclosed_iff {first last : Char} {cs : List Char} :
    (∃ inner, cs = first :: (inner ++ [last])) ↔
      2 ≤ cs.length ∧ cs.head? = some first ∧ cs.getLast? = some last := by
  constructor
  · rintro ⟨inner, rfl⟩
    refine ⟨by simp, rfl, ?_⟩
    rw [← List.cons_append, List.getLast?_concat]
  · rintro ⟨hlength, hhead, hlast⟩
    cases cs with
    | nil => nomatch hhead
    | cons c cs =>
      obtain rfl : c = first := by simpa using hhead
      have hne : cs ≠ [] := by
        rintro rfl
        simp at hlength
      rw [List.getLast?_cons_of_ne_nil hne] at hlast
      obtain ⟨inner, rfl⟩ := List.getLast?_eq_some_iff.1 hlast
      exact ⟨inner, rfl⟩

/-- **The text of a literal is its arguments joined again, without quotes.** -/
theorem Recipe.literalText_eq (args : List String) :
    literalText args = withoutQuotes (":".intercalate args) := by
  unfold literalText withoutQuotes
  generalize ":".intercalate args = joined
  have hends := @Text.exists_enclosed_iff '"' '"' joined.toList
  rw [String.length_toList] at hends
  by_cases henclosed : ∃ inner, joined.toList = '"' :: (inner ++ ['"'])
  · rw [if_pos (hends.1 henclosed)]
    obtain ⟨inner, hinner⟩ := henclosed
    simp only [hinner, Text.enclosed?_cons_append, List.tail_cons, List.dropLast_concat]
  · rw [if_neg fun h => henclosed (hends.2 h)]
    have hnone : Text.enclosed? '"' '"' joined.toList = none := by
      rw [Option.eq_none_iff_forall_ne_some]
      intro inner hinner
      exact henclosed ⟨inner, Text.enclosed?_eq_some_iff.1 hinner⟩
    simp only [hnone]

example : Recipe.literalText ["\""] = "\"" := by rfl

/-! ### The kind with its text -/

theorem Shorthand.classify_literal (text : String) : classify ("literal:" ++ text) = none := by
  have htext : ("literal:" ++ text).toList = 'l' :: ("iteral".toList ++ ':' :: text.toList) := by
    rw [toList_literal]
    rfl
  exact classify_of_colon htext rfl (by decide) (by simp)

/-- **A literal keeps its text.** Let what stands behind `literal:` leave no parenthesis without its
match, which is so for whatever stands between quotes. Then the literal is built, its arguments are
the text cut at colons, and every value is the text without the quotes at its ends. -/
theorem build_literal (text : String) (options : Options) (w : W) :
    ((∃ e, Expr.split ("literal:" ++ text) = .ok e) →
      ∃ g w', builtin.build options ("literal:" ++ text) w = (.ok g, w') ∧ g.kind = "literal" ∧
        ":".intercalate g.args = text ∧ g.HandsOut fun _ => .text (withoutQuotes text)) ∧
    ('"' ∉ text.toList → ∃ e, Expr.split ("literal:" ++ quotedText text) = .ok e) := by
  refine ⟨?_, fun hquote => ⟨_, Expr.split_quotedText hquote⟩⟩
  rintro ⟨e, hsplit⟩
  have hparse : Expr.parse ("literal:" ++ text) = .ok e := by
    rw [Expr.parse, canonicalText, Shorthand.classify_literal]
    exact hsplit
  obtain ⟨p, hp, rfl⟩ := (Expr.split_cut_iff (toList_literal text) (by decide)).1 hsplit
  have hjoined := Expr.intercalate_of_split hp
  have hform := Form.Written.literal (Nat.zero_le maxDepth) hparse rfl
  obtain ⟨g, w', hg, hanswered⟩ := hform.exists_answered trivial options w
  obtain ⟨e', hparse', hkind, hargs⟩ := hanswered.named
  obtain rfl := Except.ok.inj (hparse'.symm.trans hparse)
  refine ⟨g, w', hg, hkind, by rw [hargs, hjoined], hanswered.of_value_eq ?_⟩
  intro stream k
  rw [Form.value, Recipe.literalText_eq, hjoined]

/-- A text with colons at its ends, twice over and each of them a cut, and a group and a quote with
colons in them, which are none. -/
theorem build_literal_colons :
    (∃ e, Expr.split "literal:::a::(b:c):\"d:e\"::" = .ok e ∧
        e.args = ["", "", "a", "", "(b:c)", "\"d:e\"", "", ""]) ∧
      ∃ g w', builtin.build {} "literal:::a::(b:c):\"d:e\"::" (⟨[]⟩ : Diary) = (.ok g, w') ∧
        g.HandsOut fun _ => .text "::a::(b:c):\"d:e\"::" := by
  have hsplit : ∃ e, Expr.split "literal:::a::(b:c):\"d:e\"::" = .ok e := ⟨_, rfl⟩
  obtain ⟨g, w', hg, -, -, hanswers⟩ :=
    (build_literal "::a::(b:c):\"d:e\"::" {} (⟨[]⟩ : Diary)).1 hsplit
  exact ⟨⟨_, rfl, rfl⟩, g, w', hg, hanswers⟩

end RandExpr
