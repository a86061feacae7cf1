import RandExpr.Proofs.Expr.Pieces
import RandExpr.Proofs.Expr.Spelling

/-!
# Canonical texts

What becomes of a text once it is canonical.

## The model

The canonical text of a shorthand is a kind, a `:` and the rest (`Shorthand.kind`,
`Shorthand.rest`). `Shorthand.spelling` puts the short form together again.

## What is proved

* `Shorthand.classify_canonical` — the canonical text of a shorthand is no shorthand, so there is
  nothing in it left to expand.
* `Shorthand.spelling_of_spells`, `Shorthand.canonical_inj` — a shorthand tells the text that it is
  short for, and its canonical text tells the shorthand.
* `canonicalText_stable` — expanding a text once is enough, a text that has been taken apart can be
  taken apart again, and no two shorthands have the same canonical text.
-/

namespace RandExpr

/-- Texts with a mark in them are the same before their first mark, and behind it. -/
theorem Text.append_mark_inj {mark : Char} {before before' after after' : List Char}
    (h : mark ∉ before) (h' : mark ∉ before')
    (heq : before ++ mark :: after = before' ++ mark :: after') :
    before = before' ∧ after = after' := by
  induction before generalizing before' with
  | nil =>
    cases before' with
    | nil => exact ⟨rfl, (List.cons.inj heq).2⟩
    | cons c cs =>
      obtain ⟨rfl, -⟩ := List.cons.inj heq
      exact absurd List.mem_cons_self h'
  | cons c cs ih =>
    cases before' with
    | nil =>
      obtain ⟨rfl, -⟩ := List.cons.inj heq
      exact absurd List.mem_cons_self h
    | cons c' cs' =>
      obtain ⟨rfl, htail⟩ := List.cons.inj heq
      obtain ⟨rfl, rfl⟩ := ih (fun hmem => h (List.mem_cons_of_mem _ hmem))
        (fun hmem => h' (List.mem_cons_of_mem _ hmem)) htail
      exact ⟨rfl, rfl⟩

namespace Shorthand

/-- The kind that a shorthand stands for. -/
def kind : Shorthand → String
  | multiplier .. => "repeat"
  | numericRange _ => "number"
  | charRange _ => "char"
  | literal _ => "literal"

/-- What stands behind the kind in the canonical text. -/
def rest : Shorthand → String
  | multiplier count payload => count ++ ":" ++ payload
  | numericRange text | charRange text | literal text => text

/-- The short form of a shorthand. -/
def spelling : Shorthand → String
  | multiplier count payload => count ++ "*" ++ payload
  | numericRange text | charRange text | literal text => text

theorem toList_canonical (shorthand : Shorthand) :
    shorthand.canonical.toList = shorthand.kind.toList ++ ':' :: shorthand.rest.toList := by
  cases shorthand <;> simp [canonical, kind, rest, String.toList_append]

theorem colon_not_mem_kind (shorthand : Shorthand) : ':' ∉ shorthand.kind.toList := by
  cases shorthand <;> simp [kind]

/-- **The canonical text of a shorthand is no shorthand.** -/
theorem classify_canonical (shorthand : Shorthand) : classify shorthand.canonical = none := by
  have hstart : ∃ c cs, shorthand.kind.toList = c :: cs ∧ c.isDigit = false ∧ c ≠ '"' := by
    cases shorthand <;> simp [kind]
  obtain ⟨c, cs, hkind, hdigit, hquote⟩ := hstart
  have htext := shorthand.toList_canonical
  rw [hkind, List.cons_append] at htext
  exact classify_of_colon htext hdigit hquote (by simp)

theorem spelling_of_spells {text : String} {shorthand : Shorthand} (h : Spells shorthand text) :
    shorthand.spelling = text := by
  cases h with
  | multiplier => simp [spelling, multiplierText, ← String.toList_inj, String.toList_append]
  | numericRange | charRange | literal => rfl

theorem colon_not_mem_count {text count payload : String}
    (h : Spells (.multiplier count payload) text) : ':' ∉ count.toList := by
  cases h with
  | multiplier _ hdigits =>
    intro hmem
    exact absurd (hdigits ':' hmem) (by decide)

/-- **The canonical text of a shorthand tells the shorthand.** -/
theorem canonical_inj {text text' : String} {shorthand shorthand' : Shorthand}
    (h : Spells shorthand text) (h' : Spells shorthand' text')
    (heq : shorthand.canonical = shorthand'.canonical) : shorthand = shorthand' := by
  have hparts : shorthand.kind.toList = shorthand'.kind.toList ∧
      shorthand.rest.toList = shorthand'.rest.toList := by
    apply Text.append_mark_inj (colon_not_mem_kind _) (colon_not_mem_kind _)
    rw [← toList_canonical, ← toList_canonical, heq]
  have hkind := String.toList_inj.1 hparts.1
  have hrest := String.toList_inj.1 hparts.2
  cases shorthand <;> cases shorthand' <;> simp [kind] at hkind
  case multiplier.multiplier count payload count' payload' =>
    have hpieces : count.toList = count'.toList ∧ payload.toList = payload'.toList := by
      apply Text.append_mark_inj (colon_not_mem_count h) (colon_not_mem_count h')
      simpa [rest, String.toList_append] using hparts.2
    rw [String.toList_inj.1 hpieces.1, String.toList_inj.1 hpieces.2]
  case numericRange.numericRange => exact congrArg numericRange hrest
  case charRange.charRange => exact congrArg charRange hrest
  case literal.literal => exact congrArg literal hrest

end Shorthand

theorem canonicalText_of_classify {s : String} {shorthand : Shorthand}
    (h : Shorthand.classify s = some shorthand) : canonicalText s = shorthand.canonical := by
  unfold canonicalText
  rw [h]

theorem canonicalText_of_none {s : String} (h : Shorthand.classify s = none) :
    canonicalText s = s := by
  unfold canonicalText
  rw [h]

theorem classify_canonicalText (s : String) : Shorthand.classify (canonicalText s) = none := by
  cases h : Shorthand.classify s with
  | none => rwa [canonicalText_of_none h]
  | some shorthand =>
    rw [canonicalText_of_classify h]
    exact shorthand.classify_canonical

/-- **Expanding a text once is enough.** A canonical text is expanded to itself, and a text is
expanded to another one exactly if it is a shorthand. So what a text is taken apart into remembers
the canonical text, which is taken apart into the same. And of two shorthands that have the same
canonical text, each is the other. -/
theorem canonicalText_stable (s : String) :
    canonicalText (canonicalText s) = canonicalText s ∧
    (canonicalText s ≠ s ↔ ∃ shorthand, Shorthand.classify s = some shorthand) ∧
    (∀ e, Expr.parse s = .ok e → e.source = canonicalText s ∧ Expr.parse e.source = .ok e) ∧
    ∀ t shorthand shorthand', Shorthand.classify s = some shorthand →
      Shorthand.classify t = some shorthand' → canonicalText s = canonicalText t → s = t := by
  have hstable : canonicalText (canonicalText s) = canonicalText s :=
    canonicalText_of_none (classify_canonicalText s)
  refine ⟨hstable, ⟨fun hne => ?_, ?_⟩, fun e hparse => ?_, ?_⟩
  · cases h : Shorthand.classify s with
    | none => exact absurd (canonicalText_of_none h) hne
    | some shorthand => exact ⟨shorthand, rfl⟩
  · rintro ⟨shorthand, h⟩ hsame
    have hnone := classify_canonicalText s
    rw [hsame, h] at hnone
    cases hnone
  · have hsource : e.source = canonicalText s := by
      obtain ⟨kind, args, -, rfl⟩ := Expr.split_eq_ok_iff.1 hparse
      rfl
    refine ⟨hsource, ?_⟩
    show Expr.split (canonicalText e.source) = .ok e
    rw [hsource, hstable]
    exact hparse
  · intro t shorthand shorthand' h h' heq
    rw [canonicalText_of_classify h, canonicalText_of_classify h'] at heq
    have hspells := Shorthand.spells_of_classify h
    have hspells' := Shorthand.spells_of_classify h'
    obtain rfl := Shorthand.canonical_inj hspells hspells' heq
    exact (Shorthand.spelling_of_spells hspells).symm.trans
      (Shorthand.spelling_of_spells hspells')

/-- A multiplier of a multiplier: only the outer one is expanded. -/
theorem canonicalText_stable_multiplier :
    let e : Expr := ⟨"repeat:2:(3*(a-z))", "repeat", ["2", "(3*(a-z))"], ⟨0, 6⟩⟩
    Expr.parse "2*(3*(a-z))" = .ok e ∧ canonicalText "2*(3*(a-z))" ≠ "2*(3*(a-z))" ∧
      e.source = canonicalText "2*(3*(a-z))" ∧ Expr.parse e.source = .ok e := by
  intro e
  have hparse : Expr.parse "2*(3*(a-z))" = .ok e := by rfl
  have hclassify :
      Shorthand.classify "2*(3*(a-z))" = some (.multiplier "2" "(3*(a-z))") := by rfl
  obtain ⟨-, hnew, hagain, -⟩ := canonicalText_stable "2*(3*(a-z))"
  exact ⟨hparse, hnew.2 ⟨_, hclassify⟩, hagain e hparse⟩

end RandExpr
