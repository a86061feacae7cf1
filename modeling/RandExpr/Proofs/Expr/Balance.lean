import RandExpr.Expr.Basic
import Mathlib.Data.List.TakeWhile
import Mathlib.Tactic.SplitIfs

/-!
# Balanced texts

A text whose groups fit together keeps that property on the way down into its arguments.

## The model

Two scans are alike (`Scan.Alike`) if both stand inside a quote or neither does, and as many groups
are open in both, wherever they were opened: what they make of the same text from there on differs
in offsets only. A text is balanced if a scan that starts with nothing open finds every group closed
and none closed that is not open; a quote may be left open.

## What is proved

* `exists_split_iff`, `exists_parse_iff` — a text can be taken apart exactly if it is balanced.
* `balanced_of_pieces` — the arguments of a text that can be taken apart are balanced, though they
  are scanned from the start again.
* `balanced_unwrapGroup`, `balanced_canonicalText` — so they are without the parentheses around
  them, and when a shorthand is expanded.
* `exists_parse_of_mem_args` — hence every argument can be taken apart in its turn.
-/

namespace RandExpr

namespace Scan

/-- The scans differ in offsets only. -/
def Alike (s t : Scan) : Prop := s.inQuote = t.inQuote ∧ s.groups.length = t.groups.length

theorem move_of_alike {s t : Scan} (h : Alike s t) (c : Char) :
    (∃ s' t', s.move c = .keep s' ∧ t.move c = .keep t' ∧ Alike s' t') ∨
      (∃ s' t', s.move c = .cut s' ∧ t.move c = .cut t' ∧ Alike s' t') ∨
      s.move c = .stray ∧ t.move c = .stray := by
  obtain ⟨spos, quote, sgroups⟩ := s
  obtain ⟨tpos, tquote, tgroups⟩ := t
  obtain ⟨hquote, hlength⟩ := h
  obtain rfl : quote = tquote := hquote
  have hlength : sgroups.length = tgroups.length := hlength
  simp only [move]
  by_cases hq : c = '"'
  · rw [if_pos hq, if_pos hq]
    exact .inl ⟨_, _, rfl, rfl, rfl, hlength⟩
  rw [if_neg hq, if_neg hq]
  by_cases hin : quote = true
  · rw [if_pos hin, if_pos hin]
    exact .inl ⟨_, _, rfl, rfl, rfl, hlength⟩
  rw [if_neg hin, if_neg hin]
  by_cases hopen : c = '('
  · rw [if_pos hopen, if_pos hopen]
    exact .inl ⟨_, _, rfl, rfl, rfl, congrArg (· + 1) hlength⟩
  rw [if_neg hopen, if_neg hopen]
  by_cases hclose : c = ')'
  · rw [if_pos hclose, if_pos hclose]
    match sgroups, tgroups, hlength with
    | [], [], _ => exact .inr (.inr ⟨rfl, rfl⟩)
    | _ :: _, _ :: _, hlength =>
      exact .inl ⟨_, _, rfl, rfl, rfl, Nat.succ.inj hlength⟩
  rw [if_neg hclose, if_neg hclose]
  have hnil : sgroups = [] ↔ tgroups = [] := by
    rw [← List.length_eq_zero_iff, hlength, List.length_eq_zero_iff]
  by_cases hcut : c = ':' ∧ sgroups = []
  · rw [if_pos hcut, if_pos (hcut.imp_right hnil.1)]
    exact .inr (.inl ⟨_, _, rfl, rfl, rfl, hlength⟩)
  · rw [if_neg hcut, if_neg fun h => hcut (h.imp_right hnil.2)]
    exact .inl ⟨_, _, rfl, rfl, rfl, hlength⟩

theorem balanced_of_alike {s t : Scan} (h : Alike s t) (cs : List Char) :
    s.balanced cs = t.balanced cs := by
  induction cs generalizing s t with
  | nil =>
    rw [balanced, balanced, Bool.eq_iff_iff, List.isEmpty_iff_length_eq_zero,
      List.isEmpty_iff_length_eq_zero, h.2]
  | cons c cs ih =>
    rw [balanced, balanced]
    rcases move_of_alike h c with ⟨s', t', hs, ht, h'⟩ | ⟨s', t', hs, ht, h'⟩ | ⟨hs, ht⟩
    · rw [hs, ht]
      exact ih h'
    · rw [hs, ht]
      exact ih h'
    · rw [hs, ht]

/-! ### Pieces -/

/-- A text falls into pieces exactly if it is balanced. -/
theorem exists_pieces_iff (s : Scan) (cs : List Char) :
    (∃ p, s.pieces cs = .ok p) ↔ s.balanced cs = true := by
  have hmap (next : Scan) (cs : List Char)
      (f : List Char × List (List Char) → List Char × List (List Char)) :
      (∃ p, (next.pieces cs).map f = .ok p) ↔ ∃ p, next.pieces cs = .ok p := by
    cases next.pieces cs <;> simp [Except.map]
  induction cs generalizing s with
  | nil =>
    rw [pieces, balanced]
    cases s.groups <;> simp
  | cons c cs ih =>
    rw [pieces, balanced]
    cases s.move c with
    | keep next => exact (hmap next cs _).trans (ih next)
    | cut next => exact (hmap next cs _).trans (ih next)
    | stray => simp

theorem alike_of_cut {s next : Scan} {c : Char} (h : s.move c = .cut next) :
    s.groups = [] ∧ Alike next {} := by
  obtain ⟨pos, quote, groups⟩ := s
  simp only [move] at h
  split_ifs at h with hq hin hopen hclose hcut
  · cases groups <;> simp at h
  · obtain rfl : _ = next := by simpa using h
    obtain ⟨-, rfl⟩ := hcut
    exact ⟨rfl, by simpa using hin, rfl⟩

theorem pieces_of_alike {s t : Scan} (h : Alike s t) {cs : List Char}
    {p : List Char × List (List Char)} (hp : s.pieces cs = .ok p) : t.pieces cs = .ok p := by
  induction cs generalizing s t p with
  | nil =>
    rw [pieces] at hp ⊢
    have hlength := h.2
    cases hs : s.groups with
    | nil =>
      rw [hs] at hp hlength
      rw [List.length_eq_zero_iff.1 hlength.symm]
      exact hp
    | cons g gs => simp [hs] at hp
  | cons c cs ih =>
    rw [pieces] at hp ⊢
    rcases move_of_alike h c with ⟨s', t', hs, ht, h'⟩ | ⟨s', t', hs, ht, h'⟩ | ⟨hs, -⟩
    · simp only [hs] at hp
      simp only [ht]
      cases hrest : s'.pieces cs with
      | error f => simp [hrest, Except.map] at hp
      | ok q => rwa [ih h' hrest, ← hrest]
    · simp only [hs] at hp
      simp only [ht]
      cases hrest : s'.pieces cs with
      | error f => simp [hrest, Except.map] at hp
      | ok q => rwa [ih h' hrest, ← hrest]
    · simp [hs] at hp

/-- **Every piece of a text is a single piece by itself**, the first from where the scan stands, the
others from the start. -/
theorem pieces_of_pieces {s : Scan} {cs first : List Char} {rest : List (List Char)}
    (h : s.pieces cs = .ok (first, rest)) :
    s.pieces first = .ok (first, []) ∧ ∀ piece ∈ rest, pieces {} piece = .ok (piece, []) := by
  induction cs generalizing s first rest with
  | nil =>
    have hp := h
    rw [pieces] at h
    cases hgroups : s.groups with
    | nil =>
      obtain ⟨rfl, rfl⟩ : [] = first ∧ [] = rest := by simpa [hgroups] using h
      exact ⟨hp, by simp⟩
    | cons g gs => simp [hgroups] at h
  | cons c cs ih =>
    rcases of_pieces_cons h with
      ⟨next, first', hm, hp, rfl⟩ | ⟨next, first', rest', hm, hp, rfl, rfl⟩
    · obtain ⟨hfirst, hrest⟩ := ih hp
      refine ⟨?_, hrest⟩
      rw [pieces, hm]
      simp only [hfirst]
      rfl
    · -- behind a cut the scan starts anew, but for the offset
      obtain ⟨hfirst, hrest⟩ := ih hp
      obtain ⟨hgroups, halike⟩ := alike_of_cut hm
      refine ⟨by rw [pieces, hgroups], List.forall_mem_cons.2 ⟨?_, hrest⟩⟩
      exact pieces_of_alike halike hfirst

/-- Every piece of a text is balanced, the first as far as it goes from where the scan stands, the
others from the start. -/
theorem balanced_of_pieces {s : Scan} {cs first : List Char} {rest : List (List Char)}
    (h : s.pieces cs = .ok (first, rest)) :
    s.balanced first = true ∧ ∀ piece ∈ rest, balanced {} piece = true := by
  obtain ⟨hfirst, hrest⟩ := pieces_of_pieces h
  exact ⟨(exists_pieces_iff _ _).1 ⟨_, hfirst⟩,
    fun piece hpiece => (exists_pieces_iff _ _).1 ⟨_, hrest piece hpiece⟩⟩

/-! ### Arguments -/

theorem balanced_unwrapGroup {cs : List Char} (h : balanced {} cs = true) :
    balanced {} (unwrapGroup cs) = true := by
  rw [unwrapGroup]
  split
  next inner _ =>
    split_ifs with hinner
    · exact (groupsFit_eq_balanced {} inner).symm.trans hinner
    · exact h
  next => exact h

theorem balanced_append {cs : List Char} (h : ∀ c ∈ cs, c ≠ '"' ∧ c ≠ '(' ∧ c ≠ ')')
    (s : Scan) (rest : List Char) : s.balanced (cs ++ rest) = s.balanced rest := by
  induction cs generalizing s with
  | nil => rfl
  | cons c cs ih =>
    obtain ⟨hq, hopen, hclose⟩ := h c List.mem_cons_self
    have ih := ih fun c hc => h c (List.mem_cons_of_mem _ hc)
    have halike : Alike { s with pos := s.pos + c.utf8Size } s := ⟨rfl, rfl⟩
    have hmove : s.move c = .keep { s with pos := s.pos + c.utf8Size } ∨
        s.move c = .cut { s with pos := s.pos + c.utf8Size } := by
      simp only [move, if_neg hq, if_neg hopen, if_neg hclose]
      split_ifs
      · exact .inl rfl
      · exact .inr rfl
      · exact .inl rfl
    rw [List.cons_append, balanced]
    rcases hmove with hm | hm
    · rw [hm]
      exact (ih _).trans (balanced_of_alike halike rest)
    · rw [hm]
      exact (ih _).trans (balanced_of_alike halike rest)

end Scan

/-! ### Shorthands -/

theorem ne_of_isDigit {c : Char} (h : c.isDigit = true) : c ≠ '"' ∧ c ≠ '(' ∧ c ≠ ')' := by
  refine ⟨?_, ?_, ?_⟩ <;>
  · rintro rfl
    simp at h

theorem of_multiplier? {cs count payload : List Char}
    (h : multiplier? cs = some (count, payload)) :
    count ≠ [] ∧ (∀ c ∈ count, c.isDigit = true) ∧
      (∃ inner, inner ≠ [] ∧ '\n' ∉ inner ∧ payload = '(' :: (inner ++ [')'])) ∧
      cs = count ++ '*' :: payload := by
  have hspan : cs.takeWhile Char.isDigit ++ cs.dropWhile Char.isDigit = cs :=
    List.takeWhile_append_dropWhile
  have hdigits : ∀ c ∈ cs.takeWhile Char.isDigit, c.isDigit = true :=
    fun c hc => List.mem_takeWhile_imp hc
  rw [multiplier?] at h
  split at h
  next => simp at h
  next payload' hdrop hcount =>
    split at h
    next inner henclosed =>
      split_ifs at h with hinner
      obtain ⟨rfl, rfl⟩ : cs.takeWhile Char.isDigit = count ∧ payload' = payload := by
        simpa using h
      obtain ⟨hne, hline⟩ := not_or.1 hinner
      rw [hdrop] at hspan
      exact ⟨hcount, hdigits, ⟨inner, hne, by simpa using hline,
        Text.enclosed?_eq_some_iff.1 henclosed⟩, hspan.symm⟩
    next => simp at h
  next => simp at h

/-- What a shorthand is made of: a text that opens and closes nothing, before the rest of the
canonical text. -/
theorem exists_append_of_classify {text : String} {shorthand : Shorthand}
    (h : Shorthand.classify text = some shorthand) :
    ∃ before after rest, text.toList = before ++ rest ∧
      shorthand.canonical.toList = after ++ rest ∧
      ∀ c ∈ before ++ after, c ≠ '"' ∧ c ≠ '(' ∧ c ≠ ')' := by
  rw [Shorthand.classify] at h
  split at h
  next count payload hmultiplier =>
    obtain rfl : .multiplier (String.ofList count) (String.ofList payload) = shorthand := by
      simpa using h
    obtain ⟨-, hdigits, -, htext⟩ := of_multiplier? hmultiplier
    refine ⟨count ++ ['*'], "repeat:".toList ++ count ++ [':'], payload, by simp [htext],
      by simp [Shorthand.canonical, String.toList_append], ?_⟩
    have hcount : ∀ c ∈ count, c ≠ '"' ∧ c ≠ '(' ∧ c ≠ ')' :=
      fun c hc => ne_of_isDigit (hdigits c hc)
    rw [List.forall_mem_append, List.forall_mem_append, List.forall_mem_append,
      List.forall_mem_append]
    exact ⟨⟨hcount, by simp⟩, ⟨by simp, hcount⟩, by simp⟩
  next =>
    split_ifs at h with hrange hchars hliteral
    · obtain rfl : .numericRange text = shorthand := by simpa using h
      exact ⟨[], "number:".toList, text.toList, rfl, String.toList_append, by simp⟩
    · obtain rfl : .charRange text = shorthand := by simpa using h
      exact ⟨[], "char:".toList, text.toList, rfl, String.toList_append, by simp⟩
    · obtain rfl : .literal text = shorthand := by simpa using h
      exact ⟨[], "literal:".toList, text.toList, rfl, String.toList_append, by simp⟩

theorem balanced_canonicalText (text : String) :
    Scan.balanced {} (canonicalText text).toList = Scan.balanced {} text.toList := by
  rw [canonicalText]
  split
  next shorthand hshorthand =>
    obtain ⟨before, after, rest, htext, hcanonical, hplain⟩ :=
      exists_append_of_classify hshorthand
    rw [htext, hcanonical,
      Scan.balanced_append fun c hc => hplain c (List.mem_append_left _ hc),
      Scan.balanced_append fun c hc => hplain c (List.mem_append_right _ hc)]
  next => rfl

namespace Expr

theorem exists_split_iff (text : String) :
    (∃ e, split text = .ok e) ↔ Scan.balanced {} text.toList = true := by
  rw [← Scan.exists_pieces_iff, split]
  cases Scan.pieces {} text.toList with
  | ok p => simp
  | error f => simp

/-- **A text can be taken apart exactly if it is balanced.** -/
theorem exists_parse_iff (text : String) :
    (∃ e, parse text = .ok e) ↔ Scan.balanced {} text.toList = true := by
  rw [← balanced_canonicalText, ← exists_split_iff, parse]

/-- **Every argument can be taken apart in its turn**, in parentheses or not. -/
theorem exists_parse_of_mem_args {text : String} {e : Expr} (h : parse text = .ok e) {arg : String}
    (harg : arg ∈ e.args) : ∃ e', parse (String.ofList (unwrapGroup arg.toList)) = .ok e' := by
  rw [parse, split] at h
  split at h
  next kind args hpieces =>
    obtain rfl := Except.ok.inj h
    obtain ⟨piece, hpiece, rfl⟩ := List.mem_map.1 harg
    have hbalanced := (Scan.balanced_of_pieces hpieces).2 piece hpiece
    rw [exists_parse_iff, String.toList_ofList, String.toList_ofList]
    exact Scan.balanced_unwrapGroup hbalanced
  next => simp at h

end Expr

end RandExpr
