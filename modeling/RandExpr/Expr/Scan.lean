import RandExpr.Text.Enclosed
import RandExpr.Text.Span

/-!
# Scanning an expression

One pass over the characters of an expression, from left to right, that knows which characters are
quoted and which groups are open.

## The model

A scan (`Scan`) carries the byte offset of the next character, whether a quote is open, and the
offsets of the open groups, innermost first. A double quote opens or closes a quote; every other
character inside a quote is plain text, and a quote that is never closed runs to the end. Outside
quotes `(` opens a group and `)` closes the innermost one; a `)` with no open group is stray. A `:`
with no open group is a cut. `pieces` collects the text between cuts, `firstCut` keeps the offset of
the first of them, and `balanced` only follows the groups.

`unwrapGroup` takes off a pair of parentheses that encloses a whole text. It goes through the text
between them in its own way (`groupsFit`): no offsets are kept, the open groups are only counted,
and cuts mean nothing to it.

## What is proved

* `eq_of_pieces` — no character is lost, so the pieces with a `:` before each but the first are the
  whole text.
* `firstCut_of_pieces` — the first cut stands behind the first piece.
* `groupsFit_eq_balanced` — counting the open groups and remembering where they were opened accept
  the same texts.
* `unwrapGroup_group`, `unwrapGroup_of_ne` — what becomes of a text between parentheses, and of any
  other.
-/

namespace RandExpr

/-- Where a pass over an expression stands. -/
structure Scan where
  /-- The byte offset of the next character. -/
  pos : Nat := 0
  /-- Whether a quote is open. -/
  inQuote : Bool := false
  /-- The byte offsets of the open groups, innermost first. -/
  groups : List Nat := []
  deriving DecidableEq, Repr

/-- What one character does to a scan. -/
inductive Scan.Move where
  /-- The character belongs to the piece being read. -/
  | keep (next : Scan)
  /-- The character ends the piece being read. -/
  | cut (next : Scan)
  /-- The character closes a group where none is open. -/
  | stray
  deriving DecidableEq, Repr

/-- Why the groups of an expression do not fit together. -/
inductive GroupFault where
  /-- The `)` at the offset closes nothing. -/
  | stray (offset : Nat)
  /-- The group opened at the offset is never closed. -/
  | unclosed (offset : Nat)
  deriving DecidableEq, Repr

namespace Scan

/-- Reads one character. -/
def move (s : Scan) (c : Char) : Move :=
  let next := { s with pos := s.pos + c.utf8Size }
  if c = '"' then .keep { next with inQuote := !s.inQuote }
  else if s.inQuote then .keep next
  else if c = '(' then .keep { next with groups := s.pos :: s.groups }
  else if c = ')' then
    match s.groups with
    | [] => .stray
    | _ :: outer => .keep { next with groups := outer }
  else if c = ':' ∧ s.groups = [] then .cut next
  else .keep next

/-- The text up to the first cut, and the texts between the later cuts. -/
def pieces : Scan → List Char → Except GroupFault (List Char × List (List Char))
  | s, [] =>
    match s.groups with
    | [] => .ok ([], [])
    | innermost :: _ => .error (.unclosed innermost)
  | s, c :: cs =>
    match s.move c with
    | .keep next => (next.pieces cs).map fun (first, rest) => (c :: first, rest)
    | .cut next => (next.pieces cs).map fun (first, rest) => ([], first :: rest)
    | .stray => .error (.stray s.pos)

/-- The offset of the first cut, if there is one. -/
def firstCut : Scan → List Char → Option Nat
  | _, [] => none
  | s, c :: cs =>
    match s.move c with
    | .keep next => next.firstCut cs
    | .cut _ => some s.pos
    | .stray => none

/-- Whether every group that the text opens is closed in it, and none besides. -/
def balanced : Scan → List Char → Bool
  | s, [] => s.groups.isEmpty
  | s, c :: cs =>
    match s.move c with
    | .keep next | .cut next => next.balanced cs
    | .stray => false

theorem eq_colon_of_move {s next : Scan} {c : Char} (h : s.move c = .cut next) : c = ':' := by
  unfold move at h
  grind

/-- The first character of a text belongs to the first piece, or cuts the text before the pieces of
the rest. -/
theorem of_pieces_cons {s : Scan} {c : Char} {cs first : List Char} {rest : List (List Char)}
    (h : s.pieces (c :: cs) = .ok (first, rest)) :
    (∃ next first', s.move c = .keep next ∧ next.pieces cs = .ok (first', rest) ∧
        first = c :: first') ∨
      ∃ next first' rest', s.move c = .cut next ∧ next.pieces cs = .ok (first', rest') ∧
        first = [] ∧ rest = first' :: rest' := by
  rw [pieces] at h
  cases hm : s.move c with
  | stray => simp [hm] at h
  | keep next =>
    simp only [hm] at h
    cases hp : next.pieces cs with
    | error f => simp [hp, Except.map] at h
    | ok p =>
      obtain ⟨first', rest'⟩ := p
      obtain ⟨rfl, rfl⟩ : c :: first' = first ∧ rest' = rest := by simpa [hp, Except.map] using h
      exact .inl ⟨next, first', rfl, hp, rfl⟩
  | cut next =>
    simp only [hm] at h
    cases hp : next.pieces cs with
    | error f => simp [hp, Except.map] at h
    | ok p =>
      obtain ⟨first', rest'⟩ := p
      obtain ⟨rfl, rfl⟩ : [] = first ∧ first' :: rest' = rest := by
        simpa [hp, Except.map] using h
      exact .inr ⟨next, first', rest', rfl, hp, rfl, rfl⟩

/-- The pieces, with a `:` before each but the first, are the whole text. -/
theorem eq_of_pieces {s : Scan} {cs first : List Char} {rest : List (List Char)}
    (h : s.pieces cs = .ok (first, rest)) : cs = first ++ rest.flatMap (':' :: ·) := by
  induction cs generalizing s first rest with
  | nil =>
    unfold pieces at h
    grind
  | cons c cs ih =>
    rcases of_pieces_cons h with ⟨_, _, -, hp, rfl⟩ | ⟨_, _, _, hm, hp, rfl, rfl⟩
    · simpa using ih hp
    · simpa [eq_colon_of_move hm] using ih hp

theorem pos_of_move {s next : Scan} {c : Char} (h : s.move c = .keep next) :
    next.pos = s.pos + c.utf8Size := by
  unfold move at h
  grind

/-- **The first cut stands behind the first piece**, if there are others. -/
theorem firstCut_of_pieces {s : Scan} {cs first : List Char} {rest : List (List Char)}
    (h : s.pieces cs = .ok (first, rest)) :
    s.firstCut cs = if rest = [] then none else some (s.pos + Text.bytes first) := by
  induction cs generalizing s first rest with
  | nil =>
    unfold pieces at h
    split at h
    next =>
      cases h
      rfl
    next => cases h
  | cons c cs ih =>
    rcases of_pieces_cons h with ⟨next, first', hm, hp, rfl⟩ | ⟨_, _, _, hm, -, rfl, rfl⟩
    · rw [firstCut, hm]
      simp only [ih hp, pos_of_move hm, Text.bytes_cons, Nat.add_assoc]
    · rw [firstCut, hm, if_neg (List.cons_ne_nil _ _)]
      rfl

end Scan

/-- Whether the groups of a text fit together, where `depth` groups are open before it, and a quote
is or is not. -/
def groupsFit : (depth : Nat) → (inQuote : Bool) → List Char → Bool
  | depth, _, [] => depth == 0
  | depth, inQuote, c :: cs =>
    if c = '"' then groupsFit depth (!inQuote) cs
    else if inQuote then groupsFit depth inQuote cs
    else if c = '(' then groupsFit (depth + 1) inQuote cs
    else if c = ')' then
      match depth with
      | 0 => false
      | depth + 1 => groupsFit depth inQuote cs
    else groupsFit depth inQuote cs

/-- **Counting the open groups accepts the same texts as remembering where they were opened.** -/
theorem groupsFit_eq_balanced (s : Scan) (cs : List Char) :
    groupsFit s.groups.length s.inQuote cs = s.balanced cs := by
  induction cs generalizing s with
  | nil => cases hgroups : s.groups <;> simp [groupsFit, Scan.balanced, hgroups]
  | cons c cs ih =>
    unfold groupsFit Scan.balanced Scan.move
    by_cases hquote : c = '"'
    · simp only [if_pos hquote]
      exact ih { s with pos := s.pos + c.utf8Size, inQuote := !s.inQuote }
    simp only [if_neg hquote]
    by_cases hin : s.inQuote = true
    · simp only [if_pos hin]
      exact ih { s with pos := s.pos + c.utf8Size }
    simp only [if_neg hin]
    by_cases hopen : c = '('
    · simp only [if_pos hopen]
      exact ih { s with pos := s.pos + c.utf8Size, groups := s.pos :: s.groups }
    simp only [if_neg hopen]
    by_cases hclose : c = ')'
    · simp only [if_pos hclose]
      cases hgroups : s.groups with
      | nil => rfl
      | cons g outer => exact ih { s with pos := s.pos + c.utf8Size, groups := outer }
    simp only [if_neg hclose]
    have hnext := ih { s with pos := s.pos + c.utf8Size }
    by_cases hcut : c = ':' ∧ s.groups = []
    · simp only [if_pos hcut]
      exact hnext
    · simp only [if_neg hcut]
      exact hnext

/-- A text without the pair of parentheses around it, if the two belong together. -/
def unwrapGroup (cs : List Char) : List Char :=
  match Text.enclosed? '(' ')' cs with
  | some inner => if groupsFit 0 false inner then inner else cs
  | none => cs

/-- Parentheses come off a text exactly if what is between them is balanced. -/
theorem unwrapGroup_group (inner : List Char) :
    unwrapGroup ('(' :: (inner ++ [')'])) =
      if Scan.balanced {} inner then inner else '(' :: (inner ++ [')']) := by
  rw [← groupsFit_eq_balanced]
  simp only [unwrapGroup, Text.enclosed?_cons_append]
  rfl

theorem unwrapGroup_of_ne {cs : List Char} (h : ∀ inner, cs ≠ '(' :: (inner ++ [')'])) :
    unwrapGroup cs = cs := by
  rw [unwrapGroup]
  split
  next inner henclosed => exact absurd (Text.enclosed?_eq_some_iff.1 henclosed) (h inner)
  next => rfl

end RandExpr
