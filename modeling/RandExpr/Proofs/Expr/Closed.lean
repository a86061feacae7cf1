import RandExpr.Expr.Basic
import Mathlib.Algebra.Group.Nat.Even

/-!
# Closed texts

Texts that can stand in a group: every group that they open is closed in them, none besides, and no
quote is left open.

## The model

`Scan.run` follows a text to its end. A text is closed (`Scan.Closed`) if a scan that starts with
nothing open ends so. A scan that reads the same text with groups open around it makes the same
moves, but for the cuts, which it keeps (`Scan.Within`).

## What is proved

* `pieces_of_run` — a text that a scan can follow is kept whole by a scan with groups around it.
* `pieces_plain`, `pieces_inQuote` — so is a text without any of the characters that a scan looks
  for, and inside a quote a text without a quote.
* `scan_call` — a kind with two arguments, the second a closed text in parentheses, is closed and
  falls into the kind and these arguments.
* `unwrapGroup_of_closed` — the parentheses around a closed text come off.
* `closed_iff` — a text is closed exactly if it is balanced and its quotes are even in number.
-/

namespace RandExpr.Scan

/-- The scan at the end of a text, unless a `)` in it is stray. -/
def run : Scan → List Char → Option Scan
  | s, [] => some s
  | s, c :: cs =>
    match s.move c with
    | .keep next | .cut next => next.run cs
    | .stray => none

/-- Nothing is open at the end of the text, and nothing is closed in it that it does not open. -/
def Closed (cs : List Char) : Prop := ∃ pos, run {} cs = some ⟨pos, false, []⟩

theorem run_append (s : Scan) (cs ds : List Char) :
    s.run (cs ++ ds) = (s.run cs).bind fun s' => s'.run ds := by
  induction cs generalizing s with
  | nil => rfl
  | cons c cs ih =>
    rw [List.cons_append, run, run]
    cases s.move c with
    | keep next => exact ih next
    | cut next => exact ih next
    | stray => rfl

theorem exists_move_of_run {s s' : Scan} {c : Char} {cs : List Char}
    (h : s.run (c :: cs) = some s') :
    ∃ next, (s.move c = .keep next ∨ s.move c = .cut next) ∧ next.run cs = some s' := by
  rw [run] at h
  cases hm : s.move c with
  | keep next => exact ⟨next, .inl rfl, by simpa [hm] using h⟩
  | cut next => exact ⟨next, .inr rfl, by simpa [hm] using h⟩
  | stray => simp [hm] at h

theorem balanced_of_run {s s' : Scan} {cs : List Char} (h : s.run cs = some s')
    (hgroups : s'.groups = []) : s.balanced cs = true := by
  induction cs generalizing s with
  | nil =>
    obtain rfl : s = s' := by simpa [run] using h
    rw [balanced, hgroups]
    rfl
  | cons c cs ih =>
    obtain ⟨next, hmove | hmove, hrun⟩ := exists_move_of_run h
    · rw [balanced, hmove]
      exact ih hrun
    · rw [balanced, hmove]
      exact ih hrun

theorem exists_run_of_balanced {s : Scan} {cs : List Char} (h : s.balanced cs = true) :
    ∃ s', s.run cs = some s' ∧ s'.groups = [] := by
  induction cs generalizing s with
  | nil => exact ⟨s, rfl, List.isEmpty_iff.1 h⟩
  | cons c cs ih =>
    rw [balanced] at h
    rw [run]
    cases hm : s.move c with
    | keep next => exact ih (by simpa [hm] using h)
    | cut next => exact ih (by simpa [hm] using h)
    | stray => simp [hm] at h

theorem inQuote_of_move {s next : Scan} {c : Char}
    (h : s.move c = .keep next ∨ s.move c = .cut next) :
    next.inQuote = if c = '"' then !s.inQuote else s.inQuote := by
  unfold move at h
  grind

/-- A quote is left open if one was open before an even number of quotes, or none before an odd
number. -/
theorem inQuote_of_run {s s' : Scan} {cs : List Char} (h : s.run cs = some s') :
    s'.inQuote = s.inQuote ↔ Even (cs.count '"') := by
  induction cs generalizing s with
  | nil =>
    obtain rfl : s = s' := by simpa [run] using h
    simp
  | cons c cs ih =>
    obtain ⟨next, hmove, hrun⟩ := exists_move_of_run h
    have hnext := inQuote_of_move hmove
    have ih := ih hrun
    by_cases hquote : c = '"'
    · subst hquote
      rw [if_pos rfl] at hnext
      rw [List.count_cons_self, Nat.even_add_one, ← ih, hnext]
      cases s'.inQuote <;> cases s.inQuote <;> decide
    · rw [if_neg hquote] at hnext
      rw [List.count_cons_of_ne hquote, ← ih, hnext]

/-- **A text is closed exactly if it is balanced and its quotes are even in number.** -/
theorem closed_iff {cs : List Char} :
    Closed cs ↔ balanced {} cs = true ∧ Even (cs.count '"') := by
  constructor
  · rintro ⟨pos, hrun⟩
    exact ⟨balanced_of_run hrun rfl, (inQuote_of_run hrun).1 rfl⟩
  · rintro ⟨hbalanced, heven⟩
    obtain ⟨⟨pos, quote, groups⟩, hrun, hgroups⟩ := exists_run_of_balanced hbalanced
    obtain rfl : quote = false := (inQuote_of_run hrun).2 heven
    obtain rfl : groups = [] := hgroups
    exact ⟨pos, hrun⟩

/-! ### Groups around a text -/

/-- The second scan stands where the first does, but with groups around. -/
def Within (outer : List Nat) (s t : Scan) : Prop :=
  t.inQuote = s.inQuote ∧ ∃ gs, gs.length = s.groups.length ∧ t.groups = gs ++ outer

/-- With groups around, a character that does something is kept, and does the same. -/
theorem move_within {outer : List Nat} (houter : outer ≠ []) {s t s' : Scan} (h : Within outer s t)
    {c : Char} (hm : s.move c = .keep s' ∨ s.move c = .cut s') :
    ∃ t', t.move c = .keep t' ∧ Within outer s' t' := by
  obtain ⟨tpos, tquote, tgroups⟩ := t
  obtain ⟨spos, squote, sgroups⟩ := s
  obtain ⟨hquote, gs, hlen, hgroups⟩ := h
  obtain rfl : tquote = squote := hquote
  obtain rfl : tgroups = gs ++ outer := hgroups
  have hlen : gs.length = sgroups.length := hlen
  simp only [move] at hm ⊢
  by_cases hq : c = '"'
  · obtain rfl : _ = s' := by simpa [hq] using hm
    exact ⟨_, if_pos hq, rfl, gs, hlen, rfl⟩
  rw [if_neg hq] at hm ⊢
  by_cases hin : tquote = true
  · subst hin
    obtain rfl : _ = s' := by simpa using hm
    exact ⟨_, if_pos rfl, rfl, gs, hlen, rfl⟩
  rw [if_neg hin] at hm ⊢
  by_cases hopen : c = '('
  · obtain rfl : _ = s' := by simpa [hopen] using hm
    exact ⟨_, if_pos hopen, rfl, tpos :: gs, by simp [hlen], rfl⟩
  rw [if_neg hopen] at hm ⊢
  by_cases hclose : c = ')'
  · rw [if_pos hclose] at hm ⊢
    cases sgroups with
    | nil => simp at hm
    | cons g sgroups =>
      obtain rfl : _ = s' := by simpa using hm
      cases gs with
      | nil => simp at hlen
      | cons g' gs => exact ⟨_, rfl, rfl, gs, by simpa using hlen, rfl⟩
  rw [if_neg hclose] at hm ⊢
  have hnone : ¬(c = ':' ∧ gs ++ outer = []) := by
    rintro ⟨-, hg⟩
    exact houter (List.append_eq_nil_iff.1 hg).2
  refine ⟨_, if_neg hnone, ?_⟩
  by_cases hcolon : c = ':' ∧ sgroups = []
  · obtain rfl : _ = s' := by simpa [hcolon] using hm
    exact ⟨rfl, gs, by simpa [hcolon.2] using hlen, rfl⟩
  · obtain rfl : _ = s' := by simpa [if_neg hcolon] using hm
    exact ⟨rfl, gs, hlen, rfl⟩

/-- A text that a scan can follow is kept whole by a scan with groups around it. -/
theorem pieces_of_run {outer : List Nat} (houter : outer ≠ []) {s s' t : Scan} {cs : List Char}
    (h : s.run cs = some s') (hw : Within outer s t) :
    ∃ t', Within outer s' t' ∧ t.run cs = some t' ∧ ∀ rest, t.pieces (cs ++ rest) =
      (t'.pieces rest).map fun (first, more) => (cs ++ first, more) := by
  induction cs generalizing s t with
  | nil =>
    obtain rfl : s = s' := by simpa [run] using h
    refine ⟨t, hw, rfl, fun rest => ?_⟩
    cases hp : t.pieces rest <;> simp [hp, Except.map]
  | cons c cs ih =>
    obtain ⟨next, hm, hrun⟩ := exists_move_of_run h
    obtain ⟨t₁, ht, hw₁⟩ := move_within houter hw hm
    obtain ⟨t', hw', hrun', hpieces⟩ := ih hrun hw₁
    refine ⟨t', hw', by rw [run, ht]; exact hrun', fun rest => ?_⟩
    rw [List.cons_append, pieces, ht]
    simp only [hpieces rest]
    cases hp : t'.pieces rest <;> simp [Except.map]

/-! ### Plain texts -/

/-- Characters that leave the quote and the groups as they are, and cut nothing, are kept. -/
theorem pieces_of_kept {quote : Bool} {groups : List Nat} {cs : List Char}
    (h : ∀ c ∈ cs, ∀ pos, move ⟨pos, quote, groups⟩ c = .keep ⟨pos + c.utf8Size, quote, groups⟩)
    (pos : Nat) :
    ∃ pos', run ⟨pos, quote, groups⟩ cs = some ⟨pos', quote, groups⟩ ∧
      ∀ rest, pieces ⟨pos, quote, groups⟩ (cs ++ rest) =
        (pieces ⟨pos', quote, groups⟩ rest).map fun (first, more) => (cs ++ first, more) := by
  induction cs generalizing pos with
  | nil =>
    refine ⟨pos, rfl, fun rest => ?_⟩
    cases hp : pieces ⟨pos, quote, groups⟩ rest <;> simp [hp, Except.map]
  | cons c cs ih =>
    have hm := h c List.mem_cons_self pos
    obtain ⟨pos', hrun, hpieces⟩ :=
      ih (fun c hc => h c (List.mem_cons_of_mem _ hc)) (pos + c.utf8Size)
    refine ⟨pos', by rw [run, hm]; exact hrun, fun rest => ?_⟩
    rw [List.cons_append, pieces, hm]
    simp only [hpieces rest]
    cases hp : pieces ⟨pos', quote, groups⟩ rest <;> simp [Except.map]

/-- A character that a scan outside quotes does not look for. -/
def plain (c : Char) : Bool := c != '"' && c != '(' && c != ')' && c != ':'

theorem plain_of_class (p : Char → Bool) {c : Char} (h : p c = true)
    (hmarks : p '"' = false ∧ p '(' = false ∧ p ')' = false ∧ p ':' = false) : plain c = true := by
  obtain ⟨hquote, hopen, hclose, hcolon⟩ := hmarks
  simp only [plain, Bool.and_eq_true, bne_iff_ne]
  refine ⟨⟨⟨?_, ?_⟩, ?_⟩, ?_⟩
  · rintro rfl
    simp [hquote] at h
  · rintro rfl
    simp [hopen] at h
  · rintro rfl
    simp [hclose] at h
  · rintro rfl
    simp [hcolon] at h

theorem plain_of_isDigit {c : Char} (h : c.isDigit = true) : plain c = true :=
  plain_of_class Char.isDigit h (by decide)

theorem pieces_plain {cs : List Char} (h : cs.all plain = true) (pos : Nat) (groups : List Nat) :
    ∃ pos', run ⟨pos, false, groups⟩ cs = some ⟨pos', false, groups⟩ ∧
      ∀ rest, pieces ⟨pos, false, groups⟩ (cs ++ rest) =
        (pieces ⟨pos', false, groups⟩ rest).map fun (first, more) => (cs ++ first, more) := by
  refine pieces_of_kept (fun c hc pos => ?_) pos
  have hc := List.all_eq_true.1 h c hc
  simp only [plain, Bool.and_eq_true, bne_iff_ne] at hc
  simp [move, hc]

theorem pieces_plain_cut {cs : List Char} (h : cs.all plain = true) (pos : Nat) :
    ∃ pos', ∀ rest, run ⟨pos, false, []⟩ (cs ++ ':' :: rest) = run ⟨pos', false, []⟩ rest ∧
      pieces ⟨pos, false, []⟩ (cs ++ ':' :: rest) =
        (pieces ⟨pos', false, []⟩ rest).map fun (first, more) => (cs, first :: more) := by
  have hcut (pos : Nat) : move ⟨pos, false, []⟩ ':' = .cut ⟨pos + 1, false, []⟩ := rfl
  obtain ⟨pos', hrun, hpieces⟩ := pieces_plain h pos []
  refine ⟨pos' + 1, fun rest => ⟨?_, ?_⟩⟩
  · rw [run_append, hrun, Option.bind_some, run, hcut]
  · rw [hpieces, pieces, hcut]
    cases hrest : pieces ⟨pos' + 1, false, []⟩ rest <;> simp [hrest, Except.map]

theorem pieces_inQuote {cs : List Char} (h : '"' ∉ cs) (pos : Nat) (groups : List Nat) :
    ∃ pos', run ⟨pos, true, groups⟩ cs = some ⟨pos', true, groups⟩ ∧
      ∀ rest, pieces ⟨pos, true, groups⟩ (cs ++ rest) =
        (pieces ⟨pos', true, groups⟩ rest).map fun (first, more) => (cs ++ first, more) := by
  refine pieces_of_kept (fun c hc pos => ?_) pos
  have hne : c ≠ '"' := fun heq => h (heq ▸ hc)
  simp [move, hne]

/-! ### Kinds with a closed second argument -/

/-- The characters of a kind with two arguments, the second in parentheses. -/
def call (kind first second : List Char) : List Char :=
  kind ++ ':' :: (first ++ ':' :: '(' :: (second ++ [')']))

variable {kind first second : List Char}

/-- A kind with two arguments is closed if the second is, and falls into the three. -/
theorem scan_call (hkind : kind.all plain = true) (hfirst : first.all plain = true)
    (hsecond : Closed second) :
    Closed (call kind first second) ∧
      pieces {} (call kind first second) = .ok (kind, [first, '(' :: (second ++ [')'])]) := by
  have hopen (pos : Nat) : move ⟨pos, false, []⟩ '(' = .keep ⟨pos + 1, false, [pos]⟩ := rfl
  have hclose (pos g : Nat) : move ⟨pos, false, [g]⟩ ')' = .keep ⟨pos + 1, false, []⟩ := rfl
  obtain ⟨p₁, hkind⟩ := pieces_plain_cut hkind 0
  obtain ⟨p₂, hfirst⟩ := pieces_plain_cut hfirst p₁
  obtain ⟨pos, hrun⟩ := hsecond
  have houter : [p₂] ≠ [] := by simp
  have hwithin : Within [p₂] {} ⟨p₂ + 1, false, [p₂]⟩ := ⟨rfl, [], rfl, rfl⟩
  obtain ⟨⟨p₃, quote, groups⟩, ⟨hquote, gs, hlen, hgroups⟩, hrun₃, hpieces₃⟩ :=
    pieces_of_run houter hrun hwithin
  obtain rfl : quote = false := hquote
  obtain rfl : gs = [] := List.length_eq_zero_iff.1 hlen
  obtain rfl : groups = [p₂] := hgroups
  constructor
  · refine ⟨p₃ + 1, ?_⟩
    rw [call, (hkind _).1, (hfirst _).1, run, hopen]
    simp only
    rw [run_append, hrun₃, Option.bind_some, run, hclose]
    rfl
  · rw [call, (hkind _).2, (hfirst _).2, pieces, hopen]
    simp only
    rw [hpieces₃, pieces, hclose]
    simp [pieces, Except.map]

theorem unwrapGroup_of_closed {cs : List Char} (h : Closed cs) :
    unwrapGroup ('(' :: (cs ++ [')'])) = cs := by
  obtain ⟨pos, hrun⟩ := h
  rw [unwrapGroup_group, balanced_of_run hrun rfl, if_pos rfl]

end RandExpr.Scan
