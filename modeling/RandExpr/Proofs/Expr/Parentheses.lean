import RandExpr.Proofs.Expr.Closed
import Mathlib.Algebra.Ring.Parity
import Mathlib.Data.List.Induction
import Mathlib.Tactic.ByContra
import Mathlib.Tactic.SplitIfs

/-!
# Parentheses

Which parentheses of a text belong together, said without a scan, and what a scan makes of those
that do not.

## The model

A place in a text is given by the characters before it. A character is quoted if an odd number of
double quotes comes before it (`Quoted`). The depth of a place is the number of `(` before it that
are not quoted, less that of the `)` (`depth`). A `)` that is not quoted is stray if the depth
before it is zero (`IsStray`). A `(` and a `)` behind it, neither quoted, belong together if the
depth before the `)` is one more than before the `(`, and every place between them is deeper than
the one before the `(` (`Matches`). A `(` that belongs to no `)` is unclosed (`IsUnclosed`).

## What is proved

* `exists_fall` — where the depth goes below a level, a `)` takes it there.
* `isUnclosed_iff` — a `(` is unclosed if the text behind it stays deeper.
* `standing_run` — a scan counts bytes, quotes and depth, and the groups that it holds open are
  those whose `(` no `)` has matched yet.
* `verdict` — how a scan of a text ends.
* `Expr.split_fails_iff` — which texts cannot be taken apart, and where the fault points.
-/

namespace RandExpr

open Text (bytes)

namespace Parentheses

/-- A character behind the text is quoted: an odd number of double quotes comes before it. -/
def Quoted (before : List Char) : Prop := Odd (before.count '"')

instance (before : List Char) : Decidable (Quoted before) :=
  inferInstanceAs (Decidable (Odd (before.count '"')))

/-- How often a character stands in the text without being quoted. -/
def unquoted (c : Char) (cs : List Char) : Nat :=
  (List.range cs.length).countP fun i => cs[i]? = some c ∧ ¬Quoted (cs.take i)

/-- The depth of the place behind the text. -/
def depth (before : List Char) : Int := unquoted '(' before - unquoted ')' before

/-- The character stands in the text behind `before`, and is not quoted. -/
def Stands (c : Char) (cs before : List Char) : Prop := before ++ [c] <+: cs ∧ ¬Quoted before

/-- The `)` behind `before` closes nothing. -/
def IsStray (cs before : List Char) : Prop := Stands ')' cs before ∧ depth before = 0

/-- The `(` behind `before` and the `)` behind `inner`, that follows it, belong together. -/
def Matches (cs before inner : List Char) : Prop :=
  Stands '(' cs before ∧ Stands ')' cs (before ++ '(' :: inner) ∧
    depth (before ++ '(' :: inner) = depth before + 1 ∧
    ∀ part, part <+: inner → depth before < depth (before ++ '(' :: part)

/-- The `(` behind `before` is never closed. -/
def IsUnclosed (cs before : List Char) : Prop :=
  Stands '(' cs before ∧ ∀ inner, ¬Matches cs before inner

/-- The place is the first one of its kind. -/
def First (P : List Char → Prop) (before : List Char) : Prop :=
  P before ∧ ∀ other, P other → before.length ≤ other.length

/-- The place is the last one of its kind. -/
def Last (P : List Char → Prop) (before : List Char) : Prop :=
  P before ∧ ∀ other, P other → other.length ≤ before.length

/-! ### One character more -/

theorem unquoted_append_singleton (c d : Char) (cs : List Char) :
    unquoted c (cs ++ [d]) = unquoted c cs + if d = c ∧ ¬Quoted cs then 1 else 0 := by
  have hbefore : ((List.range cs.length).countP fun i =>
      (cs ++ [d])[i]? = some c ∧ ¬Quoted ((cs ++ [d]).take i)) = unquoted c cs := by
    refine List.countP_congr fun i hi => ?_
    have hi := List.mem_range.1 hi
    rw [List.getElem?_append_left hi, List.take_append_of_le_length (Nat.le_of_lt hi)]
  rw [unquoted, List.length_append, List.length_singleton, List.range_succ, List.countP_append,
    hbefore]
  simp [List.countP_cons]

theorem depth_append_singleton (cs : List Char) (c : Char) :
    depth (cs ++ [c]) = if Quoted cs then depth cs else
      if c = '(' then depth cs + 1 else if c = ')' then depth cs - 1 else depth cs := by
  simp only [depth, unquoted_append_singleton]
  by_cases hquoted : Quoted cs
  · simp [hquoted]
  · by_cases hopen : c = '('
    · subst hopen
      simp [hquoted]
      omega
    · by_cases hclose : c = ')'
      · subst hclose
        simp [hquoted]
        omega
      · simp [hquoted, hopen, hclose]

/-- **Where the depth goes below a level, a `)` takes it there**, and up to that `)` it has not been
below. -/
theorem exists_fall {k : Int} {cs ds : List Char} (hstart : k < depth cs)
    (hend : depth (cs ++ ds) ≤ k) :
    ∃ inner, inner ++ [')'] <+: ds ∧ ¬Quoted (cs ++ inner) ∧ depth (cs ++ inner) = k + 1 ∧
      ∀ part, part <+: inner → k < depth (cs ++ part) := by
  induction ds generalizing cs with
  | nil =>
    rw [List.append_nil] at hend
    omega
  | cons d ds ih =>
    have hstep := depth_append_singleton cs d
    by_cases hnext : k < depth (cs ++ [d])
    · obtain ⟨inner, hinner, hquoted, hdepth, hparts⟩ :=
        ih hnext (by rwa [List.append_assoc, List.singleton_append])
      rw [List.append_assoc, List.singleton_append] at hquoted hdepth
      refine ⟨d :: inner, List.cons_prefix_cons.2 ⟨rfl, hinner⟩, hquoted, hdepth, ?_⟩
      intro part hpart
      rcases List.prefix_cons_iff.1 hpart with rfl | ⟨part', rfl, hpart'⟩
      · rwa [List.append_nil]
      · have hdeeper := hparts part' hpart'
        rwa [List.append_assoc, List.singleton_append] at hdeeper
    · -- only a `)` that is not quoted takes the depth down, and by one
      have hfall : ¬Quoted cs ∧ d = ')' ∧ depth cs = k + 1 := by
        split_ifs at hstep with hquoted hopen hclose
        · omega
        · omega
        · exact ⟨hquoted, hclose, by omega⟩
        · omega
      obtain ⟨hquoted, rfl, hdepth⟩ := hfall
      refine ⟨[], ⟨ds, rfl⟩, by rwa [List.append_nil], by rwa [List.append_nil], ?_⟩
      intro part hpart
      rw [List.prefix_nil.1 hpart, List.append_nil]
      exact hstart

/-! ### Groups that stay open -/

/-- **A `(` is unclosed if the text behind it stays deeper than before it.** -/
theorem isUnclosed_iff {cs before : List Char} :
    IsUnclosed cs before ↔ Stands '(' cs before ∧ ∀ place, place <+: cs →
      before.length < place.length → depth before < depth place := by
  constructor
  · rintro ⟨⟨hhead, hquoted⟩, hopen⟩
    refine ⟨⟨hhead, hquoted⟩, fun place hplace hlt => ?_⟩
    by_contra hle
    obtain ⟨part, rfl⟩ : before ++ ['('] <+: place := by
      refine List.prefix_of_prefix_length_le hhead hplace ?_
      rwa [List.length_append, List.length_singleton]
    have hstep := depth_append_singleton before '('
    rw [if_neg hquoted, if_pos rfl] at hstep
    obtain ⟨inner, hinner, hunquoted, hfall, hparts⟩ :=
      @exists_fall (depth before) (before ++ ['(']) part (by omega) (by omega)
    have hclose : before ++ '(' :: inner ++ [')'] <+: cs := by
      refine List.IsPrefix.trans ?_ hplace
      simpa using hinner
    exact hopen inner ⟨⟨hhead, hquoted⟩, ⟨hclose, by simpa using hunquoted⟩, by simpa using hfall,
      fun p hp => by simpa using hparts p hp⟩
  · rintro ⟨hstands, hdeeper⟩
    refine ⟨hstands, ?_⟩
    rintro inner ⟨-, ⟨hclose, hunquoted⟩, hdepth, -⟩
    -- behind its `)` the text would be no deeper than before the `(`
    have hplace := hdeeper _ hclose (by simp)
    have hstep := depth_append_singleton (before ++ '(' :: inner) ')'
    rw [if_neg hunquoted, if_neg (by decide), if_pos rfl] at hstep
    omega

theorem isUnclosed_append_singleton {cs : List Char} (hquoted : ¬Quoted cs) :
    IsUnclosed (cs ++ ['(']) cs := by
  refine isUnclosed_iff.2 ⟨⟨List.prefix_rfl, hquoted⟩, fun place hplace hlt => ?_⟩
  rcases List.prefix_concat_iff.1 hplace with rfl | hplace
  · rw [depth_append_singleton, if_neg hquoted, if_pos rfl]
    omega
  · have hle := hplace.length_le
    omega

/-- A `(` stays unclosed as long as the depth does not come down to its own. -/
theorem IsUnclosed.append_singleton {cs before : List Char} {c : Char} (h : IsUnclosed cs before)
    (hdepth : depth before < depth (cs ++ [c])) : IsUnclosed (cs ++ [c]) before := by
  obtain ⟨⟨hhead, hquoted⟩, hdeeper⟩ := isUnclosed_iff.1 h
  refine isUnclosed_iff.2
    ⟨⟨hhead.trans (List.prefix_append ..), hquoted⟩, fun place hplace hlt => ?_⟩
  rcases List.prefix_concat_iff.1 hplace with rfl | hplace
  · exact hdepth
  · exact hdeeper place hplace hlt

end Parentheses

open Parentheses

/-! ### What a scan knows -/

namespace Scan

theorem move_eq_stray_iff {s : Scan} {c : Char} :
    s.move c = .stray ↔ s.inQuote = false ∧ c = ')' ∧ s.groups = [] := by
  unfold move
  grind

theorem of_move {s next : Scan} {c : Char} (h : s.move c = .keep next ∨ s.move c = .cut next) :
    next.pos = s.pos + c.utf8Size ∧
      (s.inQuote = true ∧ next.groups = s.groups ∨
        s.inQuote = false ∧ c = '(' ∧ next.groups = s.pos :: s.groups ∨
        s.inQuote = false ∧ c = ')' ∧ (∃ g, s.groups = g :: next.groups) ∨
        c ≠ '(' ∧ c ≠ ')' ∧ next.groups = s.groups) := by
  obtain ⟨pos, quote, groups⟩ := s
  simp only [move] at h
  split_ifs at h with hquote hin hopen hclose hcut
  · obtain rfl : _ = next := by simpa using h
    subst hquote
    exact ⟨rfl, .inr (.inr (.inr ⟨by decide, by decide, rfl⟩))⟩
  · obtain rfl : _ = next := by simpa using h
    exact ⟨rfl, .inl ⟨hin, rfl⟩⟩
  · obtain rfl : _ = next := by simpa using h
    exact ⟨rfl, .inr (.inl ⟨by simpa using hin, hopen, rfl⟩)⟩
  · cases groups with
    | nil => simp at h
    | cons g groups =>
      obtain rfl : _ = next := by simpa using h
      exact ⟨rfl, .inr (.inr (.inl ⟨by simpa using hin, hclose, g, rfl⟩))⟩
  · obtain rfl : _ = next := by simpa using h
    exact ⟨rfl, .inr (.inr (.inr ⟨hopen, hclose, rfl⟩))⟩
  · obtain rfl : _ = next := by simpa using h
    exact ⟨rfl, .inr (.inr (.inr ⟨hopen, hclose, rfl⟩))⟩

/-- What a scan that has read the text knows of it. -/
structure Standing (cs : List Char) (s : Scan) : Prop where
  /-- The offset of the next character is the size of the text. -/
  pos : s.pos = bytes cs
  /-- A quote is open if the next character is quoted. -/
  quote : s.inQuote = true ↔ Quoted cs
  /-- As many groups are open as the depth says. -/
  depth_eq : depth cs = s.groups.length
  /-- Every open group starts at a `(` that is unclosed, at the depth of the groups around it. -/
  opened : ∀ g gs, g :: gs <:+ s.groups →
    ∃ before, IsUnclosed cs before ∧ g = bytes before ∧ depth before = gs.length

theorem standing_nil : Standing [] {} where
  pos := rfl
  quote := by simp [Quoted]
  depth_eq := rfl
  opened := by simp

theorem Standing.move {cs : List Char} {s next : Scan} {c : Char} (h : Standing cs s)
    (hm : s.move c = .keep next ∨ s.move c = .cut next) : Standing (cs ++ [c]) next := by
  obtain ⟨hpos, hgroups⟩ := of_move hm
  have hstep := depth_append_singleton cs c
  have hquote : next.inQuote = true ↔ Quoted (cs ++ [c]) := by
    rw [inQuote_of_move hm, Quoted, List.count_append, Nat.odd_add, ← Quoted, ← h.quote]
    by_cases hc : c = '"'
    · subst hc
      simp
    · simp [hc]
  have hdepth : depth (cs ++ [c]) = next.groups.length := by
    have hlength := h.depth_eq
    have hq := h.quote
    rcases hgroups with ⟨hin, heq⟩ | ⟨hin, rfl, heq⟩ | ⟨hin, rfl, g, heq⟩ | ⟨hopen, hclose, heq⟩
    · rw [hstep, if_pos (hq.1 hin), heq, hlength]
    · rw [hstep, if_neg (by simp [← hq, hin]), heq, hlength]
      simp
    · rw [hstep, if_neg (by simp [← hq, hin]), hlength, heq]
      simp
    · rw [hstep, if_neg hopen, if_neg hclose, ite_self, heq, hlength]
  refine ⟨by rw [hpos, h.pos]; simp, hquote, hdepth, fun g gs hsuffix => ?_⟩
  have hstays (hold : g :: gs <:+ s.groups) : ∃ before, IsUnclosed (cs ++ [c]) before ∧
      g = bytes before ∧ depth before = gs.length := by
    obtain ⟨before, hopen, hg, hbefore⟩ := h.opened g gs hold
    have hlength := hsuffix.length_le
    rw [List.length_cons] at hlength
    exact ⟨before, hopen.append_singleton (by omega), hg, hbefore⟩
  rcases hgroups with ⟨-, heq⟩ | ⟨hin, rfl, heq⟩ | ⟨-, -, g', heq⟩ | ⟨-, -, heq⟩
  · exact hstays (heq ▸ hsuffix)
  · rw [heq] at hsuffix
    rcases List.suffix_cons_iff.1 hsuffix with hnew | hold
    · obtain ⟨rfl, rfl⟩ : g = s.pos ∧ gs = s.groups := by simpa using hnew
      have hquoted : ¬Quoted cs := by simp [← h.quote, hin]
      exact ⟨cs, isUnclosed_append_singleton hquoted, h.pos, h.depth_eq⟩
    · exact hstays hold
  · exact hstays (heq ▸ hsuffix.trans (List.suffix_cons ..))
  · exact hstays (heq ▸ hsuffix)

/-- **What a scan knows of the text that it has read.** -/
theorem standing_run {cs : List Char} {s : Scan} (h : run {} cs = some s) : Standing cs s := by
  induction cs using List.reverseRecOn generalizing s with
  | nil =>
    obtain rfl : {} = s := by simpa [run] using h
    exact standing_nil
  | append_singleton cs c ih =>
    rw [run_append] at h
    obtain ⟨s₁, hrun, hc⟩ := Option.bind_eq_some_iff.1 h
    obtain ⟨next, hm, hnext⟩ := exists_move_of_run hc
    obtain rfl : next = s := by simpa [run] using hnext
    exact (ih hrun).move hm

theorem not_isStray_of_run {cs : List Char} {s : Scan} (h : run {} cs = some s)
    (before : List Char) : ¬IsStray cs before := by
  rintro ⟨⟨⟨after, rfl⟩, hquoted⟩, hdepth⟩
  rw [List.append_assoc, List.singleton_append, run_append] at h
  obtain ⟨s₁, hrun, h⟩ := Option.bind_eq_some_iff.1 h
  have hstanding := standing_run hrun
  have hstray : s₁.move ')' = .stray := by
    rw [move_eq_stray_iff, Bool.eq_false_iff, Ne, hstanding.quote]
    refine ⟨hquoted, rfl, List.length_eq_zero_iff.1 ?_⟩
    have hlength := hstanding.depth_eq
    omega
  rw [run, hstray] at h
  simp at h

/-! ### How a scan ends -/

/-- How the scan of a text ends: at a `)` with no group open, at the end with a group open, or at
the end with none. -/
inductive Verdict (s : Scan) (cs : List Char) :
    Except GroupFault (List Char × List (List Char)) → Prop where
  /-- A stray `)`. -/
  | stray {before : List Char} {s' : Scan} (hhead : before ++ [')'] <+: cs)
      (hrun : s.run before = some s') (hmove : s'.move ')' = .stray) :
      Verdict s cs (.error (.stray s'.pos))
  /-- A group that is not closed. -/
  | unclosed {s' : Scan} {g : Nat} {gs : List Nat} (hrun : s.run cs = some s')
      (hgroups : s'.groups = g :: gs) : Verdict s cs (.error (.unclosed g))
  /-- The pieces of the text. -/
  | pieces {s' : Scan} (hrun : s.run cs = some s') (hgroups : s'.groups = [])
      (p : List Char × List (List Char)) : Verdict s cs (.ok p)

/-- The verdict on a text goes over to the text with a character before. -/
theorem Verdict.cons {s next : Scan} {c : Char} {cs : List Char}
    (hm : s.move c = .keep next ∨ s.move c = .cut next)
    {r : Except GroupFault (List Char × List (List Char))} (h : Verdict next cs r)
    (f : List Char × List (List Char) → List Char × List (List Char)) :
    Verdict s (c :: cs) (r.map f) := by
  have hrun (ds : List Char) : s.run (c :: ds) = next.run ds := by
    rw [run]
    rcases hm with hm | hm <;> rw [hm]
  cases h with
  | stray hhead hbefore hmove =>
    exact .stray (List.cons_prefix_cons.2 ⟨rfl, hhead⟩) ((hrun _).trans hbefore) hmove
  | unclosed hcs hgroups => exact .unclosed ((hrun cs).trans hcs) hgroups
  | pieces hcs hgroups p => exact .pieces ((hrun cs).trans hcs) hgroups (f p)

theorem verdict (s : Scan) (cs : List Char) : Verdict s cs (s.pieces cs) := by
  induction cs generalizing s with
  | nil =>
    rw [pieces]
    cases hgroups : s.groups with
    | nil => exact .pieces rfl hgroups _
    | cons g gs => exact .unclosed rfl hgroups
  | cons c cs ih =>
    rw [pieces]
    cases hm : s.move c with
    | keep next => exact (ih next).cons (.inl hm) _
    | cut next => exact (ih next).cons (.inr hm) _
    | stray =>
      obtain ⟨-, rfl, -⟩ := move_eq_stray_iff.1 hm
      exact @Verdict.stray s (')' :: cs) [] s ⟨cs, rfl⟩ rfl hm

/-! ### Which fault it is -/

theorem first_isStray {cs before : List Char} {s : Scan} (hhead : before ++ [')'] <+: cs)
    (hrun : run {} before = some s) (hmove : s.move ')' = .stray) :
    First (IsStray cs) before := by
  have hstanding := standing_run hrun
  obtain ⟨hquote, -, hgroups⟩ := move_eq_stray_iff.1 hmove
  refine ⟨⟨⟨hhead, ?_⟩, ?_⟩, fun other hother => ?_⟩
  · simp [← hstanding.quote, hquote]
  · rw [hstanding.depth_eq, hgroups]
    rfl
  · by_contra hlt
    have hshorter : other ++ [')'] <+: before := by
      refine List.prefix_of_prefix_length_le hother.1.1 ((List.prefix_append ..).trans hhead) ?_
      rw [List.length_append, List.length_singleton]
      omega
    exact not_isStray_of_run hrun other ⟨⟨hshorter, hother.1.2⟩, hother.2⟩

/-- The innermost group that is open at the end of a text starts at the last `(` that is never
closed. -/
theorem last_isUnclosed {cs : List Char} {s : Scan} (hrun : run {} cs = some s) {g : Nat}
    {gs : List Nat} (hgroups : s.groups = g :: gs) :
    ∃ before, Last (IsUnclosed cs) before ∧ g = bytes before := by
  have hstanding := standing_run hrun
  have hend := hstanding.depth_eq
  rw [hgroups, List.length_cons] at hend
  obtain ⟨before, hopen, hg, hdepth⟩ := hstanding.opened g gs (hgroups ▸ List.suffix_rfl)
  refine ⟨before, ⟨hopen, fun other hother => ?_⟩, hg⟩
  by_contra hlt
  -- a later one would be deeper, and the end of the text deeper still
  obtain ⟨⟨hhead, -⟩, hdeeper⟩ := isUnclosed_iff.1 hother
  have hlength := hhead.length_le
  rw [List.length_append, List.length_singleton] at hlength
  have hlater := (isUnclosed_iff.1 hopen).2 other ((List.prefix_append ..).trans hhead) (by omega)
  have hcs := hdeeper cs List.prefix_rfl (by omega)
  omega

end Scan

open Scan in
/-- **Which texts cannot be taken apart, and where they are blamed.** A text fails with a stray
parenthesis exactly if a `)` in it is stray, and the span is that of the first one. Else it fails
with an unclosed group exactly if its depth at the end is positive, and the span goes from the last
`(` that is unclosed to the end of the text. Else it can be taken apart. -/
theorem Expr.split_fails_iff (s : String) :
    ((∃ source span, split s = .error (.strayClose source span)) ↔
      ∃ before, IsStray s.toList before) ∧
    (∀ source span, split s = .error (.strayClose source span) → source = s ∧
      ∃ before, First (IsStray s.toList) before ∧ span = ⟨bytes before, 1⟩) ∧
    ((∃ source span, split s = .error (.unclosedGroup source span)) ↔
      (¬∃ before, IsStray s.toList before) ∧ 0 < depth s.toList) ∧
    (∀ source span, split s = .error (.unclosedGroup source span) → source = s ∧
      ∃ before, Last (IsUnclosed s.toList) before ∧
        span = ⟨bytes before, s.utf8ByteSize - bytes before⟩) ∧
    ((∃ e, split s = .ok e) ↔
      (¬∃ before, IsStray s.toList before) ∧ ¬0 < depth s.toList) := by
  have hverdict := verdict {} s.toList
  generalize hpieces : pieces {} s.toList = result at hverdict
  cases hverdict with
  | @stray before s' hhead hrun hmove =>
    have hsplit := split_of_error hpieces
    have hfirst := first_isStray hhead hrun hmove
    have hstray : ∃ before, IsStray s.toList before := ⟨before, hfirst.1⟩
    simp only [GroupFault.inSource, (standing_run hrun).pos] at hsplit
    refine ⟨by simp [hsplit, hstray], fun source span h => ?_, by simp [hsplit, hstray],
      by simp [hsplit], by simp [hsplit, hstray]⟩
    obtain ⟨rfl, rfl⟩ : s = source ∧ ⟨bytes before, 1⟩ = span := by simpa [hsplit] using h
    exact ⟨rfl, before, hfirst, rfl⟩
  | @unclosed s' g gs hrun hgroups =>
    have hsplit := split_of_error hpieces
    obtain ⟨before, hlast, rfl⟩ := last_isUnclosed hrun hgroups
    have hstray := not_exists.2 (not_isStray_of_run hrun)
    have hdepth : 0 < depth s.toList := by
      rw [(standing_run hrun).depth_eq, hgroups]
      simp
    simp only [GroupFault.inSource] at hsplit
    refine ⟨by simp [hsplit, hstray], by simp [hsplit], by simp [hsplit, hstray, hdepth],
      fun source span h => ?_, by simp [hsplit, hdepth]⟩
    obtain ⟨rfl, rfl⟩ : s = source ∧ ⟨bytes before, s.utf8ByteSize - bytes before⟩ = span := by
      simpa [hsplit] using h
    exact ⟨rfl, before, hlast, rfl⟩
  | @pieces s' hrun hgroups p =>
    have hsplit := split_of_ok hpieces
    have hstray := not_exists.2 (not_isStray_of_run hrun)
    have hdepth : ¬0 < depth s.toList := by
      rw [(standing_run hrun).depth_eq, hgroups]
      simp
    exact ⟨by simp [hsplit, hstray], by simp [hsplit], by simp [hsplit, hdepth], by simp [hsplit],
      by simp [hsplit, hstray, hdepth]⟩

-- the innermost of two groups that are not closed, behind a character of two bytes and a quote
example : Expr.split "é(\")\"(b" = .error (.unclosedGroup "é(\")\"(b" ⟨6, 2⟩) := by
  rfl

end RandExpr
