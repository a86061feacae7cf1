import RandExpr.Proofs.Expr.Balance
import RandExpr.Proofs.Expr.Closed

/-!
# Pieces

Taking a text apart at its cuts, and joining the pieces again.

## The model

A text is a single piece if taking it apart gives the text itself as the kind, and no arguments. The
pieces of a text are joined with a `:` between each two.

## What is proved

* `pieces_append_of_single` — behind a single piece a scan goes on as if it had kept a text.
* `pieces_intercalate` — single pieces with even quotes fall apart again when they are joined.
* `Expr.split_cut_iff` — behind plain characters and a cut a text falls apart as it does by itself.
* `Expr.split_lossless` — a text is its pieces joined, and each of them is a single piece.
* `Expr.split_intercalate` — single pieces that are joined are the pieces of the text.
-/

namespace RandExpr

namespace Scan

theorem intercalate_cons_eq (first : List Char) (rest : List (List Char)) :
    [':'].intercalate (first :: rest) = first ++ rest.flatMap (':' :: ·) := by
  induction rest generalizing first with
  | nil => simp
  | cons piece rest ih =>
    rw [List.intercalate_cons_cons, ih, List.flatMap_cons]
    simp

/-- Behind a single piece a scan goes on as if it had kept a text, with no group open. -/
theorem pieces_append_of_single {s : Scan} {cs : List Char} (h : s.pieces cs = .ok (cs, [])) :
    ∃ s', s.run cs = some s' ∧ s'.groups = [] ∧ ∀ rest, s.pieces (cs ++ rest) =
      (s'.pieces rest).map fun (first, more) => (cs ++ first, more) := by
  induction cs generalizing s with
  | nil =>
    have hgroups : s.groups = [] := by
      rw [pieces] at h
      cases hg : s.groups with
      | nil => rfl
      | cons g gs => simp [hg] at h
    refine ⟨s, rfl, hgroups, fun rest => ?_⟩
    cases hp : s.pieces rest <;> simp [hp, Except.map]
  | cons c cs ih =>
    rcases of_pieces_cons h with ⟨next, first, hm, hp, heq⟩ | ⟨_, _, _, -, -, heq, -⟩
    · obtain rfl : cs = first := by simpa using heq
      obtain ⟨s', hrun, hgroups, hpieces⟩ := ih hp
      refine ⟨s', by rw [run, hm]; exact hrun, hgroups, fun rest => ?_⟩
      rw [List.cons_append, pieces, hm]
      simp only [hpieces rest]
      cases hrest : s'.pieces rest <;> simp [Except.map]
    · simp at heq

/-- **Single pieces fall apart again when they are joined**, if no quote is left open in any but the
last. -/
theorem pieces_intercalate {first : List Char} {rest : List (List Char)}
    (hsingle : ∀ piece ∈ first :: rest, pieces {} piece = .ok (piece, []))
    (heven : ∀ piece ∈ (first :: rest).dropLast, Even (piece.count '"')) :
    pieces {} ([':'].intercalate (first :: rest)) = .ok (first, rest) := by
  induction rest generalizing first with
  | nil =>
    rw [List.intercalate_singleton]
    exact hsingle first List.mem_cons_self
  | cons piece rest ih =>
    obtain ⟨⟨pos, quote, groups⟩, hrun, hgroups, hpieces⟩ :=
      pieces_append_of_single (hsingle first List.mem_cons_self)
    obtain rfl : groups = [] := hgroups
    obtain rfl : quote = false := (inQuote_of_run hrun).2 (heven first List.mem_cons_self)
    have hcut : move ⟨pos, false, []⟩ ':' = .cut ⟨pos + 1, false, []⟩ := rfl
    have halike : Alike {} ⟨pos + 1, false, []⟩ := ⟨rfl, rfl⟩
    have hrest := pieces_of_alike halike
      (ih (fun p hp => hsingle p (List.mem_cons_of_mem _ hp))
        fun p hp => heven p (List.mem_cons_of_mem _ hp))
    rw [List.intercalate_cons_cons, List.append_assoc, List.singleton_append, hpieces, pieces, hcut]
    simp only [hrest]
    simp [Except.map]

end Scan

namespace Expr

theorem split_eq_ok_iff {s : String} {e : Expr} : split s = .ok e ↔ ∃ kind args,
    Scan.pieces {} s.toList = .ok (kind, args) ∧
      e = ⟨s, String.ofList kind, args.map String.ofList,
        ⟨0, (String.ofList kind).utf8ByteSize⟩⟩ := by
  constructor
  · intro h
    cases hpieces : Scan.pieces {} s.toList with
    | error fault => simp [split_of_error hpieces] at h
    | ok p => exact ⟨p.1, p.2, rfl, (Except.ok.inj ((split_of_ok hpieces).symm.trans h)).symm⟩
  · rintro ⟨kind, args, hpieces, rfl⟩
    exact split_of_ok hpieces

theorem split_single_iff {s : String} :
    split s = .ok ⟨s, s, [], ⟨0, s.utf8ByteSize⟩⟩ ↔
      Scan.pieces {} s.toList = .ok (s.toList, []) := by
  rw [split_eq_ok_iff]
  constructor
  · rintro ⟨kind, args, hpieces, he⟩
    obtain ⟨rfl, rfl, -⟩ : s = String.ofList kind ∧ args = [] ∧ _ := by simpa using he
    rw [String.toList_ofList] at hpieces ⊢
    exact hpieces
  · intro hpieces
    exact ⟨s.toList, [], hpieces, by simp⟩

theorem intercalate_of_split {s : String} {e : Expr} (h : split s = .ok e) :
    ":".intercalate (e.kind :: e.args) = s := by
  obtain ⟨kind, args, hpieces, rfl⟩ := split_eq_ok_iff.1 h
  have hlists : (String.ofList kind :: args.map String.ofList).map String.toList =
      kind :: args := by simp [Function.comp_def]
  show ":".intercalate (String.ofList kind :: args.map String.ofList) = s
  rw [← String.toList_inj, String.toList_intercalate, hlists, Scan.eq_of_pieces hpieces]
  exact Scan.intercalate_cons_eq kind args

theorem split_plain {s : String} (h : s.toList.all Scan.plain = true) :
    split s = .ok ⟨s, s, [], ⟨0, s.utf8ByteSize⟩⟩ := by
  rw [split_single_iff]
  obtain ⟨pos, -, hpieces⟩ := Scan.pieces_plain h 0 []
  have hwhole := hpieces []
  rw [List.append_nil] at hwhole
  rw [hwhole]
  simp [Scan.pieces, Except.map]

/-- **Behind plain characters and a cut a text falls apart as it does by itself.** -/
theorem split_cut_iff {s kind rest : String} (hs : s.toList = kind.toList ++ ':' :: rest.toList)
    (hkind : kind.toList.all Scan.plain = true) {e : Expr} :
    split s = .ok e ↔ ∃ p, split rest = .ok p ∧
      e = ⟨s, kind, p.kind :: p.args, ⟨0, kind.utf8ByteSize⟩⟩ := by
  obtain ⟨pos, hcut⟩ := Scan.pieces_plain_cut hkind 0
  have hpieces := (hcut rest.toList).2
  rw [← hs] at hpieces
  -- the offset at which the rest starts makes no difference
  have halike : Scan.Alike ⟨pos, false, []⟩ {} := ⟨rfl, rfl⟩
  have halike' : Scan.Alike {} ⟨pos, false, []⟩ := ⟨rfl, rfl⟩
  constructor
  · intro h
    obtain ⟨first, args, hsplit, rfl⟩ := split_eq_ok_iff.1 h
    cases hrest : Scan.pieces ⟨pos, false, []⟩ rest.toList with
    | error f =>
      rw [hpieces, hrest] at hsplit
      nomatch hsplit
    | ok q =>
      rw [hpieces, hrest] at hsplit
      obtain ⟨rfl, rfl⟩ : kind.toList = first ∧ q.1 :: q.2 = args := by
        simpa [Except.map] using hsplit
      refine ⟨_, split_of_ok (Scan.pieces_of_alike halike hrest), ?_⟩
      simp
  · rintro ⟨p, hp, rfl⟩
    obtain ⟨first, args, hrest, rfl⟩ := split_eq_ok_iff.1 hp
    rw [Scan.pieces_of_alike halike' hrest] at hpieces
    refine split_eq_ok_iff.2 ⟨kind.toList, first :: args, hpieces, ?_⟩
    simp

/-- **Taking a text apart loses nothing, and leaves nothing to take apart.** The kind and the
arguments, joined with `:`, are the text; the text is kept as the source, and the span of the kind
is the head of it. Each of the pieces by itself is a single piece. -/
theorem split_lossless (s : String) (e : Expr) (h : split s = .ok e) :
    ":".intercalate (e.kind :: e.args) = s ∧ e.source = s ∧
      e.kindSpan = ⟨0, e.kind.utf8ByteSize⟩ ∧ e.kind.toList <+: s.toList ∧
      ∀ piece ∈ e.kind :: e.args,
        split piece = .ok ⟨piece, piece, [], ⟨0, piece.utf8ByteSize⟩⟩ := by
  obtain ⟨kind, args, hpieces, rfl⟩ := split_eq_ok_iff.1 h
  have htext := Scan.eq_of_pieces hpieces
  obtain ⟨hkind, hargs⟩ := Scan.pieces_of_pieces hpieces
  refine ⟨intercalate_of_split h, rfl, rfl,
    ⟨args.flatMap (':' :: ·), by simpa using htext.symm⟩, ?_⟩
  · have hsingle (piece : List Char) (hp : Scan.pieces {} piece = .ok (piece, [])) :
        split (String.ofList piece) = .ok ⟨String.ofList piece, String.ofList piece, [],
          ⟨0, (String.ofList piece).utf8ByteSize⟩⟩ := by
      rw [split_single_iff, String.toList_ofList]
      exact hp
    refine List.forall_mem_cons.2 ⟨hsingle kind hkind, fun piece hpiece => ?_⟩
    obtain ⟨cs, hcs, rfl⟩ := List.mem_map.1 hpiece
    exact hsingle cs (hargs cs hcs)

/-- A text with a cut in a quote, a parenthesis in another, and a quote that is left open. -/
theorem split_lossless_quoted :
    let e : Expr := ⟨"repeat:2:(\"(:\"):\"x:)", "repeat", ["2", "(\"(:\")", "\"x:)"], ⟨0, 6⟩⟩
    split e.source = .ok e ∧ ":".intercalate (e.kind :: e.args) = e.source ∧
      ∀ piece ∈ e.kind :: e.args,
        split piece = .ok ⟨piece, piece, [], ⟨0, piece.utf8ByteSize⟩⟩ := by
  intro e
  have hsplit : split e.source = .ok e := by decide
  obtain ⟨hjoined, -, -, -, hpieces⟩ := split_lossless e.source e hsplit
  exact ⟨hsplit, hjoined, hpieces⟩

/-- **Single pieces that are joined with `:` are the pieces of the text**, if no quote is left open
in any but the last. -/
theorem split_intercalate (p : String) (ps : List String)
    (hsingle : ∀ q ∈ p :: ps, split q = .ok ⟨q, q, [], ⟨0, q.utf8ByteSize⟩⟩)
    (heven : ∀ q ∈ (p :: ps).dropLast, Even (q.toList.count '"')) :
    split (":".intercalate (p :: ps)) =
      .ok ⟨":".intercalate (p :: ps), p, ps, ⟨0, p.utf8ByteSize⟩⟩ := by
  have hpieces : Scan.pieces {} ([':'].intercalate (p.toList :: ps.map String.toList)) =
      .ok (p.toList, ps.map String.toList) := by
    refine Scan.pieces_intercalate (fun piece hpiece => ?_) fun piece hpiece => ?_
    · rw [← List.map_cons] at hpiece
      obtain ⟨q, hq, rfl⟩ := List.mem_map.1 hpiece
      exact split_single_iff.1 (hsingle q hq)
    · rw [← List.map_cons, ← List.map_dropLast] at hpiece
      obtain ⟨q, hq, rfl⟩ := List.mem_map.1 hpiece
      exact heven q hq
  refine split_eq_ok_iff.2 ⟨p.toList, ps.map String.toList, ?_, ?_⟩
  · rw [String.toList_intercalate]
    exact hpieces
  · simp [Function.comp_def]

/-- Four pieces: a kind, the empty text, a group with a quote in it, and a quote that is left
open. -/
theorem split_intercalate_quoted :
    let ps := ["", "(\"(:\")", "\"x:)"]
    (∀ q ∈ "repeat" :: ps, split q = .ok ⟨q, q, [], ⟨0, q.utf8ByteSize⟩⟩) ∧
      (∀ q ∈ ("repeat" :: ps).dropLast, Even (q.toList.count '"')) ∧
      split (":".intercalate ("repeat" :: ps)) =
        .ok ⟨":".intercalate ("repeat" :: ps), "repeat", ps, ⟨0, 6⟩⟩ := by
  intro ps
  have hsingle : ∀ q ∈ "repeat" :: ps, split q = .ok ⟨q, q, [], ⟨0, q.utf8ByteSize⟩⟩ := by decide
  have heven : ∀ q ∈ ("repeat" :: ps).dropLast, Even (q.toList.count '"') := by decide
  exact ⟨hsingle, heven, split_intercalate "repeat" ps hsingle heven⟩

end Expr

end RandExpr
