import RandExpr.Proofs.Delivery.Settling
import RandExpr.Proofs.Generator.Pulls
import RandExpr.Proofs.Generator.Scripted

/-!
# Wholes and their parts

What becomes of the parts of a whole while the whole is asked for its value, in whatever order and
at whatever moments they settle.

## The model

A part settles when it is asked for its value and answers with one, or with a fault; the world it
is asked in decides. A visit is one poll of one part, and `Delivery.Joining` makes visits one after
the other, each in a world of its own and to any part that is pending. So everything may happen
between two visits, and the parts may settle in any order. What a joiner answers at any time
(`Delivery.Answer`) depends on how far the parts have come: it gives the first fault it sees, or
waits with a fault until every part before has its value.

A poll of a whole makes a pass over its parts; `visitParts` makes the same pass and keeps the
visits (`pollParts_eq_visitParts`). A run of polls is `Delivery.Run`.

## What is proved

* `Joining.pairwise` — a part that has settled is not visited again.
* `Answer.eq_joined`, `Answer.mem` — both ways of answering speak the truth about the parts.
* `joining_of_run` — a run of a whole joins its parts, and answers with the first fault it sees.
* `repetition_settles_as_parts` — all this for what a repetition draws.

## Honest scope

A poll of a whole asks all its pending parts, in order, as is done with at most 30 of them. A joiner
that asks only those parts that have called for it, and takes up their results in order, is covered
by `Joining` and `Answer` but has no definition of its own.
-/

namespace RandExpr

variable {W : Type}

/-- One poll of a part of a whole. -/
structure Visit (W : Type) where
  /-- The number of the part, from 0. -/
  part : Nat
  /-- What is left of the part. -/
  asked : Delivery W
  /-- The world in which it is asked. -/
  world : W

/-- What the part comes to. -/
def Visit.progress (a : Visit W) : Progress W := (a.asked.poll a.world).1

/-- The result, if it is there. -/
def Progress.result? : Progress W → Option (Except Fault Value)
  | .pending _ => none
  | .settled result => some result

namespace Delivery

/-- How far a delivery has come that has not been asked. -/
def standing : Delivery W → Progress W
  | now v => .settled (.ok v)
  | d => .pending d

theorem standing_of_isLate {d : Delivery W} (h : d.isLate = true) : d.standing = .pending d := by
  cases d with
  | now v => simp [isLate] at h
  | _ => rfl

/-- Whether the progress is a fault. -/
def faulty : Progress W → Bool
  | .settled (.error _) => true
  | _ => false

/-- The visit to one part, if it comes later: the visit, how far the part has come, and the world
after it. -/
def visitPart (number : Nat) (part : Delivery W) (w : W) : List (Visit W) × Progress W × W :=
  if part.isLate then ([⟨number, part, w⟩], part.poll w) else ([], part.standing, w)

/-- A pass over parts, from left to right and up to the first fault: the visits made, how far every
part has come, and the world after it. The first part has the given number. -/
def visitParts :
    (number : Nat) → List (Delivery W) → W → List (Visit W) × List (Progress W) × W
  | _, [], w => ([], [], w)
  | number, part :: parts, w =>
    let (visits, p, w) := visitPart number part w
    let (visits', ps, w) := if faulty p then ([], parts.map standing, w)
      else visitParts (number + 1) parts w
    (visits ++ visits', p :: ps, w)

/-- What a pass leaves of the parts: the first fault, or the parts as they are now. -/
def leftOf : List (Progress W) → Except Fault (List (Delivery W))
  | [] => .ok []
  | .pending rest :: ps => (leftOf ps).map (rest :: ·)
  | .settled (.ok v) :: ps => (leftOf ps).map (now v :: ·)
  | .settled (.error f) :: _ => .error f

/-- The pass with visits is the pass that a poll of a whole makes. -/
theorem pollParts_eq_visitParts (i : Nat) (parts polled : List (Delivery W)) (w : W) :
    pollParts parts polled w =
      ((leftOf (visitParts i parts w).2.1).map (polled.reverse ++ ·),
        (visitParts i parts w).2.2) := by
  induction parts generalizing i polled w with
  | nil => simp [pollParts, visitParts, leftOf, Except.map]
  | cons part parts ih =>
    obtain ⟨visits, hvisit⟩ : ∃ visits, visitPart i part w = (visits, part.poll w) := by
      cases part <;> exact ⟨_, rfl⟩
    obtain ⟨p, w', hp⟩ : ∃ p w', part.poll w = (p, w') := ⟨_, _, rfl⟩
    rw [pollParts, visitParts, hvisit, hp]
    cases p with
    | pending rest =>
      simp only [ih (i + 1) (rest :: polled) w', faulty, Bool.false_eq_true, if_false, leftOf]
      cases leftOf (visitParts (i + 1) parts w').2.1 <;> simp [Except.map]
    | settled result =>
      cases result with
      | error f => rfl
      | ok v =>
        simp only [ih (i + 1) (now v :: polled) w', faulty, Bool.false_eq_true, if_false, leftOf]
        cases leftOf (visitParts (i + 1) parts w').2.1 <;> simp [Except.map]

/-! ### Joining parts -/

/-- Visits to parts, one after the other and each in any world, and how far every part has come
behind them. Any part that is pending may be visited next. -/
inductive Joining (parts : List (Delivery W)) : List (Visit W) → List (Progress W) → Prop where
  /-- No part has been visited. -/
  | start : Joining parts [] (parts.map standing)
  /-- A visit asks what is left pending of a part. -/
  | visit {visits : List (Visit W)} {ps : List (Progress W)} (a : Visit W)
      (h : Joining parts visits ps) (ha : ps[a.part]? = some (.pending a.asked)) :
      Joining parts (visits ++ [a]) (ps.set a.part a.progress)

theorem Joining.length_eq {parts : List (Delivery W)} {visits : List (Visit W)}
    {ps : List (Progress W)} (h : Joining parts visits ps) : ps.length = parts.length := by
  induction h with
  | start => exact List.length_map ..
  | visit a _ _ ih => rw [List.length_set, ih]

theorem Joining.isLate {parts : List (Delivery W)} {visits : List (Visit W)}
    {ps : List (Progress W)} (h : Joining parts visits ps) :
    ∀ rest, .pending rest ∈ ps → rest.isLate = true := by
  induction h with
  | start =>
    intro rest hr
    obtain ⟨d, -, hd⟩ := List.mem_map.1 hr
    cases d with
    | now v => simp [standing] at hd
    | _ =>
      obtain rfl : _ = rest := by simpa [standing] using hd
      rfl
  | visit a _ _ ih =>
    intro rest hr
    rcases List.mem_or_eq_of_mem_set hr with hr | hr
    · exact ih rest hr
    · have hp : a.asked.poll a.world = (.pending rest, (a.asked.poll a.world).2) :=
        Prod.ext hr.symm rfl
      exact isLate_of_pending hp

theorem Joining.getElem?_of_settled {parts : List (Delivery W)} {visits : List (Visit W)}
    {ps : List (Progress W)} (h : Joining parts visits ps) {a : Visit W}
    {r : Except Fault Value} (ha : a ∈ visits) (hr : a.progress = .settled r) :
    ps[a.part]? = some (.settled r) := by
  induction h with
  | start => simp at ha
  | @visit visits ps b _ hb ih =>
    rcases List.mem_append.1 ha with ha | ha
    · have hsettled := ih ha
      have hne : b.part ≠ a.part := by
        intro he
        rw [he, hsettled] at hb
        simp at hb
      rw [List.getElem?_set_ne hne, hsettled]
    · obtain rfl := List.mem_singleton.1 ha
      obtain ⟨hlt, -⟩ := List.getElem?_eq_some_iff.1 hb
      rw [List.getElem?_set_self hlt, hr]

/-- The fault of a part is one that a visit has settled it with. -/
theorem Joining.exists_visit {parts : List (Delivery W)} {visits : List (Visit W)}
    {ps : List (Progress W)} (h : Joining parts visits ps) {f : Fault}
    (hf : .settled (.error f) ∈ ps) : ∃ a ∈ visits, a.progress = .settled (.error f) := by
  induction h with
  | start =>
    obtain ⟨d, -, hd⟩ := List.mem_map.1 hf
    cases d <;> simp [standing] at hd
  | visit a _ _ ih =>
    rcases List.mem_or_eq_of_mem_set hf with hf | hf
    · obtain ⟨b, hb, hr⟩ := ih hf
      exact ⟨b, List.mem_append_left _ hb, hr⟩
    · exact ⟨a, by simp, hf.symm⟩

/-- No part is visited again once a visit has settled it. -/
theorem Joining.pairwise {parts : List (Delivery W)} {visits : List (Visit W)}
    {ps : List (Progress W)} (h : Joining parts visits ps) :
    visits.Pairwise fun a b => b.part = a.part → ∀ r, a.progress ≠ .settled r := by
  induction h with
  | start => exact .nil
  | @visit visits ps b h hb ih =>
    refine List.pairwise_append.2 ⟨ih, List.pairwise_singleton .., ?_⟩
    intro a ha c hc he r hr
    obtain rfl := List.mem_singleton.1 hc
    rw [he, h.getElem?_of_settled ha hr] at hb
    simp at hb

theorem Joining.visitParts {parts left : List (Delivery W)} {visits : List (Visit W)}
    {done : List (Progress W)} (h : Joining parts visits (done ++ left.map standing)) (w : W) :
    Joining parts (visits ++ (visitParts done.length left w).1)
      (done ++ (visitParts done.length left w).2.1) := by
  induction left generalizing visits done w with
  | nil => simpa [Delivery.visitParts] using h
  | cons d left ih =>
    obtain ⟨as, p, w', hv⟩ : ∃ as p w', visitPart done.length d w = (as, p, w') := ⟨_, _, _, rfl⟩
    have hfirst : Joining parts (visits ++ as) (done ++ p :: left.map standing) := by
      rw [visitPart] at hv
      split at hv
      next hd =>
        obtain ⟨rfl, rfl, -⟩ : [⟨done.length, d, w⟩] = as ∧ (d.poll w).1 = p ∧
            (d.poll w).2 = w' := by
          simpa [Prod.ext_iff] using hv
        have hstep := h.visit ⟨done.length, d, w⟩ (by simp [standing_of_isLate hd])
        simpa [Visit.progress] using hstep
      next =>
        obtain ⟨rfl, rfl, -⟩ : [] = as ∧ d.standing = p ∧ w = w' := by
          simpa using hv
        simpa using h
    rw [Delivery.visitParts, hv]
    simp only
    split
    next => simpa using hfirst
    next =>
      rw [List.append_cons] at hfirst
      have hrest := ih hfirst w'
      rw [List.length_append, List.length_singleton] at hrest
      simpa using hrest

/-! ### What a whole answers -/

/-- The results of parts in their order: the first fault, or all the values, as soon as every part
before it has its value. -/
def inTurn : List (Progress W) → Option (Except Fault (List Value))
  | [] => some (.ok [])
  | .settled (.ok v) :: ps => (inTurn ps).map (Except.map (v :: ·))
  | .settled (.error f) :: _ => some (.error f)
  | .pending _ :: _ => none

/-- What a joiner may answer when its parts have come this far. -/
inductive Answer (ps : List (Progress W)) : Option (Except Fault Value) → Prop where
  /-- Nothing, before it has looked at them. -/
  | silent : Answer ps none
  /-- The first fault there is, or else the joined text of all. -/
  | eager : Answer ps (joinProgress (leftOf ps)).result?
  /-- The first fault once it is its turn, or else the joined text of all. -/
  | inTurn : Answer ps ((inTurn ps).map (Except.map .joined))

theorem mem_of_leftOf {ps : List (Progress W)} {f : Fault} (h : leftOf ps = .error f) :
    .settled (.error f) ∈ ps := by
  induction ps with
  | nil => simp [leftOf] at h
  | cons p ps ih =>
    have tail (d : Delivery W) (h : (leftOf ps).map (d :: ·) = .error f) :
        .settled (.error f) ∈ p :: ps := by
      refine List.mem_cons_of_mem _ (ih ?_)
      cases hl : leftOf ps with
      | ok ds => simp [hl, Except.map] at h
      | error f' => simpa [hl, Except.map] using h
    match p with
    | .pending rest => exact tail rest h
    | .settled (.ok v) => exact tail (now v) h
    | .settled (.error f') =>
      obtain rfl : f' = f := by simpa [leftOf] using h
      exact List.mem_cons_self

theorem leftOf_map_ok (vs : List Value) :
    leftOf (vs.map fun v => Progress.settled (.ok v)) = .ok (vs.map (now (W := W))) := by
  induction vs with
  | nil => rfl
  | cons v vs ih => simp [leftOf, ih, Except.map]

theorem eq_map_standing_of_leftOf {ps : List (Progress W)} {ds : List (Delivery W)}
    (hlate : ∀ rest, .pending rest ∈ ps → rest.isLate = true) (h : leftOf ps = .ok ds) :
    ps = ds.map standing := by
  induction ps generalizing ds with
  | nil =>
    obtain rfl : [] = ds := by simpa [leftOf] using h
    rfl
  | cons p ps ih =>
    have tail (d : Delivery W) (hd : d.standing = p) (h : (leftOf ps).map (d :: ·) = .ok ds) :
        p :: ps = ds.map standing := by
      cases hl : leftOf ps with
      | error f => simp [hl, Except.map] at h
      | ok ds' =>
        obtain rfl : d :: ds' = ds := by simpa [hl, Except.map] using h
        rw [List.map_cons, hd, ih (fun rest hr => hlate rest (List.mem_cons_of_mem _ hr)) hl]
    match p with
    | .pending rest => exact tail rest (standing_of_isLate (hlate rest List.mem_cons_self)) h
    | .settled (.ok v) => exact tail (now v) rfl h
    | .settled (.error f) => simp [leftOf] at h

theorem eq_of_inTurn_ok {ps : List (Progress W)} {vs : List Value}
    (h : inTurn ps = some (.ok vs)) : ps = vs.map fun v => .settled (.ok v) := by
  induction ps generalizing vs with
  | nil =>
    obtain rfl : [] = vs := by simpa [inTurn] using h
    rfl
  | cons p ps ih =>
    match p with
    | .pending rest => simp [inTurn] at h
    | .settled (.error f) => simp [inTurn] at h
    | .settled (.ok v) =>
      obtain ⟨r, hr, hvs⟩ := Option.map_eq_some_iff.1 h
      cases r with
      | error f => simp [Except.map] at hvs
      | ok us =>
        obtain rfl : v :: us = vs := by simpa [Except.map] using hvs
        rw [ih hr, List.map_cons]

theorem mem_of_inTurn_error {ps : List (Progress W)} {f : Fault}
    (h : inTurn ps = some (.error f)) : .settled (.error f) ∈ ps := by
  induction ps with
  | nil => simp [inTurn] at h
  | cons p ps ih =>
    match p with
    | .pending rest => simp [inTurn] at h
    | .settled (.error f') =>
      obtain rfl : f' = f := by simpa [inTurn] using h
      exact List.mem_cons_self
    | .settled (.ok v) =>
      obtain ⟨r, hr, hf⟩ := Option.map_eq_some_iff.1 h
      cases r with
      | ok vs => simp [Except.map] at hf
      | error f' =>
        obtain rfl : f' = f := by simpa [Except.map] using hf
        exact List.mem_cons_of_mem _ (ih hr)

/-- Both ways of answering give a text only when every part has its value. -/
theorem Answer.eq_joined {ps : List (Progress W)} {v : Value} (h : Answer ps (some (.ok v)))
    (hlate : ∀ rest, .pending rest ∈ ps → rest.isLate = true) :
    ∃ vs : List Value, ps = vs.map (fun v => .settled (.ok v)) ∧ v = .joined vs := by
  generalize hr : some (Except.ok v) = r at h
  cases h with
  | silent => simp at hr
  | eager =>
    cases hl : leftOf ps with
    | error f => simp [hl, joinProgress, Progress.result?] at hr
    | ok ds =>
      rw [hl, joinProgress] at hr
      cases hv : values? ds with
      | none => simp [hv, Progress.result?] at hr
      | some vs =>
        refine ⟨vs, ?_, by simpa [hv, Progress.result?] using hr⟩
        rw [eq_map_standing_of_leftOf hlate hl, values?_eq_some_iff.1 hv, List.map_map]
        rfl
  | inTurn =>
    obtain ⟨r, hps, hv⟩ := Option.map_eq_some_iff.1 hr.symm
    cases r with
    | error f => simp [Except.map] at hv
    | ok vs => exact ⟨vs, eq_of_inTurn_ok hps, by simpa [Except.map] using hv.symm⟩

theorem Answer.mem {ps : List (Progress W)} {f : Fault} (h : Answer ps (some (.error f))) :
    .settled (.error f) ∈ ps := by
  generalize hr : some (Except.error f) = r at h
  cases h with
  | silent => simp at hr
  | eager =>
    cases hl : leftOf ps with
    | error f' =>
      obtain rfl : f = f' := by simpa [hl, joinProgress, Progress.result?] using hr
      exact mem_of_leftOf hl
    | ok ds => cases hv : values? ds <;> simp [hl, hv, joinProgress, Progress.result?] at hr
  | inTurn =>
    obtain ⟨r, hps, hf⟩ := Option.map_eq_some_iff.1 hr.symm
    cases r with
    | ok vs => simp [Except.map] at hf
    | error f' =>
      obtain rfl : f' = f := by simpa [Except.map] using hf
      exact mem_of_inTurn_error hps

/-! ### Runs of a whole -/

/-- The visits that a poll makes to the parts of a whole. -/
def visits : Delivery W → W → List (Visit W)
  | join parts, w => (visitParts 0 parts w).1
  | _, _ => []

/-- A run of polls, in any worlds: the visits made to the parts, and what the delivery has come
to. -/
inductive Run (d : Delivery W) : List (Visit W) → Progress W → Prop where
  /-- Nobody has asked. -/
  | start : Run d [] (.pending d)
  /-- What is left pending is asked once more. -/
  | poll {visits : List (Visit W)} {rest : Delivery W} (w : W) (h : Run d visits (.pending rest)) :
      Run d (visits ++ rest.visits w) (rest.poll w).1

/-- **A run of a whole joins its parts.** It answers with a fault as soon as there is one, and
what is pending is the whole of what is left of the parts. -/
theorem joining_of_run {parts : List (Delivery W)} {visits : List (Visit W)}
    {progress : Progress W} (h : (gather parts).Run visits progress) :
    ∃ ps, Joining parts visits ps ∧ Answer ps progress.result? ∧
      ∀ rest, progress = .pending rest → ∃ left, rest = gather left ∧ ps = left.map standing := by
  induction h with
  | start =>
    refine ⟨parts.map standing, .start, .silent, fun rest hr => ⟨parts, ?_, rfl⟩⟩
    simpa using hr.symm
  | @poll visits rest w _ ih =>
    obtain ⟨ps, hjoin, -, hleft⟩ := ih
    obtain ⟨left, rfl, rfl⟩ := hleft rest rfl
    cases hv : values? left with
    | some vs =>
      have hps : left.map standing = vs.map fun v => Progress.settled (.ok v) := by
        rw [values?_eq_some_iff.1 hv, List.map_map]
        rfl
      refine ⟨left.map standing, by simpa [gather, hv, Delivery.visits] using hjoin, ?_, ?_⟩
      · have hanswer : Answer (left.map standing)
            (joinProgress (leftOf (left.map standing))).result? := .eager
        rw [hps, leftOf_map_ok, joinProgress, values?_eq_some_iff.2 rfl] at hanswer
        rw [hps, gather, hv]
        exact hanswer
      · simp [gather, hv, poll]
    | none =>
      have hpass : Joining parts (visits ++ (visitParts 0 left w).1) (visitParts 0 left w).2.1 := by
        have hjoin : Joining parts visits ([] ++ left.map standing) := hjoin
        exact hjoin.visitParts w
      have hpoll : ((join left).poll w).1 = joinProgress (leftOf (visitParts 0 left w).2.1) := by
        rw [poll, pollParts_eq_visitParts 0 left [] w]
        cases leftOf (visitParts 0 left w).2.1 <;> simp [Except.map]
      rw [gather, hv, hpoll]
      refine ⟨_, hpass, .eager, fun rest hrest => ?_⟩
      cases hl : leftOf (visitParts 0 left w).2.1 with
      | error f => simp [hl, joinProgress] at hrest
      | ok ds =>
        rw [hl, joinProgress] at hrest
        cases hds : values? ds with
        | some vs => simp [hds] at hrest
        | none =>
          refine ⟨ds, ?_, eq_map_standing_of_leftOf hpass.isLate hl⟩
          simpa [hds, gather] using hrest.symm

end Delivery

open Delivery in
/-- **What a repetition draws settles as its parts do.** Where as many draws in a row as the count
says give the parts, the repetition draws their whole, which comes later exactly if one of them
does. A run of polls of the whole, in any worlds, visits the parts one after the other and answers
as a joiner does. And in whatever order the pending parts are visited, and whichever way the joiner
answers: a part is not visited again once it has settled, a text is answered only when every part
has its value and is then made of their texts in the order of the draws, and a fault is answered
only if a part has settled with it. -/
theorem repetition_settles_as_parts [Host W] (g : Generator W) (parts : List (Delivery W))
    (s s' : g.toSource.State) (w w' : W) (h : g.toSource.Pulls s w (parts.map .ok) s' w') :
    ∃ whole, (Recipe.repetition parts.length g).pull s w = (.ok whole, s', w') ∧
      (whole.isLate = true ↔ ∃ d ∈ parts, d.isLate = true) ∧
      (∀ visits progress, whole.Run visits progress → ∃ ps, Joining parts visits ps ∧
        Answer ps progress.result? ∧
        ∀ rest, progress = .pending rest → rest.isLate = true → ∃ d, .pending d ∈ ps) ∧
      ∀ visits ps, Joining parts visits ps →
        visits.Pairwise (fun a b => b.part = a.part → ∀ r, a.progress ≠ .settled r) ∧
        (∀ v, Answer ps (some (.ok v)) →
          (∀ a ∈ visits, ∀ f, a.progress ≠ .settled (.error f)) ∧
          ∃ vs : List Value, vs.length = parts.length ∧
            ps = vs.map (fun v => .settled (.ok v)) ∧
            v = .text (String.join (vs.map Value.display))) ∧
        ∀ f, Answer ps (some (.error f)) → ∃ a ∈ visits, a.progress = .settled (.error f) := by
  refine ⟨gather parts, Recipe.repetition_pull_of_ok h, isLate_gather_iff, ?_, ?_⟩
  · intro visits progress hrun
    obtain ⟨ps, hjoin, hanswer, hleft⟩ := joining_of_run hrun
    refine ⟨ps, hjoin, hanswer, ?_⟩
    rintro rest hr hlate
    obtain ⟨left, rfl, rfl⟩ := hleft rest hr
    obtain ⟨d, hd, hlate⟩ := isLate_gather_iff.1 hlate
    exact ⟨d, List.mem_map.2 ⟨d, hd, standing_of_isLate hlate⟩⟩
  · intro visits ps hjoin
    refine ⟨hjoin.pairwise, ?_, fun f hf => hjoin.exists_visit hf.mem⟩
    intro v hv
    obtain ⟨vs, rfl, rfl⟩ := hv.eq_joined hjoin.isLate
    refine ⟨?_, vs, by simpa using hjoin.length_eq, rfl, rfl⟩
    intro a ha f hf
    have hsettled := hjoin.getElem?_of_settled ha hf
    rw [List.getElem?_map] at hsettled
    cases hv : vs[a.part]? <;> simp [hv] at hsettled

open Delivery in
/-- Three draws, the second of which comes later than the others. -/
theorem repetition_settles_as_parts_mixed :
    let script : Nat → Except Fault (Delivery Diary) := fun n =>
      .ok (if n = 1 then .after 2 (.ok (.text "b")) else .now (.text "a"))
    let g := Generator.scripted "mixed" script
    ∃ whole s w, (Recipe.repetition 3 g).pull g.toSource.state ⟨[]⟩ = (.ok whole, s, w) ∧
      whole.isLate = true := by
  intro script g
  let parts : List (Delivery Diary) :=
    [now (.text "a"), after 2 (.ok (.text "b")), now (.text "a")]
  obtain ⟨s, w, h⟩ : ∃ s w, g.toSource.Pulls g.toSource.state ⟨[]⟩ (parts.map .ok) s w :=
    ⟨_, _, .cons rfl (.cons rfl (.cons rfl .nil))⟩
  obtain ⟨whole, hpull, hlate, -⟩ := repetition_settles_as_parts g parts _ s _ w h
  exact ⟨whole, s, w, hpull, hlate.2 ⟨after 2 (.ok (.text "b")), by simp [parts], rfl⟩⟩

end RandExpr
