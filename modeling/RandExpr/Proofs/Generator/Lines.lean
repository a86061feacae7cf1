import RandExpr.Proofs.Generator.Calls

/-!
# Lines of the log

What a generator writes to the log while it is called.

## The model

A run of calls is followed with the world that each call leaves (`Generator.callAll`), beside the
draws of the source with the world that each draw leaves (`Source.drawIn`). What is between the two
is the generator's own: the notes of the draw (`Generator.notes`), kept one after the other, and
then the callback of the call, if the value is there (`Call.finish`). A note stands in the log as
its level and its wording (`Note.line`).

## What is proved

* `pull_of_draw`, `answer_of_draw` — one draw, and one call that draws, with what they do to the
  world.
* `callAll_of_none` — once the first value has been handed out, every call adds the notes of its
  draw and nothing else.
* `lines_of_calls` — the lines of every run of calls of a generator that has just been built.
-/

namespace RandExpr

variable {W : Type}

/-- A note as it stands in the log. -/
def Note.line (n : Note) : Level × String := (n.level, n.text)

/-- Keeps notes one after the other. -/
def Note.keepAll [Host W] (notes : List Note) (w : W) : W :=
  notes.foldl (fun w n => Host.note n w) w

/-- The notes that a generator keeps of a draw of its source. -/
def Generator.notes (g : Generator W) : Except Fault (Delivery W) → List Note
  | .error _ => []
  | .ok d =>
    .pulled g.kind ::
      if d.isLate = g.isLate then [] else [.shapeChanged g.kind d.isLate g.isLate]

/-- Draws from a source once in each of the worlds: the results with the worlds that the draws
leave, and the state of the source then. -/
def Source.drawIn (S : Source W) :
    S.State → List W → List (Except Fault (Delivery W) × W) × S.State
  | s, [] => ([], s)
  | s, w :: ws =>
    let (r, s, w) := S.pull s w
    let (drawn, s) := S.drawIn s ws
    ((r, w) :: drawn, s)

theorem Source.drawIn_state (S : Source W) (t s : S.State) (ws : List W) :
    ({ S with state := t } : Source W).drawIn s ws = S.drawIn s ws := by
  induction ws generalizing s with
  | nil => rfl
  | cons w ws ih =>
    obtain ⟨r, s₁, w₁, hr⟩ : ∃ r s₁ w₁, S.pull s w = (r, s₁, w₁) := ⟨_, _, _, rfl⟩
    simp only [drawIn, hr, ih]

namespace Generator

variable [Host W]

/-- Makes calls one after the other, each in a world of its own: the answers with the worlds that
the calls leave, and the generator then. -/
def callAll (g : Generator W) :
    List (Call W × W) → List (Except Fault (Delivery W) × W) × Generator W
  | [] => ([], g)
  | (c, w) :: calls =>
    let (r, g, w) := g.answer c w
    let (answers, g) := g.callAll calls
    ((r, w) :: answers, g)

/-! ### One call -/

/-- Once the first value has been handed out, a draw adds its notes to what the draw of the source
does. -/
theorem pull_of_draw {g : Generator W} {s t : g.source.State} {w v : W}
    {r : Except Fault (Delivery W)} (h : g.source.pull s w = (r, t, v)) :
    g.pull (none, s) w = (r, (none, t), Note.keepAll (g.notes r) v) := by
  cases r with
  | error f => exact pull_of_error h
  | ok d =>
    rw [pull_of_ok h, notes]
    by_cases hlate : d.isLate = g.isLate
    · rw [if_pos hlate, if_pos hlate]
      rfl
    · rw [if_neg hlate, if_neg hlate]
      rfl

theorem answer_of_draw {g : Generator W} {s t : g.source.State} {w v : W}
    {r : Except Fault (Delivery W)} (h : g.source.pull s w = (r, t, v)) (c : Call W) :
    (g.withState (none, s)).answer c w =
      (r.map c.hand, g.withState (none, t), c.finish r (Note.keepAll (g.notes r) v)) :=
  answer_of_pull (pull_of_draw h) c

/-! ### Runs of calls -/

/-- **Once the first value has been handed out, every call adds the notes of its draw to what the
source does**, and nothing else before its callback. -/
theorem callAll_of_none (g : Generator W) (s : g.source.State) (calls : List (Call W × W)) :
    (g.withState (none, s)).callAll calls =
      (List.zipWith (fun call drawn => (drawn.1.map call.1.hand,
          call.1.finish drawn.1 (Note.keepAll (g.notes drawn.1) drawn.2)))
        calls (g.source.drawIn s (calls.map (·.2))).1,
        g.withState (none, (g.source.drawIn s (calls.map (·.2))).2)) := by
  induction calls generalizing s with
  | nil => rfl
  | cons call calls ih =>
    obtain ⟨c, w⟩ := call
    obtain ⟨r, t, v, hdraw⟩ : ∃ r t v, g.source.pull s w = (r, t, v) := ⟨_, _, _, rfl⟩
    rw [callAll, answer_of_draw hdraw, List.map_cons, Source.drawIn, hdraw]
    simp only [ih t, List.zipWith_cons_cons]

theorem isLate_callAll (g : Generator W) (calls : List (Call W × W)) :
    (g.callAll calls).2.isLate = g.isLate := by
  induction calls generalizing g with
  | nil => rfl
  | cons call calls ih =>
    obtain ⟨c, w⟩ := call
    obtain ⟨r, s, w', hpull⟩ : ∃ r s w', g.pull (g.first, g.source.state) w = (r, s, w') :=
      ⟨_, _, _, rfl⟩
    have hanswer : g.answer c w = _ := answer_of_pull hpull c
    rw [callAll, hanswer]
    exact ih (g.withState s)

end Generator

open Generator in
/-- **The lines of a generator are exact.** Let a generator be built over a source, whatever its
draws give. Its first call leaves nothing in the world but what its callback does. Every later call
leaves what the draw from the source leaves, the notes of the draw, and what its callback does, in
this order. A draw that fails has no notes. A draw that succeeds has one that the source was drawn
from, and then, exactly if what was drawn comes late and the first value did not, or the other way
round, one more that names both. No call changes the classification, which is that of the first
value. -/
theorem lines_of_calls [Host W] (kind : String) (args : List String) (depth : Nat) (S : Source W)
    (w w' : W) (g : Generator W) (h : ofSource kind args depth S w = (.ok g, w')) :
    ∃ d s w₁, S.pull S.state w = (.ok d, s, w₁) ∧
      (∀ calls, (g.callAll calls).2.isLate = d.isLate) ∧
      (∀ (c : Call W) (u : W) (calls : List (Call W × W)), (g.callAll ((c, u) :: calls)).1 =
        (.ok (c.hand d), c.finish (.ok d) u) ::
          List.zipWith (fun call drawn => (drawn.1.map call.1.hand,
            call.1.finish drawn.1 (Note.keepAll (g.notes drawn.1) drawn.2)))
          calls (S.drawIn s (calls.map (·.2))).1) ∧
      (∀ f, (g.notes (.error f)).map Note.line = []) ∧
      ∀ d', (g.notes (.ok d')).map Note.line =
        (.trace, "pulled from " ++ Text.quoted kind ++ " generator") ::
          if d'.isLate = d.isLate then []
          else [(.warn, Text.quoted kind ++ " generator produced a " ++
            (if d'.isLate then "deferred" else "immediate") ++ " value after classifying as " ++
            (if d.isLate then "async" else "sync"))] := by
  obtain ⟨r, s, w₁, hpull⟩ : ∃ r s w₁, S.pull S.state w = (r, s, w₁) := ⟨_, _, _, rfl⟩
  cases r with
  | error f =>
    simp only [ofSource, hpull] at h
    cases h
  | ok d =>
    simp only [ofSource, hpull] at h
    obtain rfl : (⟨kind, args, d.isLate, some d, { S with state := s }⟩ : Generator W) = g :=
      Except.ok.inj (Prod.mk.inj h).1
    refine ⟨d, s, w₁, hpull, isLate_callAll _, fun c u calls => ?_, fun f => rfl, fun d' => ?_⟩
    · let g : Generator W := ⟨kind, args, d.isLate, some d, { S with state := s }⟩
      have hfirst : g.answer c u = _ := g.answer_of_first d s c u
      have hrest := g.callAll_of_none s calls
      have hdrawn : g.source.drawIn s (calls.map (·.2)) = S.drawIn s (calls.map (·.2)) :=
        S.drawIn_state s s _
      rw [hdrawn] at hrest
      show (g.callAll ((c, u) :: calls)).1 = _
      rw [callAll, hfirst]
      simp only [hrest]
      rfl
    · rw [notes, List.map_cons]
      by_cases hlate : d'.isLate = d.isLate
      · rw [if_pos hlate, if_pos hlate]
        rfl
      · rw [if_neg hlate, if_neg hlate]
        rfl

/-- Of four calls the second gets a value that comes later, and the third a fault. The diary has the
latest note first. -/
theorem lines_of_calls_coin :
    let script : Nat → Except Fault (Delivery Diary) := fun n =>
      if n = 1 then .ok (.after 1 (.ok (.text "tails")))
      else if n = 2 then .error (.sourceFailed "edge") else .ok (.now (.text "heads"))
    ∃ g w', Generator.ofSource "coin" [] 0 (.scripted script 0) ⟨[]⟩ = (.ok g, w') ∧
      (g.callAll (List.replicate 4 (.resolve, ⟨[]⟩))).1.map (fun a => a.2.notes) =
        [[], [.shapeChanged "coin" true false, .pulled "coin"], [], [.pulled "coin"]] ∧
      (g.callAll (List.replicate 4 (.resolve, ⟨[]⟩))).2.isLate = false := by
  intro script
  obtain ⟨g, w', hg⟩ : ∃ g w',
      Generator.ofSource "coin" [] 0 (.scripted script 0) (⟨[]⟩ : Diary) = (.ok g, w') :=
    ⟨_, _, rfl⟩
  obtain ⟨d, s, w₁, hpull, hlate, hcalls, -, -⟩ := lines_of_calls _ _ _ _ _ _ _ hg
  obtain ⟨⟩ := hpull
  refine ⟨g, w', hg, ?_, hlate _⟩
  have hrun := hcalls .resolve ⟨[]⟩ (List.replicate 3 (.resolve, ⟨[]⟩))
  obtain ⟨⟩ := hg
  rw [List.replicate_succ, hrun]
  rfl

end RandExpr
