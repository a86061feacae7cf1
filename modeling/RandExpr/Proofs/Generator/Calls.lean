import RandExpr.Proofs.Delivery.Settling
import RandExpr.Proofs.Generator.Pulls
import RandExpr.Proofs.Generator.Scripted

/-!
# Calls of a generator

The first value of a generator is drawn when it is built and handed out when it is first called.

## The model

A generator can be called in three ways (`Call`), and between two calls anything may happen outside,
so a run of calls is given with a world for each (`Generator.answerAll`). A call hands on what has
been drawn (`Call.hand`): a tap is put on a value that comes later when there is a callback, and
nothing else is changed.

## What is proved

* `answer_eq`, `answer_of_pull` — what a call does is what it does without the callback, and then
  the callback.
* `answer_of_first`, `answer_of_none` — what one call does, before and after the first value has
  been handed out.
* `answerAll_of_none` — once it has, every call draws from the source, exactly once.
* `calls_of_buildAt` — every run of calls of a generator that has just been built hands out what the
  source gives, draw by draw, though the first draw was made when the generator was built.
-/

namespace RandExpr

variable {W : Type}

/-- A way to call a generator. -/
inductive Call (W : Type) where
  /-- Asks for the next value. -/
  | resolve
  /-- Asks for the next value, and for it to be handed on. -/
  | resolveWith (callback : Value → W → W)
  /-- Draws from the generator as from any source. -/
  | pull

/-- What a call hands out when the delivery has been drawn. -/
def Call.hand : Call W → Delivery W → Delivery W
  | resolveWith callback, d => if d.isLate then .tap d callback else d
  | _, d => d

theorem Call.isLate_hand (c : Call W) (d : Delivery W) : (c.hand d).isLate = d.isLate := by
  cases c with
  | resolveWith callback =>
    rw [hand]
    split
    next h => exact h.symm
    next => rfl
  | _ => rfl

theorem Call.outcome_hand (c : Call W) (d : Delivery W) (ws : List W) :
    (c.hand d).outcome ws = d.outcome ws := by
  cases c with
  | resolveWith callback =>
    rw [hand]
    split
    next => exact Delivery.outcome_tap callback d ws
    next => rfl
  | _ => rfl

/-- Runs the callback of a call, if it has one, with a value. -/
def Call.run : Call W → Value → W → W
  | resolveWith callback, v, w => callback v w
  | _, _, w => w

/-- What a call does to the world when its draw has been made: its callback runs, if the value is
there. -/
def Call.finish (c : Call W) : Except Fault (Delivery W) → W → W
  | .ok (.now v), w => c.run v w
  | _, w => w

namespace Generator

variable [Host W]

/-- Calls a generator. -/
def answer (g : Generator W) : Call W → W → Except Fault (Delivery W) × Generator W × W
  | .resolve, w => g.resolve w
  | .resolveWith callback, w => g.resolveWith callback w
  | .pull, w =>
    let (r, s, w) := g.toSource.pull g.toSource.state w
    (r, g.withState s, w)

/-- Makes calls one after the other, each in a world of its own: the answers, and the generator
then. -/
def answerAll (g : Generator W) :
    List (Call W × W) → List (Except Fault (Delivery W)) × Generator W
  | [] => ([], g)
  | (c, w) :: calls =>
    let (r, g, _) := g.answer c w
    let (rs, g) := g.answerAll calls
    (r :: rs, g)

/-- A call does what it does without its callback, and then runs the callback if the value is
there. -/
theorem answer_eq (g : Generator W) (c : Call W) (w : W) :
    g.answer c w = match g.resolve w with
      | (.error f, g, w) => (.error f, g, w)
      | (.ok (.now v), g, w) => (.ok (.now v), g, c.run v w)
      | (.ok d, g, w) => (.ok (c.hand d), g, w) := by
  obtain ⟨r, g', w', hr⟩ : ∃ r g' w', g.resolve w = (r, g', w') := ⟨_, _, _, rfl⟩
  have hpull : g.answer .pull w = g.resolve w := rfl
  rw [hr]
  cases r with
  | error f =>
    cases c with
    | pull => rw [hpull, hr]
    | _ => simp only [answer, resolveWith, hr]
  | ok d =>
    cases c with
    | pull =>
      rw [hpull, hr]
      cases d <;> rfl
    | _ => cases d <;> simp only [answer, resolveWith, hr] <;> rfl

/-- **A call hands on what a draw from the generator gives**, and finishes with it. -/
theorem answer_of_pull {g : Generator W} {t s : g.State} {w w' : W}
    {r : Except Fault (Delivery W)} (h : g.pull t w = (r, s, w')) (c : Call W) :
    (g.withState t).answer c w = (r.map c.hand, g.withState s, c.finish r w') := by
  have hpull : (g.withState t).pull t w = (r, s, w') := (g.pull_withState t t w).trans h
  have hresolve : (g.withState t).resolve w = (r, g.withState s, w') := by
    unfold resolve
    exact congrArg (fun p => (p.1, (g.withState t).withState p.2.1, p.2.2)) hpull
  rw [answer_eq, hresolve]
  cases r with
  | error f => rfl
  | ok d =>
    cases d with
    | now v => cases c <;> rfl
    | wait | join | tap => rfl

/-- The first call hands out the first value, and draws nothing. -/
theorem answer_of_first (g : Generator W) (d : Delivery W) (s : g.source.State) (c : Call W)
    (w : W) : (g.withState (some d, s)).answer c w =
      (.ok (c.hand d), g.withState (none, s), c.finish (.ok d) w) := by
  have hpull : g.pull (some d, s) w = (.ok d, (none, s), w) := rfl
  exact answer_of_pull hpull c

/-- Once the first value has been handed out a call draws from the source, and hands out what it
gives, be it a fault. -/
theorem answer_of_none (g : Generator W) (c : Call W) (w : W) {s s₁ : g.source.State}
    {r : Except Fault (Delivery W)} {w₁ : W} (hr : g.source.pull s w = (r, s₁, w₁)) :
    ∃ w', (g.withState (none, s)).answer c w = (r.map c.hand, g.withState (none, s₁), w') := by
  obtain ⟨w₂, hpull⟩ := g.pull_of_none hr
  exact ⟨_, answer_of_pull hpull c⟩

theorem answerAll_of_none (g : Generator W) (s : g.source.State) (calls : List (Call W × W)) :
    (g.withState (none, s)).answerAll calls =
      (List.zipWith (fun c r => r.map c.1.hand) calls (g.source.pullIn s (calls.map (·.2))).1,
        g.withState (none, (g.source.pullIn s (calls.map (·.2))).2)) := by
  induction calls generalizing s with
  | nil => rfl
  | cons call calls ih =>
    obtain ⟨c, w⟩ := call
    obtain ⟨r, s₁, w₁, hr⟩ : ∃ r s₁ w₁, g.source.pull s w = (r, s₁, w₁) := ⟨_, _, _, rfl⟩
    obtain ⟨w', ha⟩ := g.answer_of_none c w hr
    rw [answerAll, ha, List.map_cons, Source.pullIn, hr]
    simp only [ih s₁, List.zipWith_cons_cons]

end Generator

open Generator in
/-- **A generator hands out every value of its source exactly once.** Where the source of an
expression has been prepared, building fails with the fault of the first draw, if there is one. Else
the generator that is built hands out, call by call, what the source gives draw by draw, faults
included, for any number of calls in any of the three ways and in any worlds; the source has then
been drawn from once for each call, but at least once, and the generator is the one that was built,
with the first value kept exactly until there is a call. What is handed out is late, and settles, as
what has been drawn. -/
theorem calls_of_buildAt [Host W] (catalog : Catalog W) (options : Options) (levels : Nat)
    (text : String) (w w₁ : W) (e : Expr) (S : Source W)
    (h : catalog.prepare options (catalog.buildAt options levels) (maxDepth - levels) text w =
      (.ok (e, S), w₁)) :
    (∀ f s w₂, S.pull S.state w₁ = (.error f, s, w₂) →
      catalog.buildAt options (levels + 1) text w = (.error f, w₂)) ∧
    (∀ d s w₂, S.pull S.state w₁ = (.ok d, s, w₂) → ∃ g w₃,
      catalog.buildAt options (levels + 1) text w = (.ok g, w₃) ∧
      ∀ calls : List (Call W × W), ∃ rs s',
        S.pullIn S.state (w₁ :: calls.tail.map (·.2)) = (rs, s') ∧
        rs.length = max 1 calls.length ∧
        g.answerAll calls =
          (List.zipWith (fun c r => r.map c.1.hand) calls rs,
            ⟨e.kind, e.args, d.isLate, if calls = [] then some d else none,
              { S with state := s' }⟩)) ∧
    ∀ (c : Call W) (d : Delivery W),
      (c.hand d).isLate = d.isLate ∧ ∀ ws, (c.hand d).outcome ws = d.outcome ws := by
  refine ⟨?_, ?_, fun c d => ⟨c.isLate_hand d, c.outcome_hand d⟩⟩
  · intro f s w₂ hpull
    simp only [Catalog.buildAt, h, ofSource, hpull]
  · intro d s w₂ hpull
    let g : Generator W := ⟨e.kind, e.args, d.isLate, some d, { S with state := s }⟩
    refine ⟨g, Host.note (.built e.kind e.args.length (maxDepth - levels) d.isLate) w₂, ?_, ?_⟩
    · simp only [Catalog.buildAt, h, ofSource, hpull, g]
    intro calls
    obtain ⟨rs, s', hrs⟩ :
        ∃ rs s', S.pullIn S.state (w₁ :: calls.tail.map (·.2)) = (rs, s') := ⟨_, _, rfl⟩
    have hlength : rs.length = max 1 calls.length := by
      have hws := S.length_pullIn S.state (w₁ :: calls.tail.map (·.2))
      simp only [hrs, List.length_cons, List.length_map, List.length_tail] at hws
      omega
    refine ⟨rs, s', hrs, hlength, ?_⟩
    rw [Source.pullIn, hpull] at hrs
    cases calls with
    | nil =>
      obtain ⟨rfl, rfl⟩ : [.ok d] = rs ∧ s = s' := by simpa [Source.pullIn] using hrs
      rfl
    | cons call calls =>
      obtain ⟨c, w'⟩ := call
      obtain ⟨us, t, hus⟩ : ∃ us t, S.pullIn s (calls.map (·.2)) = (us, t) := ⟨_, _, rfl⟩
      obtain ⟨rfl, rfl⟩ : .ok d :: us = rs ∧ t = s' := by simpa [hus] using hrs
      have hrest := g.answerAll_of_none s calls
      have hsource : g.source.pullIn s (calls.map (·.2)) = (us, t) :=
        (S.pullIn_state s s _).trans hus
      rw [hsource] at hrest
      have hfirst : g.answer c w' =
          (.ok (c.hand d), g.withState (none, s), c.finish (.ok d) w') := g.answer_of_first d s c w'
      rw [answerAll, hfirst]
      simp only [hrest, List.zipWith_cons_cons]
      rfl

/-- Three calls of a generator over a script that fails once. -/
theorem calls_of_buildAt_coin :
    let script : Nat → Except Fault (Delivery Diary) := fun n =>
      if n = 1 then .error (.sourceFailed "edge")
      else .ok (.now (.text (if n = 0 then "heads" else "tails")))
    ∃ g w, (Catalog.scripted script).buildAt {} 1 "coin" ⟨[]⟩ = (.ok g, w) ∧
      (g.answerAll [(.resolve, ⟨[]⟩), (.pull, ⟨[]⟩), (.resolve, ⟨[]⟩)]).1 =
        [.ok (.now (.text "heads")), .error (.sourceFailed "edge"),
          .ok (.now (.text "tails"))] := by
  intro script
  have hprep := Catalog.prepare_scripted script {} ((Catalog.scripted script).buildAt {} 0)
    (maxDepth - 0) ⟨[]⟩
  obtain ⟨-, hok, -⟩ := calls_of_buildAt (Catalog.scripted script) {} 0 "coin" ⟨[]⟩ _ _ _ hprep
  obtain ⟨g, w, hg, hcalls⟩ := hok _ _ _ rfl
  obtain ⟨rs, s', hrs, -, hall⟩ := hcalls [(.resolve, ⟨[]⟩), (.pull, ⟨[]⟩), (.resolve, ⟨[]⟩)]
  refine ⟨g, w, hg, ?_⟩
  obtain rfl := congrArg Prod.fst hrs
  rw [hall]
  rfl

end RandExpr
