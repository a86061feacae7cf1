import RandExpr.Proofs.Generator.Scripted
import RandExpr.Sample

/-!
# Turns

A sample that waits for its values draws none before the one before it has settled.

## The model

A sampling is polled in a row of worlds, and anything may happen between two polls. What it does
with the source and with what it has drawn is a list of events (`Sampling.Event`): a draw, or a
question for the value of what has been drawn. `Sampling.runTrace` polls as `Sampling.poll` does,
and gives the events besides. The draw that is made while the generator is built is one of them.

`Sampling.Step` says in which order things may happen. At a stage where everything drawn has settled
(`Stage.idle`) the source may be drawn from; at one where a value is awaited (`Stage.awaiting`) that
value may be asked for, and nothing else; and after a fault nothing happens any more.

## What is proved

* `Run.counts` — what the stages say of the events, by numbers.
* `fst_runTrace` — the events are those of the polls.
* `run_ask`, `run_advance`, `run_polls` — a sampling keeps to the order, however it is polled.
* `takes_turns` — so at most one value is outstanding at any time, the values are those with
  which the draws settle, in order, and the first fault is the last event.
-/

namespace RandExpr

variable {W : Type}

namespace Sampling

/-! ### The order of events -/

/-- Something that a sampling does. -/
inductive Event (W : Type) where
  /-- The source is drawn from. -/
  | drawn (result : Except Fault (Delivery W))
  /-- What has been drawn is asked for its value. -/
  | asked (progress : Progress W)

namespace Event

/-- Whether the event is a draw. -/
def isDraw : Event W → Bool
  | drawn _ => true
  | asked _ => false

/-- The value that has settled with the event. -/
def value? : Event W → Option Value
  | asked (.settled (.ok v)) => some v
  | _ => none

/-- The fault with which the event has ended. -/
def fault? : Event W → Option Fault
  | drawn (.error f) | asked (.settled (.error f)) => some f
  | _ => none

end Event

/-- Where a sampling from a source stands. -/
inductive Stage (S : Source W) where
  /-- Everything that has been drawn has settled. -/
  | idle (s : S.State) (settled : List Value)
  /-- A value is awaited, and those before it have settled. -/
  | awaiting (s : S.State) (d : Delivery W) (settled : List Value)
  /-- A draw or a value has failed, and the values before it have settled. -/
  | failed (settled : List Value) (f : Fault)

variable {S : Source W}

namespace Stage

/-- The values that have settled. -/
def settled : Stage S → List Value
  | idle _ vs | awaiting _ _ vs | failed vs _ => vs

/-- How often the source has been drawn from. -/
def draws : Stage S → Nat
  | idle _ vs => vs.length
  | awaiting _ _ vs | failed vs _ => vs.length + 1

end Stage

/-- One event, and the stages before and after it. -/
inductive Step : Stage S → Event W → Stage S → Prop where
  /-- A value is drawn when everything has settled. -/
  | draw {s s' : S.State} {w w' : W} {d : Delivery W} {vs : List Value}
      (h : S.pull s w = (.ok d, s', w')) :
      Step (.idle s vs) (.drawn (.ok d)) (.awaiting s' d vs)
  /-- The draw fails. -/
  | drawFails {s s' : S.State} {w w' : W} {f : Fault} {vs : List Value}
      (h : S.pull s w = (.error f, s', w')) :
      Step (.idle s vs) (.drawn (.error f)) (.failed vs f)
  /-- The value that is awaited is still to come. -/
  | pending {s : S.State} {w w' : W} {d rest : Delivery W} {vs : List Value}
      (h : d.poll w = (.pending rest, w')) :
      Step (.awaiting s d vs) (.asked (.pending rest)) (.awaiting s rest vs)
  /-- It has settled. -/
  | settle {s : S.State} {w w' : W} {d : Delivery W} {v : Value} {vs : List Value}
      (h : d.poll w = (.settled (.ok v), w')) :
      Step (.awaiting s d vs) (.asked (.settled (.ok v))) (.idle s (vs ++ [v]))
  /-- It has failed. -/
  | settleFails {s : S.State} {w w' : W} {d : Delivery W} {f : Fault} {vs : List Value}
      (h : d.poll w = (.settled (.error f), w')) :
      Step (.awaiting s d vs) (.asked (.settled (.error f))) (.failed vs f)

/-- Events one after the other. -/
inductive Run : Stage S → List (Event W) → Stage S → Prop where
  /-- No event. -/
  | nil {a : Stage S} : Run a [] a
  /-- An event, and the events after it. -/
  | cons {a b c : Stage S} {e : Event W} {es : List (Event W)} (h : Step a e b) (hs : Run b es c) :
      Run a (e :: es) c

variable {a b c : Stage S} {e : Event W} {es es' : List (Event W)}

theorem Run.append (h : Run a es b) (h' : Run b es' c) : Run a (es ++ es') c := by
  induction h with
  | nil => exact h'
  | cons hstep _ ih => exact .cons hstep (ih h')

theorem Run.split (h : Run a (es ++ es') c) : ∃ b, Run a es b ∧ Run b es' c := by
  induction es generalizing a with
  | nil => exact ⟨a, .nil, h⟩
  | cons e es ih =>
    cases h with
    | cons hstep hs =>
      obtain ⟨b, hfirst, hlast⟩ := ih hs
      exact ⟨b, .cons hstep hfirst, hlast⟩

/-- One event more is one draw more, or one settled value more, or neither. -/
theorem Step.counts (h : Step a e b) :
    b.draws = a.draws + [e].countP Event.isDraw ∧
      b.settled = a.settled ++ [e].filterMap Event.value? := by
  cases h <;> simp [Stage.draws, Stage.settled, Event.isDraw, Event.value?]

/-- **The stages count the draws and collect the values.** -/
theorem Run.counts (h : Run a es b) :
    b.draws = a.draws + es.countP Event.isDraw ∧
      b.settled = a.settled ++ es.filterMap Event.value? := by
  induction h with
  | nil => simp
  | @cons a b c e es hstep _ ih =>
    obtain ⟨hdraws, hsettled⟩ := hstep.counts
    obtain ⟨ihdraws, ihsettled⟩ := ih
    have hcons : e :: es = [e] ++ es := rfl
    constructor
    · rw [ihdraws, hdraws, hcons, List.countP_append, Nat.add_assoc]
    · rw [ihsettled, hsettled, hcons, List.filterMap_append, List.append_assoc]

theorem Stage.draws_le (a : Stage S) : a.draws ≤ a.settled.length + 1 := by
  cases a with
  | idle s vs => exact Nat.le_succ _
  | awaiting s d vs => exact Nat.le_refl _
  | failed vs f => exact Nat.le_refl _

/-- The source is drawn from only where everything has settled. -/
theorem Step.eq_idle {r : Except Fault (Delivery W)} (h : Step a (.drawn r) b) :
    ∃ s vs, a = .idle s vs := by
  cases h with
  | draw => exact ⟨_, _, rfl⟩
  | drawFails => exact ⟨_, _, rfl⟩

theorem Step.eq_failed {f : Fault} (h : Step a e b) (hf : e.fault? = some f) :
    ∃ vs, b = .failed vs f := by
  cases h with
  | draw => cases hf
  | drawFails =>
    obtain rfl := Option.some.inj hf
    exact ⟨_, rfl⟩
  | pending => cases hf
  | settle => cases hf
  | settleFails =>
    obtain rfl := Option.some.inj hf
    exact ⟨_, rfl⟩

theorem Run.eq_nil_of_failed {vs : List Value} {f : Fault} (h : Run (.failed vs f) es b) :
    es = [] ∧ b = .failed vs f := by
  cases h with
  | nil => exact ⟨rfl, rfl⟩
  | cons hstep _ => cases hstep

end Sampling

/-! ### Sampling with a trace -/

variable [Host W]

/-- Hands out the next value, and tells whether the source has been drawn from for it. -/
def Generator.resolveTrace (g : Generator W) (w : W) :
    (Except Fault (Delivery W) × Generator W × W) × List (Sampling.Event W) :=
  (g.resolve w,
    match g.first with
    | some _ => []
    | none => [.drawn (g.source.pull g.source.state w).1])

/-- Builds the generator of an expression, and tells whether its source has been drawn from. -/
def Catalog.buildTrace (catalog : Catalog W) (options : Options) (expression : String) (w : W) :
    (Except Fault (Generator W) × W) × List (Sampling.Event W) :=
  (catalog.build options expression w,
    match catalog.prepare options (catalog.buildAt options maxDepth) 0 expression w with
    | (.error _, _) => []
    | (.ok (_, source), w) => [.drawn (source.pull source.state w).1])

namespace Sampling

/-- Asks for the value that is awaited, and goes on with `next` if it has settled. -/
def askTrace (awaited : Delivery W) (left : Nat) (drawn : List Value) (g : Generator W)
    (next : Value → W → (Sampling W × W) × List (Event W)) (w : W) :
    (Sampling W × W) × List (Event W) :=
  let (progress, w) := awaited.poll w
  let (outcome, events) :=
    match progress with
    | .settled (.ok v) => next v w
    | .settled (.error f) => ((.done (.error f), w), [])
    | .pending rest => ((.waiting rest left drawn g, w), [])
  (outcome, .asked progress :: events)

/-- Draws `left` more values, up to one that is pending, and tells what it does. -/
def advanceTrace : (left : Nat) → (drawn : List Value) → Generator W → W →
    (Sampling W × W) × List (Event W)
  | 0, drawn, _, w => ((.done (.ok drawn.reverse), w), [])
  | left + 1, drawn, g, w =>
    let ((result, g, w), events) := g.resolveTrace w
    let (outcome, later) :=
      match result with
      | .error f => ((.done (.error f), w), [])
      | .ok d => askTrace d left drawn g (fun v w => advanceTrace left (v :: drawn) g w) w
    (outcome, events ++ later)

/-- Asks a sampling for its result once, and tells what it does. -/
def pollTrace : Sampling W → W → (Sampling W × W) × List (Event W)
  | fresh catalog options expression count, w =>
    let ((result, w), events) := catalog.buildTrace options expression w
    let (outcome, later) :=
      match result with
      | .error f => ((.done (.error f), w), [])
      | .ok g => advanceTrace count [] g w
    (outcome, events ++ later)
  | waiting awaited left drawn g, w =>
    askTrace awaited left drawn g (fun v w => advanceTrace left (v :: drawn) g w) w
  | done result, w => ((.done result, w), [])

/-- Asks a sampling for its result once in each of the worlds, and tells what it does. The worlds
that the polls leave are kept. -/
def runTrace : Sampling W → List W → (Sampling W × List W) × List (Event W)
  | s, [] => ((s, []), [])
  | s, w :: ws =>
    let ((s, w), events) := s.pollTrace w
    let ((s, left), later) := s.runTrace ws
    ((s, w :: left), events ++ later)

/-- Asks a sampling for its result once in each of the worlds, and keeps the worlds that the polls
leave. -/
def pollIn : Sampling W → List W → Sampling W × List W
  | s, [] => (s, [])
  | s, w :: ws =>
    let (s, w) := s.poll w
    let (s, left) := s.pollIn ws
    (s, w :: left)

theorem fst_askTrace {left : Nat} {drawn : List Value} {g : Generator W}
    {next : Value → W → (Sampling W × W) × List (Event W)}
    (hnext : ∀ v w, (next v w).1 = advance left (v :: drawn) g w) (d : Delivery W) (w : W) :
    (askTrace d left drawn g next w).1 = (waiting d left drawn g).poll w := by
  obtain ⟨progress, w', hp⟩ : ∃ progress w', d.poll w = (progress, w') := ⟨_, _, rfl⟩
  rw [askTrace, poll, hp]
  match progress with
  | .settled (.ok v) => exact hnext v w'
  | .settled (.error f) => rfl
  | .pending rest => rfl

theorem advance_succ (left : Nat) (drawn : List Value) (g : Generator W) (w : W) :
    advance (left + 1) drawn g w =
      match g.resolve w with
      | (.error f, _, w) => (.done (.error f), w)
      | (.ok d, g, w) => (waiting d left drawn g).poll w := rfl

theorem fst_advanceTrace (left : Nat) (drawn : List Value) (g : Generator W) (w : W) :
    (advanceTrace left drawn g w).1 = advance left drawn g w := by
  induction left generalizing drawn g w with
  | zero => rfl
  | succ left ih =>
    obtain ⟨result, g', w', hres⟩ : ∃ result g' w', g.resolve w = (result, g', w') :=
      ⟨_, _, _, rfl⟩
    rw [advance_succ, advanceTrace, Generator.resolveTrace, hres]
    cases result with
    | error f => rfl
    | ok d => exact fst_askTrace (fun v w => ih (v :: drawn) g' w) d w'

theorem fst_pollTrace (s : Sampling W) (w : W) : (s.pollTrace w).1 = s.poll w := by
  cases s with
  | fresh catalog options expression count =>
    obtain ⟨result, w', hbuild⟩ : ∃ result w', catalog.build options expression w = (result, w') :=
      ⟨_, _, rfl⟩
    rw [pollTrace, poll, Catalog.buildTrace, hbuild]
    cases result with
    | error f => rfl
    | ok g => exact fst_advanceTrace count [] g w'
  | waiting awaited left drawn g =>
    exact fst_askTrace (fun v w => fst_advanceTrace left (v :: drawn) g w) awaited w
  | done result => rfl

/-- **The events are those of the polls**, which leave the same worlds with them and without. -/
theorem fst_runTrace (s : Sampling W) (ws : List W) : (s.runTrace ws).1 = s.pollIn ws := by
  induction ws generalizing s with
  | nil => rfl
  | cons w ws ih => simp only [runTrace, pollIn, ← fst_pollTrace, ← ih]

/-! ### Keeping to the order -/

/-- A sampling of so many values stands where the stage says. -/
inductive Stands {S : Source W} (count : Nat) : Stage S → Sampling W → Prop where
  /-- A value is awaited, and as many follow it as are missing. -/
  | waiting {s : S.State} {d : Delivery W} {left : Nat} {settled : List Value} {g : Generator W}
      (hsource : g.source = { S with state := s }) (hfirst : g.first = none)
      (hcount : settled.length + 1 + left = count) :
      Stands count (.awaiting s d settled) (.waiting d left settled.reverse g)
  /-- All values are there. -/
  | done {s : S.State} {settled : List Value} (hcount : settled.length = count) :
      Stands count (.idle s settled) (.done (.ok settled))
  /-- No value is wanted, and the one that was drawn for building is not asked for. -/
  | unasked {s : S.State} {d : Delivery W} (hcount : count = 0) :
      Stands count (.awaiting s d []) (.done (.ok []))
  /-- There is a fault. -/
  | failed {settled : List Value} {f : Fault} : Stands count (.failed settled f) (.done (.error f))

variable {S : Source W} {count : Nat}

/-- A call that hands out the first value draws nothing. -/
theorem resolveTrace_of_first {g : Generator W} {d : Delivery W} (hfirst : g.first = some d)
    (w : W) : ∃ g', g.resolveTrace w = ((.ok d, g', w), []) ∧ g'.source = g.source ∧
      g'.first = none := by
  refine ⟨g.withState (none, g.source.state), ?_, rfl, rfl⟩
  rw [Generator.resolveTrace, Generator.resolve, hfirst]
  rfl

theorem resolveTrace_of_none {g : Generator W} {s : S.State}
    (hsource : g.source = { S with state := s }) (hfirst : g.first = none) (w : W) :
    ∃ r s' w₁ g' w₂, S.pull s w = (r, s', w₁) ∧ g.resolveTrace w = ((r, g', w₂), [.drawn r]) ∧
      g'.source = { S with state := s' } ∧ g'.first = none := by
  obtain ⟨kind, args, late, first, source⟩ := g
  obtain rfl : source = { S with state := s } := hsource
  obtain rfl : first = none := hfirst
  obtain ⟨r, s', w₁, hp⟩ : ∃ r s' w₁, S.pull s w = (r, s', w₁) := ⟨_, _, _, rfl⟩
  refine ⟨r, s', w₁, ⟨kind, args, late, none, { S with state := s' }⟩,
    ((⟨kind, args, late, none, { S with state := s }⟩ : Generator W).resolve w).2.2, hp, ?_, rfl,
    rfl⟩
  rw [Generator.resolveTrace, Generator.resolve, Generator.pull]
  cases r with
  | error f =>
    simp only [hp]
    rfl
  | ok d =>
    simp only [hp]
    rfl

section Build

variable {catalog : Catalog W} {options : Options} {expression : String} {e : Expr}
  {s : S.State} {w w₁ w₂ : W}

theorem build_of_prepare
    (hprep : catalog.prepare options (catalog.buildAt options maxDepth) 0 expression w =
      (.ok (e, S), w₁)) :
    catalog.build options expression w = Generator.ofSource e.kind e.args 0 S w₁ := by
  have hdepth : maxDepth - maxDepth = 0 := Nat.sub_self maxDepth
  simp only [Catalog.build, Catalog.buildAt, hdepth, hprep]

theorem build_of_prepare_fault {f : Fault}
    (hprep : catalog.prepare options (catalog.buildAt options maxDepth) 0 expression w =
      (.error f, w₁)) : catalog.build options expression w = (.error f, w₁) := by
  have hdepth : maxDepth - maxDepth = 0 := Nat.sub_self maxDepth
  simp only [Catalog.build, Catalog.buildAt, hdepth, hprep]

theorem buildTrace_of_error
    (hprep : catalog.prepare options (catalog.buildAt options maxDepth) 0 expression w =
      (.ok (e, S), w₁)) {f : Fault} (hp : S.pull S.state w₁ = (.error f, s, w₂)) :
    catalog.buildTrace options expression w = ((.error f, w₂), [.drawn (.error f)]) := by
  rw [Catalog.buildTrace, build_of_prepare hprep, hprep]
  simp only [Generator.ofSource, hp]

theorem buildTrace_of_ok
    (hprep : catalog.prepare options (catalog.buildAt options maxDepth) 0 expression w =
      (.ok (e, S), w₁)) {d : Delivery W} (hp : S.pull S.state w₁ = (.ok d, s, w₂)) :
    ∃ g w₃, catalog.buildTrace options expression w = ((.ok g, w₃), [.drawn (.ok d)]) ∧
      g.source = { S with state := s } ∧ g.first = some d := by
  refine ⟨⟨e.kind, e.args, d.isLate, some d, { S with state := s }⟩,
    Host.note (.built e.kind e.args.length 0 d.isLate) w₂, ?_, rfl, rfl⟩
  rw [Catalog.buildTrace, build_of_prepare hprep, hprep]
  simp only [Generator.ofSource, hp]

end Build

omit [Host W] in
/-- Asking for the awaited value keeps to the order, if what comes next does. -/
theorem run_ask {s : S.State} {left : Nat} {settled : List Value} {g : Generator W}
    (hsource : g.source = { S with state := s }) (hfirst : g.first = none)
    (hcount : settled.length + 1 + left = count)
    {next : Value → W → (Sampling W × W) × List (Event W)}
    (hnext : ∀ v w, ∃ stage : Stage S, Run (.idle s (settled ++ [v])) (next v w).2 stage ∧
      Stands count stage (next v w).1.1) (d : Delivery W) (w : W) :
    ∃ stage : Stage S,
      Run (.awaiting s d settled) (askTrace d left settled.reverse g next w).2 stage ∧
        Stands count stage (askTrace d left settled.reverse g next w).1.1 := by
  obtain ⟨progress, w', hp⟩ : ∃ progress w', d.poll w = (progress, w') := ⟨_, _, rfl⟩
  rw [askTrace, hp]
  match progress with
  | .settled (.ok v) =>
    obtain ⟨stage, hrun, hstands⟩ := hnext v w'
    exact ⟨stage, .cons (.settle hp) hrun, hstands⟩
  | .settled (.error f) => exact ⟨.failed settled f, .cons (.settleFails hp) .nil, .failed⟩
  | .pending rest =>
    exact ⟨.awaiting s rest settled, .cons (.pending hp) .nil, .waiting hsource hfirst hcount⟩

/-- **Drawing more values keeps to the order**: everything has settled before the next draw. -/
theorem run_advance {s : S.State} {left : Nat} {settled : List Value} {g : Generator W}
    (hsource : g.source = { S with state := s }) (hfirst : g.first = none)
    (hcount : settled.length + left = count) (w : W) :
    ∃ stage : Stage S, Run (.idle s settled) (advanceTrace left settled.reverse g w).2 stage ∧
      Stands count stage (advanceTrace left settled.reverse g w).1.1 := by
  induction left generalizing s settled g w with
  | zero =>
    rw [advanceTrace, List.reverse_reverse]
    exact ⟨.idle s settled, .nil, .done hcount⟩
  | succ left ih =>
    obtain ⟨r, s', w₁, g', w₂, hp, hres, hsource', hfirst'⟩ := resolveTrace_of_none hsource hfirst w
    rw [advanceTrace, hres]
    cases r with
    | error f => exact ⟨.failed settled f, .cons (.drawFails hp) .nil, .failed⟩
    | ok d =>
      have hcount : settled.length + 1 + left = count := by omega
      have hnext (v : Value) (w : W) := by
        have hlength : (settled ++ [v]).length + left = count := by simpa using hcount
        simpa using ih hsource' hfirst' hlength w
      obtain ⟨stage, hrun, hstands⟩ := run_ask hsource' hfirst' hcount hnext d w₂
      exact ⟨stage, .cons (.draw hp) hrun, hstands⟩

theorem run_poll {stage : Stage S} {sampling : Sampling W} (h : Stands count stage sampling)
    (w : W) : ∃ stage', Run stage (sampling.pollTrace w).2 stage' ∧
      Stands count stage' (sampling.pollTrace w).1.1 := by
  cases h with
  | @waiting s d left settled g hsource hfirst hcount =>
    have hnext (v : Value) (w : W) := by
      have hlength : (settled ++ [v]).length + left = count := by simpa using hcount
      simpa using run_advance hsource hfirst hlength w
    exact run_ask hsource hfirst hcount hnext d w
  | done hcount => exact ⟨_, .nil, .done hcount⟩
  | unasked hcount => exact ⟨_, .nil, .unasked hcount⟩
  | failed => exact ⟨_, .nil, .failed⟩

/-- **Polls keep to the order**, whatever happens between them. -/
theorem run_polls {stage : Stage S} {sampling : Sampling W} (h : Stands count stage sampling)
    (ws : List W) : ∃ stage', Run stage (sampling.runTrace ws).2 stage' ∧
      Stands count stage' (sampling.runTrace ws).1.1 := by
  induction ws generalizing stage sampling with
  | nil => exact ⟨stage, .nil, h⟩
  | cons w ws ih =>
    obtain ⟨stage₁, hrun, hstands⟩ := run_poll h w
    obtain ⟨stage₂, hruns, hstands⟩ := ih hstands
    exact ⟨stage₂, hrun.append hruns, hstands⟩

theorem run_fresh {catalog : Catalog W} {options : Options} {expression : String} {e : Expr}
    {w w₁ : W} (hprep : catalog.prepare options (catalog.buildAt options maxDepth) 0 expression w =
      (.ok (e, S), w₁)) (count : Nat) :
    ∃ stage : Stage S, Run (.idle S.state [])
        ((fresh catalog options expression count).pollTrace w).2 stage ∧
      Stands count stage ((fresh catalog options expression count).pollTrace w).1.1 := by
  obtain ⟨r, s, w₂, hp⟩ : ∃ r s w₂, S.pull S.state w₁ = (r, s, w₂) := ⟨_, _, _, rfl⟩
  cases r with
  | error f =>
    rw [pollTrace, buildTrace_of_error hprep hp]
    exact ⟨.failed [] f, .cons (.drawFails hp) .nil, .failed⟩
  | ok d =>
    obtain ⟨g, w₃, hbuild, hsource, hfirst⟩ := buildTrace_of_ok hprep hp
    rw [pollTrace, hbuild]
    cases count with
    | zero => exact ⟨.awaiting s d [], .cons (.draw hp) .nil, .unasked rfl⟩
    | succ left =>
      obtain ⟨g', hres, hsame, hfirst'⟩ := resolveTrace_of_first hfirst w₃
      have hsource' := hsame.trans hsource
      have hcount : ([] : List Value).length + 1 + left = left + 1 := by simp [Nat.add_comm]
      have hnext (v : Value) (w : W) := by
        have hlength : [v].length + left = left + 1 := by simp [Nat.add_comm]
        simpa using run_advance hsource' hfirst' hlength w
      obtain ⟨stage, hrun, hstands⟩ := run_ask hsource' hfirst' hcount hnext d w₃
      refine ⟨stage, .cons (.draw hp) ?_, ?_⟩
      · simp only [advanceTrace, hres]
        exact hrun
      · simp only [advanceTrace, hres]
        exact hstands

/-- Polled at least once, a sampling whose recipe gives a source keeps to the order. -/
theorem run_of_prepare {catalog : Catalog W} {options : Options} {expression : String} {e : Expr}
    {w w₁ : W} (hprep : catalog.prepare options (catalog.buildAt options maxDepth) 0 expression w =
      (.ok (e, S), w₁)) (count : Nat) (ws : List W) :
    ∃ stage : Stage S, Run (.idle S.state [])
        ((fresh catalog options expression count).runTrace (w :: ws)).2 stage ∧
      Stands count stage ((fresh catalog options expression count).runTrace (w :: ws)).1.1 := by
  obtain ⟨stage₁, hrun, hstands⟩ := run_fresh hprep count
  obtain ⟨stage₂, hruns, hstands⟩ := run_polls hstands ws
  exact ⟨stage₂, hrun.append hruns, hstands⟩

theorem runTrace_of_fault {catalog : Catalog W} {options : Options} {expression : String}
    {f : Fault} {w w₁ : W}
    (hprep : catalog.prepare options (catalog.buildAt options maxDepth) 0 expression w =
      (.error f, w₁)) (count : Nat) (ws : List W) :
    (fresh catalog options expression count).runTrace (w :: ws) =
      ((.done (.error f), w₁ :: ws), []) := by
  have hdone : (Sampling.done (.error f) : Sampling W).runTrace ws =
      ((.done (.error f), ws), []) := by
    induction ws with
    | nil => rfl
    | cons w ws ih =>
      rw [runTrace, pollTrace]
      simp only [ih, List.nil_append]
  rw [runTrace, pollTrace, Catalog.buildTrace, build_of_prepare_fault hprep, hprep]
  simp only [hdone, List.nil_append]

/-- **A sample that waits draws in turns.** Take any sampling, polled in any row of worlds, and the
events of these polls: what comes of the polls, and the world that each of them leaves, is the same
whether events are kept or not. Either there is no source to draw from, and the fault is there at
once, with nothing else done to any world; or the events follow the order of
`Sampling.Step`. So the source is drawn from only when every value drawn so far has settled, and at
no time is more than one outstanding. When there is a result without a fault, it is the values that
have settled, one for each draw, in order, and for at least one value there have been as many draws
as values, the one for building included. And when a draw or a value fails, that is the last event,
and the result is the fault. -/
theorem takes_turns (catalog : Catalog W) (options : Options) (expression : String)
    (count : Nat) (w : W) (ws : List W) :
    let out := (fresh catalog options expression count).runTrace (w :: ws)
    out.1 = (fresh catalog options expression count).pollIn (w :: ws) ∧
    ((∃ f w₁, catalog.prepare options (catalog.buildAt options maxDepth) 0 expression w =
          (.error f, w₁) ∧ out = ((.done (.error f), w₁ :: ws), [])) ∨
      ∃ e S w₁, catalog.prepare options (catalog.buildAt options maxDepth) 0 expression w =
          (.ok (e, S), w₁) ∧
        (∃ stage : Stage S, Run (.idle S.state []) out.2 stage ∧ Stands count stage out.1.1) ∧
        (∀ es r later, out.2 = es ++ .drawn r :: later →
          es.countP Event.isDraw = (es.filterMap Event.value?).length) ∧
        (∀ es later, out.2 = es ++ later →
          es.countP Event.isDraw ≤ (es.filterMap Event.value?).length + 1) ∧
        (∀ vs, out.1.1 = .done (.ok vs) → vs.length = count ∧ out.2.filterMap Event.value? = vs ∧
          (0 < count → out.2.countP Event.isDraw = count)) ∧
        ∀ es event later f, out.2 = es ++ event :: later → event.fault? = some f →
          later = [] ∧ out.1.1 = .done (.error f)) := by
  intro out
  refine ⟨fst_runTrace _ _, ?_⟩
  obtain ⟨r, w₁, hprep⟩ : ∃ r w₁,
      catalog.prepare options (catalog.buildAt options maxDepth) 0 expression w = (r, w₁) :=
    ⟨_, _, rfl⟩
  cases r with
  | error f => exact .inl ⟨f, w₁, hprep, runTrace_of_fault hprep count ws⟩
  | ok prepared =>
    obtain ⟨e, S⟩ := prepared
    obtain ⟨stage, hrun, hstands⟩ : ∃ stage : Stage S,
        Run (.idle S.state []) out.2 stage ∧ Stands count stage out.1.1 :=
      run_of_prepare hprep count ws
    have hcounts {es : List (Event W)} {b : Stage S} (h : Run (.idle S.state []) es b) :
        b.draws = es.countP Event.isDraw ∧ b.settled = es.filterMap Event.value? := by
      simpa [Stage.draws, Stage.settled] using h.counts
    refine .inr ⟨e, S, w₁, hprep, ⟨stage, hrun, hstands⟩, ?_, ?_, ?_, ?_⟩
    · intro es r later hsplit
      rw [hsplit] at hrun
      obtain ⟨b, hbefore, hafter⟩ := hrun.split
      obtain ⟨hdraws, hsettled⟩ := hcounts hbefore
      cases hafter with
      | cons hstep _ =>
        obtain ⟨s, vs, rfl⟩ := hstep.eq_idle
        rw [← hdraws, ← hsettled]
        rfl
    · intro es later hsplit
      rw [hsplit] at hrun
      obtain ⟨b, hbefore, -⟩ := hrun.split
      obtain ⟨hdraws, hsettled⟩ := hcounts hbefore
      rw [← hdraws, ← hsettled]
      exact b.draws_le
    · intro vs hvs
      obtain ⟨hdraws, hsettled⟩ := hcounts hrun
      rw [hvs] at hstands
      cases hstands with
      | done hcount => exact ⟨hcount, hsettled.symm, fun _ => hdraws.symm.trans hcount⟩
      | unasked hcount =>
        refine ⟨hcount.symm, hsettled.symm, fun hpos => ?_⟩
        omega
    · intro es event later f hsplit hfault
      rw [hsplit] at hrun
      obtain ⟨b, -, hafter⟩ := hrun.split
      cases hafter with
      | cons hstep hlater =>
        obtain ⟨vs, rfl⟩ := hstep.eq_failed hfault
        obtain ⟨hnil, rfl⟩ := hlater.eq_nil_of_failed
        refine ⟨hnil, ?_⟩
        generalize out.1.1 = sampling at hstands
        cases hstands
        rfl

/-- Two coins, each of which is still in the air at the first question. -/
theorem takes_turns_coin :
    let catalog : Catalog Diary := Catalog.scripted fun _ => .ok (.after 1 (.ok (.text "heads")))
    let out := (fresh catalog {} "coin" 2).runTrace [⟨[]⟩, ⟨[]⟩, ⟨[]⟩]
    out.1.1 = .done (.ok [.text "heads", .text "heads"]) ∧ out.2.countP Event.isDraw = 2 := by
  intro catalog out
  have hprep : catalog.prepare {} (catalog.buildAt {} maxDepth) 0 "coin" ⟨[]⟩ =
      (.ok (⟨"coin", "coin", [], ⟨0, 4⟩⟩, .scripted _ 0), _) := Catalog.prepare_scripted _ _ _ _ _
  obtain ⟨hpolls, hfault | ⟨e, S, w₁, -, -, -, -, hvalues, -⟩⟩ :=
    takes_turns catalog {} "coin" 2 ⟨[]⟩ [⟨[]⟩, ⟨[]⟩]
  · obtain ⟨f, w₁, hf, -⟩ := hfault
    rw [hprep] at hf
    cases hf
  · have hdone : out.1.1 = .done (.ok [.text "heads", .text "heads"]) := by
      rw [hpolls, pollIn, poll, build_of_prepare hprep]
      rfl
    exact ⟨hdone, (hvalues _ hdone).2.2 (by decide)⟩

end Sampling

end RandExpr
