import RandExpr.Proofs.Generator.Calls

/-!
# Callbacks

When the callbacks run that are given to the calls of a generator.

## The model

A caller keeps a generator and what is left of the deliveries that its calls have handed out
(`Session`). It may act in any order (`Act`): call the generator, ask for the value of any call that
is still awaited, give such a value up, or do something else that changes the world. The calls are
numbered from 0.

A ledger (`Ledger`) keeps the deliveries as they have been drawn, with no tap on them, beside the
calls that they are for. Its steps (`Ledger.Step`) run the callbacks themselves: the callback of a
call runs at the moment its value becomes available, after everything else that the act does and
before the caller sees the value. That is while the call is made, for a value that is there at
once, and else during the poll that settles the delivery with a value.

## What is proved

* `poll_hand` — what a poll of what a call has handed out does is what it does without the callback,
  and then the callback.
* `Run.nodup_ended` — every call ends at most once: with its value, with a fault, or given up.
* `callbacks_of_run` — a session goes as a ledger does, whatever is done in whatever order.
-/

namespace RandExpr

variable {W : Type}

/-- What a caller does. -/
inductive Act (W : Type) where
  /-- Calls the generator. -/
  | call (c : Call W)
  /-- Asks once for the value of the call with the number. -/
  | poll (number : Nat)
  /-- Gives up the value of the call with the number. -/
  | drop (number : Nat)
  /-- Does something else. -/
  | other (change : W → W)

/-- The call that is made. -/
def Act.call? : Act W → Option (Call W)
  | call c => some c
  | _ => none

/-- What a caller sees of an act. -/
inductive Sight where
  /-- A value. -/
  | value (v : Value)
  /-- A value is still to come. -/
  | later
  /-- A fault. -/
  | fault (f : Fault)
  /-- Nothing. -/
  | nothing

/-! ### What a caller keeps -/

/-- A generator, and what is left of the deliveries that its calls have handed out, by the numbers
of the calls. Nothing is left of a delivery that has ended. -/
structure Session (W : Type) : Type 1 where
  /-- The generator. -/
  generator : Generator W
  /-- What is left of the deliveries. -/
  awaited : List (Option (Delivery W)) := []

namespace Session

variable [Host W]

/-- Does one thing. -/
def act (s : Session W) : Act W → W → Sight × Session W × W
  | .call c, w =>
    match s.generator.answer c w with
    | (.error f, g, w) => (.fault f, ⟨g, s.awaited ++ [none]⟩, w)
    | (.ok (.now v), g, w) => (.value v, ⟨g, s.awaited ++ [none]⟩, w)
    | (.ok d, g, w) => (.later, ⟨g, s.awaited ++ [some d]⟩, w)
  | .poll number, w =>
    match s.awaited[number]? with
    | some (some d) =>
      match d.poll w with
      | (.pending rest, w) => (.later, { s with awaited := s.awaited.set number (some rest) }, w)
      | (.settled (.ok v), w) => (.value v, { s with awaited := s.awaited.set number none }, w)
      | (.settled (.error f), w) => (.fault f, { s with awaited := s.awaited.set number none }, w)
    | _ => (.nothing, s, w)
  | .drop number, w => (.nothing, { s with awaited := s.awaited.set number none }, w)
  | .other change, w => (.nothing, s, change w)

theorem act_call_of_isLate {s : Session W} {c : Call W} {d : Delivery W} {g : Generator W}
    {w w' : W} (h : s.generator.answer c w = (.ok d, g, w')) (hd : d.isLate = true) :
    s.act (.call c) w = (.later, ⟨g, s.awaited ++ [some d]⟩, w') := by
  rw [act, h]
  cases d with
  | now v => simp [Delivery.isLate] at hd
  | _ => rfl

/-- Does one thing after the other. -/
def run : Session W → List (Act W) → W → List Sight × Session W × W
  | s, [], w => ([], s, w)
  | s, a :: acts, w =>
    let (sight, s, w) := s.act a w
    let (sights, s, w) := s.run acts w
    (sight :: sights, s, w)

end Session

/-! ### Callbacks apart from the deliveries -/

/-- A generator, and its calls with what is left of the deliveries drawn for them, without their
callbacks. -/
structure Ledger (W : Type) : Type 1 where
  /-- The generator. -/
  generator : Generator W
  /-- The calls, and what is left of the deliveries. -/
  entries : List (Call W × Option (Delivery W)) := []

/-- What becomes of a call. -/
inductive Event where
  /-- Its value becomes available, and its callback runs with it. -/
  | available (number : Nat) (v : Value)
  /-- Its value is still to come. -/
  | pending (number : Nat)
  /-- It fails, or its delivery does. -/
  | failed (number : Nat) (f : Fault)
  /-- Its value is given up. -/
  | dropped (number : Nat)
  /-- Nothing becomes of any call. -/
  | idle

namespace Event

/-- What the caller sees. -/
def sight : Event → Sight
  | available _ v => .value v
  | pending _ => .later
  | failed _ f => .fault f
  | dropped _ | idle => .nothing

/-- The number of the call that ends. -/
def ended? : Event → Option Nat
  | available number _ | failed number _ | dropped number => some number
  | pending _ | idle => none

end Event

namespace Ledger

/-- The delivery of the call with the number is still awaited. -/
def Open (l : Ledger W) (number : Nat) : Prop := ∃ c d, l.entries[number]? = some (c, some d)

/-- The call with the number has ended. -/
def Ended (l : Ledger W) (number : Nat) : Prop := ∃ c, l.entries[number]? = some (c, none)

variable [Host W]

/-- One step: what is done, what becomes of a call, and the ledger and the world then. -/
inductive Step (l : Ledger W) (w : W) : Act W → Event → Ledger W → W → Prop where
  /-- A call fails. -/
  | refused {c : Call W} {f : Fault} {g : Generator W} {w' : W}
      (h : l.generator.resolve w = (.error f, g, w')) :
      Step l w (.call c) (.failed l.entries.length f) ⟨g, l.entries ++ [(c, none)]⟩ w'
  /-- A call gives its value at once; the callback runs before the call is over. -/
  | given {c : Call W} {v : Value} {g : Generator W} {w' : W}
      (h : l.generator.resolve w = (.ok (.now v), g, w')) :
      Step l w (.call c) (.available l.entries.length v) ⟨g, l.entries ++ [(c, none)]⟩ (c.run v w')
  /-- A call gives a delivery that comes later. -/
  | deferred {c : Call W} {d : Delivery W} {g : Generator W} {w' : W}
      (h : l.generator.resolve w = (.ok d, g, w')) (hd : d.isLate = true) :
      Step l w (.call c) (.pending l.entries.length) ⟨g, l.entries ++ [(c, some d)]⟩ w'
  /-- A delivery is still pending. -/
  | pending {number : Nat} {c : Call W} {d rest : Delivery W} {w' : W}
      (hn : l.entries[number]? = some (c, some d)) (h : d.poll w = (.pending rest, w')) :
      Step l w (.poll number) (.pending number)
        { l with entries := l.entries.set number (c, some rest) } w'
  /-- A delivery settles with a value; the callback runs before the poll is over. -/
  | settled {number : Nat} {c : Call W} {d : Delivery W} {v : Value} {w' : W}
      (hn : l.entries[number]? = some (c, some d)) (h : d.poll w = (.settled (.ok v), w')) :
      Step l w (.poll number) (.available number v)
        { l with entries := l.entries.set number (c, none) } (c.run v w')
  /-- A delivery settles with a fault. -/
  | failed {number : Nat} {c : Call W} {d : Delivery W} {f : Fault} {w' : W}
      (hn : l.entries[number]? = some (c, some d)) (h : d.poll w = (.settled (.error f), w')) :
      Step l w (.poll number) (.failed number f)
        { l with entries := l.entries.set number (c, none) } w'
  /-- A delivery is given up. -/
  | dropped {number : Nat} {c : Call W} {d : Delivery W}
      (hn : l.entries[number]? = some (c, some d)) :
      Step l w (.drop number) (.dropped number)
        { l with entries := l.entries.set number (c, none) } w
  /-- There is no delivery to ask, or to give up. -/
  | idle {a : Act W} {number : Nat} (ha : a = .poll number ∨ a = .drop number)
      (hn : ¬l.Open number) : Step l w a .idle l w
  /-- Something else is done. -/
  | other {change : W → W} : Step l w (.other change) .idle l (change w)

/-- One step after the other. -/
inductive Run : Ledger W → W → List (Act W) → List Event → Ledger W → W → Prop where
  /-- No step. -/
  | nil {l : Ledger W} {w : W} : Run l w [] [] l w
  /-- A step, and the steps after it. -/
  | cons {l l₁ l' : Ledger W} {w w₁ w' : W} {a : Act W} {acts : List (Act W)} {e : Event}
      {es : List Event} (h : l.Step w a e l₁ w₁) (hs : Run l₁ w₁ acts es l' w') :
      Run l w (a :: acts) (e :: es) l' w'

/-! ### Every call ends at most once -/

/-- What a step does to the entries: it makes a new one, changes one that is still awaited, or does
nothing to them. A call ends exactly when nothing is left in its entry. -/
theorem Step.entries {l l' : Ledger W} {w w' : W} {a : Act W} {e : Event}
    (h : l.Step w a e l' w') :
    (∃ c d, a = .call c ∧ l'.entries = l.entries ++ [(c, d)] ∧
        ∀ number, e.ended? = some number → number = l.entries.length ∧ d = none) ∨
      (∃ number c d d', a.call? = none ∧ l.entries[number]? = some (c, some d) ∧
        l'.entries = l.entries.set number (c, d') ∧
        ∀ k, e.ended? = some k → k = number ∧ d' = none) ∨
      (a.call? = none ∧ l'.entries = l.entries ∧ e.ended? = none) := by
  cases h with
  | refused => exact .inl ⟨_, none, rfl, rfl, by simp [Event.ended?]⟩
  | given => exact .inl ⟨_, none, rfl, rfl, by simp [Event.ended?]⟩
  | deferred => exact .inl ⟨_, _, rfl, rfl, by simp [Event.ended?]⟩
  | pending hn => exact .inr (.inl ⟨_, _, _, _, rfl, hn, rfl, by simp [Event.ended?]⟩)
  | settled hn => exact .inr (.inl ⟨_, _, _, none, rfl, hn, rfl, by simp [Event.ended?]⟩)
  | failed hn => exact .inr (.inl ⟨_, _, _, none, rfl, hn, rfl, by simp [Event.ended?]⟩)
  | dropped hn => exact .inr (.inl ⟨_, _, _, none, rfl, hn, rfl, by simp [Event.ended?]⟩)
  | idle ha =>
    refine .inr (.inr ⟨?_, rfl, rfl⟩)
    rcases ha with rfl | rfl <;> rfl
  | other => exact .inr (.inr ⟨rfl, rfl, rfl⟩)

theorem Step.ended_of_ended {l l' : Ledger W} {w w' : W} {a : Act W} {e : Event}
    (h : l.Step w a e l' w') {number : Nat} (hended : l.Ended number) : l'.Ended number := by
  obtain ⟨c, hc⟩ := hended
  refine ⟨c, ?_⟩
  rcases h.entries with ⟨c', d, -, hl, -⟩ | ⟨k, c', d, d', -, hk, hl, -⟩ | ⟨-, hl, -⟩
  · obtain ⟨hlt, -⟩ := List.getElem?_eq_some_iff.1 hc
    rw [hl, List.getElem?_append_left hlt, hc]
  · have hne : k ≠ number := by
      rintro rfl
      simp [hc] at hk
    rw [hl, List.getElem?_set_ne hne, hc]
  · rw [hl, hc]

theorem Step.ended {l l' : Ledger W} {w w' : W} {a : Act W} {e : Event} (h : l.Step w a e l' w')
    {number : Nat} (he : e.ended? = some number) : ¬l.Ended number ∧ l'.Ended number := by
  rcases h.entries with ⟨c, d, -, hl, hend⟩ | ⟨k, c, d, d', -, hk, hl, hend⟩ | ⟨-, -, hend⟩
  · obtain ⟨rfl, rfl⟩ := hend number he
    constructor
    · rintro ⟨c', hc⟩
      simp at hc
    · exact ⟨c, by simp [hl]⟩
  · obtain ⟨rfl, rfl⟩ := hend number he
    constructor
    · rintro ⟨c', hc⟩
      simp [hc] at hk
    · obtain ⟨hlt, -⟩ := List.getElem?_eq_some_iff.1 hk
      exact ⟨c, by rw [hl, List.getElem?_set_self hlt]⟩
  · simp [hend] at he

theorem Run.nodup_ended {l l' : Ledger W} {w w' : W} {acts : List (Act W)} {es : List Event}
    (h : Run l w acts es l' w') : (es.filterMap Event.ended?).Nodup ∧
      ∀ number ∈ es.filterMap Event.ended?, ¬l.Ended number := by
  induction h with
  | nil => simp
  | @cons l l₁ l' w w₁ w' a acts e es hstep _ ih =>
    obtain ⟨hnodup, hnot⟩ := ih
    have hrest : ∀ number ∈ es.filterMap Event.ended?, ¬l.Ended number := fun number hmem hended =>
      hnot number hmem (hstep.ended_of_ended hended)
    cases he : e.ended? with
    | none =>
      rw [List.filterMap_cons_none he]
      exact ⟨hnodup, hrest⟩
    | some number =>
      obtain ⟨hbefore, hafter⟩ := hstep.ended he
      rw [List.filterMap_cons_some he]
      constructor
      · exact List.nodup_cons.2 ⟨fun hmem => hnot number hmem hafter, hnodup⟩
      · intro k hk
        rcases List.mem_cons.1 hk with rfl | hk
        · exact hbefore
        · exact hrest k hk

theorem Run.calls {l l' : Ledger W} {w w' : W} {acts : List (Act W)} {es : List Event}
    (h : Run l w acts es l' w') :
    l'.entries.map (·.1) = l.entries.map (·.1) ++ acts.filterMap Act.call? := by
  induction h with
  | nil => simp
  | @cons l l₁ l' w w₁ w' a acts e es hstep _ ih =>
    rw [ih]
    rcases hstep.entries with ⟨c, d, rfl, hl, -⟩ | ⟨k, c, d, d', ha, hk, hl, -⟩ | ⟨ha, hl, -⟩
    · rw [hl, List.map_append, List.append_assoc]
      rfl
    · obtain ⟨hlt, hget⟩ := List.getElem?_eq_some_iff.1 hk
      have hlt' : k < (l.entries.map (·.1)).length := by simpa using hlt
      have hc : (l.entries.map (·.1))[k] = c := by simp [hget]
      have hsame : (l.entries.map (·.1)).set k c = l.entries.map (·.1) := by
        rw [← hc]
        exact List.set_getElem_self hlt'
      rw [hl, List.map_set, hsame, List.filterMap_cons_none ha]
    · rw [hl, List.filterMap_cons_none ha]

end Ledger

/-! ### Callbacks within the deliveries -/

/-- What a poll of what a call has handed out does is what it does without the callback, and then
the callback, if the value is there. -/
theorem Call.poll_hand (c : Call W) {d : Delivery W} (hd : d.isLate = true) (w : W) :
    (c.hand d).poll w = match d.poll w with
      | (.pending rest, w) => (.pending (c.hand rest), w)
      | (.settled (.ok v), w) => (.settled (.ok v), c.run v w)
      | (.settled (.error f), w) => (.settled (.error f), w) := by
  obtain ⟨p, w', hp⟩ : ∃ p w', d.poll w = (p, w') := ⟨_, _, rfl⟩
  rw [hp]
  cases c with
  | resolveWith callback =>
    rw [hand, if_pos hd, Delivery.poll, hp]
    cases p with
    | settled result => cases result <;> rfl
    | pending rest => simp only [hand, if_pos (Delivery.isLate_of_pending hp)]
  | resolve | pull =>
    change d.poll w = _
    rw [hp]
    cases p with
    | settled result => cases result <;> rfl
    | pending rest => rfl

namespace Ledger

/-- What the caller keeps: the deliveries as the calls have handed them out. -/
def handedOut (l : Ledger W) : Session W where
  generator := l.generator
  awaited := l.entries.map fun (c, d) => d.map c.hand

/-- What is still awaited comes later. -/
def Late (l : Ledger W) : Prop := ∀ c d, (c, some d) ∈ l.entries → d.isLate = true

theorem Late.append {l : Ledger W} (hl : l.Late) (g : Generator W) (c : Call W)
    {d : Option (Delivery W)} (hd : ∀ d', d = some d' → d'.isLate = true) :
    (⟨g, l.entries ++ [(c, d)]⟩ : Ledger W).Late := by
  intro c' d' hmem
  rcases List.mem_append.1 hmem with hmem | hmem
  · exact hl c' d' hmem
  · obtain ⟨rfl, rfl⟩ : c' = c ∧ some d' = d := by simpa using hmem
    exact hd d' rfl

theorem Late.set {l : Ledger W} (hl : l.Late) (number : Nat) (c : Call W)
    {d : Option (Delivery W)} (hd : ∀ d', d = some d' → d'.isLate = true) :
    ({ l with entries := l.entries.set number (c, d) } : Ledger W).Late := by
  intro c' d' hmem
  rcases List.mem_or_eq_of_mem_set hmem with hmem | hmem
  · exact hl c' d' hmem
  · obtain ⟨rfl, rfl⟩ : c' = c ∧ some d' = d := by simpa using hmem
    exact hd d' rfl

theorem handedOut_append (l : Ledger W) (g : Generator W) (c : Call W) (d : Option (Delivery W)) :
    (⟨g, l.entries ++ [(c, d)]⟩ : Ledger W).handedOut =
      ⟨g, l.handedOut.awaited ++ [d.map c.hand]⟩ := by
  simp [handedOut]

theorem handedOut_set (l : Ledger W) (number : Nat) (c : Call W) (d : Option (Delivery W)) :
    ({ l with entries := l.entries.set number (c, d) } : Ledger W).handedOut =
      { l.handedOut with awaited := l.handedOut.awaited.set number (d.map c.hand) } := by
  simp [handedOut, List.map_set]

theorem awaited_of_not_open {l : Ledger W} {number : Nat} (h : ¬l.Open number) :
    l.handedOut.awaited[number]? = none ∨ l.handedOut.awaited[number]? = some none := by
  rcases hn : l.entries[number]? with _ | ⟨c, _ | d⟩
  · exact .inl (by simp [handedOut, hn])
  · exact .inr (by simp [handedOut, hn])
  · exact absurd ⟨c, d, hn⟩ h

variable [Host W]

theorem exists_step_call {l : Ledger W} (hl : l.Late) (c : Call W) (w : W) :
    ∃ e l' w', l.Step w (.call c) e l' w' ∧
      l.handedOut.act (.call c) w = (e.sight, l'.handedOut, w') ∧ l'.Late := by
  obtain ⟨r, g, w₁, hr⟩ : ∃ r g w₁, l.generator.resolve w = (r, g, w₁) := ⟨_, _, _, rfl⟩
  have hanswer := l.generator.answer_eq c w
  rw [hr] at hanswer
  have hgen : l.handedOut.generator = l.generator := rfl
  cases r with
  | error f =>
    refine ⟨_, _, _, .refused hr, ?_, hl.append g c (by simp)⟩
    rw [handedOut_append, Session.act, hgen, hanswer]
    rfl
  | ok d =>
    by_cases hd : d.isLate = true
    · refine ⟨_, _, _, .deferred hr hd, ?_, hl.append g c (by simpa using hd)⟩
      have hlate : l.handedOut.generator.answer c w = (.ok (c.hand d), g, w₁) := by
        rw [hgen, hanswer]
        cases d with
        | now v => simp [Delivery.isLate] at hd
        | _ => rfl
      rw [handedOut_append, Session.act_call_of_isLate hlate (by rw [c.isLate_hand, hd])]
      rfl
    · obtain ⟨v, rfl⟩ : ∃ v, d = .now v := by
        cases d with
        | now v => exact ⟨v, rfl⟩
        | _ => simp [Delivery.isLate] at hd
      refine ⟨_, _, _, .given hr, ?_, hl.append g c (by simp)⟩
      rw [handedOut_append, Session.act, hgen, hanswer]
      rfl

theorem exists_step_poll {l : Ledger W} (hl : l.Late) (number : Nat) (w : W) :
    ∃ e l' w', l.Step w (.poll number) e l' w' ∧
      l.handedOut.act (.poll number) w = (e.sight, l'.handedOut, w') ∧ l'.Late := by
  by_cases hn : l.Open number
  · obtain ⟨c, d, hn⟩ := hn
    have hd : d.isLate = true := hl c d (List.mem_of_getElem? hn)
    have hawaited : l.handedOut.awaited[number]? = some (some (c.hand d)) := by
      simp [handedOut, hn]
    obtain ⟨p, w₁, hp⟩ : ∃ p w₁, d.poll w = (p, w₁) := ⟨_, _, rfl⟩
    have hpoll := c.poll_hand hd w
    rw [hp] at hpoll
    match p with
    | .pending rest =>
      have hrest := Delivery.isLate_of_pending hp
      refine ⟨_, _, _, .pending hn hp, ?_, hl.set number c (by simpa using hrest)⟩
      rw [handedOut_set, Session.act, hawaited]
      simp only [hpoll]
      rfl
    | .settled (.ok v) =>
      refine ⟨_, _, _, .settled hn hp, ?_, hl.set number c (by simp)⟩
      rw [handedOut_set, Session.act, hawaited]
      simp only [hpoll]
      rfl
    | .settled (.error f) =>
      refine ⟨_, _, _, .failed hn hp, ?_, hl.set number c (by simp)⟩
      rw [handedOut_set, Session.act, hawaited]
      simp only [hpoll]
      rfl
  · refine ⟨_, _, _, .idle (.inl rfl) hn, ?_, hl⟩
    rcases awaited_of_not_open hn with hawaited | hawaited
    · rw [Session.act, hawaited]
      rfl
    · rw [Session.act, hawaited]
      rfl

theorem exists_step_drop {l : Ledger W} (hl : l.Late) (number : Nat) (w : W) :
    ∃ e l' w', l.Step w (.drop number) e l' w' ∧
      l.handedOut.act (.drop number) w = (e.sight, l'.handedOut, w') ∧ l'.Late := by
  by_cases hn : l.Open number
  · obtain ⟨c, d, hn⟩ := hn
    refine ⟨_, _, _, .dropped hn, ?_, hl.set number c (by simp)⟩
    rw [handedOut_set]
    rfl
  · refine ⟨_, _, _, .idle (.inr rfl) hn, ?_, hl⟩
    have hsame : l.handedOut.awaited.set number none = l.handedOut.awaited := by
      rcases awaited_of_not_open hn with hawaited | hawaited
      · exact List.set_eq_of_length_le (List.getElem?_eq_none_iff.1 hawaited)
      · obtain ⟨hlt, hget⟩ := List.getElem?_eq_some_iff.1 hawaited
        rw [← hget]
        exact List.set_getElem_self hlt
    rw [Session.act, hsame]
    rfl

/-- Whatever is done, a session goes as a ledger does. -/
theorem exists_step {l : Ledger W} (hl : l.Late) (a : Act W) (w : W) :
    ∃ e l' w', l.Step w a e l' w' ∧ l.handedOut.act a w = (e.sight, l'.handedOut, w') ∧
      l'.Late := by
  cases a with
  | call c => exact exists_step_call hl c w
  | poll number => exact exists_step_poll hl number w
  | drop number => exact exists_step_drop hl number w
  | other change => exact ⟨_, _, _, .other, rfl, hl⟩

theorem exists_run {l : Ledger W} (hl : l.Late) (acts : List (Act W)) (w : W) :
    ∃ es l' w', Run l w acts es l' w' ∧
      l.handedOut.run acts w = (es.map Event.sight, l'.handedOut, w') := by
  induction acts generalizing l w with
  | nil => exact ⟨[], l, w, .nil, rfl⟩
  | cons a acts ih =>
    obtain ⟨e, l₁, w₁, hstep, hact, hl₁⟩ := exists_step hl a w
    obtain ⟨es, l', w', hrun, hacts⟩ := ih hl₁ w₁
    refine ⟨e :: es, l', w', .cons hstep hrun, ?_⟩
    rw [Session.run, hact]
    simp only [hacts, List.map_cons]

end Ledger

/-- **Callbacks run when values become available.** Whatever is done with a generator and the
deliveries that it hands out, in whatever order, the caller sees what a ledger tells, and the world
goes as the ledger says. So the callback of a call runs in the step in which its value becomes
available, with that value and before the caller sees it, and in no other; a call that fails, one
whose delivery settles with a fault, is given up or stays pending runs none. Every call becomes
available at most once, and the callbacks run in the order in which the values become available. -/
theorem callbacks_of_run [Host W] (g : Generator W) (acts : List (Act W)) (w : W) :
    ∃ es l w', Ledger.Run ⟨g, []⟩ w acts es l w' ∧
      Session.run ⟨g, []⟩ acts w = (es.map Event.sight, l.handedOut, w') ∧
      l.entries.map (·.1) = acts.filterMap Act.call? ∧
      (es.filterMap Event.ended?).Nodup := by
  have hlate : (⟨g, []⟩ : Ledger W).Late := by
    intro c d hmem
    simp at hmem
  obtain ⟨es, l, w', hrun, hacts⟩ := Ledger.exists_run hlate acts w
  exact ⟨es, l, w', hrun, hacts, hrun.calls, hrun.nodup_ended.1⟩

end RandExpr
