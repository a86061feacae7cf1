import RandExpr.Proofs.Generator.Pulls
import RandExpr.Proofs.Watching

/-!
# Sources in watched surroundings

Drawing in watched surroundings gives what drawing gives, and tells where a fault comes from.

## The model

A step of drawing has a shadow (`Shadows`) if a step in watched surroundings, from the state that
stands for the same, gives the same, does the same to the surroundings inside, and leaves the deeds
recorded before as they are. If it ends in a fault, the fault has just been handed back by something
of the host's, or is that of a draw that breaks off (`Fault.Blamed`). So no source of the library's
own ends in a fault of another kind by itself.

## What is proved

* `shadow_watched`, `shadow_drawing`, `shadow_constant`, `shadow_breaking` — the sources that
  nest no generator have shadows.
* `shadows_recorded` — recording draws does not change what is drawn.
* `Shadow.toSource`, `Shadow.repetition` — where a generator has a shadow, so has it as a source
  for others, and so have repetitions of it.
-/

namespace RandExpr

open RandExpr.Random (Words)

variable {W : Type}

/-- The fault has just been handed back by something of the host's, or a draw broke off. -/
def Fault.Blamed (f : Fault) (deeds : List Deed) : Prop :=
  f = .brokenOff ∨ deeds.head? = some (.handedBack f)

theorem Fault.Blamed.append {f : Fault} {deeds : List Deed} (h : f.Blamed deeds)
    (before : List Deed) : f.Blamed (deeds ++ before) := by
  refine h.imp_right fun hhead => ?_
  rw [List.head?_append, hhead]
  rfl

/-- What the second step does in watched surroundings is what the first does, with the results and
the states in their watched forms. -/
def Shadows {α α' σ σ' : Type} (toResult : α → α') (toState : σ → σ')
    (step : σ → W → Except Fault α × σ × W)
    (step' : σ' → Watched W → Except Fault α' × σ' × Watched W) : Prop :=
  ∀ ⦃s t : σ⦄ ⦃w v : W⦄ ⦃r : Except Fault α⦄, step s w = (r, t, v) → ∀ deeds, ∃ new,
    step' (toState s) ⟨w, deeds⟩ = (r.map toResult, toState t, ⟨v, new ++ deeds⟩) ∧
      ∀ f, r = .error f → f.Blamed new

theorem Shadows.of_ok {α α' σ σ' : Type} {toResult : α → α'} {toState : σ → σ'}
    {step : σ → W → Except Fault α × σ × W}
    {step' : σ' → Watched W → Except Fault α' × σ' × Watched W} {a : σ → α} {next : σ → σ}
    (h : ∀ s w, step s w = (.ok (a s), next s, w))
    (h' : ∀ s w, step' (toState s) w = (.ok (toResult (a s)), toState (next s), w)) :
    Shadows toResult toState step step' := by
  intro s t w v r hstep deeds
  obtain ⟨⟩ := (h s w).symm.trans hstep
  exact ⟨[], h' s ⟨w, deeds⟩, fun f hf => nomatch hf⟩

/-- The source draws in watched surroundings what the other draws. -/
def Source.Shadow (S : Source W) (S' : Source (Watched W)) : Prop :=
  ∃ toState : S.State → S'.State, toState S.state = S'.state ∧
    Shadows Delivery.watched toState S.pull S'.pull

/-- The generator hands out in watched surroundings what the other hands out. -/
structure Generator.Shadow (g : Generator W) (g' : Generator (Watched W)) : Prop where
  /-- The kinds are the same. -/
  kind : g'.kind = g.kind
  /-- So are the arguments. -/
  args : g'.args = g.args
  /-- So is the classification. -/
  late : g'.isLate = g.isLate
  /-- The first value is the same, if it has not been handed out. -/
  first : g'.first = g.first.map Delivery.watched
  /-- So are those that follow. -/
  source : g.source.Shadow g'.source

/-! ### Sources that nest nothing -/

namespace Source

theorem shadow_watched (S : Source W) : S.Shadow S.watched := by
  refine ⟨id, rfl, ?_⟩
  intro s t w v r hpull deeds
  cases r with
  | ok d =>
    refine ⟨[], ?_, fun f hf => nomatch hf⟩
    simp only [watched, id, hpull]
    rfl
  | error f =>
    refine ⟨[.handedBack f], ?_, ?_⟩
    · simp only [watched, id, hpull]
      rfl
    · rintro _ ⟨⟩
      exact .inr rfl

theorem recorded_pull (kind : String) (S : Source (Watched W)) (s : S.State) (w : W)
    (deeds : List Deed) :
    (S.recorded kind).pull s ⟨w, deeds⟩ = S.pull s ⟨w, .drawn kind :: deeds⟩ := rfl

theorem shadows_recorded {S : Source W} {S' : Source (Watched W)} {toState : S.State → S'.State}
    (h : Shadows Delivery.watched toState S.pull S'.pull) (kind : String) :
    Shadows Delivery.watched toState S.pull (S'.recorded kind).pull := by
  intro s t w v r hpull deeds
  obtain ⟨new, hpull', hblamed⟩ := h hpull (.drawn kind :: deeds)
  refine ⟨new ++ [.drawn kind], ?_, fun f hf => (hblamed f hf).append _⟩
  rw [recorded_pull, hpull', List.append_assoc]
  rfl

end Source

namespace Recipe

theorem shadow_drawing {α : Type} (draw : Words → α × Words) (value : α → Value) (words : Words) :
    (drawing draw value words : Source W).Shadow (drawing draw value words) := by
  refine ⟨id, rfl, Shadows.of_ok (a := fun words => .now (value (draw words).1))
    (fun _ _ => rfl) fun s w => ?_⟩
  rw [Delivery.watched]
  rfl

theorem shadow_constant (v : Value) : (constant v : Source W).Shadow (constant v) := by
  refine ⟨id, rfl, Shadows.of_ok (a := fun _ => .now v) (fun _ _ => rfl) fun s w => ?_⟩
  rw [Delivery.watched]
  rfl

theorem shadow_breaking : (breaking : Source W).Shadow breaking := by
  refine ⟨id, rfl, ?_⟩
  intro s t w v r hpull deeds
  obtain ⟨⟩ : (Except.error .brokenOff, s, w) = (r, t, v) := hpull
  refine ⟨[], rfl, ?_⟩
  rintro _ ⟨⟩
  exact .inl rfl

theorem shadow_numbers (words : Words) (range : NumberRange) :
    (numbers words range : Source W).Shadow (numbers words range) := by
  cases range with
  | integers low high =>
    rw [numbers, numbers]
    exact shadow_drawing _ _ _
  | decimals low high places =>
    rw [numbers, numbers]
    cases Random.Real.scale? low high with
    | none => exact shadow_breaking
    | some scale => exact shadow_drawing _ _ _

theorem shadow_characters (words : Words) (range : CharRange) :
    (characters words range : Source W).Shadow (characters words range) :=
  shadow_drawing _ _ _

end Recipe

/-! ### Generators -/

variable [Host W]

theorem Generator.Shadow.toSource {g : Generator W} {g' : Generator (Watched W)}
    (h : g.Shadow g') : g.toSource.Shadow g'.toSource := by
  obtain ⟨toState, hstate, hshadows⟩ := h.source
  refine ⟨Prod.map (Option.map Delivery.watched) toState, ?_, ?_⟩
  · show (g.first.map Delivery.watched, toState g.source.state) = (g'.first, g'.source.state)
    rw [h.first, hstate]
  intro (first, s) t w v r hpull deeds
  cases first with
  | some d =>
    obtain ⟨⟩ : (Except.ok d, (none, s), w) = (r, t, v) := hpull
    exact ⟨[], rfl, fun f hf => nomatch hf⟩
  | none =>
    obtain ⟨r₁, s₁, w₁, hsource⟩ : ∃ r₁ s₁ w₁, g.source.pull s w = (r₁, s₁, w₁) := ⟨_, _, _, rfl⟩
    obtain ⟨new, hsource', hblamed⟩ := hshadows hsource deeds
    cases r₁ with
    | error f =>
      obtain ⟨⟩ := (Generator.pull_of_error hsource).symm.trans hpull
      exact ⟨new, Generator.pull_of_error hsource', hblamed⟩
    | ok d =>
      obtain ⟨⟩ := (Generator.pull_of_ok hsource).symm.trans hpull
      refine ⟨new, (Generator.pull_of_ok hsource').trans ?_, hblamed⟩
      rw [h.kind, h.late, Delivery.isLate_watched]
      split_ifs <;> rfl

/-! ### Repetitions -/

namespace Recipe

variable {g : Generator W} {g' : Generator (Watched W)} {toState : g.State → g'.State}

theorem shadows_drawParts (h : Shadows Delivery.watched toState g.pull g'.pull) (left : Nat)
    (drawn : List (Delivery W)) : Shadows (List.map Delivery.watched) toState
      (drawParts g left drawn) (drawParts g' left (drawn.map Delivery.watched)) := by
  induction left generalizing drawn with
  | zero =>
    intro s t w v r hdraw deeds
    obtain ⟨⟩ : (Except.ok drawn.reverse, s, w) = (r, t, v) := hdraw
    refine ⟨[], ?_, fun f hf => nomatch hf⟩
    rw [drawParts, ← List.map_reverse]
    rfl
  | succ left ih =>
    intro s t w v r hdraw deeds
    obtain ⟨r₁, s₁, w₁, hpull⟩ : ∃ r₁ s₁ w₁, g.pull s w = (r₁, s₁, w₁) := ⟨_, _, _, rfl⟩
    obtain ⟨new, hpull', hblamed⟩ := h hpull deeds
    rw [drawParts, hpull] at hdraw
    rw [drawParts, hpull']
    cases r₁ with
    | error f =>
      obtain ⟨⟩ := hdraw
      refine ⟨new, rfl, ?_⟩
      rintro _ ⟨⟩
      exact hblamed f rfl
    | ok d =>
      obtain ⟨more, hmore, hblamed⟩ := ih (d :: drawn) hdraw (new ++ deeds)
      refine ⟨more ++ new, ?_, fun f hf => (hblamed f hf).append _⟩
      rw [List.append_assoc]
      exact hmore

end Recipe

theorem Generator.Shadow.repetition {g : Generator W} {g' : Generator (Watched W)}
    (h : g.Shadow g') (count : Nat) :
    (Recipe.repetition count g).Shadow (Recipe.repetition count g') := by
  obtain ⟨toState, hstate, hshadows⟩ := h.toSource
  refine ⟨toState, hstate, ?_⟩
  intro s t w v r hpull deeds
  obtain ⟨r₁, s₁, w₁, hdraw⟩ : ∃ r₁ s₁ w₁,
      Recipe.drawParts g count [] s w = (r₁, s₁, w₁) := ⟨_, _, _, rfl⟩
  obtain ⟨new, hdraw', hblamed⟩ := Recipe.shadows_drawParts hshadows count [] hdraw deeds
  simp only [Recipe.repetition, hdraw] at hpull
  rw [List.map_nil] at hdraw'
  simp only [Recipe.repetition, hdraw']
  cases r₁ with
  | error f =>
    obtain ⟨⟩ := hpull
    refine ⟨new, rfl, ?_⟩
    rintro _ ⟨⟩
    exact hblamed f rfl
  | ok ds =>
    obtain ⟨⟩ := hpull
    refine ⟨new, ?_, fun f hf => by cases hf⟩
    simp only [Except.map, Delivery.gather_map_watched]

end RandExpr
