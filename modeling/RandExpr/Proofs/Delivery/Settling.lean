import RandExpr.Delivery
import Mathlib.Data.List.Forall2

/-!
# Settling

What a delivery comes to when it is asked for its value again and again.

## The model

The surroundings may change in any way between two polls, so a run of polls is given by the worlds
in which they take place. `Delivery.outcome` is what such a run comes to. `Delivery.Settles` says
that a delivery settles with a value after finitely many polls, whatever the worlds; how many polls
it takes may depend on them.

## What is proved

* `outcome_tap` — a tap comes to what the delivery inside it comes to.
* `settles_gather` — the whole of deliveries that settle with values settles with their joined
  text, in the order of the deliveries.
-/

namespace RandExpr.Delivery

variable {W : Type}

/-- What a delivery comes to when it is asked once in each of the worlds, up to the poll that
settles it. -/
def outcome : Delivery W → List W → Option (Except Fault Value)
  | _, [] => none
  | d, w :: ws =>
    match d.poll w with
    | (.settled result, _) => some result
    | (.pending rest, _) => rest.outcome ws

theorem outcome_tap (callback : Value → W → W) (d : Delivery W) (ws : List W) :
    (tap d callback).outcome ws = d.outcome ws := by
  induction ws generalizing d with
  | nil => rfl
  | cons w ws ih =>
    obtain ⟨p, w', hp⟩ : ∃ p w', d.poll w = (p, w') := ⟨_, _, rfl⟩
    rw [outcome, outcome, poll, hp]
    match p with
    | .settled (.ok _) => rfl
    | .settled (.error _) => rfl
    | .pending rest => exact ih rest

theorem isLate_of_pending {d rest : Delivery W} {w w' : W} (h : d.poll w = (.pending rest, w')) :
    rest.isLate = true := by
  cases d with
  | now v => simp [poll] at h
  | wait polls onPoll =>
    rw [poll] at h
    split at h
    · simp at h
    · obtain ⟨rfl, -⟩ : wait (polls + 1) onPoll = rest ∧ _ := by simpa using h
      rfl
  | join parts =>
    simp only [poll, Prod.mk.injEq] at h
    obtain ⟨h, -⟩ := h
    unfold joinProgress at h
    split at h
    · simp at h
    · split at h
      · simp at h
      · obtain rfl : join _ = rest := by simpa using h
        rfl
  | tap inner callback =>
    rw [poll] at h
    split at h
    · simp at h
    · simp at h
    · obtain ⟨rfl, -⟩ : tap _ callback = rest ∧ _ := by simpa using h
      rfl

/-! ### Deliveries that settle -/

/-- However often it is pending, and whatever the worlds it is asked in, the delivery settles with
the value in the end. -/
inductive Settles (v : Value) : Delivery W → Prop where
  /-- Every poll gives the value, or leaves something that settles with it. -/
  | intro {d : Delivery W}
      (hpoll : ∀ w, (d.poll w).1 = .settled (.ok v) ∨ ∃ rest, (d.poll w).1 = .pending rest)
      (hrest : ∀ w rest, (d.poll w).1 = .pending rest → Settles v rest) : Settles v d

theorem Settles.of_poll {v : Value} {d : Delivery W}
    (h : ∀ w, (d.poll w).1 = .settled (.ok v) ∨
      ∃ rest, (d.poll w).1 = .pending rest ∧ rest.Settles v) : d.Settles v := by
  refine .intro (fun w => (h w).imp_right fun ⟨rest, hp, _⟩ => ⟨rest, hp⟩) ?_
  intro w rest hp
  rcases h w with hs | ⟨rest', hp', hr⟩
  · simp [hp] at hs
  · obtain rfl : rest = rest' := by simpa [hp] using hp'
    exact hr

theorem settles_now (v : Value) : (now v : Delivery W).Settles v :=
  .intro (fun _ => .inl rfl) fun _ _ h => by simp [poll] at h

theorem Settles.eq_of_now [Nonempty W] {u v : Value} (h : (now u : Delivery W).Settles v) :
    u = v := by
  obtain ⟨w⟩ := ‹Nonempty W›
  obtain ⟨hpoll, -⟩ := h
  rcases hpoll w with h | ⟨rest, h⟩
  · simpa [poll] using h
  · simp [poll] at h

/-! ### Wholes -/

theorem pollParts_map_now (vs : List Value) (parts polled : List (Delivery W)) (w : W) :
    pollParts (vs.map now ++ parts) polled w =
      pollParts parts ((vs.map now).reverse ++ polled) w := by
  induction vs generalizing polled with
  | nil => rfl
  | cons v vs ih =>
    rw [List.map_cons, List.cons_append, pollParts, poll]
    simp only [ih, List.reverse_cons, List.append_assoc, List.singleton_append]

/-- A pass over parts that settle meets no fault, and leaves parts that settle with the same. -/
theorem pollParts_of_settles {parts : List (Delivery W)} {vs : List Value}
    (h : List.Forall₂ (fun d v => d.Settles v) parts vs) (polled : List (Delivery W)) (w : W) :
    ∃ rests w', pollParts parts polled w = (.ok (polled.reverse ++ rests), w') ∧
      List.Forall₂ (fun d v => d.Settles v) rests vs := by
  induction h generalizing polled w with
  | nil => exact ⟨[], w, by simp [pollParts], .nil⟩
  | @cons d v parts vs hd _ ih =>
    obtain ⟨hpoll, hrest⟩ := hd
    obtain ⟨p, w₁, hp⟩ : ∃ p w₁, d.poll w = (p, w₁) := ⟨_, _, rfl⟩
    rcases hpoll w with h | ⟨rest, h⟩
    · obtain rfl : p = .settled (.ok v) := by simpa [hp] using h
      obtain ⟨rests, w', hps, hrs⟩ := ih (now v :: polled) w₁
      exact ⟨now v :: rests, w', by simp [pollParts, hp, hps], .cons (settles_now v) hrs⟩
    · obtain rfl : p = .pending rest := by simpa [hp] using h
      obtain ⟨rests, w', hps, hrs⟩ := ih (rest :: polled) w₁
      exact ⟨rest :: rests, w', by simp [pollParts, hp, hps], .cons (hrest w rest h) hrs⟩

theorem eq_of_values? [Nonempty W] {parts : List (Delivery W)} {us vs : List Value}
    (h : List.Forall₂ (fun d v => d.Settles v) parts vs) (hus : values? parts = some us) :
    us = vs := by
  rw [values?_eq_some_iff.1 hus, List.forall₂_map_left_iff] at h
  exact List.forall₂_eq_eq_eq ▸ h.imp fun _ _ h => h.eq_of_now

/-- A poll of a whole whose parts settle gives the joined text, or leaves what the pass over the
parts has left of them. -/
theorem poll_join_of_pollParts [Nonempty W] {parts rests : List (Delivery W)} {vs : List Value}
    {w w' : W} (hp : pollParts parts [] w = (.ok rests, w'))
    (hr : List.Forall₂ (fun d v => d.Settles v) rests vs) :
    (join parts).poll w = (.settled (.ok (.joined vs)), w') ∨
      (join parts).poll w = (.pending (join rests), w') := by
  cases hv : values? rests with
  | none => exact .inr (by simp [poll, hp, joinProgress, hv])
  | some us =>
    obtain rfl := eq_of_values? hr hv
    exact .inl (by simp [poll, hp, joinProgress, hv])

theorem settles_join [Nonempty W] (known : List Value) {parts : List (Delivery W)}
    {vs : List Value} (h : List.Forall₂ (fun d v => d.Settles v) parts vs) :
    (join (known.map now ++ parts)).Settles (.joined (known ++ vs)) := by
  -- the parts settle one after the other: the induction is on those that may still be pending, and
  -- on how the first of them settles
  induction vs generalizing known parts with
  | nil =>
    obtain rfl := List.forall₂_nil_right_iff.1 h
    refine .of_poll fun w => .inl ?_
    have hpass : pollParts (known.map now ++ []) [] w = (.ok (known.map now), w) := by
      rw [pollParts_map_now, pollParts, List.append_nil, List.reverse_reverse]
    rw [poll, hpass]
    simp [joinProgress, values?_eq_some_iff.2 rfl]
  | cons v vs ih =>
    obtain ⟨d, parts, hd, hs, rfl⟩ := List.forall₂_cons_right_iff.1 h
    clear h
    induction hd generalizing parts with
    | @intro d hpoll hrest ihd =>
      refine .of_poll fun w => ?_
      obtain ⟨p, w₁, hp⟩ : ∃ p w₁, d.poll w = (p, w₁) := ⟨_, _, rfl⟩
      have hpass (d' : Delivery W) (hd' : d'.Settles v)
          (hleft : ∀ rests, List.Forall₂ (fun d v => d.Settles v) rests vs →
            (join (known.map now ++ d' :: rests)).Settles (.joined (known ++ v :: vs)))
          (hp' : pollParts (d :: parts) (known.map now).reverse w =
            pollParts parts (d' :: (known.map now).reverse) w₁) :
          ((join (known.map now ++ d :: parts)).poll w).1 =
              .settled (.ok (.joined (known ++ v :: vs))) ∨
            ∃ rest, ((join (known.map now ++ d :: parts)).poll w).1 = .pending rest ∧
              rest.Settles (.joined (known ++ v :: vs)) := by
        obtain ⟨rests, w', hps, hrs⟩ := pollParts_of_settles hs (d' :: (known.map now).reverse) w₁
        have hall : pollParts (known.map now ++ d :: parts) [] w =
            (.ok (known.map now ++ d' :: rests), w') := by
          rw [pollParts_map_now, List.append_nil, hp', hps]
          simp
        have hknown : List.Forall₂ (fun (d : Delivery W) v => d.Settles v)
            (known.map now) known :=
          List.forall₂_map_left_iff.2 (List.forall₂_same.2 fun v _ => settles_now v)
        have hsettle := List.rel_append hknown (.cons hd' hrs)
        rcases poll_join_of_pollParts hall hsettle with hpoll | hpoll
        · exact .inl (by rw [hpoll])
        · exact .inr ⟨_, by rw [hpoll], hleft rests hrs⟩
      rcases hpoll w with hset | ⟨rest, hpend⟩
      · obtain rfl : p = .settled (.ok v) := by simpa [hp] using hset
        refine hpass (now v) (settles_now v) ?_ (by rw [pollParts, hp])
        intro rests hrs
        have := ih (known ++ [v]) hrs
        simpa using this
      · obtain rfl : p = .pending rest := by simpa [hp] using hpend
        refine hpass rest (hrest w rest hpend) ?_ (by rw [pollParts, hp])
        intro rests hrs
        exact ihd w rest hpend rests hrs

/-- **A whole settles with what its parts settle with**, joined in the order of the parts. -/
theorem settles_gather [Nonempty W] {parts : List (Delivery W)} {vs : List Value}
    (h : List.Forall₂ (fun d v => d.Settles v) parts vs) : (gather parts).Settles (.joined vs) := by
  rw [gather]
  cases hv : values? parts with
  | none => exact settles_join [] h
  | some us =>
    obtain rfl := eq_of_values? h hv
    exact settles_now _

end RandExpr.Delivery
