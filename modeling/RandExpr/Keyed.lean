/-!
# Keyed values

Values filed under texts, at most one under each, in increasing order of the texts. Catalogs,
options and the objects of a document are kept this way.

## The model

The entries are a list whose keys increase strictly; the proof travels with the list. The order of
texts compares characters by code point, which is the order of their UTF-8 bytes.

## What is proved

`find?_insert` says what is found after a value was filed, and `insertEntry_eq_append` where a value
stands that was filed under the greatest key.
-/

namespace RandExpr

universe u

/-- Files `a` under `key` in a list of entries with increasing keys, replacing what was there. -/
def insertEntry {α : Type u} (key : String) (a : α) : List (String × α) → List (String × α)
  | [] => [(key, a)]
  | (k, b) :: rest =>
    if key < k then (key, a) :: (k, b) :: rest
    else if key = k then (key, a) :: rest
    else (k, b) :: insertEntry key a rest

theorem mem_insertEntry {α : Type u} {key : String} {a : α} {entries : List (String × α)}
    {e : String × α} (h : e ∈ insertEntry key a entries) : e.1 = key ∨ e ∈ entries := by
  induction entries with
  | nil =>
    rw [insertEntry, List.mem_singleton] at h
    exact .inl (by rw [h])
  | cons head rest ih =>
    obtain ⟨k, b⟩ := head
    rw [insertEntry] at h
    split at h
    · rcases List.mem_cons.1 h with rfl | h
      · exact .inl rfl
      · exact .inr h
    · split at h
      · rcases List.mem_cons.1 h with rfl | h
        · exact .inl rfl
        · exact .inr (List.mem_cons_of_mem _ h)
      · rcases List.mem_cons.1 h with rfl | h
        · exact .inr (List.mem_cons_self ..)
        · exact (ih h).imp_right (List.mem_cons_of_mem _)

/-- Entries with strictly increasing keys. -/
def Increasing {α : Type u} (entries : List (String × α)) : Prop :=
  entries.Pairwise fun a b => a.1 < b.1

theorem increasing_insertEntry {α : Type u} {key : String} {a : α} {entries : List (String × α)}
    (h : Increasing entries) : Increasing (insertEntry key a entries) := by
  induction entries with
  | nil => exact List.pairwise_singleton ..
  | cons head rest ih =>
    obtain ⟨k, b⟩ := head
    obtain ⟨hk, hr⟩ := List.pairwise_cons.1 h
    rw [insertEntry]
    split
    next hlt =>
      refine List.pairwise_cons.2 ⟨fun e he => ?_, h⟩
      rcases List.mem_cons.1 he with rfl | he
      · exact hlt
      · exact String.lt_trans hlt (hk e he)
    next hge =>
      split
      next heq => exact List.pairwise_cons.2 ⟨fun e he => heq ▸ hk e he, hr⟩
      next hne =>
        refine List.pairwise_cons.2 ⟨fun e he => ?_, ih hr⟩
        rcases mem_insertEntry he with he | he
        · rw [he]
          exact Decidable.byContradiction fun hn =>
            hne (String.le_antisymm (String.not_lt.1 hn) (String.not_lt.1 hge))
        · exact hk e he

/-- What is filed under a key that is greater than all others stands behind them. -/
theorem insertEntry_eq_append {α : Type u} {key : String} {a : α} {entries : List (String × α)}
    (h : ∀ e ∈ entries, e.1 < key) : insertEntry key a entries = entries ++ [(key, a)] := by
  induction entries with
  | nil => rfl
  | cons head rest ih =>
    obtain ⟨k, b⟩ := head
    have hk : k < key := h (k, b) List.mem_cons_self
    have hne : key ≠ k := fun heq => String.lt_irrefl k (heq ▸ hk)
    have hrest := ih fun e he => h e (List.mem_cons_of_mem _ he)
    rw [insertEntry, if_neg (String.lt_asymm hk), if_neg hne, hrest, List.cons_append]

/-- Values filed under texts. -/
structure Keyed (α : Type u) where
  /-- The texts and what is filed under them. -/
  entries : List (String × α) := []
  /-- The texts increase strictly. -/
  increasing : Increasing entries := by exact List.Pairwise.nil

namespace Keyed

variable {α : Type u}

/-- Nothing filed. -/
def empty : Keyed α := {}

/-- Files a value, replacing what was under the key. -/
def insert (m : Keyed α) (key : String) (a : α) : Keyed α :=
  ⟨insertEntry key a m.entries, increasing_insertEntry m.increasing⟩

/-- What is filed under a key. -/
def find? (m : Keyed α) (key : String) : Option α :=
  (m.entries.find? fun e => e.1 == key).map (·.2)

/-- The keys, in increasing order. -/
def keys (m : Keyed α) : List String := m.entries.map (·.1)

/-- Whether something is filed under a key. -/
def contains (m : Keyed α) (key : String) : Bool := (m.find? key).isSome

/-- Files a list of values one after the other. -/
def ofEntries (entries : List (String × α)) : Keyed α :=
  entries.foldl (fun m e => m.insert e.1 e.2) empty

@[simp] theorem find?_empty (key : String) : (empty : Keyed α).find? key = none := rfl

theorem find?_insert (m : Keyed α) (key other : String) (a : α) :
    (m.insert key a).find? other = if other = key then some a else m.find? other := by
  obtain ⟨entries, h⟩ := m
  simp only [find?, insert]
  induction entries with
  | nil =>
    by_cases hk : other = key
    · simp [insertEntry, hk]
    · simp [insertEntry, hk, Ne.symm hk]
  | cons head rest ih =>
    obtain ⟨k, b⟩ := head
    have ih := ih (List.pairwise_cons.1 h).2
    rw [insertEntry]
    by_cases hk : other = key
    · subst hk
      simp only [↓reduceIte] at ih ⊢
      split
      · simp
      · split
        · simp
        · next hne => simpa [Ne.symm hne] using ih
    · simp only [hk, if_false] at ih ⊢
      split
      · simp [Ne.symm hk]
      · split
        next heq => subst heq; simp [Ne.symm hk]
        next hne =>
          by_cases hko : k = other
          · simp [hko]
          · simpa [hko] using ih

end Keyed

end RandExpr
