import RandExpr.Keyed
import Mathlib.Data.List.Induction
import Mathlib.Data.List.Sort
import Mathlib.Data.String.Basic

/-!
# Keyed values over a history

What is filed after values have been filed one after the other, under any keys and in any order.

## What is proved

* `mem_entries_iff`, `mem_keys_iff` — what is filed is what is found.
* `pairwise_keys`, `keys_eq_of_mem_iff` — keys are listed in order, and in one way only.
* `ext_find?` — nothing but what is found tells keyed values apart.
* `forall_entries_insert`, `forall_entries_ofEntries` — what holds of each value holds of those that
  are filed.
* `find?_insertAll` — after a history, what was filed last under a key is found there.
* `entries_ofEntries`, `ofEntries_entries` — entries in order are filed as they are.
-/

namespace RandExpr.Keyed

universe u v

variable {α : Type u} {m m' : Keyed α} {key : String}

/-! ### What is filed and what is found -/

theorem mem_entries_iff {e : String × α} : e ∈ m.entries ↔ m.find? e.1 = some e.2 := by
  obtain ⟨entries, h⟩ := m
  simp only [find?]
  induction entries with
  | nil => simp
  | cons head rest ih =>
    obtain ⟨hhead, hrest⟩ := List.pairwise_cons.1 h
    rw [List.mem_cons, ih hrest, List.find?_cons]
    by_cases hkey : head.1 = e.1
    · have hnot : (rest.find? fun d => d.1 == e.1).map (·.2) ≠ some e.2 := by
        intro hfound
        exact String.lt_irrefl _ (hkey ▸ hhead e ((ih hrest).2 hfound))
      simp [hkey, hnot, Prod.ext_iff, eq_comm]
    · have hne : e ≠ head := fun heq => hkey (congrArg Prod.fst heq.symm)
      have hbeq : (head.1 == e.1) = false := by simpa using hkey
      simp only [hne, hbeq, false_or]

theorem mem_keys_iff : key ∈ m.keys ↔ (m.find? key).isSome = true := by
  rw [keys, List.mem_map, Option.isSome_iff_exists]
  constructor
  · rintro ⟨⟨k, a⟩, he, rfl⟩
    exact ⟨a, mem_entries_iff.1 he⟩
  · rintro ⟨a, ha⟩
    exact ⟨(key, a), mem_entries_iff.2 ha, rfl⟩

theorem pairwise_keys (m : Keyed α) : m.keys.Pairwise (· < ·) := by
  rw [keys, List.pairwise_map]
  exact m.increasing

/-- The keys are listed in one way only. -/
theorem keys_eq_of_mem_iff {β : Type v} {n : Keyed β} (h : ∀ key, key ∈ m.keys ↔ key ∈ n.keys) :
    m.keys = n.keys :=
  m.pairwise_keys.eq_of_mem_iff n.pairwise_keys h

/-- **Where the same is found under every key, the same is filed.** -/
theorem ext_find? (h : ∀ key, m.find? key = m'.find? key) : m = m' := by
  have hmem (e : String × α) : e ∈ m.entries ↔ e ∈ m'.entries := by
    rw [mem_entries_iff, mem_entries_iff, h]
  have : Std.Irrefl fun a b : String × α => a.1 < b.1 := ⟨fun a => String.lt_irrefl a.1⟩
  have : Std.Antisymm fun a b : String × α => a.1 < b.1 :=
    ⟨fun a b hab hba => absurd hba (String.lt_asymm hab)⟩
  have hentries : m.entries = m'.entries := m.increasing.eq_of_mem_iff m'.increasing hmem
  obtain ⟨entries, hm⟩ := m
  obtain ⟨entries', hm'⟩ := m'
  cases hentries
  rfl

theorem forall_entries_insert {P : α → Prop} (h : ∀ e ∈ m.entries, P e.2) (key : String) {a : α}
    (ha : P a) : ∀ e ∈ (m.insert key a).entries, P e.2 := by
  intro e he
  rw [mem_entries_iff, find?_insert] at he
  split at he
  next =>
    obtain rfl : a = e.2 := Option.some.inj he
    exact ha
  next => exact h e (mem_entries_iff.2 he)

theorem entries_insert_of_increasing {a : α} {rest : List (String × α)}
    (h : Increasing (m.entries ++ (key, a) :: rest)) :
    (m.insert key a).entries = m.entries ++ [(key, a)] :=
  insertEntry_eq_append fun e he => (List.pairwise_append.1 h).2.2 e he (key, a) List.mem_cons_self

/-! ### Histories -/

/-- Files values one after the other. -/
def insertAll (m : Keyed α) (entries : List (String × α)) : Keyed α :=
  entries.foldl (fun m e => m.insert e.1 e.2) m

theorem insertAll_append (m : Keyed α) (entries entries' : List (String × α)) :
    m.insertAll (entries ++ entries') = (m.insertAll entries).insertAll entries' :=
  List.foldl_append

/-- **What is found is what was filed last under the key**, or else what was there before. -/
theorem find?_insertAll (m : Keyed α) (entries : List (String × α)) (key : String) :
    (m.insertAll entries).find? key = (entries.reverse.lookup key).or (m.find? key) := by
  induction entries using List.reverseRecOn with
  | nil => rfl
  | append_singleton entries e ih =>
    have hlast : m.insertAll (entries ++ [e]) = (m.insertAll entries).insert e.1 e.2 :=
      insertAll_append ..
    rw [hlast, find?_insert, ih, List.reverse_append, List.reverse_singleton, List.singleton_append,
      List.lookup_cons]
    by_cases hkey : key = e.1
    · rw [if_pos hkey, hkey, BEq.rfl, Option.some_or]
    · have hbeq : (key == e.1) = false := by simpa using hkey
      rw [if_neg hkey, hbeq]

/-- Entries with increasing keys are filed as they are. -/
theorem entries_ofEntries {entries : List (String × α)} (h : Increasing entries) :
    (ofEntries entries).entries = entries := by
  induction entries using List.reverseRecOn with
  | nil => rfl
  | append_singleton entries e ih =>
    have hlast : ofEntries (entries ++ [e]) = (ofEntries entries).insert e.1 e.2 :=
      insertAll_append ..
    have hentries := ih (List.pairwise_append.1 h).1
    rw [hlast, entries_insert_of_increasing (hentries.symm ▸ h), hentries]

theorem forall_entries_ofEntries {P : α → Prop} {entries : List (String × α)}
    (h : ∀ e ∈ entries, P e.2) : ∀ e ∈ (ofEntries entries).entries, P e.2 := by
  suffices hfrom : ∀ m : Keyed α, (∀ e ∈ m.entries, P e.2) →
      ∀ e ∈ (m.insertAll entries).entries, P e.2 from hfrom empty nofun
  induction entries with
  | nil => exact fun m hm => hm
  | cons e entries ih =>
    obtain ⟨he, hentries⟩ := List.forall_mem_cons.1 h
    exact fun m hm => ih hentries (m.insert e.1 e.2) (forall_entries_insert hm e.1 he)

theorem ofEntries_entries (m : Keyed α) : ofEntries m.entries = m := by
  apply ext_find?
  intro key
  rw [find?, find?, entries_ofEntries m.increasing]

end RandExpr.Keyed
