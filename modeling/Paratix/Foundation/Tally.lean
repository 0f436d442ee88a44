/-
Module: Paratix.Foundation.Tally
Purpose: Reference counts: tables that hold how often each key is held, and sums
  over the entries of a map.
Main exports: Tally, total_erase
-/
import Mathlib.Data.List.AList

namespace Foundation

variable {κ α : Type*} [DecidableEq κ]

/-! ### Sums over a map -/

/-- The sum of the weights of the values. -/
def total (weight : α → Nat) : List (Σ _ : κ, α) → Nat
  | [] => 0
  | entry :: entries => weight entry.2 + total weight entries

/-- A key's value counts apart from the rest. -/
theorem total_kerase (weight : α → Nat) (key : κ) (entries : List (Σ _ : κ, α)) :
    total weight entries =
      ((entries.dlookup key).map weight).getD 0 + total weight (entries.kerase key) := by
  induction entries with
  | nil => rfl
  | cons entry entries ih =>
    obtain ⟨first, value⟩ := entry
    by_cases isFirst : key = first
    · subst isFirst
      have erased : List.kerase key (⟨key, value⟩ :: entries) = entries := List.kerase_cons_eq rfl
      rw [erased, List.dlookup_cons_eq]
      rfl
    · rw [List.kerase_cons_ne isFirst, List.dlookup_cons_ne _ _ isFirst]
      simp only [total, ih]
      exact Nat.add_left_comm _ _ _

theorem total_erase (weight : α → Nat) {map : AList fun _ : κ => α} {key : κ} {value : α}
    (found : map.lookup key = some value) :
    total weight map.entries = weight value + total weight (map.erase key).entries := by
  have split := total_kerase weight key map.entries
  have foundEntry : map.entries.dlookup key = some value := found
  rw [foundEntry] at split
  exact split

theorem total_insert (weight : α → Nat) (map : AList fun _ : κ => α) (key : κ) (value : α) :
    total weight (map.insert key value).entries =
      weight value + total weight (map.erase key).entries := by
  rw [AList.entries_insert]
  rfl

theorem total_insert_new (weight : α → Nat) {map : AList fun _ : κ => α} {key : κ}
    (new : key ∉ map) (value : α) :
    total weight (map.insert key value).entries = weight value + total weight map.entries := by
  rw [AList.entries_insert_of_notMem new]
  rfl

/-- A sum is positive where some value weighs something. -/
theorem total_pos {weight : α → Nat} {map : AList fun _ : κ => α} : 0 < total weight map.entries ↔
      ∃ key value, map.lookup key = some value ∧ 0 < weight value := by
  constructor
  · intro positive
    have inEntries : ∃ entry ∈ map.entries, 0 < weight entry.2 := by
      by_contra noEntry
      have allZero : ∀ entries : List (Σ _ : κ, α),
          (∀ entry ∈ entries, ¬ 0 < weight entry.2) → total weight entries = 0 := by
        intro entries noneWeighs
        induction entries with
        | nil => rfl
        | cons entry entries ih =>
          have here := noneWeighs entry List.mem_cons_self
          have rest := ih fun other member =>
            noneWeighs other (List.mem_cons_of_mem _ member)
          rw [total, rest, Nat.eq_zero_of_not_pos here]
      have zero := allZero map.entries fun entry member weighs =>
        noEntry ⟨entry, member, weighs⟩
      rw [zero] at positive
      exact Nat.lt_irrefl 0 positive
    obtain ⟨⟨key, value⟩, member, weighs⟩ := inEntries
    exact ⟨key, value, AList.mem_lookup_iff.2 member, weighs⟩
  · intro found
    obtain ⟨key, value, isValue, weighs⟩ := found
    rw [total_erase weight isValue]
    exact Nat.add_pos_left weighs _

/-! ### Reference counts -/

/-- How often each key is held; a key that is not held has no entry. -/
abbrev Tally (κ : Type*) := AList fun _ : κ => Nat

namespace Tally

def add (table : Tally κ) (key : κ) : Tally κ :=
  table.insert key ((table.lookup key).getD 0 + 1)

/-- An unknown key is no error; the last holding takes the entry away. -/
def remove (table : Tally κ) (key : κ) : Tally κ :=
  match table.lookup key with
  | none => table
  | some current => if current ≤ 1 then table.erase key else table.insert key (current - 1)

def removeTimes (table : Tally κ) (key : κ) : Nat → Tally κ
  | 0 => table
  | times + 1 => removeTimes (table.remove key) key times

/-- How often a key stands in a list. -/
def occurrences (keys : List κ) (key : κ) : Nat := keys.count key

theorem occurrences_pos_iff {keys : List κ} {key : κ} : 0 < occurrences keys key ↔ key ∈ keys :=
  List.count_pos_iff

/-- Every key of a second table is removed as often as it says. -/
def removeEntries (table : Tally κ) (entries : List (Σ _ : κ, Nat)) : Tally κ :=
  entries.foldl (fun table entry => table.removeTimes entry.1 entry.2) table

/-- The table says of every key how often it is held. -/
def Counts (table : Tally κ) (held : κ → Nat) : Prop :=
  ∀ key, table.lookup key = if held key = 0 then none else some (held key)

theorem counts_empty : Counts (∅ : Tally κ) fun _ => 0 := by
  intro key
  rw [AList.lookup_empty, if_pos rfl]

namespace Counts

variable {table : Tally κ} {held : κ → Nat}

theorem getD (counts : Counts table held) (key : κ) :
    (table.lookup key).getD 0 = held key := by
  rw [counts key]
  split
  · next none => exact none.symm
  · rfl

theorem add (counts : Counts table held) (key : κ) :
    Counts (table.add key) fun other => held other + if other = key then 1 else 0 := by
  intro other
  by_cases isKey : other = key
  · subst isKey
    simp only [if_true]
    rw [Tally.add, AList.lookup_insert, counts.getD, if_neg (Nat.succ_ne_zero _)]
  · simp only [isKey, if_false, Nat.add_zero]
    rw [Tally.add, AList.lookup_insert_ne isKey]
    exact counts other

theorem remove (counts : Counts table held) (key : κ) :
    Counts (table.remove key) fun other => held other - if other = key then 1 else 0 := by
  intro other
  have atKey := counts key
  rw [Tally.remove]
  by_cases isKey : other = key
  · subst isKey
    simp only [if_true]
    by_cases notHeld : held other = 0
    · rw [if_pos notHeld] at atKey
      rw [atKey, notHeld]
      exact atKey
    · rw [if_neg notHeld] at atKey
      rw [atKey]
      dsimp only
      by_cases single : held other ≤ 1
      · rw [if_pos single, AList.lookup_erase, if_pos (Nat.sub_eq_zero_of_le single)]
      · rw [if_neg single, AList.lookup_insert,
          if_neg (Nat.sub_ne_zero_of_lt (Nat.lt_of_not_le single))]
  · simp only [isKey, if_false, Nat.sub_zero]
    have unchanged : ∀ result : Tally κ, result.lookup other = table.lookup other →
        result.lookup other = if held other = 0 then none else some (held other) :=
      fun result same => same.trans (counts other)
    split
    · exact counts other
    · split
      · exact unchanged _ (AList.lookup_erase_ne isKey)
      · exact unchanged _ (AList.lookup_insert_ne isKey)

theorem congr {other : κ → Nat} (counts : Counts table held)
    (same : ∀ key, held key = other key) : Counts table other := by
  intro key
  rw [← same key]
  exact counts key

theorem addAll (counts : Counts table held) (keys : List κ) :
    Counts (keys.foldl Tally.add table) fun key => held key + occurrences keys key := by
  induction keys generalizing table held with
  | nil => exact counts
  | cons first keys ih =>
    apply (ih (counts.add first)).congr
    intro key
    simp only [occurrences]
    by_cases isFirst : key = first
    · subst isFirst
      rw [if_pos rfl, List.count_cons_self, Nat.add_assoc, Nat.add_comm 1]
    · rw [if_neg isFirst, List.count_cons_of_ne (Ne.symm isFirst), Nat.add_zero]

theorem removeAll (counts : Counts table held) (keys : List κ) :
    Counts (keys.foldl Tally.remove table) fun key => held key - occurrences keys key := by
  induction keys generalizing table held with
  | nil => exact counts
  | cons first keys ih =>
    apply (ih (counts.remove first)).congr
    intro key
    simp only [occurrences]
    by_cases isFirst : key = first
    · subst isFirst
      rw [if_pos rfl, List.count_cons_self, Nat.sub_sub, Nat.add_comm 1]
    · rw [if_neg isFirst, List.count_cons_of_ne (Ne.symm isFirst), Nat.sub_zero]

theorem removeTimes (counts : Counts table held) (key : κ) (times : Nat) :
    Counts (table.removeTimes key times)
      fun other => held other - if other = key then times else 0 := by
  induction times generalizing table held with
  | zero =>
    apply counts.congr
    intro other
    rw [ite_self, Nat.sub_zero]
  | succ times ih =>
    apply (ih (counts.remove key)).congr
    intro other
    by_cases isKey : other = key
    · rw [if_pos isKey, if_pos isKey, if_pos isKey, Nat.sub_sub, Nat.add_comm 1]
    · rw [if_neg isKey, if_neg isKey, if_neg isKey, Nat.sub_zero]

theorem removeEntries (counts : Counts table held) {entries : List (Σ _ : κ, Nat)}
    (nodup : entries.NodupKeys) : Counts (table.removeEntries entries)
      fun key => held key - (entries.dlookup key).getD 0 := by
  induction entries generalizing table held with
  | nil => exact counts
  | cons entry entries ih =>
    obtain ⟨first, times⟩ := entry
    obtain ⟨notAgain, restNodup⟩ := List.nodupKeys_cons.1 nodup
    apply (ih (counts.removeTimes first times) restNodup).congr
    intro key
    by_cases isFirst : key = first
    · subst isFirst
      have absent : entries.dlookup key = none := List.dlookup_eq_none.2 notAgain
      rw [if_pos rfl, absent, List.dlookup_cons_eq]
      rfl
    · rw [if_neg isFirst, List.dlookup_cons_ne entries ⟨first, times⟩ isFirst, Nat.sub_zero]

/-- A table that counts nothing is empty. -/
theorem entries_eq_nil (counts : Counts table held) (none : ∀ key, held key = 0) :
    table.entries = [] := by
  cases entriesEq : table.entries with
  | nil => rfl
  | cons entry entries =>
    have isEntry : table.lookup entry.1 = some entry.2 := by
      apply AList.mem_lookup_iff.2
      rw [entriesEq]
      exact List.mem_cons_self
    rw [counts entry.1, if_pos (none entry.1)] at isEntry
    cases isEntry

end Counts

end Tally

end Foundation
