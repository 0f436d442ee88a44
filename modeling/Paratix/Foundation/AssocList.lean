/-
Module: Paratix.Foundation.AssocList
Purpose: Maps and sets that remember the order of insertion, as lists.
Main exports: mapSet, mem_of_mem_mapSetAll
-/
import Mathlib.Data.List.Nodup

namespace Foundation

variable {κ α : Type*} [BEq κ]

/-- Sets the value of a key: a known key keeps its place. -/
def mapSet (entries : List (κ × α)) (key : κ) (value : α) : List (κ × α) :=
  if (entries.lookup key).isSome then
    entries.map fun entry => if entry.1 == key then (key, value) else entry
  else entries ++ [(key, value)]

/-- Adds an element: a known element keeps its place. -/
def setAdd (elements : List κ) (element : κ) : List κ :=
  if elements.contains element then elements else elements ++ [element]

/-- Entries set one after the other. -/
def mapSetAll (entries : List (κ × α)) : List (κ × α) :=
  entries.foldl (fun result entry => mapSet result entry.1 entry.2) []

variable [LawfulBEq κ]

theorem mem_of_lookup {entries : List (κ × α)} {key : κ} {value : α}
    (found : entries.lookup key = some value) : (key, value) ∈ entries := by
  obtain ⟨front, back, entriesEq, _⟩ := List.lookup_eq_some_iff.1 found
  rw [entriesEq]
  exact List.mem_append_right _ List.mem_cons_self

theorem mem_keys_of_lookup {entries : List (κ × α)} {key : κ} {value : α}
    (found : entries.lookup key = some value) : key ∈ entries.map Prod.fst :=
  List.mem_map_of_mem (mem_of_lookup found)

theorem exists_lookup_of_mem_keys {entries : List (κ × α)} {key : κ}
    (member : key ∈ entries.map Prod.fst) :
    ∃ value, entries.lookup key = some value := by
  obtain ⟨entry, entryMember, rfl⟩ := List.mem_map.1 member
  apply Option.isSome_iff_exists.1
  rw [List.lookup_isSome_iff]
  exact ⟨entry, entryMember, beq_self_eq_true _⟩

theorem lookup_map_replace (entries : List (κ × α)) (key other : κ) (value : α) :
    (entries.map fun entry => if entry.1 == key then (key, value) else entry).lookup other =
      if other == key then (entries.lookup key).map fun _ => value
      else entries.lookup other := by
  induction entries with
  | nil => simp
  | cons entry entries ih =>
    obtain ⟨first, stored⟩ := entry
    rw [List.map_cons]
    cases firstIsKey : first == key with
    | true =>
      obtain rfl := beq_iff_eq.1 firstIsKey
      cases isKey : other == first with
      | true => simp [List.lookup_cons, isKey]
      | false => simp [List.lookup_cons, isKey, ih]
    | false =>
      cases isKey : other == key with
      | true =>
        obtain rfl := beq_iff_eq.1 isKey
        have different : (other == first) = false := by
          rw [beq_eq_false_iff_ne] at firstIsKey ⊢
          exact firstIsKey.symm
        simp [List.lookup_cons, different, ih]
      | false => simp [List.lookup_cons, isKey, ih]

theorem lookup_mapSet (entries : List (κ × α)) (key other : κ) (value : α) :
    (mapSet entries key value).lookup other =
      if other == key then some value else entries.lookup other := by
  simp only [mapSet]
  split
  · next known =>
      rw [lookup_map_replace]
      obtain ⟨stored, found⟩ := Option.isSome_iff_exists.1 known
      simp [found]
  · next unknown =>
      rw [List.lookup_append, List.lookup_cons, List.lookup_nil]
      cases isKey : other == key with
      | true =>
        obtain rfl := beq_iff_eq.1 isKey
        cases found : entries.lookup other with
        | none => simp
        | some value => simp [found] at unknown
      | false => simp

theorem lookup_mapSet_self (entries : List (κ × α)) (key : κ) (value : α) :
    (mapSet entries key value).lookup key = some value := by
  rw [lookup_mapSet, if_pos (beq_self_eq_true key)]

theorem lookup_mapSet_isSome {entries : List (κ × α)} {other : κ}
    (found : (entries.lookup other).isSome) (key : κ) (value : α) :
    ((mapSet entries key value).lookup other).isSome := by
  rw [lookup_mapSet]
  split
  · rfl
  · exact found

theorem mem_setAdd {elements : List κ} {element other : κ} :
    other ∈ setAdd elements element ↔ other ∈ elements ∨ other = element := by
  simp only [setAdd]
  split
  · next known =>
      constructor
      · exact Or.inl
      · rintro (member | rfl)
        · exact member
        · exact List.contains_iff_mem.1 known
  · simp

theorem foldl_setAdd_known {others known : List κ} (all : ∀ other ∈ others, other ∈ known) :
    others.foldl setAdd known = known := by
  induction others with
  | nil => rfl
  | cons next others ih =>
    rw [List.forall_mem_cons] at all
    have same : setAdd known next = known := if_pos (List.contains_iff_mem.2 all.1)
    rw [List.foldl_cons, same, ih all.2]

/-! ### Keys that occur once -/

theorem keys_mapSet (entries : List (κ × α)) (key : κ) (value : α) :
    (mapSet entries key value).map Prod.fst = setAdd (entries.map Prod.fst) key := by
  have known : (entries.lookup key).isSome = (entries.map Prod.fst).contains key := by
    rw [Bool.eq_iff_iff, List.contains_iff_mem]
    constructor
    · intro isSome
      obtain ⟨stored, found⟩ := Option.isSome_iff_exists.1 isSome
      exact mem_keys_of_lookup found
    · intro member
      obtain ⟨stored, found⟩ := exists_lookup_of_mem_keys member
      rw [found]
      rfl
  rw [mapSet, setAdd, known]
  split
  · rw [List.map_map]
    apply List.map_congr_left
    intro entry _
    rw [Function.comp_apply]
    split
    · next isKey => exact (beq_iff_eq.1 isKey).symm
    · rfl
  · rw [List.map_append]
    rfl

theorem nodup_setAdd {elements : List κ} (nodup : elements.Nodup) (element : κ) :
    (setAdd elements element).Nodup := by
  rw [setAdd]
  split
  · exact nodup
  · next unknown =>
    rw [List.contains_iff_mem] at unknown
    rw [List.nodup_append']
    exact ⟨nodup, List.nodup_singleton _, List.disjoint_singleton.2 unknown⟩

theorem foldl_setAdd_spec (others : List κ) (elements : List κ) (nodup : elements.Nodup) :
    (others.foldl setAdd elements).Nodup ∧
      ∀ other, other ∈ others.foldl setAdd elements ↔ other ∈ elements ∨ other ∈ others := by
  induction others generalizing elements with
  | nil => exact ⟨nodup, fun other => (or_iff_left List.not_mem_nil).symm⟩
  | cons next others ih =>
    obtain ⟨nodupAll, members⟩ := ih (setAdd elements next) (nodup_setAdd nodup next)
    refine ⟨nodupAll, fun other => ?_⟩
    rw [List.foldl_cons, members, mem_setAdd, List.mem_cons, or_assoc]

theorem foldl_setAdd_nodup {others elements : List κ} (nodup : (elements ++ others).Nodup) :
    others.foldl setAdd elements = elements ++ others := by
  induction others generalizing elements with
  | nil => exact (List.append_nil elements).symm
  | cons next others ih =>
    have unknown : next ∉ elements := by
      have apart := List.disjoint_of_nodup_append nodup
      exact fun mem => apart mem List.mem_cons_self
    have added : setAdd elements next = elements ++ [next] :=
      if_neg fun contains => unknown (List.contains_iff_mem.1 contains)
    rw [List.foldl_cons, added, ih (by rwa [List.append_assoc]), List.append_assoc]
    rfl

theorem nodup_keys_mapSet {entries : List (κ × α)} (nodup : (entries.map Prod.fst).Nodup)
    (key : κ) (value : α) : ((mapSet entries key value).map Prod.fst).Nodup := by
  rw [keys_mapSet]
  exact nodup_setAdd nodup key

theorem lookup_of_mem {entries : List (κ × α)} {entry : κ × α}
    (nodup : (entries.map Prod.fst).Nodup) (member : entry ∈ entries) :
    entries.lookup entry.1 = some entry.2 := by
  induction entries with
  | nil => exact absurd member List.not_mem_nil
  | cons first entries ih =>
    obtain ⟨key, value⟩ := first
    rw [List.map_cons, List.nodup_cons] at nodup
    rcases List.mem_cons.1 member with rfl | inRest
    · rw [List.lookup_cons, beq_self_eq_true]
    · have other : entry.1 ≠ key := by
        rintro rfl
        exact nodup.1 (List.mem_map.2 ⟨entry, inRest, rfl⟩)
      rw [List.lookup_cons, beq_eq_false_iff_ne.2 other]
      exact ih nodup.2 inRest

/-- Entries set one after the other win over the entries that were there. -/
theorem lookup_foldl_mapSet {overrides : List (κ × α)} (entries : List (κ × α)) (key : κ)
    (nodup : (overrides.map Prod.fst).Nodup) :
    (overrides.foldl (fun result entry => mapSet result entry.1 entry.2) entries).lookup key =
      (overrides.lookup key).or (entries.lookup key) := by
  induction overrides generalizing entries with
  | nil => rfl
  | cons first overrides ih =>
    obtain ⟨name, value⟩ := first
    rw [List.map_cons, List.nodup_cons] at nodup
    rw [List.foldl_cons, ih _ nodup.2, lookup_mapSet, List.lookup_cons]
    cases isName : key == name with
    | true =>
      obtain rfl := beq_iff_eq.1 isName
      have absent : overrides.lookup key = none := by
        cases found : overrides.lookup key with
        | none => rfl
        | some stored => exact absurd (mem_keys_of_lookup found) nodup.1
      rw [absent]
      rfl
    | false => rfl

/-! ### Values that are mapped -/

section Mapped

variable {β : Type*} (convert : α → β)

omit [LawfulBEq κ] in
theorem lookup_map_value (entries : List (κ × α)) (key : κ) :
    (entries.map (Prod.map id convert)).lookup key = (entries.lookup key).map convert := by
  induction entries with
  | nil => rfl
  | cons first entries ih =>
    obtain ⟨name, value⟩ := first
    rw [List.map_cons, Prod.map_apply, id_eq, List.lookup_cons, List.lookup_cons]
    cases key == name with
    | true => rfl
    | false => exact ih

omit [LawfulBEq κ] in
theorem map_mapSet (entries : List (κ × α)) (key : κ) (value : α) :
    (mapSet entries key value).map (Prod.map id convert) =
      mapSet (entries.map (Prod.map id convert)) key (convert value) := by
  rw [mapSet, mapSet, lookup_map_value, Option.isSome_map]
  split
  · rw [List.map_map, List.map_map]
    apply List.map_congr_left
    intro entry _
    show Prod.map id convert (if entry.1 == key then (key, value) else entry) =
      if entry.1 == key then (key, convert value) else Prod.map id convert entry
    split
    · rfl
    · rfl
  · rw [List.map_append]
    rfl

omit [LawfulBEq κ] in
theorem map_mapSetAll (entries : List (κ × α)) : (mapSetAll entries).map (Prod.map id convert) =
      mapSetAll (entries.map (Prod.map id convert)) := by
  suffices general : ∀ front : List (κ × α),
      (entries.foldl (fun result entry => mapSet result entry.1 entry.2) front).map
          (Prod.map id convert) =
        (entries.map (Prod.map id convert)).foldl
          (fun result entry => mapSet result entry.1 entry.2)
          (front.map (Prod.map id convert)) from general []
  induction entries with
  | nil =>
    intro front
    rfl
  | cons first entries ih =>
    intro front
    rw [List.foldl_cons, ih, map_mapSet]
    rfl

end Mapped

omit [LawfulBEq κ] in
theorem mem_of_mem_mapSet {entries : List (κ × α)} {key : κ} {value : α} {entry : κ × α}
    (member : entry ∈ mapSet entries key value) : entry = (key, value) ∨ entry ∈ entries := by
  rw [mapSet] at member
  split at member
  · obtain ⟨old, oldMember, rfl⟩ := List.mem_map.1 member
    split
    · exact .inl rfl
    · exact .inr oldMember
  · rcases List.mem_append.1 member with inEntries | isNew
    · exact .inr inEntries
    · exact .inl (List.mem_singleton.1 isNew)

omit [LawfulBEq κ] in
theorem mem_of_mem_mapSetAll {entries : List (κ × α)} {entry : κ × α}
    (member : entry ∈ mapSetAll entries) : entry ∈ entries := by
  suffices general : ∀ front : List (κ × α),
      entry ∈ entries.foldl (fun result entry => mapSet result entry.1 entry.2) front →
        entry ∈ front ∨ entry ∈ entries from
    (general [] member).resolve_left List.not_mem_nil
  clear member
  induction entries with
  | nil =>
    intro front member
    exact .inl member
  | cons first entries ih =>
    intro front member
    rcases ih _ member with inFront | inRest
    · rcases mem_of_mem_mapSet inFront with rfl | old
      · exact .inr List.mem_cons_self
      · exact .inl old
    · exact .inr (List.mem_cons_of_mem _ inRest)

end Foundation
