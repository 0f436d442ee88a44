/-
Module: Paratix.Foundation.LineEdit
Purpose: A table of lines in which one line is set and its lines are removed: the first
  line that is an entry is replaced, a new one goes behind the last line that is not blank.
Main exports: upsertLine, core_entryFree
-/
import Mathlib.Data.List.DropRight

namespace Foundation

variable {α : Type*} (isEntry isBlank : α → Bool)

/-- Replaces the first entry, or appends behind the last line that is not blank. -/
def upsertLine (newLine : α) (lines : List α) : List α :=
  match lines.findIdx? isEntry with
  | none => lines.rdropWhile isBlank ++ [newLine]
  | some index => lines.set index newLine

/-- The lines that are no entries. -/
def entryFree (lines : List α) : List α := lines.filter fun line => !isEntry line

variable {isEntry isBlank}

/-! ### The two ways to set an entry -/

theorem upsertLine_absent {lines : List α} (absent : lines.find? isEntry = none) (newLine : α) :
    upsertLine isEntry isBlank newLine lines = lines.rdropWhile isBlank ++ [newLine] := by
  rw [upsertLine, List.findIdx?_eq_none_iff.2]
  intro line member
  exact Bool.eq_false_iff.2 (List.find?_eq_none.1 absent line member)

/-- The first entry stands where the lines before it end. -/
theorem findIdx?_split {front back : List α} {old : α}
    (before : ∀ line ∈ front, isEntry line = false) (entry : isEntry old = true) :
    (front ++ old :: back).findIdx? isEntry = some front.length := by
  rw [List.findIdx?_append, List.findIdx?_eq_none_iff.2 before, List.findIdx?_cons, entry,
    if_pos rfl, Option.map_some, Nat.zero_add]
  rfl

theorem upsertLine_present {front back : List α} {old : α}
    (before : ∀ line ∈ front, isEntry line = false) (entry : isEntry old = true) (newLine : α) :
    upsertLine isEntry isBlank newLine (front ++ old :: back) = front ++ newLine :: back := by
  rw [upsertLine, findIdx?_split before entry]
  change (front ++ old :: back).set front.length newLine = _
  rw [List.set_append_right front.length _ (Nat.le_refl _), Nat.sub_self, List.set_cons_zero]

/-- The first entry stands behind lines that are none. -/
theorem exists_split_of_find?_eq_some {lines : List α} {old : α}
    (found : lines.find? isEntry = some old) :
    ∃ front back, lines = front ++ old :: back ∧ (∀ line ∈ front, isEntry line = false) ∧
      isEntry old = true := by
  obtain ⟨entry, front, back, rfl, before⟩ := List.find?_eq_some_iff_append.1 found
  exact ⟨front, back, rfl, fun line mem => by simpa using before line mem, entry⟩

/-- Lines hold no entry, or a first one behind lines that are none. -/
theorem findIdx?_cases (isEntry : α → Bool) (lines : List α) :
    (lines.findIdx? isEntry = none ∧ ∀ line ∈ lines, isEntry line = false) ∨
      ∃ front old back, lines = front ++ old :: back ∧
        (∀ line ∈ front, isEntry line = false) ∧ isEntry old = true ∧
        lines.findIdx? isEntry = some front.length := by
  cases found : lines.find? isEntry with
  | none =>
    have absent : ∀ line ∈ lines, isEntry line = false := fun line mem =>
      Bool.eq_false_iff.2 (List.find?_eq_none.1 found line mem)
    exact .inl ⟨List.findIdx?_eq_none_iff.2 absent, absent⟩
  | some old =>
    obtain ⟨front, back, rfl, before, entry⟩ := exists_split_of_find?_eq_some found
    exact .inr ⟨front, old, back, rfl, before, entry, findIdx?_split before entry⟩

theorem find?_append_of_entry {front back : List α} {newLine : α}
    (before : ∀ line ∈ front, isEntry line = false) (entry : isEntry newLine = true) :
    (front ++ newLine :: back).find? isEntry = some newLine := by
  rw [List.find?_append, List.find?_eq_none.2, List.find?_cons, entry]
  · rfl
  · intro line member
    rw [before line member]
    exact Bool.false_ne_true

theorem find?_eq_none_of_subset {lines others : List α} (absent : lines.find? isEntry = none)
    (subset : others ⊆ lines) : others.find? isEntry = none :=
  List.find?_eq_none.2 fun line member => List.find?_eq_none.1 absent line (subset member)

/-- A line that is an entry is found where it was set. -/
theorem find?_upsertLine {newLine : α} (entry : isEntry newLine = true) (lines : List α) :
    (upsertLine isEntry isBlank newLine lines).find? isEntry = some newLine := by
  cases found : lines.find? isEntry with
  | none =>
    rw [upsertLine_absent found]
    apply find?_append_of_entry _ entry
    intro line member
    exact Bool.eq_false_iff.2
      (List.find?_eq_none.1 found line ((List.rdropWhile_prefix _ _).subset member))
  | some old =>
    obtain ⟨front, back, rfl, before, isOld⟩ := exists_split_of_find?_eq_some found
    rw [upsertLine_present before isOld]
    exact find?_append_of_entry before entry

theorem length_upsertLine {lines : List α} {old : α} (found : lines.find? isEntry = some old)
    (newLine : α) :
    (upsertLine isEntry isBlank newLine lines).length = lines.length := by
  obtain ⟨front, back, rfl, before, isOld⟩ := exists_split_of_find?_eq_some found
  rw [upsertLine_present before isOld, List.length_append, List.length_append]
  rfl

theorem find?_entryFree (lines : List α) : (entryFree isEntry lines).find? isEntry = none := by
  rw [List.find?_eq_none]
  intro line member
  simpa using (List.mem_filter.1 member).2

theorem entryFree_of_absent {lines : List α} (absent : lines.find? isEntry = none) :
    entryFree isEntry lines = lines := by
  rw [entryFree, List.filter_eq_self]
  intro line member
  simpa using List.find?_eq_none.1 absent line member

/-! ### What stays whatever is set and removed -/

variable (isEntry isBlank)

/-- The lines that are no entries, up to the last that is not blank. -/
def core (lines : List α) : List α := (entryFree isEntry lines).rdropWhile isBlank

variable {isEntry isBlank}

theorem rdropWhile_idem (lines : List α) :
    (lines.rdropWhile isBlank).rdropWhile isBlank = lines.rdropWhile isBlank :=
  List.rdropWhile_idempotent _ _

/-- Blank lines at the end do not count. -/
theorem core_append_blank {blank : α} (isBlankLine : isBlank blank = true) (lines : List α) :
    core isEntry isBlank (lines ++ [blank]) = core isEntry isBlank lines := by
  rw [core, core, entryFree, entryFree, List.filter_append]
  cases entry : isEntry blank with
  | true => simp [entry]
  | false =>
    rw [List.filter_cons_of_pos (by simp [entry]), List.filter_nil, List.rdropWhile_concat_pos]
    exact isBlankLine

theorem core_entryFree (lines : List α) :
    core isEntry isBlank (entryFree isEntry lines) = core isEntry isBlank lines := by
  rw [core, core, entryFree_of_absent (find?_entryFree lines)]

theorem core_upsertLine {newLine : α} (entry : isEntry newLine = true) (lines : List α) :
    core isEntry isBlank (upsertLine isEntry isBlank newLine lines) =
      core isEntry isBlank lines := by
  cases found : lines.find? isEntry with
  | none =>
    have kept := find?_eq_none_of_subset found
      (List.rdropWhile_prefix isBlank lines).subset
    rw [upsertLine_absent found, core, core, entryFree, List.filter_append, ← entryFree,
      entryFree_of_absent kept, entryFree_of_absent found,
      List.filter_cons_of_neg (by simp [entry]), List.filter_nil, List.append_nil, rdropWhile_idem]
  | some old =>
    obtain ⟨front, back, rfl, before, isOld⟩ := exists_split_of_find?_eq_some found
    rw [upsertLine_present before isOld, core, core, entryFree, entryFree, List.filter_append,
      List.filter_append, List.filter_cons_of_neg (by simp [entry]),
      List.filter_cons_of_neg (by simp [isOld])]

end Foundation
