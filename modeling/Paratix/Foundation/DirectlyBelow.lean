/-
Module: Paratix.Foundation.DirectlyBelow
Purpose: Removing every copy of a line but those that stand directly below a mark.
Main exports: keepBelow, Thinned.split_lines
-/
import Mathlib.Data.List.Basic
import Mathlib.Data.List.Infix

namespace Foundation

variable {α : Type*} [DecidableEq α] (mark item : α)

/-- Removes `item` wherever the line above it, in the list as it was, is not `mark`. -/
def keepBelow : Option α → List α → List α
  | _, [] => []
  | previous, head :: rest =>
      if head = item ∧ previous ≠ some mark then keepBelow (some head) rest
      else head :: keepBelow (some head) rest

variable {mark item}

@[simp] theorem keepBelow_nil (previous : Option α) : keepBelow mark item previous [] = [] := rfl

theorem keepBelow_cons (previous : Option α) (head : α) (rest : List α) :
    keepBelow mark item previous (head :: rest) =
      if head = item ∧ previous ≠ some mark then keepBelow mark item (some head) rest
      else head :: keepBelow mark item (some head) rest := rfl

/-- The line above what follows a list. -/
def lastLine (previous : Option α) (lines : List α) : Option α := lines.getLast?.or previous

omit [DecidableEq α] in
theorem lastLine_cons (previous : Option α) (head : α) (rest : List α) :
    lastLine previous (head :: rest) = lastLine (some head) rest := by
  rw [lastLine, lastLine, List.getLast?_cons]
  cases rest.getLast? <;> rfl

theorem keepBelow_cons_kept {previous : Option α} {head : α} (rest : List α)
    (kept : head ≠ item ∨ previous = some mark) :
    keepBelow mark item previous (head :: rest) = head :: keepBelow mark item (some head) rest := by
  rw [keepBelow_cons, if_neg]
  rintro ⟨isItem, notBelow⟩
  rcases kept with other | below
  · exact other isItem
  · exact notBelow below

theorem keepBelow_cons_item {previous : Option α} (rest : List α)
    (notBelow : previous ≠ some mark) :
    keepBelow mark item previous (item :: rest) = keepBelow mark item (some item) rest :=
  if_pos ⟨rfl, notBelow⟩

theorem keepBelow_append (previous : Option α) (front back : List α) :
    keepBelow mark item previous (front ++ back) =
      keepBelow mark item previous front ++ keepBelow mark item (lastLine previous front) back := by
  induction front generalizing previous with
  | nil => rfl
  | cons head front ih =>
    rw [List.cons_append, lastLine_cons]
    by_cases removed : head = item ∧ previous ≠ some mark
    · rw [keepBelow_cons, if_pos removed, keepBelow_cons, if_pos removed, ih]
    · rw [keepBelow_cons, if_neg removed, keepBelow_cons, if_neg removed, ih, List.cons_append]

theorem keepBelow_sublist (previous : Option α) (lines : List α) :
    (keepBelow mark item previous lines).Sublist lines := by
  induction lines generalizing previous with
  | nil => exact List.Sublist.slnil
  | cons head lines ih =>
    rw [keepBelow_cons]
    split
    · exact (ih _).cons _
    · exact (ih _).cons_cons _

theorem keepBelow_of_notMem {lines : List α} (absent : item ∉ lines) (previous : Option α) :
    keepBelow mark item previous lines = lines := by
  induction lines generalizing previous with
  | nil => rfl
  | cons head lines ih =>
    rw [List.mem_cons, not_or] at absent
    rw [keepBelow_cons_kept _ (.inl (Ne.symm absent.1)), ih absent.2]

/-- A copy is kept exactly if it stands directly below the mark. -/
theorem mem_keepBelow_iff (previous : Option α) (lines : List α) :
    item ∈ keepBelow mark item previous lines ↔
      ∃ front back, lines = front ++ item :: back ∧ lastLine previous front = some mark := by
  induction lines generalizing previous with
  | nil => simp
  | cons head lines ih =>
    constructor
    · intro member
      rw [keepBelow_cons] at member
      split at member
      · obtain ⟨front, back, rfl, below⟩ := (ih _).1 member
        exact ⟨head :: front, back, rfl, by rw [lastLine_cons]; exact below⟩
      · next kept =>
        by_cases isItem : head = item
        · subst isItem
          have below : previous = some mark := by
            by_contra notBelow
            exact kept ⟨rfl, notBelow⟩
          exact ⟨[], lines, rfl, below⟩
        · have inRest := (List.mem_cons.1 member).resolve_left (Ne.symm isItem)
          obtain ⟨front, back, rfl, below⟩ := (ih _).1 inRest
          exact ⟨head :: front, back, rfl, by rw [lastLine_cons]; exact below⟩
    · rintro ⟨front, back, split, below⟩
      cases front with
      | nil =>
        obtain ⟨rfl, rfl⟩ := List.cons.inj split
        have isBelow : previous = some mark := below
        rw [keepBelow_cons_kept _ (.inr isBelow)]
        exact List.mem_cons_self
      | cons first front =>
        obtain ⟨rfl, rfl⟩ := List.cons.inj split
        rw [lastLine_cons] at below
        have inRest := (ih (some head)).2 ⟨front, back, rfl, below⟩
        rw [keepBelow_cons]
        split
        · exact inRest
        · exact List.mem_cons_of_mem _ inRest

/-- Nothing is removed exactly if every copy stands directly below the mark. -/
theorem keepBelow_eq_self_iff (previous : Option α) (lines : List α) :
    keepBelow mark item previous lines = lines ↔
      ∀ front back, lines = front ++ item :: back → lastLine previous front = some mark := by
  induction lines generalizing previous with
  | nil => simp
  | cons head lines ih =>
    constructor
    · intro same front back split
      rw [keepBelow_cons] at same
      split at same
      · have shorter := (@keepBelow_sublist _ _ mark item (some head) lines).length_le
        rw [same, List.length_cons] at shorter
        omega
      · next kept =>
        have rest := (ih _).1 (List.cons.inj same).2
        cases front with
        | nil =>
          obtain ⟨rfl, rfl⟩ := List.cons.inj split
          by_contra notBelow
          exact kept ⟨rfl, notBelow⟩
        | cons first front =>
          obtain ⟨rfl, rfl⟩ := List.cons.inj split
          rw [lastLine_cons]
          exact rest front back rfl
    · intro allBelow
      have rest : keepBelow mark item (some head) lines = lines := by
        apply (ih _).2
        intro front back split
        have below := allBelow (head :: front) back (by rw [split]; rfl)
        rwa [lastLine_cons] at below
      rw [keepBelow_cons_kept, rest]
      by_cases isItem : head = item
      · subst isItem
        exact .inr (allBelow [] lines rfl)
      · exact .inl isItem

/-- Where the mark is the item itself, a list with copies keeps only those at its head. -/
theorem keepBelow_self_iff {previous : Option α} (notBelow : previous ≠ some item)
    (lines : List α) : keepBelow item item previous lines = lines ↔ item ∉ lines := by
  constructor
  · intro same member
    obtain ⟨front, back, split, absent⟩ := List.eq_append_cons_of_mem member
    have below := (keepBelow_eq_self_iff previous lines).1 same front back split
    rw [lastLine, Option.or_eq_some_iff] at below
    rcases below with isLast | ⟨_, isPrevious⟩
    · exact absent (List.mem_of_getLast? isLast)
    · exact notBelow isPrevious
  · exact fun absent => keepBelow_of_notMem absent previous

/-- Of the line above, all that counts is whether it is the mark. -/
theorem keepBelow_congr {previous other : Option α} (notBelow : previous ≠ some mark)
    (otherNotBelow : other ≠ some mark) (lines : List α) :
    keepBelow mark item previous lines = keepBelow mark item other lines := by
  cases lines with
  | nil => rfl
  | cons head lines =>
    by_cases isItem : head = item
    · rw [isItem, keepBelow_cons_item _ notBelow, keepBelow_cons_item _ otherNotBelow]
    · rw [keepBelow_cons_kept _ (.inl isItem), keepBelow_cons_kept _ (.inl isItem)]

/-- The lines are still there in order exactly if nothing was removed. -/
theorem sublist_keepBelow_iff (previous : Option α) (lines : List α) :
    lines.Sublist (keepBelow mark item previous lines) ↔
      keepBelow mark item previous lines = lines := by
  constructor
  · intro kept
    exact (keepBelow_sublist previous lines).antisymm kept
  · intro same
    rw [same]

/-! ### Lists that lack some copies -/

/-- The second list is the first one without some copies of the item. -/
inductive Thinned (item : α) : List α → List α → Prop where
  | nil : Thinned item [] []
  | keep {lines kept : List α} (head : α) (rest : Thinned item lines kept) :
      Thinned item (head :: lines) (head :: kept)
  | drop {lines kept : List α} (rest : Thinned item lines kept) :
      Thinned item (item :: lines) kept

omit [DecidableEq α] in
theorem Thinned.refl (lines : List α) : Thinned item lines lines := by
  induction lines with
  | nil => exact .nil
  | cons head lines ih => exact .keep head ih

theorem thinned_keepBelow (previous : Option α) (lines : List α) :
    Thinned item lines (keepBelow mark item previous lines) := by
  induction lines generalizing previous with
  | nil => exact .nil
  | cons head lines ih =>
    rw [keepBelow_cons]
    split
    · next removed =>
      rw [removed.1]
      exact .drop (ih _)
    · exact .keep head (ih _)

omit [DecidableEq α] in
theorem Thinned.subset {lines kept : List α} (thinned : Thinned item lines kept) :
    kept ⊆ lines := by
  induction thinned with
  | nil => exact List.Subset.refl _
  | keep head _ ih => exact List.cons_subset_cons head ih
  | drop _ ih => exact List.subset_cons_of_subset _ ih

omit [DecidableEq α] in
/-- Every other line is still there. -/
theorem Thinned.mem_of_ne {lines kept : List α} (thinned : Thinned item lines kept) {line : α}
    (member : line ∈ lines) (other : line ≠ item) : line ∈ kept := by
  induction thinned with
  | nil => exact member
  | keep head _ ih =>
    rcases List.mem_cons.1 member with rfl | inRest
    · exact List.mem_cons_self
    · exact List.mem_cons_of_mem _ (ih inRest)
  | drop _ ih =>
    exact ih ((List.mem_cons.1 member).resolve_left other)

omit [DecidableEq α] in
/-- A kept line splits the lines as it splits what is kept. -/
theorem Thinned.split_kept {lines front back : List α} {line : α}
    (thinned : Thinned item lines (front ++ line :: back)) :
    ∃ before after, lines = before ++ line :: after ∧ Thinned item before front ∧
      Thinned item after back := by
  generalize keptEq : front ++ line :: back = kept at thinned
  induction thinned generalizing front with
  | nil => exact absurd keptEq (List.append_ne_nil_of_right_ne_nil _ (List.cons_ne_nil _ _))
  | keep head rest ih =>
    cases front with
    | nil =>
      obtain ⟨rfl, rfl⟩ := List.cons.inj keptEq
      exact ⟨[], _, rfl, .nil, rest⟩
    | cons first front =>
      obtain ⟨rfl, restEq⟩ := List.cons.inj keptEq
      obtain ⟨before, after, rfl, thinnedFront, thinnedBack⟩ := ih restEq
      exact ⟨first :: before, after, rfl, .keep first thinnedFront, thinnedBack⟩
  | drop rest ih =>
    obtain ⟨before, after, rfl, thinnedFront, thinnedBack⟩ := ih keptEq
    exact ⟨item :: before, after, rfl, .drop thinnedFront, thinnedBack⟩

omit [DecidableEq α] in
/-- Another line splits what is kept as it splits the lines. -/
theorem Thinned.split_lines {front back kept : List α} {line : α} (other : line ≠ item)
    (thinned : Thinned item (front ++ line :: back) kept) :
    ∃ before after, kept = before ++ line :: after ∧ Thinned item front before ∧
      Thinned item back after := by
  generalize linesEq : front ++ line :: back = lines at thinned
  induction thinned generalizing front with
  | nil => exact absurd linesEq (List.append_ne_nil_of_right_ne_nil _ (List.cons_ne_nil _ _))
  | keep head rest ih =>
    cases front with
    | nil =>
      obtain ⟨rfl, rfl⟩ := List.cons.inj linesEq
      exact ⟨[], _, rfl, .nil, rest⟩
    | cons first front =>
      obtain ⟨rfl, restEq⟩ := List.cons.inj linesEq
      obtain ⟨before, after, rfl, thinnedFront, thinnedBack⟩ := ih restEq
      exact ⟨first :: before, after, rfl, .keep first thinnedFront, thinnedBack⟩
  | drop rest ih =>
    cases front with
    | nil => exact absurd (List.cons.inj linesEq).1 other
    | cons first front =>
      obtain ⟨rfl, restEq⟩ := List.cons.inj linesEq
      obtain ⟨before, after, rfl, thinnedFront, thinnedBack⟩ := ih restEq
      exact ⟨before, after, rfl, .drop thinnedFront, thinnedBack⟩

end Foundation
