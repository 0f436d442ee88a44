/-
Module: Paratix.Foundation.MarkedBlock
Purpose: A block between an opening and a closing line, and how blocks with markers of their
  own stand beside each other.
Main exports: indexesWhere, BlockBetween.replaced
-/
import Mathlib.Data.List.Basic

namespace Foundation

variable {α : Type*}

/-! ### Places of the lines that fulfil a condition -/

section Indexes

variable (marks : α → Prop) [DecidablePred marks]

/-- The places of the lines that fulfil the condition, counted from `start`. -/
def indexesWhere (start : Nat) : List α → List Nat
  | [] => []
  | line :: lines =>
      if marks line then start :: indexesWhere (start + 1) lines
      else indexesWhere (start + 1) lines

variable {marks}

theorem length_indexesWhere (start : Nat) (lines : List α) :
    (indexesWhere marks start lines).length = lines.countP (marks ·) := by
  induction lines generalizing start with
  | nil => rfl
  | cons line lines ih =>
    rw [indexesWhere]
    split
    · next marked =>
      rw [List.length_cons, ih, List.countP_cons, decide_eq_true marked, if_pos rfl]
    · next unmarked =>
      rw [ih, List.countP_cons, decide_eq_false unmarked]
      rfl

theorem indexesWhere_eq_nil {lines : List α} (unmarked : ∀ line ∈ lines, ¬marks line)
    (start : Nat) : indexesWhere marks start lines = [] := by
  rw [← List.length_eq_zero_iff, length_indexesWhere, List.countP_eq_zero]
  intro line mem
  simpa using unmarked line mem

theorem indexesWhere_append (start : Nat) (front back : List α) :
    indexesWhere marks start (front ++ back) =
      indexesWhere marks start front ++ indexesWhere marks (start + front.length) back := by
  induction front generalizing start with
  | nil => rfl
  | cons line front ih =>
    have shifted : start + 1 + front.length = start + (line :: front).length := by
      rw [List.length_cons]
      omega
    rw [List.cons_append, indexesWhere, indexesWhere, ih, shifted]
    split
    · rfl
    · rfl

/-- The only such line is found where the lines before it end. -/
theorem indexesWhere_eq_singleton {front back : List α} {line : α}
    (before : ∀ other ∈ front, ¬marks other) (marked : marks line)
    (behind : ∀ other ∈ back, ¬marks other) :
    indexesWhere marks 0 (front ++ line :: back) = [front.length] := by
  rw [indexesWhere_append, indexesWhere_eq_nil before, indexesWhere, if_pos marked,
    indexesWhere_eq_nil behind, Nat.zero_add]
  rfl

end Indexes

/-! ### Blocks -/

variable (opens closes : α → Prop)

/-- No line is a marker. -/
def Unmarked (lines : List α) : Prop := ∀ line ∈ lines, ¬opens line ∧ ¬closes line

instance [DecidablePred opens] [DecidablePred closes] (lines : List α) :
    Decidable (Unmarked opens closes lines) :=
  inferInstanceAs (Decidable (∀ line ∈ lines, _))

/-- The first line opens the block, the last one closes it, and no other line is a marker. -/
def IsBlock (block : List α) : Prop :=
  ∃ first middle last, block = first :: (middle ++ [last]) ∧
    (opens first ∧ ¬closes first) ∧ Unmarked opens closes middle ∧ closes last ∧ ¬opens last

/-- The block is the only one between what stands before it and behind it. -/
structure BlockBetween (front block back : List α) : Prop where
  isBlock : IsBlock opens closes block
  unmarkedFront : Unmarked opens closes front
  unmarkedBack : Unmarked opens closes back

variable {opens closes}

theorem unmarked_append {front back : List α} : Unmarked opens closes (front ++ back) ↔
      Unmarked opens closes front ∧ Unmarked opens closes back :=
  List.forall_mem_append

theorem IsBlock.exists_opening {block : List α} (isBlock : IsBlock opens closes block) :
    ∃ first middle, block = first :: middle ∧ opens first := by
  obtain ⟨first, middle, last, rfl, opening, _⟩ := isBlock
  exact ⟨first, middle ++ [last], rfl, opening.1⟩

/-- Of two stretches of the same lines, the one that starts later starts behind the other, if
its first line is not in the other. -/
theorem append_apart {block back between other rest : List α} {first : α}
    (same : block ++ back = between ++ (first :: other) ++ rest) (outside : first ∉ block) :
    ∃ gap, between = block ++ gap ∧ back = gap ++ (first :: other) ++ rest := by
  rw [List.append_assoc] at same
  rcases List.append_eq_append_iff.1 same with ⟨gap, rfl, rfl⟩ | ⟨overlap, rfl, rest'⟩
  · exact ⟨gap, rfl, (List.append_assoc _ _ _).symm⟩
  · cases overlap with
    | nil => exact ⟨[], by simp, by simpa using rest'.symm⟩
    | cons head overlap =>
      obtain ⟨rfl, _⟩ := List.cons.inj rest'
      exact absurd (List.mem_append_right _ List.mem_cons_self) outside

variable {opens' closes' : α → Prop} {front block back front' block' back' : List α}

/-- Two blocks of the same lines stand apart, where neither holds a marker of the other. -/
theorem BlockBetween.apart (first : BlockBetween opens closes front block back)
    (second : BlockBetween opens' closes' front' block' back')
    (same : front ++ block ++ back = front' ++ block' ++ back')
    (foreign : Unmarked opens' closes' block) (foreign' : Unmarked opens closes block') :
    (∃ gap, front' = front ++ block ++ gap ∧ back = gap ++ block' ++ back') ∨
      ∃ gap, front = front' ++ block' ++ gap ∧ back' = gap ++ block ++ back := by
  obtain ⟨head, tail, rfl, opening⟩ := first.isBlock.exists_opening
  obtain ⟨head', tail', rfl, opening'⟩ := second.isBlock.exists_opening
  have outside : head ∉ head' :: tail' := fun mem => (foreign' head mem).1 opening
  have outside' : head' ∉ head :: tail := fun mem => (foreign head' mem).1 opening'
  rw [List.append_assoc, List.append_assoc front'] at same
  rcases List.append_eq_append_iff.1 same with ⟨between, rfl, rest⟩ | ⟨between, rfl, rest⟩
  · rw [← List.append_assoc] at rest
    obtain ⟨gap, rfl, behind⟩ := append_apart rest outside'
    exact .inl ⟨gap, (List.append_assoc _ _ _).symm, behind⟩
  · rw [← List.append_assoc] at rest
    obtain ⟨gap, rfl, behind⟩ := append_apart rest outside
    exact .inr ⟨gap, (List.append_assoc _ _ _).symm, behind⟩

/-- What takes the place of a block leaves the other one alone. -/
theorem BlockBetween.replaced (first : BlockBetween opens closes front block back)
    (second : BlockBetween opens' closes' front' block' back')
    (same : front ++ block ++ back = front' ++ block' ++ back')
    (foreign : Unmarked opens' closes' block) (foreign' : Unmarked opens closes block')
    {new : List α} (foreignNew : Unmarked opens' closes' new) :
    ∃ before behind, front ++ new ++ back = before ++ block' ++ behind ∧
      BlockBetween opens' closes' before block' behind := by
  obtain ⟨isBlock, unmarkedFront, unmarkedBack⟩ := second
  rcases first.apart ⟨isBlock, unmarkedFront, unmarkedBack⟩ same foreign foreign' with
    ⟨gap, rfl, rfl⟩ | ⟨gap, rfl, rfl⟩
  · refine ⟨front ++ new ++ gap, back', by simp only [List.append_assoc], isBlock, ?_, unmarkedBack⟩
    rw [unmarked_append, unmarked_append] at unmarkedFront ⊢
    exact ⟨⟨unmarkedFront.1.1, foreignNew⟩, unmarkedFront.2⟩
  · refine ⟨front', gap ++ new ++ back, by simp only [List.append_assoc], isBlock,
      unmarkedFront, ?_⟩
    rw [unmarked_append, unmarked_append] at unmarkedBack ⊢
    exact ⟨⟨unmarkedBack.1.1, foreignNew⟩, unmarkedBack.2⟩

end Foundation
