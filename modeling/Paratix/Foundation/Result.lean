/-
Module: Paratix.Foundation.Result
Purpose: What a computation that may fail did when it succeeded.
Main exports: ok_of_bind, ok_of_forM
-/

namespace Foundation

/-- Both parts of a computation that succeeded succeeded. -/
theorem ok_of_bind {ε α β : Type} {first : Except ε α} {next : α → Except ε β} {result : β}
    (succeeded : (first >>= next) = .ok result) :
    ∃ value, first = .ok value ∧ next value = .ok result := by
  cases first with
  | error message => cases succeeded
  | ok value => exact ⟨value, rfl, succeeded⟩

/-- A loop that succeeded succeeded for every item. -/
theorem ok_of_forM {ε α : Type} {check : α → Except ε Unit} {items : List α}
    (succeeded : items.forM check = .ok ()) : ∀ item ∈ items, check item = .ok () := by
  induction items with
  | nil => exact nofun
  | cons item items ih =>
    have unfolded : (check item >>= fun _ => items.forM check) = .ok () := succeeded
    obtain ⟨_, first, rest⟩ := ok_of_bind unfolded
    exact List.forall_mem_cons.2 ⟨first, ih rest⟩

end Foundation
