/-
Module: Paratix.Foundation.Semaphore
Purpose: A counting semaphore that serves its waiters in the order of their arrival.
Main exports: Semaphore, Fair.release
-/
import Mathlib.Data.List.Nodup
import Mathlib.Data.List.Perm.Basic

namespace Foundation

/-- Who holds a slot, in the order of the grants, and who waits for one. -/
structure Semaphore (α : Type*) where
  holders : List α
  waiting : List α

namespace Semaphore

variable {α : Type*}

def idle : Semaphore α where
  holders := []
  waiting := []

/-- A newcomer takes a free slot only if nobody waits. -/
def acquire (capacity : Nat) (semaphore : Semaphore α) (newcomer : α) : Semaphore α :=
  if semaphore.holders.length < capacity ∧ semaphore.waiting = [] then
    { semaphore with holders := semaphore.holders ++ [newcomer] }
  else { semaphore with waiting := semaphore.waiting ++ [newcomer] }

/-- A slot that becomes free passes to the first waiter. -/
def release [DecidableEq α] (semaphore : Semaphore α) (holder : α) : Semaphore α :=
  match semaphore.waiting with
  | [] => { semaphore with holders := semaphore.holders.erase holder }
  | next :: rest => { holders := semaphore.holders.erase holder ++ [next], waiting := rest }

theorem release_nobody [DecidableEq α] {semaphore : Semaphore α} (holder : α)
    (nobody : semaphore.waiting = []) :
    semaphore.release holder = { holders := semaphore.holders.erase holder, waiting := [] } := by
  rw [release, nobody]

theorem release_next [DecidableEq α] {semaphore : Semaphore α} (holder : α) {next : α}
    {rest : List α} (isWaiting : semaphore.waiting = next :: rest) : semaphore.release holder =
      { holders := semaphore.holders.erase holder ++ [next], waiting := rest } := by
  rw [release, isWaiting]

/-- No more holders than slots, waiters only while every slot is held, and nobody
stands in two places. -/
structure Fair (capacity : Nat) (semaphore : Semaphore α) : Prop where
  within : semaphore.holders.length ≤ capacity
  full : semaphore.waiting ≠ [] → semaphore.holders.length = capacity
  distinct : (semaphore.holders ++ semaphore.waiting).Nodup

namespace Fair

variable {capacity : Nat} {semaphore : Semaphore α}

theorem initially (capacity : Nat) : Fair capacity (idle : Semaphore α) where
  within := Nat.zero_le _
  full waiting := absurd rfl waiting
  distinct := List.nodup_nil

theorem acquire (fair : Fair capacity semaphore) {newcomer : α}
    (isNew : newcomer ∉ semaphore.holders ++ semaphore.waiting) :
    Fair capacity (semaphore.acquire capacity newcomer) := by
  unfold Semaphore.acquire
  have notHolding : newcomer ∉ semaphore.holders := fun mem => isNew (List.mem_append_left _ mem)
  split
  · next isFree =>
    have distinct : (semaphore.holders ++ [newcomer]).Nodup :=
      List.nodup_append'.2 ⟨fair.distinct.of_append_left, List.nodup_singleton _,
        List.disjoint_singleton.2 notHolding⟩
    constructor
    · rw [List.length_append]
      exact isFree.1
    · exact fun waiting => absurd isFree.2 waiting
    · change (semaphore.holders ++ [newcomer] ++ semaphore.waiting).Nodup
      rw [isFree.2, List.append_nil]
      exact distinct
  · next notFree =>
    constructor
    · exact fair.within
    · intro _
      by_cases free : semaphore.holders.length < capacity
      · exact fair.full fun noWaiter => notFree ⟨free, noWaiter⟩
      · exact Nat.le_antisymm fair.within (Nat.le_of_not_lt free)
    · change (semaphore.holders ++ (semaphore.waiting ++ [newcomer])).Nodup
      rw [← List.append_assoc]
      exact List.nodup_append'.2 ⟨fair.distinct, List.nodup_singleton _,
        List.disjoint_singleton.2 isNew⟩

theorem release [DecidableEq α] (fair : Fair capacity semaphore) {holder : α}
    (holds : holder ∈ semaphore.holders) : Fair capacity (semaphore.release holder) := by
  have oneLess : (semaphore.holders.erase holder).length + 1 = semaphore.holders.length := by
    rw [List.length_erase_of_mem holds]
    exact Nat.succ_pred_eq_of_pos (List.length_pos_of_mem holds)
  cases isWaiting : semaphore.waiting with
  | nil =>
    rw [release_nobody holder isWaiting]
    constructor
    · exact Nat.le_trans (Nat.le_of_lt (Nat.lt_of_succ_le (Nat.le_of_eq oneLess))) fair.within
    · exact fun waiting => absurd rfl waiting
    · have distinct := fair.distinct
      rw [isWaiting] at distinct
      exact distinct.sublist (List.erase_sublist.append_right _)
  | cons next rest =>
    have distinct := fair.distinct
    rw [isWaiting] at distinct
    have sameLength : (semaphore.holders.erase holder ++ [next]).length =
        semaphore.holders.length := by
      rw [List.length_append, List.length_singleton, oneLess]
    rw [release_next holder isWaiting]
    constructor
    · exact Nat.le_trans (Nat.le_of_eq sameLength) fair.within
    · intro _
      refine sameLength.trans (fair.full ?_)
      rw [isWaiting]
      exact List.cons_ne_nil _ _
    · change (semaphore.holders.erase holder ++ [next] ++ rest).Nodup
      rw [List.append_assoc, List.singleton_append]
      exact distinct.sublist (List.erase_sublist.append_right _)

end Fair

end Semaphore

end Foundation
