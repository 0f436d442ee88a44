/-
Module: Paratix.Foundation.Settings
Purpose: Orders that set one dimension of a state each: of the orders that name a
  dimension the last one decides it.
Main exports: recordOrder, SetsNamed.foldl_complete
-/
import Mathlib.Data.List.Induction
import Paratix.Foundation.AssocList

namespace Foundation

variable {σ τ δ υ : Type*} [BEq δ]

/-! ### What the orders name -/

section Recorded

variable (names : τ → Option (δ × υ))

/-- Writes down what an order names. -/
def recordOrder (entries : List (δ × υ)) (order : τ) : List (δ × υ) :=
  match names order with
  | none => entries
  | some named => mapSet entries named.1 named.2

/-- What the orders name, a later order over an earlier one. -/
def recorded (orders : List τ) : List (δ × υ) := orders.foldl (recordOrder names) []

variable {names}

theorem recordOrder_none {order : τ} (unnamed : names order = none) (entries : List (δ × υ)) :
    recordOrder names entries order = entries := by
  rw [recordOrder, unnamed]

theorem recordOrder_some {order : τ} {named : δ × υ} (isNamed : names order = some named)
    (entries : List (δ × υ)) :
    recordOrder names entries order = mapSet entries named.1 named.2 := by
  rw [recordOrder, isNamed]

theorem recorded_concat (orders : List τ) (order : τ) :
    recorded names (orders ++ [order]) = recordOrder names (recorded names orders) order := by
  rw [recorded, List.foldl_append]
  rfl

variable [LawfulBEq δ]

theorem nodup_keys_recorded (orders : List τ) :
    ((recorded names orders).map Prod.fst).Nodup := by
  induction orders using List.reverseRecOn with
  | nil => exact List.nodup_nil
  | append_singleton orders order ih =>
    rw [recorded_concat]
    cases named : names order with
    | none =>
      rw [recordOrder_none named]
      exact ih
    | some entry =>
      rw [recordOrder_some named]
      exact nodup_keys_mapSet ih _ _

end Recorded

/-! ### Carrying the orders out -/

/-- An order sets the dimension it names to the value it names and nothing else. -/
structure SetsNamed (names : τ → Option (δ × υ)) (apply : σ → τ → σ) (get : σ → δ → υ) :
    Prop where
  named : ∀ {order : τ} {named : δ × υ}, names order = some named →
    ∀ (state : σ) (dimension : δ),
      get (apply state order) dimension =
        if dimension == named.1 then named.2 else get state dimension
  unnamed : ∀ {order : τ}, names order = none → ∀ (state : σ) (dimension : δ),
    get (apply state order) dimension = get state dimension

variable {names : τ → Option (δ × υ)} {apply : σ → τ → σ} {get : σ → δ → υ} [LawfulBEq δ]

/-- The last order that names a dimension decides it; what no order names stays. -/
theorem SetsNamed.get_foldl (sets : SetsNamed names apply get) (orders : List τ) (state : σ)
    (dimension : δ) : get (orders.foldl apply state) dimension =
      ((recorded names orders).lookup dimension).getD (get state dimension) := by
  induction orders using List.reverseRecOn with
  | nil => rfl
  | append_singleton orders order ih =>
    rw [recorded_concat, List.foldl_append, List.foldl_cons, List.foldl_nil]
    cases named : names order with
    | none => rw [sets.unnamed named, recordOrder_none named, ih]
    | some entry =>
      rw [sets.named named, recordOrder_some named, lookup_mapSet, ih]
      split <;> rfl

/-- Where an order names a dimension or the dimension has its value already, and the
orders name no other value, the orders lead to that value. -/
theorem SetsNamed.foldl_complete (sets : SetsNamed names apply get) {orders : List τ}
    {state : σ} {dimension : δ} {value : υ}
    (only : ∀ order ∈ orders, ∀ other, names order = some (dimension, other) → other = value)
    (reached : get state dimension = value ∨
      ∃ order ∈ orders, names order = some (dimension, value)) :
    get (orders.foldl apply state) dimension = value := by
  induction orders generalizing state with
  | nil =>
    rcases reached with already | ⟨order, member, _⟩
    · exact already
    · exact absurd member List.not_mem_nil
  | cons first orders ih =>
    rw [List.foldl_cons]
    apply ih fun order mem => only order (List.mem_cons_of_mem _ mem)
    have atFirst := only first List.mem_cons_self
    cases named : names first with
    | none =>
      rw [sets.unnamed named]
      rcases reached with already | ⟨order, member, names⟩
      · exact .inl already
      · rcases List.mem_cons.1 member with rfl | inRest
        · rw [named] at names
          cases names
        · exact .inr ⟨order, inRest, names⟩
    | some entry =>
      rw [sets.named named]
      by_cases same : dimension = entry.1
      · subst same
        refine .inl ?_
        rw [beq_self_eq_true, if_pos rfl]
        exact atFirst entry.2 named
      · rw [beq_eq_false_iff_ne.2 same]
        rcases reached with already | ⟨order, member, names⟩
        · exact .inl already
        · rcases List.mem_cons.1 member with rfl | inRest
          · rw [named, Option.some.injEq] at names
            exact absurd (by rw [names]) same
          · exact .inr ⟨order, inRest, names⟩

end Foundation
