/-
Module: Paratix.Foundation.Run
Purpose: Runs of a labelled transition system, and steps that hand a state on along a list.
Main exports: Run, threaded_sideBySide
-/
import Mathlib.Data.List.Forall2
import Mathlib.Data.List.Basic

namespace Foundation

variable {α α' β β' γ σ : Type*}

/-- The results in order and the last state. -/
def threaded (step : σ → α → β × σ) (state : σ) : List α → List β × σ
  | [] => ([], state)
  | item :: items =>
      let first := step state item
      let rest := threaded step first.2 items
      (first.1 :: rest.1, rest.2)

/-- Three runs that end in one state, and a relation between their results. -/
structure SideBySide (Holds : β → β' → γ → Prop) (first : β × σ) (second : β' × σ)
    (third : γ × σ) : Prop where
  state : second.2 = first.2
  thirdState : third.2 = first.2
  holds : Holds first.1 second.1 third.1

/-- Results that stand in the same places are the columns of one table. -/
structure Columned (Holds : β → β' → γ → Prop) (first : List β) (second : List β')
    (third : List γ) : Prop where
  rows : ∃ table : List (β × β' × γ), first = table.map (fun row => row.1) ∧
    second = table.map (fun row => row.2.1) ∧ third = table.map (fun row => row.2.2) ∧
      ∀ row ∈ table, Holds row.1 row.2.1 row.2.2

variable {Related : α → α' → Prop} {Holds : β → β' → γ → Prop}
  {step : σ → α → β × σ} {step' : σ → α' → β' × σ} {pairStep : σ → α × α' → γ × σ}

/-- What holds of every step holds of the runs over corresponding lists. -/
theorem threaded_sideBySide (each : ∀ state item item', Related item item' →
      SideBySide Holds (step state item) (step' state item') (pairStep state (item, item')))
    {items : List α} {items' : List α'} (related : List.Forall₂ Related items items') (state : σ) :
    SideBySide (Columned Holds) (threaded step state items) (threaded step' state items')
      (threaded pairStep state (items.zip items')) := by
  induction related generalizing state with
  | nil => exact ⟨rfl, rfl, ⟨[], rfl, rfl, rfl, fun _ mem => absurd mem List.not_mem_nil⟩⟩
  | @cons item item' items items' head rest ih =>
    obtain ⟨same, same', holds⟩ := each state item item' head
    obtain ⟨restSame, restSame', ⟨table, isFirst, isSecond, isThird, all⟩⟩ := ih (step state item).2
    rw [List.zip_cons_cons]
    simp only [threaded, same, same']
    let row := ((step state item).1, (step' state item').1, (pairStep state (item, item')).1)
    refine ⟨restSame, restSame', ⟨row :: table, ?_, ?_, ?_, ?_⟩⟩
    · exact congrArg ((step state item).1 :: ·) isFirst
    · exact congrArg ((step' state item').1 :: ·) isSecond
    · exact congrArg ((pairStep state (item, item')).1 :: ·) isThird
    · intro other mem
      rcases List.mem_cons.1 mem with rfl | inTable
      · exact holds
      · exact all other inTable

variable {σ α : Type*}

/-- Actions taken one after the other, each of them possible and allowed in the
state it is taken in. -/
inductive Run (next : σ → α → σ → Prop) (allowed : σ → α → Prop) :
    σ → List α → σ → Prop where
  | nil {state : σ} : Run next allowed state [] state
  | cons {state middle final : σ} {action : α} {actions : List α}
      (isAllowed : allowed state action) (step : next state action middle)
      (rest : Run next allowed middle actions final) :
      Run next allowed state (action :: actions) final

namespace Run

variable {next : σ → α → σ → Prop} {allowed : σ → α → Prop}

/-- What every allowed step keeps holds along every run. -/
theorem invariant {kept : σ → Prop}
    (preserved : ∀ state action after, kept state → allowed state action →
      next state action after → kept after)
    {first last : σ} {actions : List α} (holds : kept first)
    (run : Run next allowed first actions last) : kept last := by
  induction run with
  | nil => exact holds
  | cons isAllowed step _ ih =>
    exact ih (preserved _ _ _ holds isAllowed step)

end Run

/-- The state after the actions, where each of them is allowed and possible. -/
def runSteps (step : σ → α → Option σ) (allowed : σ → α → Prop)
    [∀ state action, Decidable (allowed state action)] (state : σ) : List α → Option σ
  | [] => some state
  | action :: actions =>
      if allowed state action then
        (step state action).bind fun after => runSteps step allowed after actions
      else none

theorem Run.of_runSteps {step : σ → α → Option σ} {allowed : σ → α → Prop}
    [∀ state action, Decidable (allowed state action)] {actions : List α} :
    ∀ {first last : σ}, runSteps step allowed first actions = some last →
      Run (fun state action after => step state action = some after) allowed first actions
        last := by
  induction actions with
  | nil =>
    intro first last ran
    cases ran
    exact .nil
  | cons action actions ih =>
    intro first last ran
    rw [runSteps] at ran
    split at ran
    · next isAllowed =>
        obtain ⟨middle, stepped, rest⟩ := Option.bind_eq_some_iff.1 ran
        exact .cons isAllowed stepped (ih rest)
    · cases ran

end Foundation
