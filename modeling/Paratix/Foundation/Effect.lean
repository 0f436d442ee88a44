/-
Module: Paratix.Foundation.Effect
Purpose: Computations on a state that report events and may throw, their laws and
  what holds after them.
Main exports: Outcome, Keeps.after
-/
import Mathlib.Data.List.Basic

namespace Foundation

/-- How a computation ended: its value (`none` if it threw), the state it left and
the events it reported on the way. -/
structure Outcome (ε σ α : Type) where
  value : Option α
  state : σ
  events : List ε

/-- A computation on a state. What it did before it threw stays done, and it cannot
see the events. -/
def Effect (ε σ α : Type) : Type := σ → Outcome ε σ α

namespace Effect

variable {ε σ α β γ : Type}

def run (computation : Effect ε σ α) (state : σ) : Outcome ε σ α := computation state

instance : Monad (Effect ε σ) where
  pure value := fun state => { value := some value, state := state, events := [] }
  bind first next := fun state =>
    let before := first state
    match before.value with
    | none => { value := none, state := before.state, events := before.events }
    | some value =>
      let after := next value before.state
      { after with events := before.events ++ after.events }

def throw : Effect ε σ α := fun state => { value := none, state := state, events := [] }

/-- Run a computation to its end and return its outcome, a throw as `none`. -/
def attempt (computation : Effect ε σ α) : Effect ε σ (Option α) := fun state =>
  let outcome := computation state
  { value := some outcome.value, state := outcome.state, events := outcome.events }

/-- Throw again what an attempt caught. -/
def rethrow : Option α → Effect ε σ α
  | some value => pure value
  | none => throw

def get : Effect ε σ σ := fun state => { value := some state, state := state, events := [] }

def modify (change : σ → σ) : Effect ε σ Unit := fun state =>
  { value := some (), state := change state, events := [] }

def report (event : ε) : Effect ε σ Unit := fun state =>
  { value := some (), state := state, events := [event] }

/-! ### The monad laws -/

/-- What a computation comes to after the outcome of the one before it. -/
def resume (before : Outcome ε σ α) (next : α → Effect ε σ β) : Outcome ε σ β :=
  match before.value with
  | none => { value := none, state := before.state, events := before.events }
  | some value =>
    let after := (next value).run before.state
    { after with events := before.events ++ after.events }

theorem run_bind (first : Effect ε σ α) (next : α → Effect ε σ β) (state : σ) :
    (first >>= next).run state = resume (first.run state) next := rfl

theorem bind_pure_self (computation : Effect ε σ α) : computation >>= Pure.pure = computation := by
  funext state
  change resume (computation state) Pure.pure = computation state
  rcases computation state with ⟨_ | value, after, events⟩
  · rfl
  · simp [resume, run, Pure.pure]

theorem bind_bind (first : Effect ε σ α) (next : α → Effect ε σ β) (last : β → Effect ε σ γ) :
    first >>= next >>= last = first >>= fun value => next value >>= last := by
  funext state
  change resume (resume (first state) next) last =
    resume (first state) fun value => next value >>= last
  rcases first state with ⟨_ | value, between, events⟩
  · rfl
  · dsimp only [resume, run_bind]
    rcases (next value).run between with ⟨_ | second, after, more⟩
    · rfl
    · simp only [List.append_assoc]

instance : LawfulMonad (Effect ε σ) :=
  LawfulMonad.mk' _ bind_pure_self (fun _ _ => rfl) bind_bind

theorem run_map (change : α → β) (computation : Effect ε σ α) (state : σ) :
    (change <$> computation).run state =
      { value := (computation.run state).value.map change
        state := (computation.run state).state
        events := (computation.run state).events } := by
  rw [map_eq_pure_bind, run_bind]
  rcases computation.run state with ⟨_ | value, after, events⟩
  · rfl
  · simp [resume, run, Pure.pure]

theorem attempt_map (change : α → β) (computation : Effect ε σ α) :
    (change <$> computation).attempt = Option.map change <$> computation.attempt := by
  funext state
  change _ = ((Option.map change <$> computation.attempt).run state)
  rw [run_map]
  change Outcome.mk (some ((change <$> computation).run state).value)
    ((change <$> computation).run state).state ((change <$> computation).run state).events = _
  rw [run_map]
  rfl

theorem rethrow_map (change : α → β) (result : Option α) :
    (rethrow (result.map change) : Effect ε σ β) = change <$> rethrow result := by
  cases result with
  | none => rfl
  | some value => rfl

/-! ### What holds after a computation -/

/-- The outcome of the computation from `state` satisfies `post`. -/
def After (computation : Effect ε σ α) (state : σ)
    (post : Option α → σ → List ε → Prop) : Prop :=
  post (computation.run state).value (computation.run state).state
    (computation.run state).events

namespace After

variable {state : σ} {post : Option β → σ → List ε → Prop}

theorem pure {value : β} (holds : post (some value) state []) :
    (Pure.pure value : Effect ε σ β).After state post := holds

theorem bind {first : Effect ε σ α} {next : α → Effect ε σ β}
    {middle : Option α → σ → List ε → Prop} (before : first.After state middle)
    (thrown : ∀ after events, middle none after events → post none after events)
    (continued : ∀ value between events, middle (some value) between events →
      (next value).After between fun result after more => post result after (events ++ more)) :
    (first >>= next).After state post := by
  unfold After run at *
  change post
    (match (first state).value with
      | none => ({ value := none, state := (first state).state, events := (first state).events } :
          Outcome ε σ β)
      | some value =>
        { next value (first state).state with
          events := (first state).events ++ (next value (first state).state).events }).value
    _ _
  rcases ran : (first state).value with _ | value
  · rw [ran] at before
    simpa only [Bind.bind, ran] using thrown _ _ before
  · rw [ran] at before
    simpa only [Bind.bind, ran] using continued value _ _ before

theorem mono {computation : Effect ε σ β} {weaker : Option β → σ → List ε → Prop}
    (holds : computation.After state post)
    (implies : ∀ result after events, post result after events → weaker result after events) :
    computation.After state weaker :=
  implies _ _ _ holds

theorem rethrow {result : Option β} (holds : post result state []) :
    (Effect.rethrow result : Effect ε σ β).After state post := by
  cases result with
  | none => exact holds
  | some value => exact holds

theorem ite {condition : Prop} [Decidable condition] {yes no : Effect ε σ β}
    (afterYes : condition → yes.After state post) (afterNo : ¬ condition → no.After state post) :
    (if condition then yes else no).After state post := by
  split
  · exact afterYes ‹_›
  · exact afterNo ‹_›

theorem get {outcome : Option σ → σ → List ε → Prop} (holds : outcome (some state) state []) :
    (Effect.get : Effect ε σ σ).After state outcome := holds

end After

end Effect

/-! ### What every run keeps -/

/-- A relation between the state before, the events and the state after, that holds
when nothing happens and can be chained. -/
structure Trail {ε σ : Type} (relation : σ → List ε → σ → Prop) : Prop where
  refl : ∀ state, relation state [] state
  trans : ∀ {first events middle more last}, relation first events middle →
    relation middle more last → relation first (events ++ more) last

namespace Effect

variable {ε σ α β : Type} {relation : σ → List ε → σ → Prop}

/-- Every run of the computation, also one that throws, is related. -/
def Keeps (relation : σ → List ε → σ → Prop) (computation : Effect ε σ α) : Prop :=
  ∀ state, computation.After state fun _ after events => relation state events after

namespace Keeps

theorem pure (trail : Trail relation) (value : α) :
    Keeps relation (Pure.pure value : Effect ε σ α) := trail.refl

theorem throw (trail : Trail relation) : Keeps relation (Effect.throw : Effect ε σ α) := trail.refl

theorem get (trail : Trail relation) : Keeps relation (Effect.get : Effect ε σ σ) := trail.refl

theorem rethrow (trail : Trail relation) (result : Option α) :
    Keeps relation (Effect.rethrow result : Effect ε σ α) :=
  fun state => After.rethrow (trail.refl state)

theorem bind (trail : Trail relation) {first : Effect ε σ α} {next : α → Effect ε σ β}
    (keeps : Keeps relation first) (keepsNext : ∀ value, Keeps relation (next value)) :
    Keeps relation (first >>= next) := by
  intro state
  refine After.bind (keeps state) (fun after events related => related) ?_
  intro value between events related
  exact (keepsNext value between).mono fun _ after more further =>
    trail.trans related further

theorem attempt {computation : Effect ε σ α} (keeps : Keeps relation computation) :
    Keeps relation computation.attempt := keeps

theorem modify {change : σ → σ} (keeps : ∀ state, relation state [] (change state)) :
    Keeps relation (Effect.modify change) := keeps

theorem report {event : ε} (keeps : ∀ state, relation state [event] state) :
    Keeps relation (Effect.report event) := keeps

theorem ite {condition : Prop} [Decidable condition] {yes no : Effect ε σ α}
    (keepsYes : condition → Keeps relation yes) (keepsNo : ¬ condition → Keeps relation no) :
    Keeps relation (if condition then yes else no) := by
  split
  · exact keepsYes ‹_›
  · exact keepsNo ‹_›

end Keeps

end Effect

end Foundation
