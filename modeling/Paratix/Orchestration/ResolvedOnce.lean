/-
Module: Paratix.Orchestration.ResolvedOnce
Purpose: Every run follows the rules of the caches of its entries, and when an emitted
  entry is resolved only once.
Main exports: Current, resolved_once_iff
-/
import Paratix.Orchestration.Resolution

namespace Paratix.Orchestration

open Foundation Foundation.Effect

variable {σ α β : Type}

abbrev IdleOptions (options : ApplyOptions σ) : Prop := KeepingOptions Idle options

/-- Every memoised binding is the newest cell of its entry. -/
def Current (state : RunState σ) (env : Environment σ) : Prop :=
  CurrentBelow state.emitted state env

theorem Current.grown {before after : RunState σ} {env : Environment σ}
    (current : Current before env) (grown : Grown before.emitted before after) :
    Current after env :=
  (CurrentBelow.grown current grown).raise grown.emitted

theorem Current.same {before after : RunState σ} {env : Environment σ}
    (current : Current before env)
    (same : after.cells = before.cells ∧ after.emitted = before.emitted) :
    Current after env := fun key cell isBound => by
  obtain ⟨entry, ⟨early, later, isSplit, atCell, others⟩, below⟩ := current key cell isBound
  have sameEntries : cellEntries after = cellEntries before := congrArg (List.map _) same.1
  exact ⟨entry, ⟨early, later, sameEntries.trans isSplit, atCell, others⟩, same.2 ▸ below⟩

/-- A part that does not touch the cells comes first. -/
theorem Memoizes.skip {floor : Nat} {state : RunState σ} {first : Async σ α}
    {next : α → Async σ β} {post : β → RunState σ → Prop} (idle : Keeps Idle first)
    (continued : ∀ value between, Grown floor state between →
      Memoizes floor between (next value) post) :
    Memoizes floor state (first >>= next) post :=
  .bind (.idle idle) fun value between grown _ => continued value between grown

/-- A part of a computation, started later. -/
theorem Memoizes.later {state between : RunState σ} {computation : Async σ α}
    {post : α → RunState σ → Prop} (grown : Grown state.emitted state between)
    (memoizes : Memoizes between.emitted between computation post) :
    Memoizes state.emitted between computation post :=
  memoizes.lower grown.emitted

/-- A module whose entries are resolved through one cache at a time. -/
structure Memoizing (module : Module σ) : Prop where
  check : ∀ env state, Current state env →
    Memoizes state.emitted state (module.check env) fun _ _ => True
  apply : ∀ options, IdleOptions options → ∀ env state, Current state env →
    Memoizes state.emitted state (module.apply options env) fun result after =>
      Ascending state.emitted (environmentEntries result.metaEntries) after.emitted

theorem memoizing_leaf (leaf : Leaf σ) : Memoizing leaf.toModule where
  check env state current := memoizes_runProgram current _ _
  apply options _ env state current := by
    refine .skip (idle_report fun _ => rfl) fun _ started grown => ?_
    refine .bind (memoizes_runProgram (CurrentBelow.grown current grown) _ _)
      fun result ran further _ => ?_
    refine (memoizes_emitResult result).mono fun own after _ ascending => ?_
    exact ascending.widen (grown.emitted.trans further.emitted) (le_refl _)

/-! ### Signals -/

section Lists

variable {options : ApplyOptions σ} (idle : IdleOptions options)

include idle

theorem memoizes_applySignalMeta {floor : Nat} {state : RunState σ} {env : Environment σ}
    {result : ModuleResult σ} (current : CurrentBelow floor state env)
    (ascending : Ascending floor (environmentEntries result.metaEntries) state.emitted) :
    Memoizes floor state (applySignalMeta env options.onSignalStep result)
      fun next after => Current after next := by
  refine .skip (keeps_assertValidModuleMetaEntries Idle.trail _) fun _ checked grown => ?_
  refine .bind (memoizes_mergeUnlessFailed (current.grown grown)
    (ascending.widen (le_refl _) grown.emitted)) fun next merged _ held => ?_
  have notifies := keeps_notifySignalStep idle (fun _ => idle_report fun _ => rfl)
    ⟨false, false, next, result.metaEntries, result.status⟩
  exact .bind (.idle notifies) fun _ after _ same => .pure (Current.same held.1 same)

theorem memoizes_runOneSignal {signal : Module σ} (memoizing : Memoizing signal)
    {env : Environment σ} {state : RunState σ} (current : Current state env) :
    Memoizes state.emitted state (runOneSignal (signalParameters options) env signal)
      fun step after => Current after step.nextEnvironment := by
  refine .skip (idle_reportBody _) fun _ started grown => ?_
  refine .bind (.later grown (memoizing.apply _ idle.onlyShutdown _ _ (current.grown grown)))
    fun result applied further ascending => ?_
  refine .bind (memoizes_applySignalMeta idle (CurrentBelow.grown current (grown.trans further))
    (ascending.widen grown.emitted (le_refl _))) fun next merged _ nextCurrent => ?_
  have handles : Keeps Idle (handleSignalResult options.signalHooks result) :=
    .bind Idle.trail (idle_reportBody _) fun _ =>
      .bind Idle.trail (keeps_onSignalFinished Idle.trail idle _) fun _ => .pure Idle.trail _
  exact .bind (.idle handles) fun _ after _ same => .pure (nextCurrent.same same)

theorem memoizes_runSignalList {signals : List (Module σ)}
    (memoizing : ∀ signal ∈ signals, Memoizing signal) {env : Environment σ}
    {state : RunState σ} (current : Current state env) : Memoizes state.emitted state
      (runSignalList (signalParameters options) env signals) fun _ _ => True := by
  induction signals generalizing env state with
  | nil => exact .pure trivial
  | cons signal rest ih =>
    refine .skip (keeps_pollOptional Idle.trail idle.shutdownSignal) fun _ polled grown => ?_
    refine .ite (fun _ => .pure trivial) fun _ => ?_
    refine .skip (keeps_onSignalStarted Idle.trail idle) fun _ started further => ?_
    have sinceStart := grown.trans further
    refine .bind (.attempt (.later sinceStart (memoizes_runOneSignal idle
      (memoizing signal List.mem_cons_self) (current.grown sinceStart))))
      fun attempted applied signalGrown next => ?_
    cases attempted with
    | none =>
      have handles : Keeps Idle (handleSignalFailure options.signalHooks) :=
        .bind Idle.trail (idle_reportBody _) fun _ =>
          .bind Idle.trail (keeps_onSignalFinished Idle.trail idle _) fun _ => .pure Idle.trail _
      exact (Memoizes.idle handles).mono fun _ _ _ _ => trivial
    | some step =>
      refine .ite (fun _ => .pure trivial) fun _ => ?_
      exact .later (sinceStart.trans signalGrown)
        (ih (fun own mem => memoizing own (List.mem_cons_of_mem _ mem))
          (next step rfl))

theorem memoizes_runSignalModules {signals : List (Module σ)}
    (memoizing : ∀ signal ∈ signals, Memoizing signal) {env : Environment σ}
    {state : RunState σ} (current : Current state env) : Memoizes state.emitted state
      (runSignalModules (signalParameters options) env signals) fun _ _ => True :=
  .skip (idle_reportBody _) fun _ _ grown =>
    .later grown (memoizes_runSignalList idle memoizing (current.grown grown))

/-! ### Recipes -/

theorem memoizes_applyRecipeChild {child : Module σ} (memoizing : Memoizing child)
    {env : Environment σ} {state : RunState σ} (current : Current state env) :
    Memoizes state.emitted state (applyRecipeChild options child env) fun result after =>
        Ascending state.emitted (environmentEntries result.metaEntries) after.emitted := by
  refine .ite (fun _ => memoizing.apply _ idle _ _ current) fun _ => ?_
  exact .ite (fun _ => memoizing.apply _ idle.child _ _ current)
    fun _ => memoizing.apply _ .absent _ _ current

/-- An environment to go on with, and the entries that were emitted since `floor`. -/
def Emitted (floor : Nat) (state : RunState σ) (env : Environment σ)
    (entries : Option (List (ModuleMetaEntry σ))) : Prop :=
  Current state env ∧ Ascending floor (environmentEntries entries) state.emitted

omit idle in
theorem Emitted.same {floor : Nat} {before after : RunState σ} {env : Environment σ}
    {entries : Option (List (ModuleMetaEntry σ))} (emitted : Emitted floor before env entries)
    (same : after.cells = before.cells ∧ after.emitted = before.emitted) :
    Emitted floor after env entries :=
  ⟨emitted.1.same same, same.2 ▸ emitted.2⟩

def ChildEmitted (floor : Nat) (state : RunState σ) : RecipeChildExecution σ → Prop
  | .failed failedState => Emitted floor state failedState.env failedState.metaEntries
  | .step (.step step) => Emitted floor state step.env step.metaEntries
  | .step _ => True

theorem memoizes_executeOneModule {child : Module σ} (memoizing : Memoizing child)
    {env : Environment σ} {state : RunState σ} (current : Current state env) :
    Memoizes state.emitted state (executeOneModule options child env)
      fun step after => ChildEmitted state.emitted after (.step step) := by
  refine .bind (memoizing.check _ _ current) fun checkResult checked grown _ => ?_
  cases checkResult with
  | ok => exact .pure trivial
  | needsApply =>
    refine .skip (keeps_pollOptional Idle.trail idle.shutdownSignal) fun _ polled further => ?_
    refine .ite (fun _ => .pure trivial) fun _ => ?_
    refine .skip (idle_reportBody _) fun _ started last => ?_
    have sinceStart := (grown.trans further).trans last
    refine .bind (.later sinceStart (memoizes_applyRecipeChild idle memoizing
      (current.grown sinceStart))) fun result applied childGrown ascending => ?_
    have ownAscending := ascending.widen sinceStart.emitted (le_refl _)
    have merges := memoizes_mergeUnlessFailed
      (CurrentBelow.grown current (sinceStart.trans childGrown)) ownAscending
    refine .bind (.bind merges fun next merged _ held => .pure ?_)
      fun step _ _ emitted => .pure emitted
    exact ⟨held.1, held.2 ▸ ownAscending⟩

theorem memoizes_executeRecipeChildStep {child : Module σ} (memoizing : Memoizing child)
    {env : Environment σ} {state : RunState σ} (current : Current state env) :
    Memoizes state.emitted state (executeRecipeChildStep options child env)
      fun execution after => ChildEmitted state.emitted after execution := by
  refine .bind (.attempt (memoizes_executeOneModule idle memoizing current))
    fun attempted applied grown held => ?_
  cases attempted with
  | some step => exact .pure (held step rfl)
  | none =>
    refine .skip (keeps_pollOptional Idle.trail idle.shutdownSignal) fun _ polled further => ?_
    refine .ite (fun _ => .pure trivial) fun _ => ?_
    refine .bind (.idle (idle_reportBody _)) fun _ reported last _ => .pure ?_
    have sinceStart := (grown.trans further).trans last
    exact ⟨current.grown sinceStart, sinceStart.emitted⟩

omit idle in
theorem environmentEntries_passedOn (own : Option (List (ModuleMetaEntry σ))) (preserve : Bool)
    (entries : Option (List (ModuleMetaEntry σ))) : environmentEntries
        (some (own.getD [] ++ (entries.map (passedOnEntries preserve)).getD [])) =
      environmentEntries own ++ environmentEntries entries := by
  have kept (list : List (ModuleMetaEntry σ)) :
      environmentEntries (some (list.filter isEnvironmentMetaEntry)) =
        environmentEntries (some list) := by
    unfold environmentEntries
    induction list with
    | nil => rfl
    | cons entry rest ih =>
      cases entry with
      | env entry => exact congrArg (entry :: ·) ih
      | control entry => exact ih
  have appended (list : List (ModuleMetaEntry σ)) :
      environmentEntries (some (own.getD [] ++ list)) =
        environmentEntries own ++ environmentEntries (some list) := List.filterMap_append
  rw [appended]
  cases entries with
  | none => rfl
  | some list =>
    cases preserve with
    | true => rfl
    | false => exact congrArg _ (kept list)

section Recipe

variable {signals : Option (List (Module σ))}
  (memoizingSignals : ∀ list, signals = some list → ∀ signal ∈ list, Memoizing signal)

include memoizingSignals

theorem memoizes_flushRecipeSignals (step : OrchestrationStep σ) {recipeState : RecipeState σ}
    {floor : Nat} {state : RunState σ}
    (emitted : Emitted floor state recipeState.env recipeState.metaEntries) :
    Memoizes state.emitted state (flushRecipeSignals options signals step recipeState)
      fun flushed after => Emitted floor after flushed.env flushed.metaEntries := by
  unfold flushRecipeSignals
  cases signals with
  | none => exact .pure emitted
  | some list =>
    refine .ite (fun _ => ?_) fun _ => .pure emitted
    refine .bind (memoizes_runSignalModules idle (memoizingSignals list rfl) emitted.1)
      fun status after grown _ => .pure ?_
    exact ⟨emitted.1.grown grown, emitted.2.widen (le_refl _) grown.emitted⟩

theorem memoizes_processRecipeStep {recipeState : RecipeState σ} {floor : Nat}
    {start state : RunState σ}
    (emitted : Emitted floor start recipeState.env recipeState.metaEntries)
    (grown : Grown start.emitted start state) {execution : RecipeChildExecution σ}
    (child : ChildEmitted start.emitted state execution) :
    Memoizes state.emitted state (processRecipeStep options signals recipeState execution)
      fun processed after => Emitted floor after processed.state.env processed.state.metaEntries := by
  have unchanged : Emitted floor state recipeState.env recipeState.metaEntries :=
    ⟨emitted.1.grown grown, emitted.2.widen (le_refl _) grown.emitted⟩
  rcases execution with failedState | _ | _ | step
  · exact .pure ⟨child.1, child.2.widen emitted.2.le (le_refl _)⟩
  · refine .pure ?_
    rw [stopAfter_state]
    exact unchanged
  · exact .pure unchanged
  · refine .bind (.idle (keeps_callHook Idle.trail idle.onChildStep step)) fun _ hooked first same => ?_
    refine .bind (.idle (idle_reportBody _)) fun _ reported second sameAgain => ?_
    have next : Emitted floor reported step.env
        (applyRecipeStepToState recipeState step options.onChildStep.isNone).metaEntries := by
      have stepEmitted := (Emitted.same child same).same sameAgain
      refine ⟨stepEmitted.1, ?_⟩
      change Ascending floor (environmentEntries (some (recipeState.metaEntries.getD [] ++ _))) _
      rw [environmentEntries_passedOn]
      exact emitted.2.append stepEmitted.2
    refine .bind (.later (first.trans second)
      (memoizes_flushRecipeSignals idle memoizingSignals step next))
      fun flushed after _ held => .pure ?_
    rw [stopAfter_state]
    exact held

theorem memoizes_executeModules {modules : List (Module σ)}
    (memoizing : ∀ child ∈ modules, Memoizing child) {recipeState : RecipeState σ} {floor : Nat}
    {state : RunState σ} (emitted : Emitted floor state recipeState.env recipeState.metaEntries) :
    Memoizes state.emitted state (executeModules options signals recipeState modules)
      fun final after => Emitted floor after final.env final.metaEntries := by
  induction modules generalizing recipeState state with
  | nil => exact .pure emitted
  | cons child rest ih =>
    refine .bind (.idle (keeps_pollOptional Idle.trail idle.shutdownSignal))
      fun _ polled grown same => ?_
    have started := emitted.same same
    refine .ite (fun _ => .pure started) fun _ => ?_
    refine .bind (.later grown (memoizes_executeRecipeChildStep idle
      (memoizing child List.mem_cons_self) started.1)) fun execution applied further held => ?_
    have childGrown : Grown polled.emitted polled applied := by
      rw [same.2]
      exact further
    refine .bind (.later (grown.trans further)
      (memoizes_processRecipeStep idle memoizingSignals started childGrown held))
      fun processed after last ended => ?_
    cases processed with
    | stop final => exact .pure ended
    | proceed next =>
      exact .later ((grown.trans further).trans last)
        (ih (fun own mem => memoizing own (List.mem_cons_of_mem _ mem)) ended)

theorem memoizes_runRecipeSignalsAtEnd {recipeState : RecipeState σ} {state : RunState σ}
    (current : Current state recipeState.env) :
    Memoizes state.emitted state (runRecipeSignalsAtEnd options signals recipeState)
      fun _ _ => True := by
  unfold runRecipeSignalsAtEnd
  cases signals with
  | none => exact .pure trivial
  | some list =>
    refine .ite (fun _ => ?_) fun _ => .pure trivial
    exact .bind (memoizes_runSignalModules idle (memoizingSignals list rfl) current)
      fun _ _ _ _ => .pure trivial

end Recipe

end Lists

theorem Memoizes.scoped {floor : Nat} {state : RunState σ} {scopedOperation : Async σ α}
    {post : α → RunState σ → Prop}
    (memoizes : Memoizes floor { state with recipeOutputDepth := state.recipeOutputDepth + 1 }
      scopedOperation fun value after =>
        post value { after with recipeOutputDepth := after.recipeOutputDepth - 1 }) :
    Memoizes floor state (withRecipeOutputScope scopedOperation) post := fun numbered =>
  after_withRecipeOutputScope ((memoizes numbered).mono fun _ _ _ held =>
    ⟨⟨held.1.added, held.1.emitted, held.1.numbered⟩, held.2.1, held.2.2⟩)

theorem memoizing_recipe (shutdownRequested : σ → Bool) {modules : List (Module σ)}
    {signals : Option (List (Module σ))} (memoizing : ∀ child ∈ modules, Memoizing child)
    (memoizingSignals : ∀ list, signals = some list → ∀ signal ∈ list, Memoizing signal) :
    Memoizing (recipe shutdownRequested modules signals) where
  check env state current := by
    change Memoizes state.emitted state (checkRecipe shutdownRequested env modules) _
    induction modules generalizing state with
    | nil => exact .pure trivial
    | cons child rest ih =>
      refine .skip (.get Idle.trail) fun own between grown => ?_
      refine .ite (fun _ => .pure trivial) fun _ => ?_
      refine .bind (.later grown ((memoizing child List.mem_cons_self).check _ _
        (current.grown grown))) fun result checked further _ => ?_
      cases result with
      | needsApply => exact .pure trivial
      | ok =>
        exact .later (grown.trans further)
          (ih (fun own mem => memoizing own (List.mem_cons_of_mem _ mem)) _
            (current.grown (grown.trans further)))
  apply options idle env state current := by
    refine .scoped ?_
    have nothingYet : Emitted state.emitted
        { state with recipeOutputDepth := state.recipeOutputDepth + 1 }
        (initialRecipeState env).env (initialRecipeState env).metaEntries :=
      ⟨current, le_refl _⟩
    refine .bind (memoizes_executeModules idle memoizingSignals memoizing nothingYet)
      fun final applied grown emitted => ?_
    refine .bind ((memoizes_runRecipeSignalsAtEnd idle memoizingSignals emitted.1).lower
      grown.emitted) fun status after further _ => .pure ?_
    exact emitted.2.widen (le_refl _) further.emitted

/-! ### `when` blocks -/

section Conditional

variable {options : ApplyOptions σ} (idle : IdleOptions options)

include idle

def ConditionalEmitted (floor : Nat) (state : RunState σ) : ConditionalApplyStepResult σ → Prop
  | .failed result => Ascending floor (environmentEntries result.metaEntries) state.emitted
  | .stop own => Emitted floor state own.environment (some own.metaEntries)
  | .proceed own => Emitted floor state own.environment (some own.metaEntries)

theorem memoizes_executeConditionalApply {child : Module σ} (memoizing : Memoizing child)
    {env : Environment σ} {state : RunState σ} (current : Current state env) :
    Memoizes state.emitted state (executeConditionalApply options child env) fun result after =>
        Ascending state.emitted (environmentEntries result.metaEntries) after.emitted :=
  .ite (fun _ => memoizing.apply _ (idle.conditional Idle.trail) _ _ current)
    fun _ => memoizing.apply _ .absent _ _ current

theorem memoizes_processConditionalApplyResult {own : ConditionalApplyState σ} {floor : Nat}
    {start state : RunState σ} (emitted : Emitted floor start own.environment (some own.metaEntries))
    (grown : Grown start.emitted start state) {result : ModuleResult σ}
    (ascending : Ascending start.emitted (environmentEntries result.metaEntries) state.emitted) :
    Memoizes start.emitted state (processConditionalApplyResult options own result)
      fun next after => Emitted floor after next.environment (some next.metaEntries) := by
  have merges := memoizes_mergeEnvironmentFromMeta (CurrentBelow.grown emitted.1 grown) ascending
  refine .bind (.bind merges fun merged after _ held => .pure ?_) fun next between _ nextEmitted =>
    .bind (.idle (keeps_callHook Idle.trail idle.onChildStep _)) fun _ after _ same =>
      .pure (Emitted.same nextEmitted same)
  refine ⟨held.1, ?_⟩
  change Ascending floor (environmentEntries (some ((some own.metaEntries).getD [] ++ _))) _
  rw [environmentEntries_passedOn, held.2]
  exact emitted.2.append ascending

theorem memoizes_applyConditionalModuleStep {child : Module σ} (memoizing : Memoizing child)
    {own : ConditionalApplyState σ} {floor : Nat} {state : RunState σ}
    (emitted : Emitted floor state own.environment (some own.metaEntries)) :
    Memoizes state.emitted state (applyConditionalModuleStep options own child)
      fun step after => ConditionalEmitted floor after step := by
  have kept {after : RunState σ} (grown : Grown state.emitted state after) :
      Emitted floor after own.environment (some own.metaEntries) :=
    ⟨emitted.1.grown grown, emitted.2.widen (le_refl _) grown.emitted⟩
  refine .skip (keeps_pollOptional Idle.trail idle.shutdownSignal) fun _ polled first => ?_
  refine .ite (fun _ => .pure (kept first)) fun _ => ?_
  refine .bind (.later first (memoizing.check _ _ (kept first).1)) fun checkResult checked second _ => ?_
  have sinceStart := first.trans second
  cases checkResult with
  | ok => exact .pure (kept sinceStart)
  | needsApply =>
    refine .skip (keeps_pollOptional Idle.trail idle.shutdownSignal) fun _ again third => ?_
    have beforeApply := sinceStart.trans third
    refine .ite (fun _ => .pure (kept beforeApply)) fun _ => ?_
    refine .bind (.later beforeApply
      (memoizes_executeConditionalApply idle memoizing (kept beforeApply).1))
      fun result applied fourth ascending => ?_
    have ownAscending := ascending.widen beforeApply.emitted (le_refl _)
    refine .ite (fun _ => .pure (ownAscending.widen emitted.2.le (le_refl _))) fun _ => ?_
    refine .bind (memoizes_processConditionalApplyResult idle emitted
      (beforeApply.trans fourth) ownAscending) fun next after _ nextEmitted => .pure ?_
    split
    · exact nextEmitted
    · exact nextEmitted

theorem memoizes_runConditionalModuleLoop {modules : List (Module σ)}
    (memoizing : ∀ child ∈ modules, Memoizing child) {own : ConditionalApplyState σ} {floor : Nat}
    {state : RunState σ} (emitted : Emitted floor state own.environment (some own.metaEntries)) :
    Memoizes state.emitted state (runConditionalModuleLoop options own modules)
      fun result after => Ascending floor (environmentEntries result.metaEntries) after.emitted := by
  have ended {final : ConditionalApplyState σ} {after : RunState σ}
      (held : Emitted floor after final.environment (some final.metaEntries)) :
      Ascending floor (environmentEntries (conditionalResult final).metaEntries) after.emitted := by
    rcases final with ⟨env, flushSignals, entries, status, stopRun⟩
    cases entries with
    | nil => exact held.2
    | cons entry rest => exact held.2
  induction modules generalizing own state with
  | nil => exact .pure (ended emitted)
  | cons child rest ih =>
    refine .bind (memoizes_applyConditionalModuleStep idle
      (memoizing child List.mem_cons_self) emitted) fun step after grown held => ?_
    cases step with
    | failed result => exact .pure held
    | stop final => exact .pure (ended held)
    | proceed next =>
      exact .later grown
        (ih (fun own mem => memoizing own (List.mem_cons_of_mem _ mem)) held)

end Conditional

theorem memoizes_checkConditionalModules {modules : List (Module σ)}
    (memoizing : ∀ child ∈ modules, Memoizing child) {env : Environment σ}
    {state : RunState σ} (current : Current state env) :
    Memoizes state.emitted state (checkConditionalModules env modules)
      fun _ _ => True := by
  induction modules generalizing state with
  | nil => exact .pure trivial
  | cons child rest ih =>
    refine .bind ((memoizing child List.mem_cons_self).check _ _ current)
      fun result checked grown _ => ?_
    cases result with
    | needsApply => exact .pure trivial
    | ok =>
      exact .later grown
        (ih (fun own mem => memoizing own (List.mem_cons_of_mem _ mem))
          (current.grown grown))

theorem memoizing_conditional (block : Nat) (condition : Program σ Bool) {modules : List (Module σ)}
    (memoizing : ∀ child ∈ modules, Memoizing child) :
    Memoizing (createConditionalModule block condition modules) where
  check env state current := by
    refine .bind (.bind (memoizes_runProgram current .check condition) fun holds _ _ _ =>
      .skip (idle_modify (fun _ => rfl) fun _ => rfl) fun _ _ _ => .pure trivial)
      fun holds guarded grown (_ : True) => ?_
    exact .ite (fun _ => .later grown
      (memoizes_checkConditionalModules memoizing (current.grown grown))) fun _ => .pure trivial
  apply options idle env state current := by
    have reads : Memoizes state.emitted state
        (readConditionForApply block condition env) fun _ _ => True := by
      refine .skip (.get Idle.trail) fun own between grown => ?_
      cases own.checkedCondition block with
      | some result => exact .pure trivial
      | none => exact memoizes_runProgram (CurrentBelow.grown current grown) _ _
    refine .bind reads fun holds guarded grown _ => ?_
    refine .ite (fun _ => ?_) fun _ => .pure grown.emitted
    refine .scoped ?_
    have nothingYet : Emitted state.emitted
        { guarded with recipeOutputDepth := guarded.recipeOutputDepth + 1 }
        (createConditionalApplyState env).environment
        (some (createConditionalApplyState env).metaEntries) :=
      ⟨(current.grown grown).same ⟨rfl, rfl⟩, grown.emitted⟩
    exact (memoizes_runConditionalModuleLoop idle memoizing nothingYet).lower grown.emitted

theorem Built.memoizing {host : Host σ} {module : Module σ} (built : Built host module) :
    Memoizing module := by
  induction built with
  | leaf leaf => exact memoizing_leaf leaf
  | recipe _ _ childrenMemoizing signalsMemoizing =>
    exact memoizing_recipe _ childrenMemoizing signalsMemoizing
  | conditional block condition _ childrenMemoizing =>
    exact memoizing_conditional block condition childrenMemoizing

/-! ### The run -/

section Run

variable (host : Host σ)

theorem idle_shutdownSignal : Keeps Idle (shutdownSignal host) :=
  keeps_shutdownSignal Idle.trail host (idle_report fun _ => rfl)

theorem idle_applyRunnerControlPlaneMeta (entries : Option (List (ModuleMetaEntry σ)))
    (status : ModuleStatus) : Keeps Idle (applyRunnerControlPlaneMeta host entries status) :=
  keeps_applyRunnerControlPlaneMeta Idle.trail host idle_world
    (fun _ => idle_report fun _ => rfl) entries status

theorem idle_recipeOptions : IdleOptions (recipeOptions host) :=
  keepingOptions_recipeOptions Idle.trail host idle_world (fun _ => ⟨rfl, rfl, nofun⟩)
    (fun _ => idle_report fun _ => rfl) (idle_report fun _ => rfl)

theorem memoizes_handleMetaAndBuildResult {floor : Nat} {state : RunState σ}
    {env : Environment σ} {result : ModuleResult σ} (current : CurrentBelow floor state env)
    (ascending : Ascending floor (environmentEntries result.metaEntries) state.emitted) :
    Memoizes floor state (handleMetaAndBuildResult host env result)
      fun own after => Current after own.env := by
  refine .bind (memoizes_mergeEnvironmentFromMeta current ascending) fun next merged _ held => ?_
  exact .bind (.idle (idle_applyRunnerControlPlaneMeta host _ _)) fun _ after _ same =>
    .pure (Current.same held.1 same)

theorem memoizes_checkAndApplyRecipe {target : Module σ} (memoizing : Memoizing target)
    {env : Environment σ} {state : RunState σ} (current : Current state env) :
    Memoizes state.emitted state (checkAndApplyRecipe host env target)
      fun result after => Current after result.env := by
  refine .bind (memoizing.check _ _ current) fun checkResult checked first _ => ?_
  cases checkResult with
  | ok => exact .pure (current.grown first)
  | needsApply =>
    refine .skip (idle_reportBody _) fun _ started second => ?_
    have sinceStart := first.trans second
    refine .bind (.later sinceStart (memoizing.apply _ (idle_recipeOptions host) _ _
      (current.grown sinceStart))) fun result applied third ascending => ?_
    exact memoizes_handleMetaAndBuildResult host
      (CurrentBelow.grown current (sinceStart.trans third))
      (ascending.widen sinceStart.emitted (le_refl _))

theorem memoizes_checkAndApplyModule {target : Module σ} (memoizing : Memoizing target)
    {env : Environment σ} {state : RunState σ} (current : Current state env) :
    Memoizes state.emitted state (checkAndApplyModule host env target)
      fun result after => Current after result.env := by
  refine .bind (memoizing.check _ _ current) fun checkResult checked first _ => ?_
  cases checkResult with
  | ok => exact .pure (current.grown first)
  | needsApply =>
    refine .skip (idle_shutdownSignal host) fun _ polled second => ?_
    refine .ite (fun _ => .pure (current.grown (first.trans second))) fun _ => ?_
    refine .skip (idle_reportBody _) fun _ started third => ?_
    have sinceStart := (first.trans second).trans third
    have applies : Memoizes started.emitted started (executeModuleForApply host env target)
        fun result after =>
          Ascending started.emitted (environmentEntries result.metaEntries) after.emitted :=
      .ite (fun _ => memoizing.apply _ (idle_recipeOptions host).child _ _
        (current.grown sinceStart)) fun _ =>
          memoizing.apply _ .absent _ _ (current.grown sinceStart)
    refine .bind (.later sinceStart applies) fun result applied fourth ascending => ?_
    exact memoizes_handleMetaAndBuildResult host
      (CurrentBelow.grown current (sinceStart.trans fourth))
      (ascending.widen sinceStart.emitted (le_refl _))

theorem memoizes_createModuleStepPromise {target : Module σ} (memoizing : Memoizing target)
    {env : Environment σ} {state : RunState σ} (current : Current state env) :
    Memoizes state.emitted state (createModuleStepPromise host env target)
      fun result after => Current after result.env := by
  have caught {attempt : Async σ (StepResult σ)}
      (memoizes : Memoizes state.emitted state attempt
        fun result after => Current after result.env) :
      Memoizes state.emitted state (Effect.attempt attempt >>= fun attempted =>
        attempted.elim (handleCaughtStepError host env) pure)
      fun result after => Current after result.env := by
    refine .bind (.attempt memoizes) fun attempted applied first held => ?_
    cases attempted with
    | some result => exact .pure (held result rfl)
    | none =>
      refine .skip (idle_shutdownSignal host) fun interrupted polled second => .pure ?_
      have kept := current.grown (first.trans second)
      split
      · exact kept
      · exact kept
  have ofRecipe := caught (memoizes_checkAndApplyRecipe host memoizing current)
  have ofModule := caught (memoizes_checkAndApplyModule host memoizing current)
  rw [← runRecipeModule_eq] at ofRecipe
  rw [← runRegularModule_eq] at ofModule
  exact .ite (fun _ => ofRecipe) fun _ => ofModule

variable {signals : Option (List (Module σ))}
  (memoizingSignals : ∀ list, signals = some list → ∀ signal ∈ list, Memoizing signal)

include memoizingSignals

theorem memoizes_runSignals {env : Environment σ} {list : List (Module σ)}
    (given : signals = some list) {state : RunState σ} (current : Current state env) :
    Memoizes state.emitted state (runSignals host env list) fun _ _ => True :=
  memoizes_runSignalModules (idle_recipeOptions host) (memoizingSignals list given) current

theorem memoizes_flushTopLevelSignals (result : StepResult σ) {loopState : ModuleLoopState σ}
    {state : RunState σ} (current : Current state loopState.currentEnvironment) :
    Memoizes state.emitted state (flushTopLevelSignalsIfRequested host signals result loopState)
      fun _ _ => True := by
  have asks : Keeps Idle (shouldFlushTopLevelSignals host result loopState) :=
    .ite (fun _ => .bind Idle.trail (idle_shutdownSignal host) fun _ =>
      .bind Idle.trail (.get Idle.trail) fun _ => .pure Idle.trail _) fun _ => .pure Idle.trail _
  refine .skip asks fun flush asked grown => ?_
  cases signals with
  | none => exact .pure trivial
  | some list =>
    refine .ite (fun _ => ?_) fun _ => .pure trivial
    exact .bind (.later grown (memoizes_runSignals host memoizingSignals rfl (current.grown grown)))
      fun _ _ _ _ => .pure trivial

theorem memoizes_runModuleLoop {modules : List (Module σ)}
    (memoizing : ∀ child ∈ modules, Memoizing child) {loopState : ModuleLoopState σ}
    {state : RunState σ} (current : Current state loopState.currentEnvironment) :
    Memoizes state.emitted state (runModuleLoop host signals loopState modules)
      fun final after => Current after final.currentEnvironment := by
  induction modules generalizing loopState state with
  | nil => exact .pure current
  | cons child rest ih =>
    refine .skip (idle_shutdownSignal host) fun _ polled first => ?_
    refine .ite (fun _ => .pure (current.grown first)) fun _ => ?_
    refine .bind (.later first (memoizes_createModuleStepPromise host
      (memoizing child List.mem_cons_self) (current.grown first)))
      fun result applied second stepCurrent => ?_
    have counts : Keeps Idle (countStep result) := by
      unfold countStep
      cases result.status with
      | none => exact .pure Idle.trail _
      | some status =>
        exact .bind Idle.trail (keeps_updateStats Idle.trail (fun _ => ⟨rfl, rfl, nofun⟩) status)
          fun _ => idle_reportBody _
    refine .bind (.idle counts) fun _ counted third same => ?_
    have countedCurrent := Current.same stepCurrent same
    have sinceStart := (first.trans second).trans third
    refine .bind (.later sinceStart ((memoizes_flushTopLevelSignals host memoizingSignals result
      countedCurrent).mono fun _ _ grown _ => Current.grown countedCurrent grown))
      fun flushResult flushed fourth nextCurrent => ?_
    refine .ite (fun _ => .pure nextCurrent) fun _ => ?_
    exact .later (sinceStart.trans fourth)
      (ih (fun own mem => memoizing own (List.mem_cons_of_mem _ mem)) nextCurrent)

theorem memoizes_executeRun {modules : List (Module σ)}
    (memoizing : ∀ child ∈ modules, Memoizing child) {env : Environment σ}
    {state : RunState σ} (current : Current state env) :
    Memoizes state.emitted state (executeRun host modules signals env)
      fun _ _ => True := by
  refine .bind (memoizes_runModuleLoop host memoizingSignals memoizing current)
    fun loopResult looped first loopCurrent => ?_
  refine .bind (.lower ?_ first.emitted) fun _ _ _ (_ : True) => .pure trivial
  refine .skip (idle_shutdownSignal host) fun _ polled second => ?_
  refine .skip (.get Idle.trail) fun own got third => ?_
  have sinceLoop := second.trans third
  cases signals with
  | none => exact .pure trivial
  | some list =>
    refine .ite (fun _ => ?_) fun _ => .pure trivial
    exact .bind (.later sinceLoop (memoizes_runSignals host memoizingSignals rfl
      (loopCurrent.grown sinceLoop))) fun _ _ _ _ => .pure trivial

end Run

/-! ### Resolved once -/

/-- In a run that starts without memoised values, an emitted entry is resolved once
exactly if no reader succeeds after an enclosing level merged the entry again that had
been read before. -/
theorem resolved_once_iff (host : Host σ) {modules : List (Module σ)}
    {signals : Option (List (Module σ))} (modulesBuilt : ∀ child ∈ modules, Built host child)
    (signalsBuilt : ∀ list, signals = some list → ∀ signal ∈ list, Built host signal)
    {env : Environment σ} {state : RunState σ} (noCells : state.cells = [])
    (unmemoized : ∀ key cell, env key ≠ some (.memoized cell)) (entry : Nat) :
    ResolvedOnce (memoEvents entry ((executeRun host modules signals env).run state).events) ↔
      NeverReread
        (memoEvents entry ((executeRun host modules signals env).run state).events) := by
  have numbered : Numbered state := by
    rw [Numbered, cellEntries, noCells]
    exact fun own mem => absurd mem List.not_mem_nil
  have current : Current state env := fun key cell isBound =>
    absurd isBound (unmemoized key cell)
  have memoizing := memoizes_executeRun host
    (fun list given signal mem => (signalsBuilt list given signal mem).memoizing)
    (fun child mem => (modulesBuilt child mem).memoizing) current
  obtain ⟨-, traced, -⟩ := memoizing numbered
  obtain ⟨accepted, ends⟩ := traced entry
  have empty : memoState state entry = .empty := by
    rw [memoState, noCells]
    rfl
  rw [empty] at accepted ends
  refine resolvedOnce_iff accepted ?_
  rw [ends]
  exact MemoState.settled_ofCache _

/-! ### A provider whose answers change -/

/-- A host whose world counts the calls of a provider -/
def countingHost : Host Nat where
  addPort _ world := (true, world)
  removePort _ world := world
  connectedPort _ := 22
  reconnect _ world := (true, world)
  updateHost _ world := world
  sleep world := world
  shutdownRequested _ := false

def tokenKey : Name := "token".toList

/-- An entry whose provider answers with the number of calls before -/
def tokenEntry : EnvironmentMetaEntry Nat where
  name := tokenKey
  perAccess := false
  resolve calls := (some (.number calls), calls + 1)
  valueType := .number
  valueTypeExplicit := none
  identity := 0

def okResult (entries : List (ModuleMetaEntry Nat)) : ModuleResult Nat where
  flushSignals := false
  stopRun := false
  metaEntries := some entries
  status := .ok

def emittingLeaf : Leaf Nat where
  name := 0
  check := .finish (some .needsApply)
  apply := .finish (some (okResult [.env tokenEntry]))

def readingLeaf (name : Nat) : Leaf Nat where
  name := name
  check := .finish (some .needsApply)
  apply := .resolve tokenKey fun _ => .finish (some (okResult []))

def countingState : RunState Nat where
  world := 0
  cells := []
  emitted := 0
  checkedCondition := fun _ => none
  recipeOutputDepth := 0
  failed := 0

def tokenRun (modules : List (Module Nat)) :
    Outcome (Event Nat) (RunState Nat) (ModuleLoopState Nat) :=
  (executeRun countingHost modules none fun _ => none).run countingState

/-- The entry is emitted and read inside one recipe. -/
def insideReaders : List (Module Nat) :=
  [recipe countingHost.shutdownRequested
    [emittingLeaf.toModule, (readingLeaf 1).toModule, (readingLeaf 2).toModule] none]

/-- One reader stands inside the recipe of the leaf, the other one behind it. -/
def splitReaders : List (Module Nat) :=
  [recipe countingHost.shutdownRequested [emittingLeaf.toModule, (readingLeaf 1).toModule] none,
    (readingLeaf 2).toModule]

theorem insideReaders_built : ∀ child ∈ insideReaders, Built countingHost child :=
  List.forall_mem_singleton.2 <| .recipe
    (List.forall_mem_cons.2 ⟨.leaf _, List.forall_mem_cons.2 ⟨.leaf _,
      List.forall_mem_singleton.2 (.leaf _)⟩⟩) nofun

theorem splitReaders_built : ∀ child ∈ splitReaders, Built countingHost child :=
  List.forall_mem_cons.2 ⟨.recipe (List.forall_mem_cons.2 ⟨.leaf _,
    List.forall_mem_singleton.2 (.leaf _)⟩) nofun, List.forall_mem_singleton.2 (.leaf _)⟩

theorem resolved_once_inside :
    (ResolvedOnce (memoEvents 0 (tokenRun insideReaders).events) ↔
      NeverReread (memoEvents 0 (tokenRun insideReaders).events)) ∧
    readings (memoEvents 0 (tokenRun insideReaders).events) = [.number 0, .number 0] := by
  have sameTwice : readings (memoEvents 0 (tokenRun insideReaders).events) =
      [.number 0, .number 0] := by decide +kernel
  have noSignals : ∀ list : List (Module Nat), none = some list → ∀ signal ∈ list,
      Built countingHost signal := nofun
  refine ⟨resolved_once_iff countingHost insideReaders_built noSignals ?_ ?_ 0, sameTwice⟩
  · rfl
  · nofun

/-- The reader behind the recipe calls the provider again. -/
theorem split_readers_resolve_twice :
    ¬ ∀ (host : Host Nat) (modules : List (Module Nat)) (signals : Option (List (Module Nat))),
      (∀ child ∈ modules, Built host child) →
      (∀ list, signals = some list → ∀ signal ∈ list, Built host signal) →
      ∀ (env : Environment Nat) (state : RunState Nat), state.cells = [] →
      (∀ key cell, env key ≠ some (.memoized cell)) → ∀ entry,
      ResolvedOnce
        (memoEvents entry ((executeRun host modules signals env).run state).events) := by
  intro resolved
  have noSignals : ∀ list : List (Module Nat), none = some list → ∀ signal ∈ list,
      Built countingHost signal := nofun
  have once := resolved countingHost splitReaders none splitReaders_built noSignals
    (fun _ => none) countingState rfl nofun 0
  have twice : resolutions (memoEvents 0 (tokenRun splitReaders).events) =
      [.number 0, .number 1] := by decide +kernel
  have count : (resolutions (memoEvents 0 (tokenRun splitReaders).events)).length ≤ 1 := once.1
  rw [twice] at count
  exact absurd count (by decide)

end Paratix.Orchestration
