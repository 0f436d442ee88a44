/-
Module: Paratix.Orchestration.Rows
Purpose: What the parts of a run leave alone, and what one list of steps reports at its depth.
Main exports: Built.framed, reports_runSignalModules
-/
import Paratix.Orchestration.Runner
import Paratix.Foundation.Memo

namespace Paratix.Orchestration

open Foundation Foundation.Effect

variable {σ α : Type}

/-! ### Reading and merging -/

/-- Events of reading and merging the environment. -/
def Event.Plain : Event σ → Prop
  | .called .. => True
  | .read .. => True
  | .merged _ => True
  | _ => False

/-- Only plain events, and neither the depth nor the failures change. -/
def Plain (before : RunState σ) (events : List (Event σ)) (after : RunState σ) : Prop :=
  after.recipeOutputDepth = before.recipeOutputDepth ∧ after.failed = before.failed ∧
    ∀ event ∈ events, event.Plain

theorem Plain.trail : Trail (Plain (σ := σ)) where
  refl _ := ⟨rfl, rfl, fun _ mem => absurd mem List.not_mem_nil⟩
  trans start continued :=
    ⟨continued.1.trans start.1, continued.2.1.trans start.2.1, fun event mem =>
      (List.mem_append.1 mem).elim (start.2.2 event) (continued.2.2 event)⟩

theorem plain_report {event : Event σ} (plain : event.Plain) : Keeps Plain (Effect.report event) :=
  .report fun _ => ⟨rfl, rfl, fun _ mem => List.mem_singleton.1 mem ▸ plain⟩

theorem plain_modify {change : RunState σ → RunState σ}
    (depth : ∀ state, (change state).recipeOutputDepth = state.recipeOutputDepth)
    (failed : ∀ state, (change state).failed = state.failed) : Keeps Plain (Effect.modify change) :=
  .modify fun state => ⟨depth state, failed state, fun _ mem => absurd mem List.not_mem_nil⟩

theorem plain_callProvider (phase : Phase) (entry : Option Nat) (accepts : Scalar → Bool)
    (provider : Provider σ) : Keeps Plain (callProvider phase entry accepts provider) :=
  .bind Plain.trail (.get Plain.trail) fun _ =>
    .bind Plain.trail (plain_modify (fun _ => rfl) fun _ => rfl) fun _ =>
      .bind Plain.trail (plain_report trivial) fun _ => .rethrow Plain.trail _

theorem plain_resolveMemoized (phase : Phase) (cell : Nat) :
    Keeps Plain (resolveMemoized (σ := σ) phase cell) := by
  refine .bind Plain.trail (.get Plain.trail) fun state => ?_
  cases state.cells[cell]? with
  | none => exact .throw Plain.trail
  | some memo =>
    cases cached : memo.cachedResolution with
    | some value => simpa only [cached] using .pure Plain.trail value
    | none =>
      simp only [cached]
      exact .bind Plain.trail (plain_callProvider _ _ _ _) fun value =>
        .bind Plain.trail (plain_modify (fun _ => rfl) fun _ => rfl) fun _ => .pure Plain.trail _

theorem plain_resolveEnvironmentValue (phase : Phase) (value : EnvironmentValue σ) :
    Keeps Plain (resolveEnvironmentValue phase value) := by
  cases value with
  | scalar value => exact .pure Plain.trail value
  | provider resolve => exact plain_callProvider _ _ _ _
  | memoized cell => exact plain_resolveMemoized phase cell
  | perAccess entry => exact plain_callProvider _ _ _ _

theorem plain_readEnvironment (phase : Phase) (env : Environment σ) (key : Name) :
    Keeps Plain (readEnvironment phase env key) := by
  unfold readEnvironment
  cases env key with
  | none => exact .bind Plain.trail (plain_report trivial) fun _ => .pure Plain.trail _
  | some value =>
    exact .bind Plain.trail (.get Plain.trail) fun state =>
      .bind Plain.trail (.attempt (plain_resolveEnvironmentValue phase value)) fun answer =>
        .bind Plain.trail (plain_report trivial) fun _ => .pure Plain.trail _

theorem plain_runProgram (phase : Phase) (env : Environment σ) (program : Program σ α) :
    Keeps Plain (runProgram phase env program) := by
  induction program with
  | finish result => exact .rethrow Plain.trail result
  | perform action next ih =>
    exact .bind Plain.trail (.get Plain.trail) fun state =>
      .bind Plain.trail (plain_modify (fun _ => rfl) fun _ => rfl) fun _ =>
        ih _
  | resolve key next ih =>
    exact .bind Plain.trail (plain_readEnvironment phase env key) fun outcome =>
      ih outcome

theorem plain_mergeEnvironmentEntry (env : Environment σ)
    (entry : EnvironmentMetaEntry σ) : Keeps Plain (mergeEnvironmentEntry env entry) := by
  refine .bind Plain.trail ?_ fun _ => ?_
  · exact .ite (fun _ => .pure Plain.trail _) fun _ => .throw Plain.trail
  · refine .ite (fun _ => .pure Plain.trail _) fun _ => ?_
    exact .bind Plain.trail (.get Plain.trail) fun _ =>
      .bind Plain.trail (plain_modify (fun _ => rfl) fun _ => rfl) fun _ =>
        .bind Plain.trail (plain_report trivial) fun _ => .pure Plain.trail _

theorem plain_mergeEnvironmentFromMeta (env : Environment σ)
    (entries : Option (List (ModuleMetaEntry σ))) :
    Keeps Plain (mergeEnvironmentFromMeta env entries) := by
  unfold mergeEnvironmentFromMeta
  generalize environmentEntries entries = list
  induction list generalizing env with
  | nil => exact .pure Plain.trail _
  | cons entry rest ih =>
    exact .bind Plain.trail (plain_mergeEnvironmentEntry env entry) fun merged =>
      ih merged

theorem plain_mergeUnlessFailed (env : Environment σ) (result : ModuleResult σ) :
    Keeps Plain (mergeUnlessFailed env result) :=
  .ite (fun _ => .pure Plain.trail _) fun _ => plain_mergeEnvironmentFromMeta _ _

/-! ### Control-plane actions -/

section WorldOnly

variable {relation : RunState σ → List (Event σ) → RunState σ → Prop} (trail : Trail relation)

include trail

theorem keeps_assertValidModuleMetaEntries (entries : Option (List (ModuleMetaEntry σ))) :
    Keeps relation (assertValidModuleMetaEntries entries) := by
  unfold assertValidModuleMetaEntries
  induction entries.getD [] with
  | nil => exact .pure trail _
  | cons entry rest ih =>
    refine .bind trail ?_ fun _ => ih
    rcases entry with entry | port | name | _
    · exact .ite (fun _ => .throw trail) fun _ => .pure trail _
    · exact .ite (fun _ => .pure trail _) fun _ => .throw trail
    · exact .ite (fun _ => .pure trail _) fun _ => .throw trail
    · exact .pure trail _

variable (host : Host σ)
  (world : ∀ (state : RunState σ) (next : σ), relation state [] { state with world := next })

include world

/-- A relation that does not look at the world is kept by what only acts on it. -/
theorem keeps_actOnWorld (action : σ → α × σ) : Keeps relation (actOnWorld action) :=
  .bind trail (.get trail) fun _ =>
    .bind trail (.modify fun state => world state _) fun _ => .pure trail _

theorem keeps_addSshdPorts (ports : List Int) : Keeps relation (addSshdPorts host ports) := by
  induction ports with
  | nil => exact .pure trail _
  | cons port rest ih =>
    exact .bind trail (keeps_actOnWorld trail world _) fun _ =>
      .bind trail ih fun _ => .pure trail _

theorem keeps_removePorts (ports : List Int) : Keeps relation (removePorts host ports) := by
  induction ports with
  | nil => exact .pure trail _
  | cons port rest ih =>
    exact .bind trail (keeps_actOnWorld trail world _) fun _ => ih

theorem keeps_handlePortChange (entries : List ControlPlaneEntry) :
    Keeps relation (handlePortChange host entries) := by
  refine .ite (fun _ => .pure trail _) fun _ => ?_
  refine .bind trail (keeps_addSshdPorts trail host world _) fun addedPorts => ?_
  refine .bind trail (.get trail) fun _ => ?_
  refine .ite (fun _ => .pure trail _) fun _ => ?_
  refine .bind trail (keeps_actOnWorld trail world _) fun _ => ?_
  refine .ite (fun _ => .pure trail _) fun _ => ?_
  refine .bind trail (.get trail) fun _ => ?_
  refine .ite (fun _ => .throw trail) fun _ => ?_
  exact .bind trail (keeps_removePorts trail host world _) fun _ => .throw trail

theorem keeps_handleReboot (entries : List ControlPlaneEntry) :
    Keeps relation (handleReboot host entries) := by
  refine .ite (fun _ => ?_) fun _ => .pure trail _
  refine .bind trail ?_ fun _ => ?_
  · unfold updateReportedHost
    cases (systemHosts entries).head? with
    | none => exact .pure trail _
    | some name => exact keeps_actOnWorld trail world _
  · refine .bind trail (keeps_actOnWorld trail world _) fun _ => ?_
    refine .bind trail (keeps_actOnWorld trail world _) fun _ => ?_
    exact .ite (fun _ => .pure trail _) fun _ => .throw trail

end WorldOnly

theorem plain_world (state : RunState σ) (next : σ) : Plain state [] { state with world := next } :=
  ⟨rfl, rfl, fun _ mem => absurd mem List.not_mem_nil⟩

theorem plain_assertValidModuleMetaEntries (entries : Option (List (ModuleMetaEntry σ))) :
    Keeps Plain (assertValidModuleMetaEntries entries) :=
  keeps_assertValidModuleMetaEntries Plain.trail entries

theorem plain_handlePortChange (host : Host σ) (entries : List ControlPlaneEntry) :
    Keeps Plain (handlePortChange host entries) :=
  keeps_handlePortChange Plain.trail host plain_world entries

theorem plain_handleReboot (host : Host σ) (entries : List ControlPlaneEntry) :
    Keeps Plain (handleReboot host entries) :=
  keeps_handleReboot Plain.trail host plain_world entries

/-! ### Modules inside a list of steps -/

/-- The depth is the same again, no failure was forgotten, and every event of a list
of steps belongs to a list that is at least `shift` levels deeper. -/
def FrameFrom (shift : Nat) (before : RunState σ) (events : List (Event σ))
    (after : RunState σ) : Prop :=
  after.recipeOutputDepth = before.recipeOutputDepth ∧ before.failed ≤ after.failed ∧
    ∀ depth event, Event.body depth event ∈ events → before.recipeOutputDepth + shift ≤ depth

/-- What a list of steps does, its own events included. -/
abbrev Frame (before : RunState σ) (events : List (Event σ)) (after : RunState σ) : Prop :=
  FrameFrom 0 before events after

/-- What a step does inside: only lists below it report events. -/
abbrev InnerFrame (before : RunState σ) (events : List (Event σ)) (after : RunState σ) : Prop :=
  FrameFrom 1 before events after

theorem FrameFrom.trail (shift : Nat) : Trail (FrameFrom (σ := σ) shift) where
  refl _ := ⟨rfl, le_refl _, fun _ _ mem => absurd mem List.not_mem_nil⟩
  trans start continued :=
    ⟨continued.1.trans start.1, start.2.1.trans continued.2.1, fun depth event mem =>
      (List.mem_append.1 mem).elim (start.2.2 depth event) fun later => by
        have deep := continued.2.2 depth event later
        rwa [start.1] at deep⟩

theorem Frame.trail : Trail (Frame (σ := σ)) := FrameFrom.trail 0

theorem InnerFrame.trail : Trail (InnerFrame (σ := σ)) := FrameFrom.trail 1

theorem Plain.inner {before after : RunState σ} {events : List (Event σ)}
    (plain : Plain before events after) : InnerFrame before events after :=
  ⟨plain.1, plain.2.1.ge, fun _ _ mem => (plain.2.2 _ mem).elim⟩

theorem inner_frame {before after : RunState σ} {events : List (Event σ)}
    (inner : InnerFrame before events after) : Frame before events after :=
  ⟨inner.1, inner.2.1, fun depth event mem => Nat.le_of_succ_le (inner.2.2 depth event mem)⟩

theorem inner_of_plain {computation : Async σ α} (plain : Keeps Plain computation) :
    Keeps InnerFrame computation := fun state => (plain state).mono fun _ _ _ => Plain.inner

theorem frame_of_inner {computation : Async σ α} (inner : Keeps InnerFrame computation) :
    Keeps Frame computation := fun state => (inner state).mono fun _ _ _ => inner_frame

theorem inner_report {event : Event σ} (outside : ∀ depth own, event ≠ .body depth own) :
    Keeps InnerFrame (Effect.report event) :=
  .report fun _ => ⟨rfl, le_refl _, fun depth own mem =>
    absurd (List.mem_singleton.1 mem).symm (outside depth own)⟩

theorem frame_reportBody (event : BodyEvent) : Keeps Frame (reportBody (σ := σ) event) := by
  intro state
  refine ⟨rfl, le_refl _, fun depth own mem => ?_⟩
  cases List.mem_singleton.1 mem
  exact le_refl _

/-- What holds after an operation in a scope of its own. -/
theorem after_withRecipeOutputScope {scopedOperation : Async σ α} {state : RunState σ}
    {post : Option α → RunState σ → List (Event σ) → Prop} (inside : scopedOperation.After
      { state with recipeOutputDepth := state.recipeOutputDepth + 1 }
      fun result after events =>
        post result { after with recipeOutputDepth := after.recipeOutputDepth - 1 } events) :
    (withRecipeOutputScope scopedOperation).After state post := by
  unfold After Effect.run at inside ⊢
  rcases ran : scopedOperation
    { state with recipeOutputDepth := state.recipeOutputDepth + 1 } with ⟨value, after, events⟩
  rw [ran] at inside
  cases value with
  | none => simpa [withRecipeOutputScope, Bind.bind, Effect.modify, Effect.attempt, ran,
      Effect.rethrow, Effect.throw] using inside
  | some value => simpa [withRecipeOutputScope, Bind.bind, Effect.modify, Effect.attempt, ran,
      Effect.rethrow, Pure.pure] using inside

/-- A list of steps opens its own output scope. -/
theorem inner_withRecipeOutputScope {scopedOperation : Async σ α}
    (frame : Keeps Frame scopedOperation) :
    Keeps InnerFrame (withRecipeOutputScope scopedOperation) := fun _ =>
  after_withRecipeOutputScope <| (frame _).mono fun _ _ _ inside =>
    ⟨congrArg (· - 1) inside.1, inside.2.1, inside.2.2⟩

/-- Hooks and getters that keep a relation. -/
structure KeepingOptions (relation : RunState σ → List (Event σ) → RunState σ → Prop)
    (options : ApplyOptions σ) : Prop where
  onChildStep : ∀ hook, options.onChildStep = some hook → ∀ step, Keeps relation (hook step)
  onSignalStep : ∀ hook, options.onSignalStep = some hook → ∀ step, Keeps relation (hook step)
  shutdownSignal : ∀ poll, options.shutdownSignal = some poll → Keeps relation poll
  onSignalStarted : ∀ hooks, options.signalHooks = some hooks →
    Keeps relation hooks.onSignalStarted
  onSignalFinished : ∀ hooks, options.signalHooks = some hooks → ∀ status,
    Keeps relation (hooks.onSignalFinished status)

abbrev FramedOptions (options : ApplyOptions σ) : Prop := KeepingOptions InnerFrame options

section Options

variable {relation : RunState σ → List (Event σ) → RunState σ → Prop}

theorem KeepingOptions.absent : KeepingOptions relation ApplyOptions.absent :=
  ⟨nofun, nofun, nofun, nofun, nofun⟩

/-- The options of a signal -/
theorem KeepingOptions.onlyShutdown {options : ApplyOptions σ}
    (keeping : KeepingOptions relation options) : KeepingOptions relation
      { ApplyOptions.absent with shutdownSignal := options.shutdownSignal } :=
  ⟨nofun, nofun, keeping.shutdownSignal, nofun, nofun⟩

/-- The options of a composite child that is not a recipe -/
theorem KeepingOptions.child {options : ApplyOptions σ}
    (keeping : KeepingOptions relation options) : KeepingOptions relation { ApplyOptions.absent with
        onChildStep := options.onChildStep, shutdownSignal := options.shutdownSignal } :=
  ⟨keeping.onChildStep, nofun, keeping.shutdownSignal, nofun, nofun⟩

variable (trail : Trail relation)

include trail

theorem keeps_pollOptional {poll : Option (Async σ Bool)}
    (keeps : ∀ own, poll = some own → Keeps relation own) :
    Keeps relation (pollOptional poll) := by
  cases poll with
  | none => exact .pure trail _
  | some own => exact keeps own rfl

/-- The options of a child of a `when` block -/
theorem KeepingOptions.conditional {options : ApplyOptions σ}
    (keeping : KeepingOptions relation options) : KeepingOptions relation { ApplyOptions.absent with
        onChildStep := options.onChildStep
        shutdownSignal := some (pollOptional options.shutdownSignal) } where
  onChildStep := keeping.onChildStep
  onSignalStep := nofun
  shutdownSignal := by
    rintro poll ⟨⟩
    exact keeps_pollOptional trail keeping.shutdownSignal
  onSignalStarted := nofun
  onSignalFinished := nofun

theorem keeps_callHook {hook : Option (OrchestrationStep σ → Async σ Unit)}
    (keeps : ∀ own, hook = some own → ∀ step, Keeps relation (own step))
    (step : OrchestrationStep σ) : Keeps relation (callHook hook step) := by
  cases hook with
  | none => exact .pure trail _
  | some own => exact keeps own rfl step

variable {options : ApplyOptions σ} (keeping : KeepingOptions relation options)

include keeping

theorem keeps_onSignalStarted : Keeps relation (onSignalStarted options.signalHooks) := by
  unfold onSignalStarted
  split
  · exact .pure trail _
  · exact keeping.onSignalStarted _ ‹_›

theorem keeps_onSignalFinished (status : ModuleStatus) :
    Keeps relation (onSignalFinished options.signalHooks status) := by
  unfold onSignalFinished
  split
  · exact .pure trail _
  · exact keeping.onSignalFinished _ ‹_› status

omit trail in
theorem keeps_notifySignalStep
    (dropped : ∀ entries, Keeps relation (Effect.report (.dropped entries)))
    (step : OrchestrationStep σ) :
    Keeps relation (notifySignalStep options.onSignalStep step) := by
  unfold notifySignalStep
  split
  · exact dropped _
  · exact keeping.onSignalStep _ ‹_› step

end Options

/-- A module whose functions leave the enclosing lists alone; its check only reads. -/
structure Framed (module : Module σ) : Prop where
  check : ∀ env, Keeps Plain (module.check env)
  apply : ∀ options, FramedOptions options → ∀ env,
    Keeps InnerFrame (module.apply options env)

theorem framed_leaf (leaf : Leaf σ) : Framed leaf.toModule where
  check _ := plain_runProgram _ _ _
  apply _ _ _ :=
    .bind InnerFrame.trail (inner_report nofun) fun _ =>
      .bind InnerFrame.trail (inner_of_plain (plain_runProgram _ _ _)) fun _ =>
        .bind InnerFrame.trail (.get InnerFrame.trail) fun _ =>
          .bind InnerFrame.trail
            (inner_of_plain (plain_modify (fun _ => rfl) fun _ => rfl)) fun _ =>
            .bind InnerFrame.trail (inner_report nofun) fun _ => .pure InnerFrame.trail _

/-! ### Signals -/

section Lists

variable {options : ApplyOptions σ} (framed : FramedOptions options)

include framed

theorem inner_applySignalMeta (env : Environment σ) (result : ModuleResult σ) :
    Keeps InnerFrame (applySignalMeta env options.onSignalStep result) := by
  refine .bind InnerFrame.trail
    (inner_of_plain (plain_assertValidModuleMetaEntries _)) fun _ => ?_
  refine .bind InnerFrame.trail (inner_of_plain (plain_mergeUnlessFailed _ _)) fun _ => ?_
  exact .bind InnerFrame.trail
    (keeps_notifySignalStep framed (fun _ => inner_report nofun) _) fun _ =>
    .pure InnerFrame.trail _

/-- The parameters a list of steps hands to its signal pass. -/
def signalParameters (options : ApplyOptions σ) : SignalRunParameters σ where
  hooks := options.signalHooks
  onSignalStep := options.onSignalStep
  shutdownSignal := options.shutdownSignal

theorem frame_runOneSignal (env : Environment σ) {signal : Module σ}
    (signalFramed : Framed signal) :
    Keeps Frame (runOneSignal (signalParameters options) env signal) := by
  refine .bind Frame.trail (frame_reportBody _) fun _ => ?_
  refine .bind Frame.trail (frame_of_inner (signalFramed.apply _ framed.onlyShutdown _))
    fun result => ?_
  refine .bind Frame.trail (frame_of_inner (inner_applySignalMeta framed _ _)) fun next => ?_
  refine .bind Frame.trail ?_ fun _ => .pure Frame.trail _
  exact .bind Frame.trail (frame_reportBody _) fun _ =>
    .bind Frame.trail (frame_of_inner (keeps_onSignalFinished InnerFrame.trail framed _)) fun _ =>
      .pure Frame.trail _

theorem frame_runSignalModules (env : Environment σ) {signals : List (Module σ)}
    (signalsFramed : ∀ signal ∈ signals, Framed signal) :
    Keeps Frame (runSignalModules (signalParameters options) env signals) := by
  refine .bind Frame.trail (frame_reportBody _) fun _ => ?_
  induction signals generalizing env with
  | nil => exact .pure Frame.trail _
  | cons signal rest ih =>
    refine .bind Frame.trail (frame_of_inner (keeps_pollOptional InnerFrame.trail framed.shutdownSignal))
      fun interrupted => ?_
    refine .ite (fun _ => .pure Frame.trail _) fun _ => ?_
    refine .bind Frame.trail (frame_of_inner (keeps_onSignalStarted InnerFrame.trail framed)) fun _ => ?_
    have signalFramed := signalsFramed signal List.mem_cons_self
    refine .bind Frame.trail (.attempt (frame_runOneSignal framed env signalFramed))
      fun attempted => ?_
    cases attempted with
    | none =>
      exact .bind Frame.trail (frame_reportBody _) fun _ =>
        .bind Frame.trail (frame_of_inner (keeps_onSignalFinished InnerFrame.trail framed _)) fun _ =>
          .pure Frame.trail _
    | some step =>
      exact .ite (fun _ => .pure Frame.trail _) fun _ =>
        ih _ fun own mem => signalsFramed own (List.mem_cons_of_mem _ mem)

/-! ### Recipes -/

theorem inner_applyRecipeChild {child : Module σ} (childFramed : Framed child)
    (env : Environment σ) :
    Keeps InnerFrame (applyRecipeChild options child env) := by
  refine .ite (fun _ => childFramed.apply _ framed _) fun _ => ?_
  exact .ite (fun _ => childFramed.apply _ framed.child _) fun _ => childFramed.apply _ .absent _

theorem frame_executeOneModule {child : Module σ} (childFramed : Framed child)
    (env : Environment σ) :
    Keeps Frame (executeOneModule options child env) := by
  refine .bind Frame.trail (frame_of_inner (inner_of_plain (childFramed.check _)))
    fun checkResult => ?_
  cases checkResult with
  | ok => exact .pure Frame.trail _
  | needsApply =>
    refine .bind Frame.trail (frame_of_inner (keeps_pollOptional InnerFrame.trail framed.shutdownSignal))
      fun _ => ?_
    refine .ite (fun _ => .pure Frame.trail _) fun _ => ?_
    refine .bind Frame.trail (frame_reportBody _) fun _ => ?_
    refine .bind Frame.trail (frame_of_inner (inner_applyRecipeChild framed childFramed _))
      fun result => ?_
    refine .bind Frame.trail ?_ fun _ => .pure Frame.trail _
    exact .bind Frame.trail (frame_of_inner (inner_of_plain (plain_mergeUnlessFailed _ _)))
      fun _ => .pure Frame.trail _

theorem frame_executeRecipeChildStep {child : Module σ} (childFramed : Framed child)
    (env : Environment σ) :
    Keeps Frame (executeRecipeChildStep options child env) := by
  refine .bind Frame.trail (.attempt (frame_executeOneModule framed childFramed _))
    fun attempted => ?_
  cases attempted with
  | some step => exact .pure Frame.trail _
  | none =>
    refine .bind Frame.trail (frame_of_inner (keeps_pollOptional InnerFrame.trail framed.shutdownSignal))
      fun _ => ?_
    exact .ite (fun _ => .pure Frame.trail _) fun _ =>
      .bind Frame.trail (frame_reportBody _) fun _ => .pure Frame.trail _

variable {signals : Option (List (Module σ))}
  (signalsFramed : ∀ list, signals = some list → ∀ signal ∈ list, Framed signal)

include signalsFramed

theorem frame_flushRecipeSignals (step : OrchestrationStep σ) (state : RecipeState σ) :
    Keeps Frame (flushRecipeSignals options signals step state) := by
  unfold flushRecipeSignals
  split
  · exact .pure Frame.trail _
  · exact .ite (fun _ => .bind Frame.trail
      (frame_runSignalModules framed _ (signalsFramed _ rfl)) fun _ => .pure Frame.trail _)
      fun _ => .pure Frame.trail _

theorem frame_processRecipeStep (state : RecipeState σ) (execution : RecipeChildExecution σ) :
    Keeps Frame (processRecipeStep options signals state execution) := by
  rcases execution with failedState | _ | _ | step
  · exact .pure Frame.trail _
  · exact .pure Frame.trail _
  · exact .pure Frame.trail _
  · refine .bind Frame.trail (frame_of_inner (keeps_callHook InnerFrame.trail framed.onChildStep step))
      fun _ => ?_
    refine .bind Frame.trail (frame_reportBody _) fun _ => ?_
    exact .bind Frame.trail (frame_flushRecipeSignals framed signalsFramed _ _) fun _ =>
      .pure Frame.trail _

theorem frame_executeModules {modules : List (Module σ)}
    (modulesFramed : ∀ child ∈ modules, Framed child) (state : RecipeState σ) :
    Keeps Frame (executeModules options signals state modules) := by
  induction modules generalizing state with
  | nil => exact .pure Frame.trail _
  | cons child rest ih =>
    have childFramed := modulesFramed child List.mem_cons_self
    refine .bind Frame.trail (frame_of_inner (keeps_pollOptional InnerFrame.trail framed.shutdownSignal))
      fun _ => ?_
    refine .ite (fun _ => .pure Frame.trail _) fun _ => ?_
    refine .bind Frame.trail (frame_executeRecipeChildStep framed childFramed _) fun execution => ?_
    refine .bind Frame.trail (frame_processRecipeStep framed signalsFramed _ _) fun processed => ?_
    cases processed with
    | stop state => exact .pure Frame.trail _
    | proceed state =>
      exact ih (fun own mem => modulesFramed own (List.mem_cons_of_mem _ mem)) _

theorem frame_runRecipeSignalsAtEnd (state : RecipeState σ) :
    Keeps Frame (runRecipeSignalsAtEnd options signals state) := by
  unfold runRecipeSignalsAtEnd
  split
  · exact .pure Frame.trail _
  · exact .ite (fun _ => .bind Frame.trail
      (frame_runSignalModules framed _ (signalsFramed _ rfl)) fun _ => .pure Frame.trail _)
      fun _ => .pure Frame.trail _

theorem frame_recipeBody {modules : List (Module σ)}
    (modulesFramed : ∀ child ∈ modules, Framed child) (env : Environment σ) :
    Keeps Frame (recipeBody modules signals options env) :=
  .bind Frame.trail (frame_executeModules framed signalsFramed modulesFramed _) fun _ =>
    .bind Frame.trail (frame_runRecipeSignalsAtEnd framed signalsFramed _) fun _ =>
      .pure Frame.trail _

end Lists

theorem framed_recipe (shutdownRequested : σ → Bool) {modules : List (Module σ)}
    {signals : Option (List (Module σ))} (modulesFramed : ∀ child ∈ modules, Framed child)
    (signalsFramed : ∀ list, signals = some list → ∀ signal ∈ list, Framed signal) :
    Framed (recipe shutdownRequested modules signals) where
  check env := by
    change Keeps Plain (checkRecipe shutdownRequested env modules)
    induction modules with
    | nil => exact .pure Plain.trail _
    | cons child rest ih =>
      refine .bind Plain.trail (.get Plain.trail) fun _ => ?_
      refine .ite (fun _ => .pure Plain.trail _) fun _ => ?_
      refine .bind Plain.trail ((modulesFramed child List.mem_cons_self).check _) fun result => ?_
      cases result with
      | needsApply => exact .pure Plain.trail _
      | ok => exact ih fun own mem => modulesFramed own (List.mem_cons_of_mem _ mem)
  apply _ framed _ :=
    inner_withRecipeOutputScope (frame_recipeBody framed signalsFramed modulesFramed _)

/-! ### `when` blocks -/

section Conditional

variable {options : ApplyOptions σ} (framed : FramedOptions options)

include framed

theorem inner_executeConditionalApply {child : Module σ} (childFramed : Framed child)
    (env : Environment σ) :
    Keeps InnerFrame (executeConditionalApply options child env) := by
  exact .ite (fun _ => childFramed.apply _ (framed.conditional InnerFrame.trail) _)
    fun _ => childFramed.apply _ .absent _

theorem inner_applyConditionalModuleStep {child : Module σ} (childFramed : Framed child)
    (state : ConditionalApplyState σ) :
    Keeps InnerFrame (applyConditionalModuleStep options state child) := by
  refine .bind InnerFrame.trail (keeps_pollOptional InnerFrame.trail framed.shutdownSignal) fun _ => ?_
  refine .ite (fun _ => .pure InnerFrame.trail _) fun _ => ?_
  refine .bind InnerFrame.trail (inner_of_plain (childFramed.check _)) fun checkResult => ?_
  cases checkResult with
  | ok => exact .pure InnerFrame.trail _
  | needsApply =>
    refine .bind InnerFrame.trail (keeps_pollOptional InnerFrame.trail framed.shutdownSignal) fun _ => ?_
    refine .ite (fun _ => .pure InnerFrame.trail _) fun _ => ?_
    refine .bind InnerFrame.trail (inner_executeConditionalApply framed childFramed _)
      fun result => ?_
    refine .ite (fun _ => .pure InnerFrame.trail _) fun _ => ?_
    refine .bind InnerFrame.trail ?_ fun _ => .pure InnerFrame.trail _
    refine .bind InnerFrame.trail ?_ fun _ => ?_
    · exact .bind InnerFrame.trail (inner_of_plain (plain_mergeEnvironmentFromMeta _ _)) fun _ =>
        .pure InnerFrame.trail _
    · exact .bind InnerFrame.trail (keeps_callHook InnerFrame.trail framed.onChildStep _) fun _ =>
        .pure InnerFrame.trail _

theorem inner_runConditionalModuleLoop {modules : List (Module σ)}
    (modulesFramed : ∀ child ∈ modules, Framed child) (state : ConditionalApplyState σ) :
    Keeps InnerFrame (runConditionalModuleLoop options state modules) := by
  induction modules generalizing state with
  | nil => exact .pure InnerFrame.trail _
  | cons child rest ih =>
    refine .bind InnerFrame.trail (inner_applyConditionalModuleStep framed
      (modulesFramed child List.mem_cons_self) _) fun step => ?_
    cases step with
    | failed result => exact .pure InnerFrame.trail _
    | stop state => exact .pure InnerFrame.trail _
    | proceed state =>
      exact ih (fun own mem => modulesFramed own (List.mem_cons_of_mem _ mem)) _

end Conditional

theorem plain_checkConditionalModules {modules : List (Module σ)}
    (modulesFramed : ∀ child ∈ modules, Framed child) (env : Environment σ) :
    Keeps Plain (checkConditionalModules env modules) := by
  induction modules with
  | nil => exact .pure Plain.trail _
  | cons child rest ih =>
    refine .bind Plain.trail ((modulesFramed child List.mem_cons_self).check _) fun result => ?_
    cases result with
    | needsApply => exact .pure Plain.trail _
    | ok => exact ih fun own mem => modulesFramed own (List.mem_cons_of_mem _ mem)

theorem plain_readConditionForApply (block : Nat) (condition : Program σ Bool)
    (env : Environment σ) :
    Keeps Plain (readConditionForApply block condition env) := by
  refine .bind Plain.trail (.get Plain.trail) fun state => ?_
  cases state.checkedCondition block with
  | some result => exact .pure Plain.trail _
  | none => exact plain_runProgram _ _ _

theorem framed_conditional (block : Nat) (condition : Program σ Bool)
    {modules : List (Module σ)} (modulesFramed : ∀ child ∈ modules, Framed child) :
    Framed (createConditionalModule block condition modules) where
  check env := by
    refine .bind Plain.trail ?_ fun holds => ?_
    · exact .bind Plain.trail (plain_runProgram _ _ _) fun _ =>
        .bind Plain.trail (plain_modify (fun _ => rfl) fun _ => rfl) fun _ => .pure Plain.trail _
    · exact .ite (fun _ => plain_checkConditionalModules modulesFramed _) fun _ =>
        .pure Plain.trail _
  apply _ framed _ := by
    refine .bind InnerFrame.trail (inner_of_plain (plain_readConditionForApply _ _ _))
      fun holds => ?_
    refine .ite (fun _ => ?_) fun _ => .pure InnerFrame.trail _
    exact inner_withRecipeOutputScope
      (frame_of_inner (inner_runConditionalModuleLoop framed modulesFramed _))

theorem Built.framed {host : Host σ} {module : Module σ} (built : Built host module) :
    Framed module := by
  induction built with
  | leaf leaf => exact framed_leaf leaf
  | recipe _ _ childrenFramed signalsFramed =>
    exact framed_recipe _ childrenFramed signalsFramed
  | conditional block condition _ childrenFramed =>
    exact framed_conditional block condition childrenFramed

/-! ### The hooks of the runner -/

section Runner

variable {relation : RunState σ → List (Event σ) → RunState σ → Prop} (trail : Trail relation)
  (host : Host σ)

include trail

theorem keeps_shutdownSignal (interrupted : Keeps relation (Effect.report .interrupted)) :
    Keeps relation (shutdownSignal host) :=
  .bind trail (.get trail) fun _ =>
    .ite (fun _ => .bind trail interrupted fun _ => .pure trail _) fun _ => .pure trail _

theorem keeps_applyRunnerControlPlaneMeta
    (world : ∀ (state : RunState σ) (next : σ), relation state [] { state with world := next })
    (delivered : ∀ entries, Keeps relation (Effect.report (.delivered entries)))
    (entries : Option (List (ModuleMetaEntry σ))) (status : ModuleStatus) :
    Keeps relation (applyRunnerControlPlaneMeta host entries status) := by
  refine .ite (fun _ => .pure trail _) fun _ => ?_
  cases entries with
  | none => exact .pure trail _
  | some list =>
    refine .bind trail (delivered _) fun _ => ?_
    exact .bind trail (keeps_assertValidModuleMetaEntries trail _) fun _ =>
      .bind trail (keeps_handlePortChange trail host world _) fun _ =>
        keeps_handleReboot trail host world _

theorem keeps_updateStats
    (failed : ∀ state : RunState σ, relation state [] { state with failed := state.failed + 1 })
    (status : ModuleStatus) : Keeps relation (updateStats status) :=
  .ite (fun _ => .modify failed) fun _ => .pure trail _

/-- The runner's own options keep what its parts keep. -/
theorem keepingOptions_recipeOptions
    (world : ∀ (state : RunState σ) (next : σ), relation state [] { state with world := next })
    (failed : ∀ state : RunState σ, relation state [] { state with failed := state.failed + 1 })
    (delivered : ∀ entries, Keeps relation (Effect.report (.delivered entries)))
    (interrupted : Keeps relation (Effect.report .interrupted)) :
    KeepingOptions relation (recipeOptions host) where
  onChildStep := by
    rintro hook ⟨⟩ step
    exact keeps_applyRunnerControlPlaneMeta trail host world delivered _ _
  onSignalStep := by
    rintro hook ⟨⟩ step
    exact keeps_applyRunnerControlPlaneMeta trail host world delivered _ _
  shutdownSignal := by
    rintro poll ⟨⟩
    exact keeps_shutdownSignal trail host interrupted
  onSignalStarted := by
    rintro hooks ⟨⟩
    exact .pure trail _
  onSignalFinished := by
    rintro hooks ⟨⟩ status
    exact keeps_updateStats trail failed status

/-- So do the options that a run hands down. -/
theorem RunnerOptions.keeping {host : Host σ} {options : ApplyOptions σ}
    (runnerOptions : RunnerOptions host options)
    (ofRecipe : KeepingOptions relation (recipeOptions host)) :
    KeepingOptions relation options := by
  induction runnerOptions with
  | recipe => exact ofRecipe
  | childStep => exact ofRecipe.child
  | absent => exact .absent
  | child _ keeping => exact keeping.child
  | conditional _ keeping => exact keeping.conditional trail
  | signal _ keeping => exact keeping.onlyShutdown

end Runner

theorem inner_world (state : RunState σ) (next : σ) :
    InnerFrame state [] { state with world := next } := ⟨rfl, le_refl _, nofun⟩

theorem inner_shutdownSignal (host : Host σ) : Keeps InnerFrame (shutdownSignal host) :=
  keeps_shutdownSignal InnerFrame.trail host (inner_report nofun)

theorem inner_applyRunnerControlPlaneMeta (host : Host σ)
    (entries : Option (List (ModuleMetaEntry σ))) (status : ModuleStatus) :
    Keeps InnerFrame (applyRunnerControlPlaneMeta host entries status) :=
  keeps_applyRunnerControlPlaneMeta InnerFrame.trail host inner_world
    (fun _ => inner_report nofun) entries status

theorem framed_recipeOptions (host : Host σ) : FramedOptions (recipeOptions host) :=
  keepingOptions_recipeOptions InnerFrame.trail host inner_world
    (fun _ => ⟨rfl, Nat.le_succ _, nofun⟩) (fun _ => inner_report nofun) (inner_report nofun)

theorem framed_childStepOptions (host : Host σ) : FramedOptions (childStepOptions host) :=
  (framed_recipeOptions host).child

theorem RunnerOptions.framed {host : Host σ} {options : ApplyOptions σ}
    (runnerOptions : RunnerOptions host options) : FramedOptions options :=
  runnerOptions.keeping InnerFrame.trail (framed_recipeOptions host)

variable {σ α β : Type}

/-! ### The events at one depth -/

def Event.bodyEvent (depth : Nat) : Event σ → Option BodyEvent
  | .body own event => if own = depth then some event else none
  | _ => none

/-- The events of the list of steps that runs at `depth`. -/
def bodyEvents (depth : Nat) (events : List (Event σ)) : List BodyEvent :=
  events.filterMap (Event.bodyEvent depth)

@[simp] theorem bodyEvents_append (depth : Nat) (events more : List (Event σ)) :
    bodyEvents depth (events ++ more) = bodyEvents depth events ++ bodyEvents depth more :=
  List.filterMap_append

theorem InnerFrame.bodyEvents {before after : RunState σ} {events : List (Event σ)}
    (inner : InnerFrame before events after) :
    bodyEvents before.recipeOutputDepth events = [] := by
  refine List.filterMap_eq_nil_iff.2 fun event mem => ?_
  cases event with
  | body depth own =>
    have deeper := inner.2.2 depth own mem
    exact if_neg (Nat.ne_of_gt deeper)
  | _ => rfl

/-- From a state at `depth` with `failed` failures counted, the computation comes back
to that depth, and its outcome, its events at that depth and the failures counted
then satisfy `post`. -/
def Reports (depth failed : Nat) (computation : Async σ α)
    (post : Option α → List BodyEvent → Nat → Prop) : Prop :=
  ∀ state : RunState σ, state.recipeOutputDepth = depth → state.failed = failed →
    computation.After state fun result after events =>
      after.recipeOutputDepth = depth ∧ post result (bodyEvents depth events) after.failed

namespace Reports

variable {depth failed : Nat}

theorem mono {computation : Async σ α} {post weaker : Option α → List BodyEvent → Nat → Prop}
    (reports : Reports depth failed computation post)
    (implies : ∀ result rows count, post result rows count → weaker result rows count) :
    Reports depth failed computation weaker := fun state atDepth counted =>
  (reports state atDepth counted).mono fun _ _ _ holds => ⟨holds.1, implies _ _ _ holds.2⟩

theorem pure {value : α} {post : Option α → List BodyEvent → Nat → Prop}
    (holds : post (some value) [] failed) :
    Reports depth failed (Pure.pure value : Async σ α) post := fun _ atDepth counted =>
  ⟨atDepth, counted ▸ holds⟩

theorem bind {first : Async σ α} {next : α → Async σ β}
    {middle : Option α → List BodyEvent → Nat → Prop}
    {post : Option β → List BodyEvent → Nat → Prop} (reports : Reports depth failed first middle)
    (thrown : ∀ rows count, middle none rows count → post none rows count)
    (continued : ∀ value rows count, middle (some value) rows count →
      Reports depth count (next value) fun result more last => post result (rows ++ more) last) :
    Reports depth failed (first >>= next) post := fun state atDepth counted => by
  refine After.bind (reports state atDepth counted)
    (fun after events holds => ⟨holds.1, thrown _ _ holds.2⟩) fun value between events holds => ?_
  refine (continued value _ _ holds.2 between holds.1 rfl).mono fun result after more further => ?_
  exact ⟨further.1, by rw [bodyEvents_append]; exact further.2⟩

theorem inner {computation : Async σ α} (keeps : Keeps InnerFrame computation) :
    Reports depth failed computation fun _ rows count => rows = [] ∧ failed ≤ count := by
  rintro state rfl rfl
  exact (keeps state).mono fun _ _ _ inner => ⟨inner.1, inner.bodyEvents, inner.2.1⟩

theorem get : Reports depth failed (Effect.get : Async σ (RunState σ))
    fun result rows count => ∃ state, result = some state ∧ state.failed = failed ∧ rows = [] ∧
      count = failed := fun state atDepth counted =>
  ⟨atDepth, state, rfl, counted, rfl, counted⟩

theorem body (event : BodyEvent) : Reports depth failed (reportBody (σ := σ) event)
    fun result rows count => result = some () ∧ rows = [event] ∧ count = failed := by
  rintro state rfl rfl
  refine ⟨rfl, rfl, ?_, rfl⟩
  change bodyEvents _ [Event.body state.recipeOutputDepth event] = [event]
  simp [bodyEvents, Event.bodyEvent]

theorem ite {condition : Prop} [Decidable condition] {yes no : Async σ α}
    {post : Option α → List BodyEvent → Nat → Prop}
    (reportsYes : condition → Reports depth failed yes post)
    (reportsNo : ¬ condition → Reports depth failed no post) :
    Reports depth failed (if condition then yes else no) post := by
  split
  · exact reportsYes ‹_›
  · exact reportsNo ‹_›

/-- A part whose throw is caught comes first. -/
theorem attemptBind {first : Async σ α} {next : Option α → Async σ β}
    {middle : Option α → List BodyEvent → Nat → Prop}
    {post : Option β → List BodyEvent → Nat → Prop} (reports : Reports depth failed first middle)
    (continued : ∀ result rows count, middle result rows count →
      Reports depth count (next result) fun own more last => post own (rows ++ more) last) :
    Reports depth failed (first.attempt >>= next) post := by
  have attempted : Reports depth failed first.attempt fun outcome rows count =>
      ∃ result, outcome = some result ∧ middle result rows count := fun state atDepth counted =>
    ⟨(reports state atDepth counted).1, _, rfl, (reports state atDepth counted).2⟩
  refine bind attempted ?_ ?_
  · rintro rows count ⟨result, missing, -⟩
    cases missing
  · intro result rows count outcome
    obtain ⟨own, same, holds⟩ := outcome
    cases same
    exact continued _ rows count holds

/-- A part that only lists below report about comes first. -/
theorem innerBind {first : Async σ α} {next : α → Async σ β}
    {post : Option β → List BodyEvent → Nat → Prop} (keeps : Keeps InnerFrame first)
    (thrown : ∀ count, failed ≤ count → post none [] count)
    (continued : ∀ value count, failed ≤ count → Reports depth count (next value) post) :
    Reports depth failed (first >>= next) post := by
  refine bind (inner keeps) ?_ ?_
  · rintro rows count ⟨rfl, grown⟩
    exact thrown count grown
  · rintro value rows count ⟨rfl, grown⟩
    exact continued value count grown

/-- An event of this list of steps comes first. -/
theorem bodyBind {event : BodyEvent} {next : Unit → Async σ β}
    {post : Option β → List BodyEvent → Nat → Prop}
    (continued : Reports depth failed (next ()) fun result more count =>
      post result (event :: more) count) :
    Reports depth failed (reportBody event >>= next) post := by
  refine bind (body event) ?_ ?_
  · rintro rows count ⟨missing, -⟩
    cases missing
  · rintro value rows count ⟨-, rfl, rfl⟩
    exact continued

end Reports

/-! ### Monitors of a list of steps -/

/-- Whether a change waits for a signal pass. -/
def noteChange (pending : Bool) : BodyEvent → Bool
  | .reported .changed _ => true
  | .signalPass => false
  | _ => pending

/-- Whether a step or a signal failed. -/
def noteFailure (failed : Bool) : BodyEvent → Bool
  | .reported .failed _ => true
  | .signalReported .failed => true
  | _ => failed

/-- A signal pass needs a change that waits for it. -/
def passMonitor : Monitor BodyEvent Bool where
  step := noteChange
  allowed pending event := event = .signalPass → pending = true

/-- After a failure nothing is applied. -/
def failureMonitor : Monitor BodyEvent Bool where
  step := noteFailure
  allowed failed event := event = .applied ∨ event = .signalApplied → failed = false

/-- No step that fails asks for a flush while a change waits. -/
def flushMonitor : Monitor BodyEvent Bool where
  step := noteChange
  allowed pending event := event = .reported .failed true → pending = false

/-! ### A signal pass -/

/-- What a pass over a list of signals reports after its own event. -/
structure SignalRows (signals : List (Module σ)) (rows : List BodyEvent) : Prop where
  signalsOnly : ∀ row ∈ rows, row = .signalApplied ∨ ∃ status, row = .signalReported status
  quiet : failureMonitor.Accepts false rows
  empty : signals = [] → rows = []

theorem SignalRows.passes {signals : List (Module σ)} {rows : List BodyEvent}
    (signalRows : SignalRows signals rows) (pending : Bool) :
    passMonitor.Accepts pending rows ∧ passMonitor.after pending rows = pending := by
  have only := signalRows.signalsOnly
  clear signalRows
  induction rows with
  | nil => exact ⟨trivial, rfl⟩
  | cons row rest ih =>
    have more := ih fun own mem => only own (List.mem_cons_of_mem _ mem)
    obtain rfl | ⟨status, rfl⟩ := only row List.mem_cons_self
    · exact ⟨⟨nofun, more.1⟩, more.2⟩
    · exact ⟨⟨nofun, more.1⟩, more.2⟩

/-- The hook counts a failed signal. -/
def CountsFailures (options : ApplyOptions σ) : Prop :=
  ∀ depth failed, Reports depth failed (onSignalFinished options.signalHooks .failed)
    fun _ _ count => failed < count

section Signals

variable {options : ApplyOptions σ} (framed : FramedOptions options) {depth failed : Nat}

include framed

theorem reports_onSignalFinished (status : ModuleStatus) :
    Reports depth failed (onSignalFinished options.signalHooks status)
      fun _ rows count => failed ≤ count ∧ rows = [] ∧
        (CountsFailures options → status = .failed → failed < count) := by
  intro state atDepth counted
  have inner := Reports.inner (keeps_onSignalFinished InnerFrame.trail framed status) state atDepth counted
  refine ⟨inner.1, inner.2.2, inner.2.1, fun counts isFailed => ?_⟩
  rw [isFailed]
  exact (counts depth failed state atDepth counted).2

/-- The status of a signal is reported once, and a failure counted if the hook counts. -/
theorem reports_handleSignalResult (result : ModuleResult σ) :
    Reports depth failed (handleSignalResult options.signalHooks result)
      fun outcome rows count => failed ≤ count ∧ rows = [.signalReported result.status] ∧
        (∀ status, outcome = some status → (status = .failed ↔ result.status = .failed)) ∧
        (CountsFailures options → outcome = some .failed → failed < count) := by
  refine Reports.bodyBind (Reports.bind (reports_onSignalFinished framed result.status) ?_ ?_)
  · rintro rows count ⟨grown, rfl, counts⟩
    exact ⟨grown, rfl, nofun, nofun⟩
  · rintro _ rows count ⟨grown, rfl, counts⟩
    by_cases isFailed : result.status = .failed
    · simp only [isFailed, if_true] at counts ⊢
      exact Reports.pure ⟨grown, rfl, by simp, fun counting _ => counts counting trivial⟩
    · simp only [isFailed, if_false]
      exact Reports.pure ⟨grown, rfl, by simp, nofun⟩

theorem reports_handleSignalFailure : Reports depth failed (handleSignalFailure options.signalHooks)
      fun outcome rows count => failed ≤ count ∧ rows = [.signalReported .failed] ∧
        outcome ≠ some .changed ∧ (CountsFailures options → failed < count) := by
  refine Reports.bodyBind (Reports.bind (reports_onSignalFinished framed .failed) ?_ ?_)
  · rintro rows count ⟨grown, rfl, counts⟩
    exact ⟨grown, rfl, nofun, fun counting => counts counting rfl⟩
  · rintro _ rows count ⟨grown, rfl, counts⟩
    exact Reports.pure ⟨grown, rfl, nofun, fun counting => counts counting rfl⟩

/-- A signal is applied once and reports at most one status. -/
theorem reports_runOneSignal {signal : Module σ} (signalFramed : Framed signal)
    (env : Environment σ) :
    Reports depth failed (runOneSignal (signalParameters options) env signal)
      fun result rows count => failed ≤ count ∧
        (rows = [.signalApplied] ∧ result = none ∨
          ∃ status, rows = [.signalApplied, .signalReported status] ∧
            ∀ step, result = some step → (step.status = .failed ↔ status = .failed) ∧
              (CountsFailures options → step.status = .failed → failed < count)) := by
  refine Reports.bodyBind ?_
  refine Reports.innerBind (signalFramed.apply _ framed.onlyShutdown _)
    (fun count grown => ⟨grown, .inl ⟨rfl, rfl⟩⟩) fun result count grown => ?_
  refine Reports.innerBind (inner_applySignalMeta framed _ _)
    (fun last further => ⟨grown.trans further, .inl ⟨rfl, rfl⟩⟩) fun next last further => ?_
  have atLeast := grown.trans further
  refine Reports.bind (reports_handleSignalResult framed result) ?_ ?_
  · rintro rows count ⟨more, rfl, -⟩
    exact ⟨atLeast.trans more, .inr ⟨_, rfl, nofun⟩⟩
  · rintro status rows count ⟨more, rfl, same, counts⟩
    refine Reports.pure ⟨atLeast.trans more, .inr ⟨_, rfl, ?_⟩⟩
    rintro step ⟨⟩
    refine ⟨same status rfl, fun counting isFailed => ?_⟩
    exact atLeast.trans_lt (counts counting (congrArg some isFailed))

/-- What a pass has come to: nothing failed, or the last thing it reported did. -/
structure PassEnd (options : ApplyOptions σ) (failed : Nat) (result : Option SignalRunStatus)
    (rows : List BodyEvent) (count : Nat) : Prop where
  grown : failed ≤ count
  unfailed : result = some .changed → failureMonitor.after false rows = false
  counts : CountsFailures options → result = some .failed → failed < count

theorem reports_runSignalList (env : Environment σ) {signals : List (Module σ)}
    (signalsFramed : ∀ signal ∈ signals, Framed signal) :
    Reports depth failed (runSignalList (signalParameters options) env signals)
      fun result rows count => SignalRows signals rows ∧ PassEnd options failed result rows count := by
  induction signals generalizing env failed with
  | nil => exact Reports.pure ⟨⟨nofun, trivial, fun _ => rfl⟩, le_refl _, fun _ => rfl, nofun⟩
  | cons signal rest ih =>
    have nothing : SignalRows (signal :: rest) [] := ⟨nofun, trivial, nofun⟩
    refine Reports.innerBind (keeps_pollOptional InnerFrame.trail framed.shutdownSignal)
      (fun count grown => ⟨nothing, grown, nofun, nofun⟩) fun interrupted count grown => ?_
    refine Reports.ite
      (fun _ => Reports.pure ⟨nothing, grown, fun _ => rfl, nofun⟩) fun _ => ?_
    refine Reports.innerBind (keeps_onSignalStarted InnerFrame.trail framed)
      (fun last further => ⟨nothing, grown.trans further, nofun, nofun⟩) fun _ last further => ?_
    have started := grown.trans further
    have signalFramed := signalsFramed signal List.mem_cons_self
    have restFramed := fun own mem => signalsFramed own (List.mem_cons_of_mem _ mem)
    refine Reports.attemptBind (reports_runOneSignal framed signalFramed env) ?_
    rintro attempted rows count ⟨more, ended⟩
    have atLeast := started.trans more
    cases attempted with
    | none =>
      refine (reports_handleSignalFailure framed).mono ?_
      rintro result moreRows last ⟨further, rfl, unchanged, counts⟩
      have signalRows : SignalRows (signal :: rest) (rows ++ [.signalReported .failed]) := by
        obtain ⟨rfl, -⟩ | ⟨status, rfl, -⟩ := ended
        · exact ⟨by simp, by simp [failureMonitor], nofun⟩
        · exact ⟨by simp, by simp [failureMonitor], nofun⟩
      exact ⟨signalRows, atLeast.trans further, fun isChanged => absurd isChanged unchanged,
        fun counting _ => atLeast.trans_lt (counts counting)⟩
    | some step =>
      obtain ⟨-, missing⟩ | ⟨status, rfl, same⟩ := ended
      · cases missing
      obtain ⟨statusIff, counts⟩ := same step rfl
      refine Reports.ite (fun isFailed => ?_) fun succeeded => ?_
      · refine Reports.pure ⟨⟨by simp, by simp [failureMonitor], nofun⟩, atLeast, nofun, ?_⟩
        exact fun counting _ => started.trans_lt (counts counting isFailed)
      · have unfailed : noteFailure false (.signalReported status) = false := by
          cases status with
          | failed => exact absurd (statusIff.2 rfl) succeeded
          | _ => rfl
        refine (ih step.nextEnvironment restFramed).mono ?_
        rintro result moreRows last ⟨signalRows, ended⟩
        have after : failureMonitor.after false
            ([.signalApplied, .signalReported status] ++ moreRows) =
              failureMonitor.after false moreRows := by
          rw [Monitor.after_append]
          exact congrArg (failureMonitor.after · moreRows) unfailed
        refine ⟨⟨?_, ?_, nofun⟩, atLeast.trans ended.grown,
          fun isChanged => after.trans (ended.unfailed isChanged),
          fun counting isFailed => atLeast.trans_lt (ended.counts counting isFailed)⟩
        · intro row mem
          rcases List.mem_append.1 mem with own | later
          · rcases List.mem_cons.1 own with rfl | own
            · exact .inl rfl
            · exact .inr ⟨status, List.mem_singleton.1 own⟩
          · exact signalRows.signalsOnly row later
        · rw [Monitor.accepts_append]
          refine ⟨by simp [failureMonitor], ?_⟩
          change failureMonitor.Accepts (noteFailure false (.signalReported status)) moreRows
          rw [unfailed]
          exact signalRows.quiet

theorem reports_runSignalModules (env : Environment σ) {signals : List (Module σ)}
    (signalsFramed : ∀ signal ∈ signals, Framed signal) :
    Reports depth failed (runSignalModules (signalParameters options) env signals)
      fun result rows count => ∃ signalRows, rows = .signalPass :: signalRows ∧
        SignalRows signals signalRows ∧ PassEnd options failed result signalRows count :=
  Reports.bodyBind <| (reports_runSignalList framed env signalsFramed).mono
    fun _ rows _ holds => ⟨rows, rfl, holds⟩

end Signals

end Paratix.Orchestration
