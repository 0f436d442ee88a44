/-
Module: Paratix.Orchestration.Runner
Purpose: Recipes, `when` blocks with their guard memo, and the run of a playbook in apply mode with
  its flush points and the signals at the end.
Main exports: createConditionalModule, Built
-/
import Paratix.Orchestration.Environment

namespace Paratix.Orchestration

open Foundation

variable {σ : Type}

/-- `shutdownSignal?.() ?? null` -/
def pollOptional : Option (Async σ Bool) → Async σ Bool
  | none => pure false
  | some poll => poll

def callHook {α : Type} : Option (α → Async σ Unit) → α → Async σ Unit
  | none, _ => pure ()
  | some hook, argument => hook argument

structure SignalRunParameters (σ : Type) where
  hooks : Option (SignalHooks σ)
  onSignalStep : Option (OrchestrationStep σ → Async σ Unit)
  shutdownSignal : Option (Async σ Bool)

inductive SignalRunStatus where
  | changed
  | failed
deriving DecidableEq, Repr

/-- Report an event of the current list of steps. -/
def reportBody (event : BodyEvent) : Async σ Unit := do
  let state ← Effect.get
  Effect.report (.body state.recipeOutputDepth event)

def onSignalStarted (hooks : Option (SignalHooks σ)) : Async σ Unit :=
  match hooks with
  | none => pure ()
  | some hooks => hooks.onSignalStarted

def onSignalFinished (hooks : Option (SignalHooks σ)) (status : ModuleStatus) : Async σ Unit :=
  match hooks with
  | none => pure ()
  | some hooks => hooks.onSignalFinished status

def handleSignalResult (hooks : Option (SignalHooks σ)) (result : ModuleResult σ) :
    Async σ SignalRunStatus := do
  reportBody (.signalReported result.status)
  onSignalFinished hooks result.status
  pure (if result.status = .failed then .failed else .changed)

def handleSignalFailure (hooks : Option (SignalHooks σ)) : Async σ SignalRunStatus := do
  reportBody (.signalReported .failed)
  onSignalFinished hooks .failed
  pure .failed

/-- `parameters.onSignalStep?.(step)` -/
def notifySignalStep (onSignalStep : Option (OrchestrationStep σ → Async σ Unit))
    (step : OrchestrationStep σ) : Async σ Unit :=
  match onSignalStep with
  | none => Effect.report (.dropped (controlPlaneEntries step.metaEntries))
  | some hook => hook step

/-- A failed step leaves the environment as it is. -/
def mergeUnlessFailed (environment : Environment σ) (result : ModuleResult σ) :
    Async σ (Environment σ) :=
  if result.status = .failed then pure environment
  else mergeEnvironmentFromMeta environment result.metaEntries

def applySignalMeta (currentEnvironment : Environment σ)
    (onSignalStep : Option (OrchestrationStep σ → Async σ Unit)) (result : ModuleResult σ) :
    Async σ (Environment σ) := do
  assertValidModuleMetaEntries result.metaEntries
  let nextEnvironment ← mergeUnlessFailed currentEnvironment result
  notifySignalStep onSignalStep
    { flushSignals := false, stopRun := false, env := nextEnvironment
      metaEntries := result.metaEntries, status := result.status }
  pure nextEnvironment

structure SignalStep (σ : Type) where
  nextEnvironment : Environment σ
  status : SignalRunStatus

def runOneSignal (parameters : SignalRunParameters σ) (currentEnvironment : Environment σ)
    (signal : Module σ) : Async σ (SignalStep σ) := do
  reportBody .signalApplied
  let result ← signal.apply
    { ApplyOptions.absent with shutdownSignal := parameters.shutdownSignal } currentEnvironment
  let nextEnvironment ← applySignalMeta currentEnvironment parameters.onSignalStep result
  let status ← handleSignalResult parameters.hooks result
  pure { nextEnvironment := nextEnvironment, status := status }

/-- The loop of `runSignalModules`. -/
def runSignalList (parameters : SignalRunParameters σ) (currentEnvironment : Environment σ) :
    List (Module σ) → Async σ SignalRunStatus
  | [] => pure .changed
  | signal :: rest => do
      let interrupted ← pollOptional parameters.shutdownSignal
      if interrupted then pure .changed
      else do
        onSignalStarted parameters.hooks
        let attempted ← Effect.attempt (runOneSignal parameters currentEnvironment signal)
        match attempted with
        | none => handleSignalFailure parameters.hooks
        | some step =>
          if step.status = .failed then pure .failed
          else runSignalList parameters step.nextEnvironment rest

def runSignalModules (parameters : SignalRunParameters σ) (environment : Environment σ)
    (signals : List (Module σ)) : Async σ SignalRunStatus := do
  reportBody .signalPass
  runSignalList parameters environment signals

variable {σ : Type}

structure RecipeState (σ : Type) where
  env : Environment σ
  metaEntries : Option (List (ModuleMetaEntry σ))
  signalsPending : Bool
  status : ModuleStatus
  stopRun : Bool

/-- What executing one child comes to: `alreadyOk` is the source's `null`. -/
inductive RecipeStep (σ : Type) where
  | alreadyOk
  | interruptedBeforeApply
  | step (step : OrchestrationStep σ)

inductive RecipeChildExecution (σ : Type) where
  | failed (state : RecipeState σ)
  | step (step : RecipeStep σ)

inductive RecipeLoopStepResult (σ : Type) where
  | stop (state : RecipeState σ)
  | proceed (state : RecipeState σ)

def buildRecipeChildStep (result : ModuleResult σ) (currentEnvironment : Environment σ) :
    Async σ (OrchestrationStep σ) := do
  let environment ← mergeUnlessFailed currentEnvironment result
  pure
    { flushSignals := result.flushSignals, stopRun := result.stopRun, env := environment
      metaEntries := result.metaEntries, status := result.status }

/-- The entries that go on to the parent: all of them only if no hook took the
control-plane entries. -/
def passedOnEntries (preserveControlPlaneMeta : Bool) (entries : List (ModuleMetaEntry σ)) :
    List (ModuleMetaEntry σ) :=
  if preserveControlPlaneMeta then entries else entries.filter isEnvironmentMetaEntry

def applyRecipeStepToState (state : RecipeState σ) (step : OrchestrationStep σ)
    (preserveControlPlaneMeta : Bool) : RecipeState σ where
  env := step.env
  metaEntries := some (state.metaEntries.getD [] ++
    ((step.metaEntries.map (passedOnEntries preserveControlPlaneMeta)).getD []))
  signalsPending := if step.status = .changed then true else state.signalsPending
  status :=
    if step.status = .failed then .failed
    else if step.status = .changed then .changed
    else state.status
  stopRun := if step.stopRun then true else state.stopRun

/-- `applyRecipeChild`: recipes get every hook, other composite modules only the
child hook and the shutdown getter, leaves none. -/
def applyRecipeChild (options : ApplyOptions σ) (targetModule : Module σ)
    (currentEnvironment : Environment σ) : Async σ (ModuleResult σ) :=
  if isRecipe targetModule then targetModule.apply options currentEnvironment
  else if targetModule.supportsChildStepHook ∧
      (options.onChildStep.isSome ∨ options.shutdownSignal.isSome) then
    targetModule.apply
      { ApplyOptions.absent with
        onChildStep := options.onChildStep, shutdownSignal := options.shutdownSignal }
      currentEnvironment
  else targetModule.apply .absent currentEnvironment

def executeOneModule (options : ApplyOptions σ) (targetModule : Module σ)
    (currentEnvironment : Environment σ) : Async σ (RecipeStep σ) := do
  let checkResult ← targetModule.check currentEnvironment
  match checkResult with
  | .ok => pure .alreadyOk
  | .needsApply => do
    let interrupted ← pollOptional options.shutdownSignal
    if interrupted then pure .interruptedBeforeApply
    else do
      reportBody .applied
      let result ← applyRecipeChild options targetModule currentEnvironment
      let step ← buildRecipeChildStep result currentEnvironment
      pure (.step step)

def failedRecipeState (environment : Environment σ) : RecipeState σ where
  env := environment
  metaEntries := none
  signalsPending := false
  status := .failed
  stopRun := false

def executeRecipeChildStep (options : ApplyOptions σ) (targetModule : Module σ)
    (currentEnvironment : Environment σ) : Async σ (RecipeChildExecution σ) := do
  let attempted ← Effect.attempt (executeOneModule options targetModule currentEnvironment)
  match attempted with
  | some step => pure (.step step)
  | none => do
    let interrupted ← pollOptional options.shutdownSignal
    if interrupted then pure (.step .interruptedBeforeApply)
    else do
      reportBody (.reported .failed false)
      pure (.failed (failedRecipeState currentEnvironment))

def applyRecipeSignalStatus (state : RecipeState σ) (signalStatus : SignalRunStatus) :
    RecipeState σ :=
  { state with
    signalsPending := false
    status := if signalStatus = .failed then .failed else state.status }

/-- `triggerSignals`, called at a flush point and at the end -/
def triggerSignals (options : ApplyOptions σ) (environment : Environment σ)
    (signals : List (Module σ)) : Async σ SignalRunStatus :=
  runSignalModules
    { hooks := options.signalHooks, onSignalStep := options.onSignalStep
      shutdownSignal := options.shutdownSignal } environment signals

/-- `shouldFlushRecipeSignals` and `flushPendingRecipeSignals` -/
def flushRecipeSignals (options : ApplyOptions σ) (signals : Option (List (Module σ)))
    (step : OrchestrationStep σ) (state : RecipeState σ) : Async σ (RecipeState σ) :=
  match signals with
  | none => pure state
  | some signals =>
    if step.flushSignals ∧ state.signalsPending then do
      let signalStatus ← triggerSignals options state.env signals
      pure (applyRecipeSignalStatus state signalStatus)
    else pure state

def stopAfter (state : RecipeState σ) : RecipeLoopStepResult σ :=
  if state.status = .failed ∨ state.stopRun then .stop state else .proceed state

/-- The state a step of the loop ends with. -/
def RecipeLoopStepResult.state : RecipeLoopStepResult σ → RecipeState σ
  | .stop state => state
  | .proceed state => state

@[simp] theorem stopAfter_state (state : RecipeState σ) : (stopAfter state).state = state := by
  unfold stopAfter
  split
  · rfl
  · rfl

theorem stopAfter_proceed {state next : RecipeState σ}
    (proceeds : stopAfter state = .proceed next) : next = state ∧ state.status ≠ .failed := by
  unfold stopAfter at proceeds
  split at proceeds
  · cases proceeds
  · rename_i running
    cases proceeds
    exact ⟨rfl, fun isFailed => running (.inl isFailed)⟩

def processRecipeStep (options : ApplyOptions σ)
    (signals : Option (List (Module σ))) (state : RecipeState σ) :
    RecipeChildExecution σ → Async σ (RecipeLoopStepResult σ)
  | .failed failedState => pure (.stop failedState)
  | .step .interruptedBeforeApply => pure (.stop state)
  | .step .alreadyOk => pure (stopAfter state)
  | .step (.step step) => do
      callHook options.onChildStep step
      reportBody (.reported step.status step.flushSignals)
      let nextState := applyRecipeStepToState state step options.onChildStep.isNone
      let flushed ← flushRecipeSignals options signals step nextState
      pure (stopAfter flushed)

/-- The loop of `executeModules`. -/
def executeModules (options : ApplyOptions σ) (signals : Option (List (Module σ)))
    (state : RecipeState σ) : List (Module σ) → Async σ (RecipeState σ)
  | [] => pure state
  | currentModule :: rest => do
      let interrupted ← pollOptional options.shutdownSignal
      if interrupted then pure state
      else do
        let step ← executeRecipeChildStep options currentModule state.env
        let processedStep ← processRecipeStep options signals state step
        match processedStep with
        | .stop state => pure state
        | .proceed state => executeModules options signals state rest

def initialRecipeState (environment : Environment σ) : RecipeState σ where
  env := environment
  metaEntries := none
  signalsPending := false
  status := .ok
  stopRun := false

/-- `shouldRunRecipeSignalsAtEnd` and the pass at the end -/
def runRecipeSignalsAtEnd (options : ApplyOptions σ) (signals : Option (List (Module σ)))
    (state : RecipeState σ) : Async σ ModuleStatus :=
  match signals with
  | none => pure state.status
  | some signals =>
    if state.signalsPending ∧ state.status = .changed then do
      let signalStatus ← triggerSignals options state.env signals
      pure (if signalStatus = .failed then .failed else .changed)
    else pure state.status

/-- `withRecipeOutputScope` -/
def withRecipeOutputScope {α : Type} (scopedOperation : Async σ α) : Async σ α := do
  Effect.modify fun state => { state with recipeOutputDepth := state.recipeOutputDepth + 1 }
  let outcome ← Effect.attempt scopedOperation
  Effect.modify fun state => { state with recipeOutputDepth := state.recipeOutputDepth - 1 }
  Effect.rethrow outcome

/-- What `applyRecipe` does inside its output scope. -/
def recipeBody (modules : List (Module σ)) (signals : Option (List (Module σ)))
    (options : ApplyOptions σ) (environment : Environment σ) : Async σ (ModuleResult σ) := do
  let state ← executeModules options signals (initialRecipeState environment) modules
  let status ← runRecipeSignalsAtEnd options signals state
  pure { flushSignals := false, stopRun := state.stopRun
         metaEntries := state.metaEntries, status := status }

def applyRecipe (modules : List (Module σ)) (signals : Option (List (Module σ)))
    (options : ApplyOptions σ) (environment : Environment σ) : Async σ (ModuleResult σ) :=
  withRecipeOutputScope (recipeBody modules signals options environment)

/-- Every child is checked in the environment the recipe was given. The abort
signal of the run is set by the handler that also requests the shutdown. -/
def checkRecipe (shutdownRequested : σ → Bool) (environment : Environment σ) :
    List (Module σ) → Async σ CheckResult
  | [] => pure .ok
  | childModule :: rest => do
      let state ← Effect.get
      if shutdownRequested state.world then pure .needsApply
      else do
        let result ← childModule.check environment
        match result with
        | .needsApply => pure .needsApply
        | .ok => checkRecipe shutdownRequested environment rest

def recipe (shutdownRequested : σ → Bool) (modules : List (Module σ))
    (signals : Option (List (Module σ))) : Module σ where
  kind := .recipe
  supportsChildStepHook := true
  check environment := checkRecipe shutdownRequested environment modules
  apply options environment := applyRecipe modules signals options environment

variable {σ : Type}

structure ConditionalApplyState (σ : Type) where
  environment : Environment σ
  flushSignals : Bool
  metaEntries : List (ModuleMetaEntry σ)
  status : ModuleStatus
  stopRun : Bool

inductive ConditionalApplyStepResult (σ : Type) where
  | stop (state : ConditionalApplyState σ)
  | proceed (state : ConditionalApplyState σ)
  | failed (result : ModuleResult σ)

def executeConditionalApply (options : ApplyOptions σ) (currentModule : Module σ)
    (environment : Environment σ) : Async σ (ModuleResult σ) :=
  if currentModule.supportsChildStepHook then
    currentModule.apply
      { ApplyOptions.absent with
        onChildStep := options.onChildStep
        shutdownSignal := some (pollOptional options.shutdownSignal) }
      environment
  else currentModule.apply .absent environment

def mergeConditionalApplyState (preserveControlPlaneMeta : Bool)
    (state : ConditionalApplyState σ) (result : ModuleResult σ) :
    Async σ (ConditionalApplyState σ) := do
  let environment ← mergeEnvironmentFromMeta state.environment result.metaEntries
  pure
    { environment := environment
      flushSignals := if result.flushSignals then true else state.flushSignals
      metaEntries := state.metaEntries ++
        (result.metaEntries.map (passedOnEntries preserveControlPlaneMeta)).getD []
      status := if result.status = .changed then .changed else state.status
      stopRun := if result.stopRun then true else state.stopRun }

def processConditionalApplyResult (options : ApplyOptions σ) (state : ConditionalApplyState σ)
    (result : ModuleResult σ) : Async σ (ConditionalApplyState σ) := do
  let merged ← mergeConditionalApplyState options.onChildStep.isNone state result
  callHook options.onChildStep
    { flushSignals := result.flushSignals, stopRun := result.stopRun
      env := merged.environment, metaEntries := result.metaEntries, status := result.status }
  pure merged

def applyConditionalApplyStep (options : ApplyOptions σ) (state : ConditionalApplyState σ)
    (currentModule : Module σ) : Async σ (ConditionalApplyStepResult σ) := do
  let checkResult ← currentModule.check state.environment
  match checkResult with
  | .ok => pure (.proceed state)
  | .needsApply => do
    let interrupted ← pollOptional options.shutdownSignal
    if interrupted then pure (.stop state)
    else do
      let result ← executeConditionalApply options currentModule state.environment
      if result.status = .failed then pure (.failed result)
      else do
        let nextState ← processConditionalApplyResult options state result
        pure (if nextState.stopRun then .stop nextState else .proceed nextState)

def applyConditionalModuleStep (options : ApplyOptions σ) (state : ConditionalApplyState σ)
    (currentModule : Module σ) : Async σ (ConditionalApplyStepResult σ) := do
  let interrupted ← pollOptional options.shutdownSignal
  if interrupted then pure (.stop state)
  else applyConditionalApplyStep options state currentModule

def conditionalResult (state : ConditionalApplyState σ) : ModuleResult σ where
  flushSignals := state.flushSignals
  stopRun := state.stopRun
  metaEntries := if state.metaEntries.isEmpty then none else some state.metaEntries
  status := state.status

def runConditionalModuleLoop (options : ApplyOptions σ) (state : ConditionalApplyState σ) :
    List (Module σ) → Async σ (ModuleResult σ)
  | [] => pure (conditionalResult state)
  | currentModule :: rest => do
      let step ← applyConditionalModuleStep options state currentModule
      match step with
      | .failed result => pure result
      | .stop state => pure (conditionalResult state)
      | .proceed state => runConditionalModuleLoop options state rest

def createConditionalApplyState (environment : Environment σ) : ConditionalApplyState σ where
  environment := environment
  flushSignals := false
  metaEntries := []
  status := .ok
  stopRun := false

def applyConditionalModules (modules : List (Module σ)) (options : ApplyOptions σ)
    (environment : Environment σ) : Async σ (ModuleResult σ) :=
  withRecipeOutputScope
    (runConditionalModuleLoop options (createConditionalApplyState environment) modules)

def checkConditionalModules (environment : Environment σ) :
    List (Module σ) → Async σ CheckResult
  | [] => pure .ok
  | currentModule :: rest => do
      let result ← currentModule.check environment
      match result with
      | .needsApply => pure .needsApply
      | .ok => checkConditionalModules environment rest

/-- Check evaluates the guard and remembers its answer. -/
def evaluateConditionForCheck (block : Nat) (condition : Program σ Bool)
    (environment : Environment σ) : Async σ Bool := do
  let result ← runProgram .check environment condition
  Effect.modify fun state => { state with
    checkedCondition := fun key => if key = block then some result else state.checkedCondition key }
  pure result

def readConditionForApply (block : Nat) (condition : Program σ Bool)
    (environment : Environment σ) : Async σ Bool := do
  let state ← Effect.get
  match state.checkedCondition block with
  | some result => pure result
  | none => runProgram .check environment condition

def skippedResult : ModuleResult σ where
  flushSignals := false
  stopRun := false
  metaEntries := none
  status := .skipped

/-- A `when` block; `block` names the closure that holds its guard memo. -/
def createConditionalModule (block : Nat) (condition : Program σ Bool)
    (modules : List (Module σ)) : Module σ where
  kind := .module
  supportsChildStepHook := true
  check environment := do
    let holds ← evaluateConditionForCheck block condition environment
    if holds then checkConditionalModules environment modules else pure .needsApply
  apply options environment := do
    let holds ← readConditionForApply block condition environment
    if holds then applyConditionalModules modules options environment else pure skippedResult

variable {σ : Type}

/-- What the runner does to the connection of the run, and whether a shutdown signal
arrived. `reconnect true` is the reconnect with the longer window of a reboot. -/
structure Host (σ : Type) where
  addPort : Int → σ → Bool × σ
  removePort : Int → σ → σ
  connectedPort : σ → Int
  reconnect : Bool → σ → Bool × σ
  updateHost : List Char → σ → σ
  sleep : σ → σ
  shutdownRequested : σ → Bool

variable (host : Host σ)

/-- The runner's `shutdownSignal` getter -/
def shutdownSignal : Async σ Bool := do
  let state ← Effect.get
  if host.shutdownRequested state.world then do
    Effect.report .interrupted
    pure true
  else pure false

def actOnWorld {α : Type} (action : σ → α × σ) : Async σ α := do
  let state ← Effect.get
  Effect.modify fun state => { state with world := (action state.world).2 }
  pure (action state.world).1

/-! ### Control-plane metadata -/

def sshdPorts (entries : List ControlPlaneEntry) : List Int :=
  entries.filterMap fun
    | .sshdPort port => some port
    | _ => none

def systemHosts (entries : List ControlPlaneEntry) : List (List Char) :=
  entries.filterMap fun
    | .systemHost name => some name
    | _ => none

def addSshdPorts : List Int → Async σ (List Int)
  | [] => pure []
  | port :: rest => do
      let added ← actOnWorld (host.addPort port)
      let others ← addSshdPorts rest
      pure (if added then port :: others else others)

def removePorts : List Int → Async σ Unit
  | [] => pure ()
  | port :: rest => do
      actOnWorld fun world => ((), host.removePort port world)
      removePorts rest

def hasSystemRebootMeta (entries : List ControlPlaneEntry) : Bool :=
  entries.contains .systemReboot

def shouldSkipPortChangeReconnect (entries : List ControlPlaneEntry) (connectedPort : Int) : Bool :=
  hasSystemRebootMeta entries ||
    (0 < connectedPort && (sshdPorts entries).contains connectedPort)

def handlePortChange (entries : List ControlPlaneEntry) : Async σ Unit :=
  if sshdPorts entries = [] then pure ()
  else do
    let addedPorts ← addSshdPorts host (sshdPorts entries)
    let state ← Effect.get
    if shouldSkipPortChangeReconnect entries (host.connectedPort state.world) then pure ()
    else do
      let reconnected ← actOnWorld (host.reconnect false)
      if reconnected then pure ()
      else do
        let state ← Effect.get
        if 0 < host.connectedPort state.world then Effect.throw
        else do
          removePorts host addedPorts
          Effect.throw

/-- The first reported host is the one to reconnect to. -/
def updateReportedHost (entries : List ControlPlaneEntry) : Async σ Unit :=
  match (systemHosts entries).head? with
  | none => pure ()
  | some name => actOnWorld fun world => ((), host.updateHost name world)

def handleReboot (entries : List ControlPlaneEntry) : Async σ Unit :=
  if hasSystemRebootMeta entries then do
    updateReportedHost host entries
    actOnWorld fun world => ((), host.sleep world)
    let reconnected ← actOnWorld (host.reconnect true)
    if reconnected then pure () else Effect.throw
  else pure ()

def applyRunnerControlPlaneMeta (metaEntries : Option (List (ModuleMetaEntry σ)))
    (status : ModuleStatus) : Async σ Unit :=
  if status = .failed then pure ()
  else
    match metaEntries with
    | none => pure ()
    | some _ => do
      Effect.report (.delivered (controlPlaneEntries metaEntries))
      assertValidModuleMetaEntries metaEntries
      handlePortChange host (controlPlaneEntries metaEntries)
      handleReboot host (controlPlaneEntries metaEntries)

/-- The runner's `onChildStep` and `onSignalStep` hooks -/
def controlPlaneHook (step : OrchestrationStep σ) : Async σ Unit :=
  applyRunnerControlPlaneMeta host step.metaEntries step.status

/-! ### One step -/

structure StepResult (σ : Type) where
  env : Environment σ
  flushSignals : Bool
  shouldBreak : Bool
  status : Option ModuleStatus
  stopRun : Bool

def interruptedStepResult (environment : Environment σ) : StepResult σ where
  env := environment
  flushSignals := false
  shouldBreak := true
  status := none
  stopRun := false

def okStepResult (environment : Environment σ) : StepResult σ where
  env := environment
  flushSignals := false
  shouldBreak := false
  status := some .ok
  stopRun := false

def failedStepResult (environment : Environment σ) : StepResult σ where
  env := environment
  flushSignals := false
  shouldBreak := true
  status := some .failed
  stopRun := false

def handleCaughtStepError (environment : Environment σ) : Async σ (StepResult σ) := do
  let interrupted ← shutdownSignal host
  pure (if interrupted then interruptedStepResult environment else failedStepResult environment)

def handleMetaAndBuildResult (environment : Environment σ) (result : ModuleResult σ) :
    Async σ (StepResult σ) := do
  let currentEnvironment ← mergeEnvironmentFromMeta environment result.metaEntries
  applyRunnerControlPlaneMeta host result.metaEntries result.status
  pure
    { env := currentEnvironment
      flushSignals := result.flushSignals
      shouldBreak := result.status = .failed ∨ result.stopRun
      status := some result.status
      stopRun := result.stopRun }

def updateStats (status : ModuleStatus) : Async σ Unit :=
  if status = .failed then
    Effect.modify fun state => { state with failed := state.failed + 1 }
  else pure ()

def runnerSignalHooks : SignalHooks σ where
  onSignalFinished := updateStats
  onSignalStarted := pure ()

/-- The options of a recipe at top level -/
def recipeOptions : ApplyOptions σ where
  onChildStep := some (controlPlaneHook host)
  onSignalStep := some (controlPlaneHook host)
  shutdownSignal := some (shutdownSignal host)
  signalHooks := some runnerSignalHooks

/-- The options of another composite module at top level -/
def childStepOptions : ApplyOptions σ :=
  { ApplyOptions.absent with
    onChildStep := some (controlPlaneHook host)
    shutdownSignal := some (shutdownSignal host) }

def checkAndApplyRecipe (environment : Environment σ) (recipeModule : Module σ) :
    Async σ (StepResult σ) := do
  let checkResult ← recipeModule.check environment
  match checkResult with
  | .ok => pure (okStepResult environment)
  | .needsApply => do
    reportBody .applied
    let result ← recipeModule.apply (recipeOptions host) environment
    handleMetaAndBuildResult host environment result

def runRecipeModule (environment : Environment σ) (recipeModule : Module σ) :
    Async σ (StepResult σ) := do
  let attempted ← Effect.attempt (checkAndApplyRecipe host environment recipeModule)
  match attempted with
  | some result => pure result
  | none => handleCaughtStepError host environment

def executeModuleForApply (environment : Environment σ) (targetModule : Module σ) :
    Async σ (ModuleResult σ) :=
  if targetModule.supportsChildStepHook then
    targetModule.apply (childStepOptions host) environment
  else targetModule.apply .absent environment

def checkAndApplyModule (environment : Environment σ) (targetModule : Module σ) :
    Async σ (StepResult σ) := do
  let checkResult ← targetModule.check environment
  match checkResult with
  | .ok => pure (okStepResult environment)
  | .needsApply => do
    let interrupted ← shutdownSignal host
    if interrupted then pure (interruptedStepResult environment)
    else do
      reportBody .applied
      let result ← executeModuleForApply host environment targetModule
      handleMetaAndBuildResult host environment result

def runRegularModule (environment : Environment σ) (targetModule : Module σ) :
    Async σ (StepResult σ) := do
  let attempted ← Effect.attempt (checkAndApplyModule host environment targetModule)
  match attempted with
  | some result => pure result
  | none => handleCaughtStepError host environment

/-- A thrown check or apply is caught, and the caught step follows. -/
theorem runRecipeModule_eq (environment : Environment σ) (recipeModule : Module σ) :
    runRecipeModule host environment recipeModule =
      Effect.attempt (checkAndApplyRecipe host environment recipeModule) >>= fun attempted =>
        attempted.elim (handleCaughtStepError host environment) pure := by
  refine bind_congr fun attempted => ?_
  cases attempted with
  | none => rfl
  | some result => rfl

theorem runRegularModule_eq (environment : Environment σ) (targetModule : Module σ) :
    runRegularModule host environment targetModule =
      Effect.attempt (checkAndApplyModule host environment targetModule) >>= fun attempted =>
        attempted.elim (handleCaughtStepError host environment) pure := by
  refine bind_congr fun attempted => ?_
  cases attempted with
  | none => rfl
  | some result => rfl

def createModuleStepPromise (environment : Environment σ) (currentModule : Module σ) :
    Async σ (StepResult σ) :=
  if isRecipe currentModule then runRecipeModule host environment currentModule
  else runRegularModule host environment currentModule

/-! ### The loop -/

structure ModuleLoopState (σ : Type) where
  currentEnvironment : Environment σ
  signalsPending : Bool
  stopRun : Bool

/-- `runSignals` -/
def runSignals (environment : Environment σ) (signals : List (Module σ)) :
    Async σ SignalRunStatus :=
  runSignalModules
    { hooks := some runnerSignalHooks, onSignalStep := some (controlPlaneHook host)
      shutdownSignal := some (shutdownSignal host) } environment signals

def applyLoopResultToState (state : ModuleLoopState σ) (result : StepResult σ) :
    ModuleLoopState σ where
  currentEnvironment := result.env
  signalsPending := if result.status = some .changed then true else state.signalsPending
  stopRun := if result.stopRun then true else state.stopRun

def countStep (result : StepResult σ) : Async σ Unit :=
  match result.status with
  | none => pure ()
  | some status => do
      updateStats status
      reportBody (.reported status result.flushSignals)

inductive FlushOutcome where
  | stop
  | proceed
deriving DecidableEq, Repr

structure FlushResult where
  nextSignalsPending : Bool
  outcome : FlushOutcome

/-- `shouldFlushTopLevelSignals` asks for the shutdown signal after the two flags. -/
def shouldFlushTopLevelSignals (result : StepResult σ) (loopState : ModuleLoopState σ) :
    Async σ Bool :=
  if result.flushSignals then do
    let interrupted ← shutdownSignal host
    let state ← Effect.get
    pure (!interrupted && loopState.signalsPending && state.failed = 0)
  else pure false

def flushTopLevelSignalsIfRequested (definitionSignals : Option (List (Module σ)))
    (result : StepResult σ) (loopState : ModuleLoopState σ) : Async σ FlushResult := do
  let flush ← shouldFlushTopLevelSignals host result loopState
  match definitionSignals with
  | none => pure { nextSignalsPending := loopState.signalsPending, outcome := .proceed }
  | some signals =>
    if flush then do
      let signalStatus ← runSignals host loopState.currentEnvironment signals
      pure { nextSignalsPending := false
             outcome := if signalStatus = .failed then .stop else .proceed }
    else pure { nextSignalsPending := loopState.signalsPending, outcome := .proceed }

/-- The loop of `runModuleLoop`. -/
def runModuleLoop (definitionSignals : Option (List (Module σ))) (loopState : ModuleLoopState σ) :
    List (Module σ) → Async σ (ModuleLoopState σ)
  | [] => pure loopState
  | currentModule :: rest => do
      let interrupted ← shutdownSignal host
      if interrupted then pure loopState
      else do
        let result ← createModuleStepPromise host loopState.currentEnvironment currentModule
        countStep result
        let afterStep := applyLoopResultToState loopState result
        let flushResult ← flushTopLevelSignalsIfRequested host definitionSignals result afterStep
        let nextState := { afterStep with signalsPending := flushResult.nextSignalsPending }
        if flushResult.outcome = .stop ∨ result.shouldBreak then pure nextState
        else runModuleLoop definitionSignals nextState rest

def initialLoopState (environment : Environment σ) : ModuleLoopState σ where
  currentEnvironment := environment
  signalsPending := false
  stopRun := false

def runEndSignals (definitionSignals : Option (List (Module σ))) (loopResult : ModuleLoopState σ) :
    Async σ Unit := do
  let interrupted ← shutdownSignal host
  let state ← Effect.get
  match definitionSignals with
  | none => pure ()
  | some signals =>
    if !interrupted ∧ loopResult.signalsPending ∧ state.failed = 0 then do
      let _ ← runSignals host loopResult.currentEnvironment signals
      pure ()
    else pure ()

/-- A run in apply mode; `modules` and `signals` are `definition.run` and
`definition.signals`. -/
def executeRun (modules : List (Module σ)) (signals : Option (List (Module σ)))
    (environment : Environment σ) : Async σ (ModuleLoopState σ) := do
  let loopResult ← runModuleLoop host signals (initialLoopState environment) modules
  runEndSignals host signals loopResult
  pure loopResult

/-! ### The modules of a playbook -/

/-- The options that a run hands down: the runner's own, and what recipes, `when`
blocks and signal passes make of the options they were given. -/
inductive RunnerOptions : ApplyOptions σ → Prop where
  | recipe : RunnerOptions (recipeOptions host)
  | childStep : RunnerOptions (childStepOptions host)
  | absent : RunnerOptions .absent
  | child {options : ApplyOptions σ} (given : RunnerOptions options) :
      RunnerOptions
        { ApplyOptions.absent with
          onChildStep := options.onChildStep, shutdownSignal := options.shutdownSignal }
  | conditional {options : ApplyOptions σ} (given : RunnerOptions options) :
      RunnerOptions
        { ApplyOptions.absent with
          onChildStep := options.onChildStep
          shutdownSignal := some (pollOptional options.shutdownSignal) }
  | signal {options : ApplyOptions σ} (given : RunnerOptions options) :
      RunnerOptions { ApplyOptions.absent with shutdownSignal := options.shutdownSignal }

/-- Modules built from leaves, recipes with signals and `when` blocks. -/
inductive Built : Module σ → Prop where
  | leaf (leaf : Leaf σ) : Built leaf.toModule
  | recipe {modules : List (Module σ)} {signals : Option (List (Module σ))}
      (children : ∀ child ∈ modules, Built child)
      (signalModules : ∀ list, signals = some list → ∀ signal ∈ list, Built signal) :
      Built (recipe host.shutdownRequested modules signals)
  | conditional (block : Nat) (condition : Program σ Bool) {modules : List (Module σ)}
      (children : ∀ child ∈ modules, Built child) :
      Built (createConditionalModule block condition modules)

/-! ### A small host -/

/-- A host on which everything succeeds at once. -/
def steadyHost : Host Unit where
  addPort _ world := (true, world)
  removePort _ world := world
  connectedPort _ := 22
  reconnect _ world := (true, world)
  updateHost _ world := world
  sleep world := world
  shutdownRequested _ := false

/-- A leaf that needs apply and then reports the given result. -/
def resultLeaf (name : Nat) (status : ModuleStatus) (flushSignals : Bool)
    (entries : List (ModuleMetaEntry Unit)) : Leaf Unit where
  name := name
  check := .finish (some .needsApply)
  apply := .finish (some
    { flushSignals := flushSignals, stopRun := false, metaEntries := some entries
      status := status })

def startState : RunState Unit where
  world := ()
  cells := []
  emitted := 0
  checkedCondition := fun _ => none
  recipeOutputDepth := 0
  failed := 0

def emptyEnvironment : Environment Unit := fun _ => none

end Paratix.Orchestration
