/-
Module: Paratix.Orchestration.DryRunAggregation
Purpose: The dry run of the containers, and when nothing is lost of what it reports about the
  children it executed.
Main exports: conditionalDryRunModule, dryRunAggregates_iff
-/
import Paratix.Orchestration.Runner

namespace Paratix.Orchestration

open Foundation

variable {σ : Type}

/-! ### Modules as a dry run sees them -/

structure DryRunOptions (σ : Type) where
  diff : Bool
  shutdownSignal : Async σ Bool

/-- A module that is not a recipe, with its `_applyDryRun` hook and its markers. -/
structure PlainModule (σ : Type) where
  own : Module σ
  applyDryRun : Option (DryRunOptions σ → Environment σ → Async σ (ModuleResult σ))
  dryRunBlocker : Bool
  dryRunMetaProducer : Bool
  dryRunDiffProducer : Bool
  notRecipe : isRecipe own = false

/-- A recipe keeps its children in reach of the dry run. -/
inductive DryRunModule (σ : Type) where
  | plain (plainModule : PlainModule σ)
  | recipe (shutdownRequested : σ → Bool) (modules : List (DryRunModule σ))
      (signals : Option (List (Module σ)))

mutual

/-- The module with the `check` and the `apply` of a real run. -/
def DryRunModule.toModule : DryRunModule σ → Module σ
  | .plain plainModule => plainModule.own
  | .recipe shutdownRequested modules signals =>
      Orchestration.recipe shutdownRequested (toModules modules) signals

def toModules : List (DryRunModule σ) → List (Module σ)
  | [] => []
  | module :: rest => module.toModule :: toModules rest

end

def shouldExecuteApplyDuringDryRun (plainModule : PlainModule σ) (diffEnabled : Bool) : Bool :=
  if plainModule.dryRunBlocker || plainModule.dryRunMetaProducer then true
  else if diffEnabled && plainModule.dryRunDiffProducer && plainModule.applyDryRun.isSome then true
  else plainModule.applyDryRun.isSome && !plainModule.dryRunDiffProducer

/-! ### One child -/

/-- A step that failed always ends the loop around it. -/
structure DryRunStepResult (σ : Type) where
  env : Environment σ
  metaEntries : Option (List (ModuleMetaEntry σ))
  shouldBreak : Bool
  status : Option ModuleStatus
  stopRun : Bool
  failed_breaks : status = some .failed → shouldBreak = true

/-- The result of a step that a shutdown signal cut short: no metadata, no status. -/
def brokenOffResult (environment : Environment σ) : DryRunStepResult σ where
  env := environment
  metaEntries := none
  shouldBreak := true
  status := none
  stopRun := false
  failed_breaks _ := rfl

def applyBlockingModule (options : DryRunOptions σ) (childModule : PlainModule σ)
    (environment : Environment σ) : Async σ (ModuleResult σ) :=
  match childModule.applyDryRun with
  | none => childModule.own.apply .absent environment
  | some applyDryRun => applyDryRun options environment

def blockingStepResult (nextEnvironment : Environment σ) (result : ModuleResult σ) :
    DryRunStepResult σ where
  env := nextEnvironment
  metaEntries := result.metaEntries
  shouldBreak := result.status = .failed ∨ result.stopRun
  status := some result.status
  stopRun := result.stopRun
  failed_breaks isFailed := by simp [Option.some.inj isFailed]

def executeDryRunBlockingModule (options : DryRunOptions σ) (childModule : PlainModule σ)
    (environment : Environment σ) : Async σ (DryRunStepResult σ) := do
  let interrupted ← options.shutdownSignal
  if interrupted then pure (brokenOffResult environment)
  else do
    let result ← applyBlockingModule options childModule environment
    let nextEnvironment ← mergeEnvironmentFromMeta environment result.metaEntries
    pure (blockingStepResult nextEnvironment result)

/-- A child that is only checked shows as `ok` or as `changed`. -/
def passiveStepResult (environment : Environment σ) (checkResult : CheckResult) :
    DryRunStepResult σ where
  env := environment
  metaEntries := none
  shouldBreak := false
  status := some (if checkResult = .ok then .ok else .changed)
  stopRun := false
  failed_breaks isFailed := by
    split at isFailed
    · cases isFailed
    · cases isFailed

/-- `executeDryRunChildModule` from the check on, for a child that is not a recipe -/
def executeDryRunPlainModule (options : DryRunOptions σ) (childModule : PlainModule σ)
    (environment : Environment σ) : Async σ (DryRunStepResult σ) := do
  let checkResult ← childModule.own.check environment
  let interrupted ← options.shutdownSignal
  if interrupted then pure (brokenOffResult environment)
  else if checkResult ≠ .ok ∧ shouldExecuteApplyDuringDryRun childModule options.diff then
    executeDryRunBlockingModule options childModule environment
  else pure (passiveStepResult environment checkResult)

/-! ### The loop of a recipe -/

inductive AggregatedStatus where
  | changed
  | ok
deriving DecidableEq, Repr

def AggregatedStatus.toStatus : AggregatedStatus → ModuleStatus
  | .changed => .changed
  | .ok => .ok

structure DryRunRecipeAccumulator (σ : Type) where
  aggregatedMeta : List (ModuleMetaEntry σ)
  aggregatedStatus : AggregatedStatus
  currentEnvironment : Environment σ

def initialAccumulator (environment : Environment σ) : DryRunRecipeAccumulator σ where
  aggregatedMeta := []
  aggregatedStatus := .ok
  currentEnvironment := environment

def applyDryRunChildResult (accumulator : DryRunRecipeAccumulator σ)
    (result : DryRunStepResult σ) : DryRunRecipeAccumulator σ where
  aggregatedMeta := accumulator.aggregatedMeta ++ result.metaEntries.getD []
  aggregatedStatus :=
    if result.status = some .changed then .changed else accumulator.aggregatedStatus
  currentEnvironment := result.env

/-- `meta.length === 0 ? undefined : meta` -/
def metaUnlessEmpty (entries : List (ModuleMetaEntry σ)) : Option (List (ModuleMetaEntry σ)) :=
  if entries.isEmpty then none else some entries

def interruptedDryRunResult (accumulator : DryRunRecipeAccumulator σ) : DryRunStepResult σ where
  env := accumulator.currentEnvironment
  metaEntries := metaUnlessEmpty accumulator.aggregatedMeta
  shouldBreak := true
  status := if accumulator.aggregatedStatus = .changed then some .changed else none
  stopRun := false
  failed_breaks _ := rfl

inductive DryRunLoopResult (σ : Type) where
  | accumulated (accumulator : DryRunRecipeAccumulator σ)
  | step (result : DryRunStepResult σ)

/-- What `dryRunRecipeModule` makes of the end of its loop. -/
def finishDryRunRecipe : DryRunLoopResult σ → DryRunStepResult σ
  | .step result => result
  | .accumulated accumulator =>
    { env := accumulator.currentEnvironment
      metaEntries := metaUnlessEmpty accumulator.aggregatedMeta
      shouldBreak := false
      status := some accumulator.aggregatedStatus.toStatus
      stopRun := false
      failed_breaks := fun isFailed => by cases status : accumulator.aggregatedStatus <;>
        rw [status] at isFailed <;> cases isFailed }

def closeDryRunRecipe (loop : Async σ (DryRunLoopResult σ)) : Async σ (DryRunStepResult σ) :=
  withRecipeOutputScope do
    let loopResult ← loop
    pure (finishDryRunRecipe loopResult)

mutual

/-- A recipe is descended into without a check of its own. -/
def executeDryRunChildModule (options : DryRunOptions σ) :
    DryRunModule σ → Environment σ → Async σ (DryRunStepResult σ)
  | .plain childModule, environment => do
      let interrupted ← options.shutdownSignal
      if interrupted then pure (brokenOffResult environment)
      else executeDryRunPlainModule options childModule environment
  | .recipe _ modules _, environment => do
      let interrupted ← options.shutdownSignal
      if interrupted then pure (brokenOffResult environment)
      else closeDryRunRecipe (runDryRunChildLoop options modules (initialAccumulator environment))

/-- A child that breaks the loop is the result of the loop, whatever was accumulated. -/
def runDryRunChildLoop (options : DryRunOptions σ) :
    List (DryRunModule σ) → DryRunRecipeAccumulator σ → Async σ (DryRunLoopResult σ)
  | [], accumulator => pure (.accumulated accumulator)
  | childModule :: rest, accumulator => do
      let interrupted ← options.shutdownSignal
      if interrupted then pure (.step (interruptedDryRunResult accumulator))
      else do
        let result ← executeDryRunChildModule options childModule accumulator.currentEnvironment
        if result.shouldBreak then pure (.step result)
        else runDryRunChildLoop options rest (applyDryRunChildResult accumulator result)

end

def dryRunRecipeModule (options : DryRunOptions σ) (modules : List (DryRunModule σ))
    (environment : Environment σ) : Async σ (DryRunStepResult σ) :=
  closeDryRunRecipe (runDryRunChildLoop options modules (initialAccumulator environment))

/-! ### The loop of a `when` block -/

def mergeConditionalDryRunStep (state : ConditionalApplyState σ) (step : DryRunStepResult σ) :
    ConditionalApplyState σ :=
  { state with
    environment := step.env
    metaEntries := state.metaEntries ++ step.metaEntries.getD []
    status := if step.status = some .changed then .changed else state.status
    stopRun := if step.stopRun then true else state.stopRun }

/-- The result of a block with a failed child -/
def failedDryRunResult (step : DryRunStepResult σ) : ModuleResult σ where
  flushSignals := false
  stopRun := false
  metaEntries := step.metaEntries
  status := .failed

def applyConditionalDryRunStep (options : DryRunOptions σ) (currentModule : DryRunModule σ)
    (state : ConditionalApplyState σ) : Async σ (ConditionalApplyStepResult σ) := do
  let step ← executeDryRunChildModule options currentModule state.environment
  if step.status = some .failed then pure (.failed (failedDryRunResult step))
  else if step.shouldBreak then pure (.stop (mergeConditionalDryRunStep state step))
  else pure (.proceed (mergeConditionalDryRunStep state step))

/-- `runConditionalModuleLoop` in a dry run -/
def runConditionalDryRunLoop (options : DryRunOptions σ) :
    List (DryRunModule σ) → ConditionalApplyState σ → Async σ (ModuleResult σ)
  | [], state => pure (conditionalResult state)
  | currentModule :: rest, state => do
      let interrupted ← options.shutdownSignal
      if interrupted then pure (conditionalResult state)
      else do
        let step ← applyConditionalDryRunStep options currentModule state
        match step with
        | .failed result => pure result
        | .stop state => pure (conditionalResult state)
        | .proceed state => runConditionalDryRunLoop options rest state

/-- `applyConditionalModules` in a dry run -/
def dryRunConditionalModules (options : DryRunOptions σ) (modules : List (DryRunModule σ))
    (environment : Environment σ) : Async σ (ModuleResult σ) :=
  withRecipeOutputScope
    (runConditionalDryRunLoop options modules (createConditionalApplyState environment))

/-- A `when` block with its `_applyDryRun` hook. -/
def conditionalDryRunModule (block : Nat) (condition : Program σ Bool)
    (modules : List (DryRunModule σ)) : PlainModule σ where
  own := createConditionalModule block condition (toModules modules)
  applyDryRun := some fun options environment => do
    let holds ← readConditionForApply block condition environment
    if holds then dryRunConditionalModules options modules environment else pure skippedResult
  dryRunBlocker := false
  dryRunMetaProducer := false
  dryRunDiffProducer := false
  notRecipe := rfl

variable {σ : Type}

/-! ### The children that a container executes -/

/-- How the sequence of children ended: after the last one, at a poll between two of
them, or with a child that leaves early. -/
inductive Ending (σ : Type) where
  | exhausted
  | interrupted
  | left (result : DryRunStepResult σ) (breaks : result.shouldBreak = true)

/-- The results of the executed children. -/
structure ExecutedChildren (σ : Type) where
  passed : List (DryRunStepResult σ)
  ending : Ending σ
  passedOn : ∀ result ∈ passed, result.shouldBreak = false

def Ending.results : Ending σ → List (DryRunStepResult σ)
  | .exhausted => []
  | .interrupted => []
  | .left result _ => [result]

def ExecutedChildren.results (executed : ExecutedChildren σ) : List (DryRunStepResult σ) :=
  executed.passed ++ executed.ending.results

def ExecutedChildren.onlyEnding (ending : Ending σ) : ExecutedChildren σ where
  passed := []
  ending := ending
  passedOn := nofun

def ExecutedChildren.cons (result : DryRunStepResult σ) (passes : result.shouldBreak = false)
    (later : ExecutedChildren σ) : ExecutedChildren σ where
  passed := result :: later.passed
  ending := later.ending
  passedOn := by
    rintro other (_ | ⟨_, member⟩)
    · exact passes
    · exact later.passedOn other member

/-- One child after the other, until one leaves early or a shutdown is requested. -/
def executeDryRunChildren (options : DryRunOptions σ) :
    List (DryRunModule σ) → Environment σ → Async σ (ExecutedChildren σ)
  | [], _ => pure (.onlyEnding .exhausted)
  | childModule :: rest, env => do
      let interrupted ← options.shutdownSignal
      if interrupted then pure (.onlyEnding .interrupted)
      else do
        let result ← executeDryRunChildModule options childModule env
        if breaks : result.shouldBreak = true then pure (.onlyEnding (.left result breaks))
        else do
          let later ← executeDryRunChildren options rest result.env
          pure (later.cons result (Bool.eq_false_iff.2 breaks))

/-- The same inside the output scope of the container. -/
def executedChildren (options : DryRunOptions σ) (modules : List (DryRunModule σ))
    (env : Environment σ) : Async σ (ExecutedChildren σ) :=
  withRecipeOutputScope (executeDryRunChildren options modules env)

theorem withRecipeOutputScope_map {α β : Type} (change : α → β) (operation : Async σ α) :
    withRecipeOutputScope (change <$> operation) = change <$> withRecipeOutputScope operation := by
  unfold withRecipeOutputScope
  simp only [map_bind, Effect.attempt_map, bind_map_left, Effect.rethrow_map]

/-! ### Both loops are functions of the executed children -/

/-- The end of the recipe's loop. -/
def recipeOutcome (accumulator : DryRunRecipeAccumulator σ) (executed : ExecutedChildren σ) :
    DryRunLoopResult σ :=
  match executed.ending with
  | .exhausted => .accumulated (executed.passed.foldl applyDryRunChildResult accumulator)
  | .interrupted =>
      .step (interruptedDryRunResult (executed.passed.foldl applyDryRunChildResult accumulator))
  | .left result _ => .step result

/-- The end of the block's loop. -/
def blockOutcome (state : ConditionalApplyState σ) (executed : ExecutedChildren σ) :
    ModuleResult σ :=
  let reached := executed.passed.foldl mergeConditionalDryRunStep state
  match executed.ending with
  | .exhausted => conditionalResult reached
  | .interrupted => conditionalResult reached
  | .left result _ =>
      if result.status = some .failed then failedDryRunResult result
      else conditionalResult (mergeConditionalDryRunStep reached result)

theorem runDryRunChildLoop_eq (options : DryRunOptions σ) (modules : List (DryRunModule σ))
    (accumulator : DryRunRecipeAccumulator σ) : runDryRunChildLoop options modules accumulator =
      recipeOutcome accumulator <$>
        executeDryRunChildren options modules accumulator.currentEnvironment := by
  induction modules generalizing accumulator with
  | nil => rfl
  | cons childModule rest ih =>
    simp only [runDryRunChildLoop, executeDryRunChildren, map_bind]
    refine bind_congr fun interrupted => ?_
    cases interrupted with
    | true => rfl
    | false =>
      simp only [Bool.false_eq_true, if_false, map_bind]
      refine bind_congr fun result => ?_
      by_cases breaks : result.shouldBreak = true
      · rw [if_pos breaks, dif_pos breaks]
        rfl
      · rw [if_neg breaks, dif_neg breaks, ih, map_bind, map_eq_pure_bind]
        rfl

theorem runConditionalDryRunLoop_eq (options : DryRunOptions σ) (modules : List (DryRunModule σ))
    (state : ConditionalApplyState σ) : runConditionalDryRunLoop options modules state =
      blockOutcome state <$> executeDryRunChildren options modules state.environment := by
  induction modules generalizing state with
  | nil => rfl
  | cons childModule rest ih =>
    simp only [runConditionalDryRunLoop, applyConditionalDryRunStep, executeDryRunChildren,
      map_bind]
    refine bind_congr fun interrupted => ?_
    cases interrupted with
    | true => rfl
    | false =>
      simp only [Bool.false_eq_true, if_false, map_bind, bind_assoc]
      refine bind_congr fun result => ?_
      by_cases breaks : result.shouldBreak = true
      · rw [dif_pos breaks, if_pos breaks]
        by_cases isFailed : result.status = some .failed
        · simp only [if_pos isFailed, pure_bind, map_pure, blockOutcome,
            ExecutedChildren.onlyEnding, List.foldl_nil]
        · simp only [if_neg isFailed, pure_bind, map_pure, blockOutcome,
            ExecutedChildren.onlyEnding, List.foldl_nil]
      · have running : result.status ≠ some .failed := fun isFailed =>
          breaks (result.failed_breaks isFailed)
        rw [dif_neg breaks, if_neg running, if_neg breaks, pure_bind]
        dsimp only
        rw [ih, map_bind, map_eq_pure_bind]
        rfl

theorem dryRunRecipeModule_eq (options : DryRunOptions σ) (modules : List (DryRunModule σ))
    (env : Environment σ) : dryRunRecipeModule options modules env =
      (fun executed => finishDryRunRecipe (recipeOutcome (initialAccumulator env) executed))
        <$> executedChildren options modules env := by
  unfold dryRunRecipeModule closeDryRunRecipe executedChildren
  rw [runDryRunChildLoop_eq, ← withRecipeOutputScope_map]
  simp only [map_eq_pure_bind, bind_assoc, pure_bind]
  rfl

theorem dryRunConditionalModules_eq (options : DryRunOptions σ) (modules : List (DryRunModule σ))
    (env : Environment σ) : dryRunConditionalModules options modules env =
      blockOutcome (createConditionalApplyState env)
        <$> executedChildren options modules env := by
  unfold dryRunConditionalModules executedChildren
  rw [runConditionalDryRunLoop_eq, withRecipeOutputScope_map]
  rfl

/-! ### What the accumulators hold -/

/-- What is kept of the results so far. -/
structure Summary (σ : Type) where
  changed : Bool
  metaEntries : List (ModuleMetaEntry σ)

def Summary.add (summary : Summary σ) (result : DryRunStepResult σ) : Summary σ where
  changed := summary.changed || result.status = some .changed
  metaEntries := summary.metaEntries ++ result.metaEntries.getD []

def DryRunRecipeAccumulator.summary (accumulator : DryRunRecipeAccumulator σ) : Summary σ where
  changed := accumulator.aggregatedStatus = .changed
  metaEntries := accumulator.aggregatedMeta

def ConditionalApplyState.summary (state : ConditionalApplyState σ) : Summary σ where
  changed := state.status = .changed
  metaEntries := state.metaEntries

theorem summary_applyDryRunChildResult (accumulator : DryRunRecipeAccumulator σ)
    (result : DryRunStepResult σ) :
    (applyDryRunChildResult accumulator result).summary = accumulator.summary.add result := by
  by_cases changed : result.status = some .changed
  · simp [DryRunRecipeAccumulator.summary, applyDryRunChildResult, Summary.add, changed]
  · simp [DryRunRecipeAccumulator.summary, applyDryRunChildResult, Summary.add, changed]

theorem summary_mergeConditionalDryRunStep (state : ConditionalApplyState σ)
    (result : DryRunStepResult σ) :
    (mergeConditionalDryRunStep state result).summary = state.summary.add result := by
  by_cases changed : result.status = some .changed
  · simp [ConditionalApplyState.summary, mergeConditionalDryRunStep, Summary.add, changed]
  · simp [ConditionalApplyState.summary, mergeConditionalDryRunStep, Summary.add, changed]

def mergedMeta (results : List (DryRunStepResult σ)) : List (ModuleMetaEntry σ) :=
  results.flatMap fun result => result.metaEntries.getD []

theorem foldl_add (results : List (DryRunStepResult σ)) (summary : Summary σ) :
    (results.foldl Summary.add summary).metaEntries = summary.metaEntries ++ mergedMeta results ∧
      ((results.foldl Summary.add summary).changed = true ↔
        summary.changed = true ∨ ∃ result ∈ results, result.status = some .changed) := by
  induction results generalizing summary with
  | nil => simp [mergedMeta]
  | cons result rest ih =>
    obtain ⟨gathered, changed⟩ := ih (summary.add result)
    constructor
    · rw [List.foldl_cons, gathered]
      simp [Summary.add, mergedMeta]
    · rw [List.foldl_cons, changed]
      simp [Summary.add, or_assoc]

/-- The summary of a sequence of results. -/
def summarize (results : List (DryRunStepResult σ)) : Summary σ :=
  results.foldl Summary.add { changed := false, metaEntries := [] }

theorem summary_recipe (results : List (DryRunStepResult σ)) (env : Environment σ) :
    (results.foldl applyDryRunChildResult (initialAccumulator env)).summary = summarize results :=
  (List.foldl_hom DryRunRecipeAccumulator.summary fun accumulator result =>
    (summary_applyDryRunChildResult accumulator result).symm).symm

theorem summary_block (results : List (DryRunStepResult σ)) (env : Environment σ) :
    (results.foldl mergeConditionalDryRunStep (createConditionalApplyState env)).summary =
      summarize results :=
  (List.foldl_hom ConditionalApplyState.summary fun state result =>
    (summary_mergeConditionalDryRunStep state result).symm).symm

theorem foldl_merge_not_failed {state : ConditionalApplyState σ} (running : state.status ≠ .failed)
    (results : List (DryRunStepResult σ)) :
    (results.foldl mergeConditionalDryRunStep state).status ≠ .failed := by
  induction results generalizing state with
  | nil => exact running
  | cons result rest ih =>
    refine ih ?_
    unfold mergeConditionalDryRunStep
    split
    · exact nofun
    · exact running

@[simp] theorem metaUnlessEmpty_getD (entries : List (ModuleMetaEntry σ)) :
    (metaUnlessEmpty entries).getD [] = entries := by
  cases entries with
  | nil => rfl
  | cons entry rest => rfl

/-! ### What a container should report -/

/-- `changed` if a child changed and none failed, `failed` if one failed, and the
metadata of all of them. -/
structure Aggregates (results : List (DryRunStepResult σ)) (status : Option ModuleStatus)
    (metaEntries : Option (List (ModuleMetaEntry σ))) : Prop where
  changed : status = some .changed ↔
    (∃ result ∈ results, result.status = some .changed) ∧
      ∀ result ∈ results, result.status ≠ some .failed
  failed : status = some .failed ↔ ∃ result ∈ results, result.status = some .failed
  merged : metaEntries.getD [] = mergedMeta results

/-- The two containers report the same. -/
structure Agree (recipeResult : DryRunStepResult σ) (blockResult : ModuleResult σ) : Prop where
  changed : recipeResult.status = some .changed ↔ blockResult.status = .changed
  failed : recipeResult.status = some .failed ↔ blockResult.status = .failed
  merged : recipeResult.metaEntries.getD [] = blockResult.metaEntries.getD []

/-- From this state, the recipe and the block over these children report what the
children that they execute there reported. -/
def ReportsChildren (options : DryRunOptions σ) (modules : List (DryRunModule σ))
    (env : Environment σ) (state : RunState σ) : Prop :=
  ∀ executed, ((executedChildren options modules env).run state).value = some executed →
    ∃ recipeResult blockResult,
      ((dryRunRecipeModule options modules env).run state).value = some recipeResult ∧
      ((dryRunConditionalModules options modules env).run state).value = some blockResult ∧
      Aggregates executed.results recipeResult.status recipeResult.metaEntries ∧
      Aggregates executed.results (some blockResult.status) blockResult.metaEntries ∧
      Agree recipeResult blockResult

/-- A child that leaves early takes its own status and metadata along only: nothing is
lost if the children before it returned no metadata and did not change, or if it failed
or changed itself. -/
def NothingLost (executed : ExecutedChildren σ) : Prop :=
  match executed.ending with
  | .exhausted => True
  | .interrupted => True
  | .left result _ =>
      mergedMeta executed.passed = [] ∧
        (result.status = some .failed ∨ result.status = some .changed ∨
          ∀ earlier ∈ executed.passed, earlier.status ≠ some .changed)

theorem agree_of_aggregates {results : List (DryRunStepResult σ)}
    {recipeResult : DryRunStepResult σ} {blockResult : ModuleResult σ}
    (ofRecipe : Aggregates results recipeResult.status recipeResult.metaEntries)
    (ofBlock : Aggregates results (some blockResult.status) blockResult.metaEntries) :
    Agree recipeResult blockResult where
  changed := ofRecipe.changed.trans (ofBlock.changed.symm.trans Option.some_inj)
  failed := ofRecipe.failed.trans (ofBlock.failed.symm.trans Option.some_inj)
  merged := ofRecipe.merged.trans ofBlock.merged.symm

/-- A summary of results none of which failed. -/
theorem aggregates_of_summary {results : List (DryRunStepResult σ)} {status : Option ModuleStatus}
    {metaEntries : Option (List (ModuleMetaEntry σ))}
    (noneFailed : ∀ result ∈ results, result.status ≠ some .failed)
    (running : status ≠ some .failed)
    (changed : status = some .changed ↔ (summarize results).changed = true)
    (gathered : metaEntries.getD [] = (summarize results).metaEntries) :
    Aggregates results status metaEntries where
  changed := by
    rw [changed, summarize, (foldl_add results _).2]
    constructor
    · rintro (changedBefore | someChanged)
      · cases changedBefore
      · exact ⟨someChanged, noneFailed⟩
    · exact fun both => .inr both.1
  failed := by
    constructor
    · exact fun isFailed => absurd isFailed running
    · rintro ⟨result, member, isFailed⟩
      exact absurd isFailed (noneFailed result member)
  merged := by
    rw [gathered, summarize, (foldl_add results _).1]
    rfl

theorem passed_not_failed (executed : ExecutedChildren σ) :
    ∀ result ∈ executed.passed, result.status ≠ some .failed := by
  intro result member isFailed
  have passes := executed.passedOn result member
  rw [result.failed_breaks isFailed] at passes
  cases passes

/-! ### The recipe -/

/-- As long as no child left early, the recipe's accumulator is the summary. -/
theorem aggregates_accumulated {passed : List (DryRunStepResult σ)}
    (noneFailed : ∀ result ∈ passed, result.status ≠ some .failed) (env : Environment σ) :
    let accumulator := passed.foldl applyDryRunChildResult (initialAccumulator env)
    Aggregates passed (some accumulator.aggregatedStatus.toStatus)
        (metaUnlessEmpty accumulator.aggregatedMeta) ∧
      Aggregates passed (interruptedDryRunResult accumulator).status
        (interruptedDryRunResult accumulator).metaEntries := by
  intro accumulator
  have summary : accumulator.summary = summarize passed := summary_recipe passed env
  have changed : accumulator.aggregatedStatus = .changed ↔ (summarize passed).changed = true := by
    rw [← summary]
    exact decide_eq_true_iff.symm
  have gathered : (metaUnlessEmpty accumulator.aggregatedMeta).getD [] =
      (summarize passed).metaEntries := by
    rw [← summary, metaUnlessEmpty_getD]
    rfl
  constructor
  · refine aggregates_of_summary noneFailed ?_ ?_ gathered
    · cases accumulator.aggregatedStatus with
      | changed => exact nofun
      | ok => exact nofun
    · rw [← changed]
      cases accumulator.aggregatedStatus with
      | changed => exact iff_of_true rfl rfl
      | ok => exact iff_of_false nofun nofun
  · refine aggregates_of_summary noneFailed ?_ ?_ gathered
    · unfold interruptedDryRunResult
      split
      · exact nofun
      · exact nofun
    · rw [← changed]
      unfold interruptedDryRunResult
      split
      · exact iff_of_true rfl ‹_›
      · exact iff_of_false nofun ‹_›

/-- The result of a child that leaves early stands for all children if it loses
nothing of the earlier ones. -/
theorem aggregates_left_iff {passed : List (DryRunStepResult σ)} {result : DryRunStepResult σ}
    (noneFailed : ∀ earlier ∈ passed, earlier.status ≠ some .failed) :
    Aggregates (passed ++ [result]) result.status result.metaEntries ↔
      mergedMeta passed = [] ∧
        (result.status = some .failed ∨ result.status = some .changed ∨
          ∀ earlier ∈ passed, earlier.status ≠ some .changed) := by
  have merged : mergedMeta (passed ++ [result]) =
      mergedMeta passed ++ result.metaEntries.getD [] := by
    simp [mergedMeta]
  have someChanged : (∃ other ∈ passed ++ [result], other.status = some .changed) ↔
      (∃ earlier ∈ passed, earlier.status = some .changed) ∨ result.status = some .changed := by
    simp only [List.mem_append, List.mem_singleton, or_and_right, exists_or, exists_eq_left]
  have allRunning : (∀ other ∈ passed ++ [result], other.status ≠ some .failed) ↔
      result.status ≠ some .failed := by
    rw [List.forall_mem_append, List.forall_mem_singleton]
    exact and_iff_right noneFailed
  constructor
  · intro aggregates
    constructor
    · have whole := aggregates.merged
      rw [merged] at whole
      exact List.self_eq_append_left.1 whole
    · have changed := aggregates.changed
      rw [someChanged, allRunning] at changed
      by_contra lost
      push Not at lost
      obtain ⟨notFailed, notChanged, earlierChanged⟩ := lost
      exact notChanged (changed.2 ⟨.inl earlierChanged, notFailed⟩)
  · rintro ⟨noMeta, kept⟩
    refine ⟨?_, ?_, ?_⟩
    · rw [someChanged, allRunning]
      constructor
      · intro changed
        exact ⟨.inr changed, by simp [changed]⟩
      · rintro ⟨earlierChanged | changed, notFailed⟩
        · obtain ⟨earlier, member, changedBefore⟩ := earlierChanged
          rcases kept with isFailed | isChanged | noneChanged
          · exact absurd isFailed notFailed
          · exact isChanged
          · exact absurd changedBefore (noneChanged earlier member)
        · exact changed
    · refine not_iff_not.1 (allRunning.symm.trans ?_)
      push Not
      rfl
    · rw [merged, noMeta]
      rfl

theorem aggregates_recipe_iff (executed : ExecutedChildren σ) (env : Environment σ) :
    Aggregates executed.results
        (finishDryRunRecipe (recipeOutcome (initialAccumulator env) executed)).status
        (finishDryRunRecipe (recipeOutcome (initialAccumulator env) executed)).metaEntries ↔
      NothingLost executed := by
  have noneFailed := passed_not_failed executed
  obtain ⟨passed, ending, passedOn⟩ := executed
  cases ending with
  | exhausted =>
    refine iff_of_true ?_ trivial
    simp only [ExecutedChildren.results, Ending.results, List.append_nil]
    exact (aggregates_accumulated noneFailed env).1
  | interrupted =>
    refine iff_of_true ?_ trivial
    simp only [ExecutedChildren.results, Ending.results, List.append_nil]
    exact (aggregates_accumulated noneFailed env).2
  | left result breaks => exact aggregates_left_iff noneFailed

/-! ### The block -/

/-- The block's accumulator is the summary of the children it merged. -/
theorem aggregates_merged {results : List (DryRunStepResult σ)}
    (noneFailed : ∀ result ∈ results, result.status ≠ some .failed) (env : Environment σ) :
    let reached := results.foldl mergeConditionalDryRunStep (createConditionalApplyState env)
    Aggregates results (some (conditionalResult reached).status)
      (conditionalResult reached).metaEntries := by
  intro reached
  have summary : reached.summary = summarize results := summary_block results env
  have running : reached.status ≠ .failed :=
    foldl_merge_not_failed (by simp [createConditionalApplyState]) results
  refine aggregates_of_summary noneFailed (fun isFailed => running (Option.some.inj isFailed)) ?_ ?_
  · rw [← summary]
    exact Option.some_inj.trans decide_eq_true_iff.symm
  · rw [← summary]
    exact metaUnlessEmpty_getD reached.metaEntries

theorem aggregates_block {executed : ExecutedChildren σ} (nothingLost : NothingLost executed)
    (env : Environment σ) : Aggregates executed.results
      (some (blockOutcome (createConditionalApplyState env) executed).status)
      (blockOutcome (createConditionalApplyState env) executed).metaEntries := by
  have noneFailed := passed_not_failed executed
  obtain ⟨passed, ending, passedOn⟩ := executed
  cases ending with
  | exhausted =>
    simp only [ExecutedChildren.results, Ending.results, List.append_nil]
    exact aggregates_merged noneFailed env
  | interrupted =>
    simp only [ExecutedChildren.results, Ending.results, List.append_nil]
    exact aggregates_merged noneFailed env
  | left result breaks =>
    by_cases isFailed : result.status = some .failed
    · have ofChild := (aggregates_left_iff noneFailed).2 nothingLost
      rw [isFailed] at ofChild
      simp only [blockOutcome, if_pos isFailed]
      exact ofChild
    · have allRunning : ∀ other ∈ passed ++ [result], other.status ≠ some .failed :=
        List.forall_mem_append.2 ⟨noneFailed, List.forall_mem_singleton.2 isFailed⟩
      have ofBlock := aggregates_merged allRunning env
      rw [List.foldl_append] at ofBlock
      simp only [blockOutcome, if_neg isFailed]
      exact ofBlock

/-! ### Nothing is lost -/

/-- The dry runs of a recipe and of a block report what their children reported exactly
when no child that leaves early takes the place of more than it carries itself. -/
theorem dryRunAggregates_iff (options : DryRunOptions σ) (modules : List (DryRunModule σ))
    (env : Environment σ) (state : RunState σ) :
    ReportsChildren options modules env state ↔
      ∀ executed,
        ((executedChildren options modules env).run state).value = some executed →
          NothingLost executed := by
  have ofRecipe := Effect.run_map
    (fun executed => finishDryRunRecipe (recipeOutcome (initialAccumulator env) executed))
    (executedChildren options modules env) state
  rw [← dryRunRecipeModule_eq] at ofRecipe
  have ofBlock := Effect.run_map (blockOutcome (createConditionalApplyState env))
    (executedChildren options modules env) state
  rw [← dryRunConditionalModules_eq] at ofBlock
  constructor
  · intro reports executed ran
    obtain ⟨recipeResult, blockResult, recipeRan, -, aggregates, -⟩ := reports executed ran
    rw [ofRecipe, ran] at recipeRan
    rw [← Option.some.inj recipeRan] at aggregates
    exact (aggregates_recipe_iff executed env).1 aggregates
  · intro nothingLost executed ran
    have recipeAggregates :=
      (aggregates_recipe_iff executed env).2 (nothingLost executed ran)
    have blockAggregates := aggregates_block (nothingLost executed ran) env
    refine ⟨_, _, ?_, ?_, recipeAggregates, blockAggregates,
      agree_of_aggregates recipeAggregates blockAggregates⟩
    · rw [ofRecipe, ran]
      rfl
    · rw [ofBlock, ran]
      rfl

/-! ### A stop after a change -/

/-- `firstRun.stop` in a first run -/
def firstRunStop : PlainModule Unit where
  own := Leaf.toModule
    { name := 1
      check := .finish (some .needsApply)
      apply := .finish (some
        { flushSignals := false, stopRun := true, metaEntries := none, status := .ok }) }
  applyDryRun := none
  dryRunBlocker := true
  dryRunMetaProducer := false
  dryRunDiffProducer := false
  notRecipe := rfl

/-- A metadata producer whose change is a reboot. -/
def rebootProducer : PlainModule Unit where
  own := (resultLeaf 0 .changed false [.control .systemReboot]).toModule
  applyDryRun := none
  dryRunBlocker := false
  dryRunMetaProducer := true
  dryRunDiffProducer := false
  notRecipe := rfl

def quietOptions : DryRunOptions Unit where
  diff := false
  shutdownSignal := pure false

/-- The recipe of a changed child and `firstRun.stop` reports `ok`. -/
theorem stop_loses_change :
    ¬ ∀ (options : DryRunOptions Unit) (modules : List (DryRunModule Unit))
      (env : Environment Unit) (state : RunState Unit),
      ReportsChildren options modules env state := by
  intro reports
  let modules : List (DryRunModule Unit) := [.plain rebootProducer, .plain firstRunStop]
  have executedStatuses :
      ((executedChildren quietOptions modules emptyEnvironment).run startState).value.map
        (fun executed => executed.results.map DryRunStepResult.status) =
      some [some .changed, some .ok] := rfl
  have recipeStatus :
      ((dryRunRecipeModule quietOptions modules emptyEnvironment).run startState).value.map
        DryRunStepResult.status = some (some .ok) := rfl
  cases ran : ((executedChildren quietOptions modules emptyEnvironment).run startState).value with
  | none =>
    rw [ran] at executedStatuses
    cases executedStatuses
  | some executed =>
    rw [ran] at executedStatuses
    have statuses : executed.results.map DryRunStepResult.status = [some .changed, some .ok] :=
      Option.some.inj executedStatuses
    obtain ⟨recipeResult, -, recipeRan, -, aggregates, -⟩ := reports _ _ _ _ executed ran
    rw [recipeRan] at recipeStatus
    have isOk : recipeResult.status = some .ok := Option.some.inj recipeStatus
    have someChanged : ∃ result ∈ executed.results, result.status = some .changed :=
      List.mem_map.1 (by rw [statuses]; exact List.mem_cons_self ..)
    have noneFailed : ∀ result ∈ executed.results, result.status ≠ some .failed := by
      intro result member isFailed
      have listed : result.status ∈ executed.results.map DryRunStepResult.status :=
        List.mem_map_of_mem member
      rw [statuses, isFailed] at listed
      simp at listed
    have changed := aggregates.changed.2 ⟨someChanged, noneFailed⟩
    rw [isOk] at changed
    cases changed

end Paratix.Orchestration
