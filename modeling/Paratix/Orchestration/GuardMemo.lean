/-
Module: Paratix.Orchestration.GuardMemo
Purpose: The guard memo of a `when` block, and whether an apply follows the guard as it is
  evaluated for that apply, over every sequence of calls on one instance.
Main exports: MemoKept, neverStale_iff
-/
import Paratix.Orchestration.DryRunAggregation
import Paratix.Orchestration.Rows

namespace Paratix.Orchestration

open Foundation Foundation.Effect

variable {σ α : Type}

/-- The guard memo of the block is the same as before. -/
def MemoKept (block : Nat) (before : RunState σ) (_ : List (Event σ)) (after : RunState σ) :
    Prop :=
  after.checkedCondition block = before.checkedCondition block

theorem MemoKept.trail (block : Nat) : Trail (MemoKept (σ := σ) block) where
  refl _ := rfl
  trans start continued := continued.trans start

variable {block : Nat}

theorem memo_report (event : Event σ) : Keeps (MemoKept block) (Effect.report event) :=
  .report fun _ => rfl

/-- A step is kept if all that follow it are. -/
theorem memo_bind {β : Type} {first : Async σ α} {next : α → Async σ β}
    (keeps : Keeps (MemoKept block) first)
    (keepsNext : ∀ value, Keeps (MemoKept block) (next value)) :
    Keeps (MemoKept block) (first >>= next) :=
  .bind (MemoKept.trail block) keeps keepsNext

theorem memo_pure (value : α) : Keeps (MemoKept (σ := σ) block) (pure value : Async σ α) :=
  .pure (MemoKept.trail block) value

theorem memo_get : Keeps (MemoKept (σ := σ) block) (Effect.get : Async σ (RunState σ)) :=
  .get (MemoKept.trail block)

/-! ### Reading and merging -/

theorem memo_callProvider (phase : Phase) (entry : Option Nat) (accepts : Scalar → Bool)
    (provider : Provider σ) : Keeps (MemoKept block) (callProvider phase entry accepts provider) :=
  memo_bind memo_get fun _ => memo_bind (.modify fun _ => rfl) fun _ =>
    memo_bind (memo_report _) fun _ => .rethrow (MemoKept.trail block) _

theorem memo_resolveMemoized (phase : Phase) (cell : Nat) :
    Keeps (MemoKept block) (resolveMemoized (σ := σ) phase cell) := by
  refine memo_bind memo_get fun state => ?_
  cases state.cells[cell]? with
  | none => exact .throw (MemoKept.trail block)
  | some memo =>
    cases cached : memo.cachedResolution with
    | some value => simpa only [cached] using memo_pure value
    | none =>
      simp only [cached]
      exact memo_bind (memo_callProvider _ _ _ _) fun value =>
        memo_bind (.modify fun _ => rfl) fun _ => memo_pure _

theorem memo_resolveEnvironmentValue (phase : Phase) (value : EnvironmentValue σ) :
    Keeps (MemoKept block) (resolveEnvironmentValue phase value) := by
  cases value with
  | scalar value => exact memo_pure value
  | provider resolve => exact memo_callProvider _ _ _ _
  | memoized cell => exact memo_resolveMemoized phase cell
  | perAccess entry => exact memo_callProvider _ _ _ _

theorem memo_readEnvironment (phase : Phase) (env : Environment σ) (key : Name) :
    Keeps (MemoKept block) (readEnvironment phase env key) := by
  unfold readEnvironment
  cases env key with
  | none => exact memo_bind (memo_report _) fun _ => memo_pure _
  | some value =>
    exact memo_bind memo_get fun state =>
      memo_bind (.attempt (memo_resolveEnvironmentValue phase value)) fun answer =>
        memo_bind (memo_report _) fun _ => memo_pure _

theorem memo_runProgram (phase : Phase) (env : Environment σ) (program : Program σ α) :
    Keeps (MemoKept block) (runProgram phase env program) := by
  induction program with
  | finish result => exact .rethrow (MemoKept.trail block) result
  | perform action next ih =>
    exact memo_bind memo_get fun state =>
      memo_bind (.modify fun _ => rfl) fun _ => ih _
  | resolve key next ih =>
    exact memo_bind (memo_readEnvironment phase env key) fun outcome =>
      ih outcome

theorem memo_mergeEnvironmentEntry (env : Environment σ) (entry : EnvironmentMetaEntry σ) :
    Keeps (MemoKept block) (mergeEnvironmentEntry env entry) := by
  refine memo_bind ?_ fun _ => ?_
  · exact .ite (fun _ => memo_pure _) fun _ => .throw (MemoKept.trail block)
  · refine .ite (fun _ => memo_pure _) fun _ => ?_
    exact memo_bind memo_get fun _ => memo_bind (.modify fun _ => rfl) fun _ =>
      memo_bind (memo_report _) fun _ => memo_pure _

theorem memo_mergeEnvironmentFromMeta (env : Environment σ)
    (entries : Option (List (ModuleMetaEntry σ))) :
    Keeps (MemoKept block) (mergeEnvironmentFromMeta env entries) := by
  unfold mergeEnvironmentFromMeta
  generalize environmentEntries entries = list
  induction list generalizing env with
  | nil => exact memo_pure _
  | cons entry rest ih =>
    exact memo_bind (memo_mergeEnvironmentEntry env entry) fun merged =>
      ih merged

theorem memo_withRecipeOutputScope {scopedOperation : Async σ α}
    (keeps : Keeps (MemoKept block) scopedOperation) :
    Keeps (MemoKept block) (withRecipeOutputScope scopedOperation) :=
  memo_bind (.modify fun _ => rfl) fun _ => memo_bind (.attempt keeps) fun _ =>
    memo_bind (.modify fun _ => rfl) fun _ => .rethrow (MemoKept.trail block) _

/-! ### Children -/

/-- A module whose functions cannot reach the memo of the block. -/
structure PrivateModule (block : Nat) (module : Module σ) : Prop where
  check : ∀ env, Keeps (MemoKept block) (module.check env)
  apply : ∀ options, KeepingOptions (MemoKept block) options → ∀ env,
    Keeps (MemoKept block) (module.apply options env)

/-- The same with the `_applyDryRun` hooks. -/
inductive Private (block : Nat) : DryRunModule σ → Prop where
  | plain {plainModule : PlainModule σ} (own : PrivateModule block plainModule.own)
      (hook : ∀ applyDryRun, plainModule.applyDryRun = some applyDryRun →
        ∀ options : DryRunOptions σ, Keeps (MemoKept block) options.shutdownSignal →
          ∀ env, Keeps (MemoKept block) (applyDryRun options env)) :
      Private block (.plain plainModule)
  | recipe {shutdownRequested : σ → Bool} {modules : List (DryRunModule σ)}
      {signals : Option (List (Module σ))}
      (own : PrivateModule block
        (DryRunModule.recipe shutdownRequested modules signals).toModule)
      (children : ∀ child ∈ modules, Private block child) :
      Private block (.recipe shutdownRequested modules signals)

theorem Private.toModule {module : DryRunModule σ} (isPrivate : Private block module) :
    PrivateModule block module.toModule := by
  cases isPrivate with
  | plain own hook => exact own
  | recipe own children => exact own

theorem private_toModules {modules : List (DryRunModule σ)}
    (childrenPrivate : ∀ child ∈ modules, Private block child) :
    ∀ child ∈ toModules modules, PrivateModule block child := by
  induction modules with
  | nil => exact nofun
  | cons module rest ih =>
    rintro child (_ | ⟨_, member⟩)
    · exact (childrenPrivate module List.mem_cons_self).toModule
    · exact ih
        (fun own mem => childrenPrivate own (List.mem_cons_of_mem _ mem)) child member

theorem memo_checkConditionalModules {modules : List (Module σ)}
    (modulesPrivate : ∀ child ∈ modules, PrivateModule block child) (env : Environment σ) :
    Keeps (MemoKept block) (checkConditionalModules env modules) := by
  induction modules with
  | nil => exact memo_pure _
  | cons child rest ih =>
    refine memo_bind ((modulesPrivate child List.mem_cons_self).check _) fun result => ?_
    cases result with
    | needsApply => exact memo_pure _
    | ok => exact ih fun own mem => modulesPrivate own (List.mem_cons_of_mem _ mem)

/-! ### The block's loop in an apply -/

section Apply

variable {options : ApplyOptions σ} (keeping : KeepingOptions (MemoKept block) options)

include keeping

theorem memo_executeConditionalApply {currentModule : Module σ}
    (isPrivate : PrivateModule block currentModule) (env : Environment σ) :
    Keeps (MemoKept block) (executeConditionalApply options currentModule env) :=
  .ite (fun _ => isPrivate.apply _ (keeping.conditional (MemoKept.trail block)) _) fun _ =>
    isPrivate.apply _ .absent _

theorem memo_processConditionalApplyResult (state : ConditionalApplyState σ)
    (result : ModuleResult σ) :
    Keeps (MemoKept block) (processConditionalApplyResult options state result) := by
  refine memo_bind ?_ fun merged => ?_
  · exact memo_bind (memo_mergeEnvironmentFromMeta _ _) fun _ => memo_pure _
  · exact memo_bind (keeps_callHook (MemoKept.trail block) keeping.onChildStep _) fun _ =>
      memo_pure _

theorem memo_applyConditionalModuleStep {currentModule : Module σ}
    (isPrivate : PrivateModule block currentModule) (state : ConditionalApplyState σ) :
    Keeps (MemoKept block) (applyConditionalModuleStep options state currentModule) := by
  have polls := keeps_pollOptional (MemoKept.trail block) keeping.shutdownSignal
  refine memo_bind polls fun interrupted => .ite (fun _ => memo_pure _) fun _ => ?_
  refine memo_bind (isPrivate.check _) fun checkResult => ?_
  cases checkResult with
  | ok => exact memo_pure _
  | needsApply =>
    refine memo_bind polls fun interrupted => .ite (fun _ => memo_pure _) fun _ => ?_
    refine memo_bind (memo_executeConditionalApply keeping isPrivate _) fun result => ?_
    refine .ite (fun _ => memo_pure _) fun _ => ?_
    exact memo_bind (memo_processConditionalApplyResult keeping _ _) fun _ => memo_pure _

theorem memo_applyConditionalModules {modules : List (Module σ)}
    (modulesPrivate : ∀ child ∈ modules, PrivateModule block child) (env : Environment σ) :
    Keeps (MemoKept block) (applyConditionalModules modules options env) := by
  refine memo_withRecipeOutputScope ?_
  generalize createConditionalApplyState env = state
  induction modules generalizing state with
  | nil => exact memo_pure _
  | cons child rest ih =>
    refine memo_bind (memo_applyConditionalModuleStep keeping
      (modulesPrivate child List.mem_cons_self) _) fun step => ?_
    cases step with
    | failed result => exact memo_pure _
    | stop state => exact memo_pure _
    | proceed state =>
      exact ih (fun own mem => modulesPrivate own (List.mem_cons_of_mem _ mem)) _

end Apply

/-! ### The block's loop in a dry run -/

section DryRun

variable {options : DryRunOptions σ} (polls : Keeps (MemoKept block) options.shutdownSignal)

include polls

theorem memo_executeDryRunPlainModule {plainModule : PlainModule σ}
    (own : PrivateModule block plainModule.own)
    (hook : ∀ applyDryRun, plainModule.applyDryRun = some applyDryRun →
      ∀ options : DryRunOptions σ, Keeps (MemoKept block) options.shutdownSignal →
        ∀ env, Keeps (MemoKept block) (applyDryRun options env))
    (env : Environment σ) :
    Keeps (MemoKept block) (executeDryRunPlainModule options plainModule env) := by
  have applies : Keeps (MemoKept block) (applyBlockingModule options plainModule env) := by
    unfold applyBlockingModule
    split
    · exact own.apply _ .absent _
    · exact hook _ ‹_› options polls _
  refine memo_bind (own.check _) fun checkResult => memo_bind polls fun interrupted => ?_
  refine .ite (fun _ => memo_pure _) fun _ => .ite (fun _ => ?_) fun _ => memo_pure _
  refine memo_bind polls fun interrupted => .ite (fun _ => memo_pure _) fun _ => ?_
  exact memo_bind applies fun result =>
    memo_bind (memo_mergeEnvironmentFromMeta _ _) fun _ => memo_pure _

theorem memo_runDryRunChildLoop {modules : List (DryRunModule σ)}
    (childrenKeep : ∀ child ∈ modules, ∀ env,
      Keeps (MemoKept block) (executeDryRunChildModule options child env))
    (accumulator : DryRunRecipeAccumulator σ) :
    Keeps (MemoKept block) (runDryRunChildLoop options modules accumulator) := by
  induction modules generalizing accumulator with
  | nil =>
    rw [runDryRunChildLoop]
    exact memo_pure _
  | cons child rest ih =>
    rw [runDryRunChildLoop]
    refine memo_bind polls fun interrupted => .ite (fun _ => memo_pure _) fun _ => ?_
    refine memo_bind (childrenKeep child List.mem_cons_self _) fun result => ?_
    refine .ite (fun _ => memo_pure _) fun _ => ?_
    exact ih (fun own mem => childrenKeep own (List.mem_cons_of_mem _ mem)) _

theorem memo_executeDryRunChildModule {module : DryRunModule σ} (isPrivate : Private block module)
    (env : Environment σ) :
    Keeps (MemoKept block) (executeDryRunChildModule options module env) := by
  induction isPrivate generalizing env with
  | plain own hook =>
    rw [executeDryRunChildModule]
    refine memo_bind polls fun interrupted => .ite (fun _ => memo_pure _) fun _ => ?_
    exact memo_executeDryRunPlainModule polls own hook _
  | recipe own children childrenKeep =>
    rw [executeDryRunChildModule]
    refine memo_bind polls fun interrupted => .ite (fun _ => memo_pure _) fun _ => ?_
    refine memo_withRecipeOutputScope ?_
    exact memo_bind (memo_runDryRunChildLoop polls childrenKeep _) fun _ => memo_pure _

theorem memo_dryRunConditionalModules {modules : List (DryRunModule σ)}
    (childrenPrivate : ∀ child ∈ modules, Private block child) (env : Environment σ) :
    Keeps (MemoKept block) (dryRunConditionalModules options modules env) := by
  refine memo_withRecipeOutputScope ?_
  generalize createConditionalApplyState env = state
  induction modules generalizing state with
  | nil => exact memo_pure _
  | cons child rest ih =>
    refine memo_bind polls fun interrupted => .ite (fun _ => memo_pure _) fun _ => ?_
    refine memo_bind ?_ fun step => ?_
    · refine memo_bind (memo_executeDryRunChildModule polls
        (childrenPrivate child List.mem_cons_self) _) fun step => ?_
      exact .ite (fun _ => memo_pure _) fun _ => .ite (fun _ => memo_pure _) fun _ => memo_pure _
    · cases step with
      | failed result => exact memo_pure _
      | stop state => exact memo_pure _
      | proceed state =>
        exact ih
          (fun own mem => childrenPrivate own (List.mem_cons_of_mem _ mem)) _

end DryRun

/-! ### Modules that keep the memo -/

theorem private_leaf (leaf : Leaf σ) : PrivateModule block leaf.toModule where
  check _ := memo_runProgram _ _ _
  apply _ _ _ :=
    memo_bind (memo_report _) fun _ => memo_bind (memo_runProgram _ _ _) fun _ =>
      memo_bind memo_get fun _ => memo_bind (.modify fun _ => rfl) fun _ =>
        memo_bind (memo_report _) fun _ => memo_pure _

theorem memo_readConditionForApply (other : Nat) (condition : Program σ Bool)
    (env : Environment σ) :
    Keeps (MemoKept block) (readConditionForApply other condition env) := by
  refine memo_bind memo_get fun state => ?_
  cases state.checkedCondition other with
  | some result => exact memo_pure _
  | none => exact memo_runProgram _ _ _

/-- The hooks of the runner call no module. -/
theorem RunnerOptions.memo {host : Host σ} {options : ApplyOptions σ}
    (runnerOptions : RunnerOptions host options) : KeepingOptions (MemoKept block) options :=
  runnerOptions.keeping (MemoKept.trail block)
    (keepingOptions_recipeOptions (MemoKept.trail block) host (fun _ _ => rfl) (fun _ => rfl)
      (fun _ => memo_report _) (memo_report _))

variable {σ : Type}

/-! ### One instance and the calls on it -/

/-- A `when` module. Its children were built before it, so none of them reaches its
memo. -/
structure WhenInstance (σ : Type) where
  block : Nat
  condition : Program σ Bool
  modules : List (DryRunModule σ)
  childrenPrivate : ∀ child ∈ modules, Private block child

namespace WhenInstance

variable (whenModule : WhenInstance σ)

def module : PlainModule σ :=
  conditionalDryRunModule whenModule.block whenModule.condition whenModule.modules

/-- The answer of the guard if it is evaluated now; `none` if it throws. -/
def conditionNow (env : Environment σ) (state : RunState σ) : Option Bool :=
  ((runProgram .check env whenModule.condition).run state).value

/-- The instance just after its creation: nothing is in its memo. -/
def created (state : RunState σ) : RunState σ :=
  { state with checkedCondition := fun key =>
      if key = whenModule.block then none else state.checkedCondition key }

end WhenInstance

/-- A call of `apply`, or of `_applyDryRun`, with options that keep the memo. -/
inductive Invocation (whenModule : WhenInstance σ) where
  | apply (options : ApplyOptions σ)
      (keeping : KeepingOptions (MemoKept whenModule.block) options)
  | dryRun (options : DryRunOptions σ)
      (keeping : Keeps (MemoKept whenModule.block) options.shutdownSignal)

namespace Invocation

variable {whenModule : WhenInstance σ}

def invoke (env : Environment σ) : Invocation whenModule → Async σ (ModuleResult σ)
  | .apply options _ => whenModule.module.own.apply options env
  | .dryRun options _ => applyBlockingModule options whenModule.module env

/-- What is invoked once the guard holds: the loop over the block's children. -/
def children (env : Environment σ) : Invocation whenModule → Async σ (ModuleResult σ)
  | .apply options _ => applyConditionalModules (toModules whenModule.modules) options env
  | .dryRun options _ => dryRunConditionalModules options whenModule.modules env

theorem invoke_eq (invocation : Invocation whenModule) (env : Environment σ) :
    invocation.invoke env =
      readConditionForApply whenModule.block whenModule.condition env >>= fun holds =>
        if holds then invocation.children env else pure skippedResult := by
  cases invocation with
  | apply options keeping => rfl
  | dryRun options keeping => rfl

theorem memo_children (invocation : Invocation whenModule) (env : Environment σ) :
    Keeps (MemoKept whenModule.block) (invocation.children env) := by
  cases invocation with
  | apply options keeping =>
    exact memo_applyConditionalModules keeping (private_toModules whenModule.childrenPrivate) _
  | dryRun options keeping =>
    exact memo_dryRunConditionalModules keeping whenModule.childrenPrivate _

theorem memo_invoke (invocation : Invocation whenModule) (env : Environment σ) :
    Keeps (MemoKept whenModule.block) (invocation.invoke env) := by
  rw [invoke_eq]
  exact memo_bind (memo_readConditionForApply _ _ _) fun holds =>
    .ite (fun _ => invocation.memo_children env) fun _ => memo_pure _

end Invocation

/-- An apply from this state executes the block's children. -/
def Executes (whenModule : WhenInstance σ) (env : Environment σ) (state : RunState σ) :
    Prop :=
  ((readConditionForApply whenModule.block whenModule.condition env).run state).value =
    some true

/-- A computation of the rest of the program, which cannot reach the memo. -/
abbrev Elsewhere (whenModule : WhenInstance σ) (α : Type) : Type :=
  { computation : Async σ α // Keeps (MemoKept whenModule.block) computation }

/-- What the program does with the instance: `check` alone, `check` and then `apply` in
the same environment with only a poll in between (recipes, `when` blocks, the runner and
the dry run), `apply` alone (signals), and anything else. -/
inductive WhenCall (whenModule : WhenInstance σ) where
  | check (env : Environment σ)
  | checkedApply (env : Environment σ) (poll : Elsewhere whenModule Bool)
      (invocation : Invocation whenModule)
  | apply (env : Environment σ) (invocation : Invocation whenModule)
  | elsewhere (computation : Elsewhere whenModule Unit)

section Calls

variable {whenModule : WhenInstance σ}

/-- Check, and ask for a shutdown if the check asks for an apply: whether to apply. -/
def checkBeforeApply (env : Environment σ) (poll : Elsewhere whenModule Bool) :
    Async σ Bool := do
  let checkResult ← whenModule.module.own.check env
  match checkResult with
  | .ok => pure false
  | .needsApply => do
    let interrupted ← poll.val
    pure !interrupted

def checkAndApply (env : Environment σ) (poll : Elsewhere whenModule Bool)
    (invocation : Invocation whenModule) : Async σ Unit := do
  let applies ← checkBeforeApply env poll
  if applies then do
    let _ ← invocation.invoke env
    pure ()
  else pure ()

/-- A call to its end; whoever called it catches what it throws. -/
def WhenCall.perform : WhenCall whenModule → Async σ Unit
  | .check env => do
      let _ ← Effect.attempt (whenModule.module.own.check env)
      pure ()
  | .checkedApply env poll invocation => do
      let _ ← Effect.attempt (checkAndApply env poll invocation)
      pure ()
  | .apply env invocation => do
      let _ ← Effect.attempt (invocation.invoke env)
      pure ()
  | .elsewhere computation => do
      let _ ← Effect.attempt computation.val
      pure ()

def WhenCall.after (call : WhenCall whenModule) (state : RunState σ) : RunState σ :=
  (call.perform.run state).state

/-! ### The law and its condition -/

/-- The apply in this call executes the children exactly if the guard, evaluated for
this call, holds: by the check that belongs to it, or at the apply. -/
def WhenCall.Fresh (call : WhenCall whenModule) (state : RunState σ) : Prop :=
  match call with
  | .checkedApply env poll _ =>
      ((checkBeforeApply env poll).run state).value = some true →
        (Executes whenModule env ((checkBeforeApply env poll).run state).state ↔
          whenModule.conditionNow env state = some true)
  | .apply env _ =>
      Executes whenModule env state ↔
        whenModule.conditionNow env state = some true
  | .check _ => True
  | .elsewhere _ => True

/-- Every apply of the sequence is fresh. -/
def NeverStale : List (WhenCall whenModule) → RunState σ → Prop
  | [], _ => True
  | call :: rest, state => call.Fresh state ∧ NeverStale rest (call.after state)

/-- The last answer that a check of the instance got from the guard. -/
def WhenCall.answer (call : WhenCall whenModule) (last : Option Bool) (state : RunState σ) :
    Option Bool :=
  match call with
  | .check env => (whenModule.conditionNow env state).or last
  | .checkedApply env _ _ => (whenModule.conditionNow env state).or last
  | .apply _ _ => last
  | .elsewhere _ => last

/-- An apply without a check of its own finds no earlier answer, or one that the guard
would give again. -/
def WhenCall.Current (call : WhenCall whenModule) (last : Option Bool) (state : RunState σ) :
    Prop :=
  match call with
  | .apply env _ => ∀ answer, last = some answer →
      (answer = true ↔ whenModule.conditionNow env state = some true)
  | .check _ => True
  | .checkedApply _ _ _ => True
  | .elsewhere _ => True

def AnswersCurrent (last : Option Bool) : List (WhenCall whenModule) → RunState σ → Prop
  | [], _ => True
  | call :: rest, state =>
      call.Current last state ∧ AnswersCurrent (call.answer last state) rest (call.after state)

end Calls

/-! ### What the memo holds -/

section Memo

variable {whenModule : WhenInstance σ} {env : Environment σ} {state : RunState σ}

theorem executes_of_memo {answer : Bool}
    (memo : state.checkedCondition whenModule.block = some answer) :
    Executes whenModule env state ↔ answer = true := by
  have reads : ((readConditionForApply whenModule.block whenModule.condition env).run
      state).value = some answer := by
    unfold readConditionForApply
    rw [run_bind]
    simp [resume, Effect.run, Effect.get, memo, Pure.pure]
  rw [Executes, reads]
  exact Option.some_inj

theorem executes_of_noMemo (noMemo : state.checkedCondition whenModule.block = none) :
    Executes whenModule env state ↔
      whenModule.conditionNow env state = some true := by
  have reads : ((readConditionForApply whenModule.block whenModule.condition env).run
      state).value = whenModule.conditionNow env state := by
    unfold readConditionForApply
    rw [run_bind]
    simp only [resume, Effect.run, Effect.get, noMemo]
    rfl
  rw [Executes, reads]

/-- The guard's answer goes into the memo; a guard that throws leaves it. -/
theorem after_evaluateConditionForCheck (whenModule : WhenInstance σ)
    (env : Environment σ) (state : RunState σ) :
    (evaluateConditionForCheck whenModule.block whenModule.condition env).After state
      fun result after _ => result = whenModule.conditionNow env state ∧
          after.checkedCondition whenModule.block =
            result.or (state.checkedCondition whenModule.block) := by
  have evaluated : (runProgram .check env whenModule.condition).After state
      fun result after _ =>
        result = whenModule.conditionNow env state ∧
          after.checkedCondition whenModule.block = state.checkedCondition whenModule.block :=
    ⟨rfl, memo_runProgram _ _ _ state⟩
  refine After.bind evaluated (fun after events thrown => thrown) ?_
  rintro answer between events ⟨answered, -⟩
  exact ⟨answered, if_pos rfl⟩

/-- A check that comes to an end got an answer from the guard. -/
theorem after_check (whenModule : WhenInstance σ) (env : Environment σ) (state : RunState σ) :
    (whenModule.module.own.check env).After state fun result after _ =>
      (result.isSome → (whenModule.conditionNow env state).isSome) ∧
        after.checkedCondition whenModule.block = (whenModule.conditionNow env state).or
            (state.checkedCondition whenModule.block) := by
  refine After.bind (after_evaluateConditionForCheck whenModule env state) ?_ ?_
  · rintro after events ⟨isNone, kept⟩
    rw [← isNone]
    exact ⟨nofun, kept⟩
  · rintro holds between events ⟨answered, kept⟩
    rw [← answered]
    have goesOn : Keeps (MemoKept whenModule.block)
        (if holds then checkConditionalModules env (toModules whenModule.modules)
          else pure .needsApply) :=
      .ite (fun _ => memo_checkConditionalModules (private_toModules whenModule.childrenPrivate) _)
        fun _ => memo_pure _
    exact (goesOn between).mono fun result after more same => ⟨fun _ => rfl, same.trans kept⟩

theorem after_checkBeforeApply (env : Environment σ) (poll : Elsewhere whenModule Bool)
    (state : RunState σ) : (checkBeforeApply env poll).After state fun result after _ =>
      (result.isSome → (whenModule.conditionNow env state).isSome) ∧
        after.checkedCondition whenModule.block = (whenModule.conditionNow env state).or
            (state.checkedCondition whenModule.block) := by
  have goesOn : ∀ checkResult : CheckResult, Keeps (MemoKept whenModule.block)
      (match checkResult with
        | .ok => pure false
        | .needsApply => poll.val >>= fun interrupted => pure !interrupted) := by
    intro checkResult
    cases checkResult with
    | ok => exact memo_pure _
    | needsApply => exact memo_bind poll.property fun interrupted => memo_pure _
  refine After.bind (after_check whenModule env state) ?_ ?_
  · exact fun after events thrown => ⟨nofun, thrown.2⟩
  · rintro checkResult between events ⟨answered, kept⟩
    exact (goesOn checkResult between).mono fun result after more same =>
      ⟨fun _ => answered rfl, same.trans kept⟩

end Memo

section Step

variable {whenModule : WhenInstance σ}

/-- After every call, the memo holds the last answer of a check. -/
theorem after_perform (call : WhenCall whenModule) (state : RunState σ) :
    (call.after state).checkedCondition whenModule.block =
      call.answer (state.checkedCondition whenModule.block) state := by
  cases call with
  | check env => exact (after_check whenModule env state).2
  | checkedApply env poll invocation =>
    have applied : (checkAndApply env poll invocation).After state fun _ after _ =>
        after.checkedCondition whenModule.block =
          (whenModule.conditionNow env state).or
            (state.checkedCondition whenModule.block) := by
      refine After.bind (after_checkBeforeApply env poll state)
        (fun after events thrown => thrown.2) ?_
      rintro applies between events ⟨-, kept⟩
      have goesOn : Keeps (MemoKept whenModule.block)
          (if applies then (do let _ ← invocation.invoke env; pure ()) else pure ()) :=
        .ite (fun _ => memo_bind (invocation.memo_invoke env) fun _ => memo_pure _)
          fun _ => memo_pure _
      exact (goesOn between).mono fun result after more same => same.trans kept
    exact applied
  | apply env invocation => exact invocation.memo_invoke env state
  | elsewhere computation => exact computation.property state

/-- A check that belongs to the apply makes it fresh; an apply alone is fresh exactly if
the last answer is current. -/
theorem fresh_iff_current (call : WhenCall whenModule) (state : RunState σ) :
    call.Fresh state ↔ call.Current (state.checkedCondition whenModule.block) state := by
  cases call with
  | check env => exact Iff.rfl
  | elsewhere computation => exact Iff.rfl
  | checkedApply env poll invocation =>
    refine iff_of_true (fun applies => ?_) trivial
    obtain ⟨answered, memo⟩ := after_checkBeforeApply env poll state
    rw [applies] at answered
    obtain ⟨answer, answerNow⟩ := Option.isSome_iff_exists.1 (answered rfl)
    rw [answerNow] at memo ⊢
    exact (executes_of_memo memo).trans Option.some_inj.symm
  | apply env invocation =>
    cases memo : state.checkedCondition whenModule.block with
    | none => exact iff_of_true (executes_of_noMemo memo) nofun
    | some answer =>
      constructor
      · rintro fresh other ⟨⟩
        exact (executes_of_memo memo).symm.trans fresh
      · exact fun current => (executes_of_memo memo).trans (current answer rfl)

theorem neverStale_from (calls : List (WhenCall whenModule)) (state : RunState σ) :
    NeverStale calls state ↔
      AnswersCurrent (state.checkedCondition whenModule.block) calls state := by
  induction calls generalizing state with
  | nil => exact Iff.rfl
  | cons call rest ih =>
    rw [NeverStale, AnswersCurrent, ← after_perform, ih, fresh_iff_current]

end Step

/-! ### Every sequence of calls -/

/-- From the creation of a `when` module on, every apply follows the guard as evaluated for
it exactly if no apply without a check of its own comes after a check whose answer the
guard would not give again. -/
theorem neverStale_iff (whenModule : WhenInstance σ) (calls : List (WhenCall whenModule))
    (state : RunState σ) :
    NeverStale calls (whenModule.created state) ↔
      AnswersCurrent none calls (whenModule.created state) := by
  have noMemo : (whenModule.created state).checkedCondition whenModule.block = none := if_pos rfl
  rw [neverStale_from, noMemo]

/-! ### A signal after a step -/

/-- A world that is one switch, on a host where everything else succeeds. -/
def switchHost : Host Bool where
  addPort _ world := (true, world)
  removePort _ world := world
  connectedPort _ := 22
  reconnect _ world := (true, world)
  updateHost _ world := world
  sleep world := world
  shutdownRequested _ := false

def switchedOn : RunState Bool where
  world := true
  cells := []
  emitted := 0
  checkedCondition := fun _ => none
  recipeOutputDepth := 0
  failed := 0

/-- A service restart that runs while the switch is on. -/
def whileSwitchedOn : WhenInstance Bool where
  block := 0
  condition := .perform id fun world => .finish (some world)
  modules :=
    [.plain
      { own := Leaf.toModule
          { name := 0
            check := .finish (some .needsApply)
            apply := .finish (some
              { flushSignals := false, stopRun := false, metaEntries := none
                status := .changed }) }
        applyDryRun := none
        dryRunBlocker := false
        dryRunMetaProducer := false
        dryRunDiffProducer := false
        notRecipe := rfl }]
  childrenPrivate := by
    rintro child (_ | ⟨_, ⟨⟩⟩)
    exact .plain (private_leaf _) nofun

/-- The apply of a signal of the runner. -/
def signalInvocation : Invocation whileSwitchedOn :=
  .apply { ApplyOptions.absent with shutdownSignal := (recipeOptions switchHost).shutdownSignal }
    (RunnerOptions.signal .recipe).memo

/-- The block is checked as a step, its step switches off, and the signal still runs. -/
theorem signal_uses_stale_guard :
    ¬ ∀ (whenModule : WhenInstance Bool) (calls : List (WhenCall whenModule))
      (state : RunState Bool), NeverStale calls (whenModule.created state) := by
  intro neverStale
  let emptied : Environment Bool := fun _ => none
  let calls : List (WhenCall whileSwitchedOn) :=
    [.check emptied,
      .elsewhere ⟨Effect.modify fun state => { state with world := false }, .modify fun _ => rfl⟩,
      .apply emptied signalInvocation]
  obtain ⟨-, -, fresh, -⟩ := neverStale whileSwitchedOn calls switchedOn
  have conditionNow : some false = some true := fresh.1 rfl
  cases conditionNow

end Paratix.Orchestration
