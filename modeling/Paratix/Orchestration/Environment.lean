/-
Module: Paratix.Orchestration.Environment
Purpose: Modules, the state of one run, memoised environment values and the leaves that read them.
Main exports: ModuleStatus, Leaf.toModule
-/
import Paratix.Foundation.Effect
import Paratix.Foundation.Columns

namespace Paratix.Orchestration

open Foundation

/-! ### Values and metadata -/

abbrev Name := List Char

inductive ModuleStatus where
  | changed
  | failed
  | ok
  | skipped
deriving DecidableEq, Repr

inductive CheckResult where
  | needsApply
  | ok
deriving DecidableEq, Repr

inductive MetaValueType where
  | boolean
  | number
  | string
deriving DecidableEq, Repr

/-- A resolved environment value. -/
inductive Scalar where
  | boolean (value : Bool)
  | number (value : Int)
  | string (value : List Char)
deriving DecidableEq, Repr

def Scalar.typeof : Scalar → MetaValueType
  | .boolean _ => .boolean
  | .number _ => .number
  | .string _ => .string

/-- A function that answers with a value. It reads and changes the world it is
called in; `none` is a rejected promise. -/
abbrev Provider (σ : Type) := σ → Option Scalar × σ

/-- `identity` tells the entries that the leaves of a run emit apart, as the objects
of the source are; nothing reads it. -/
structure EnvironmentMetaEntry (σ : Type) where
  name : Name
  perAccess : Bool
  resolve : Provider σ
  valueType : MetaValueType
  valueTypeExplicit : Option Bool
  identity : Nat

inductive ControlPlaneEntry where
  | sshdPort (port : Int)
  | systemHost (host : List Char)
  | systemReboot
deriving DecidableEq, Repr

inductive ModuleMetaEntry (σ : Type) where
  | env (entry : EnvironmentMetaEntry σ)
  | control (entry : ControlPlaneEntry)

def isEnvironmentMetaEntry {σ : Type} : ModuleMetaEntry σ → Bool
  | .env _ => true
  | .control _ => false

/-- What a key of the environment stands for. A memoised resolver is named by the
cell that holds its `cachedResolution`. -/
inductive EnvironmentValue (σ : Type) where
  | scalar (value : Scalar)
  | provider (resolve : Provider σ)
  | memoized (cell : Nat)
  | perAccess (entry : EnvironmentMetaEntry σ)

abbrev Environment (σ : Type) := Name → Option (EnvironmentValue σ)

structure ModuleResult (σ : Type) where
  flushSignals : Bool
  stopRun : Bool
  metaEntries : Option (List (ModuleMetaEntry σ))
  status : ModuleStatus

structure OrchestrationStep (σ : Type) where
  flushSignals : Bool
  stopRun : Bool
  env : Environment σ
  metaEntries : Option (List (ModuleMetaEntry σ))
  status : ModuleStatus

/-! ### The state of a run and what an observer sees of it -/

/-- The closure of a memoised resolver. -/
structure MemoCell (σ : Type) where
  entry : EnvironmentMetaEntry σ
  cachedResolution : Option Scalar

/-- `stats` holds the number of failures, the only count that decides anything;
`checkedCondition` the guard memo of each `when` block. -/
structure RunState (σ : Type) where
  world : σ
  cells : List (MemoCell σ)
  emitted : Nat
  checkedCondition : Nat → Option Bool
  recipeOutputDepth : Nat
  failed : Nat

/-- Why reading a key gives no value. -/
inductive ResolveError where
  | undefined
  | rejected
deriving DecidableEq, Repr

/-- Whether a read belongs to a check (or a guard) or to an apply. -/
inductive Phase where
  | check
  | apply
deriving DecidableEq, Repr

/-- What a list of steps does itself, apart from what its steps do inside. -/
inductive BodyEvent where
  /-- `apply` of a step is called -/
  | applied
  | reported (status : ModuleStatus) (flushSignals : Bool)
  | signalPass
  /-- `apply` of a signal is called -/
  | signalApplied
  | signalReported (status : ModuleStatus)
deriving DecidableEq, Repr

/-- What an observer sees of a run; nothing in the run reads it. -/
inductive Event (σ : Type) where
  | body (depth : Nat) (event : BodyEvent)
  | leafApplied (leaf : Nat)
  /-- a value function is called: of a memoised entry, or of another value -/
  | called (phase : Phase) (entry : Option Nat) (answer : Option Scalar) (before after : σ)
  | read (phase : Phase) (key : Name) (entry : Option Nat) (outcome : Except ResolveError Scalar)
  /-- an entry gets a memoised resolver in some environment -/
  | merged (entry : Nat)
  /-- a leaf returned control-plane entries -/
  | returned (entries : List ControlPlaneEntry)
  /-- `applyRunnerControlPlaneMeta` received control-plane entries -/
  | delivered (entries : List ControlPlaneEntry)
  /-- a signal without an `onSignalStep` hook returned control-plane entries -/
  | dropped (entries : List ControlPlaneEntry)
  /-- a poll saw a shutdown request -/
  | interrupted

abbrev Async (σ α : Type) := Effect (Event σ) (RunState σ) α

/-! ### Modules -/

structure SignalHooks (σ : Type) where
  onSignalFinished : ModuleStatus → Async σ Unit
  onSignalStarted : Async σ Unit

/-- The third argument of `apply`. -/
structure ApplyOptions (σ : Type) where
  onChildStep : Option (OrchestrationStep σ → Async σ Unit)
  onSignalStep : Option (OrchestrationStep σ → Async σ Unit)
  shutdownSignal : Option (Async σ Bool)
  signalHooks : Option (SignalHooks σ)

def ApplyOptions.absent {σ : Type} : ApplyOptions σ where
  onChildStep := none
  onSignalStep := none
  shutdownSignal := none
  signalHooks := none

inductive ModuleKind where
  | module
  | recipe
deriving DecidableEq, Repr

structure Module (σ : Type) where
  kind : ModuleKind
  supportsChildStepHook : Bool
  check : Environment σ → Async σ CheckResult
  apply : ApplyOptions σ → Environment σ → Async σ (ModuleResult σ)

def isRecipe {σ : Type} (module : Module σ) : Bool := module.kind = .recipe

/-- The control-plane entries of a result's metadata. -/
def controlPlaneEntries {σ : Type} (entries : Option (List (ModuleMetaEntry σ))) :
    List ControlPlaneEntry :=
  (entries.getD []).filterMap fun
    | .env _ => none
    | .control entry => some entry

/-- The environment entries of a result's metadata. -/
def environmentEntries {σ : Type} (entries : Option (List (ModuleMetaEntry σ))) :
    List (EnvironmentMetaEntry σ) :=
  (entries.getD []).filterMap fun
    | .env entry => some entry
    | .control _ => none

variable {σ : Type}

/-! ### Validation -/

def ENVIRONMENT_FORBIDDEN_KEYS : List Name :=
  ["__proto__".toList, "constructor".toList, "prototype".toList]

def isWordCharacter (char : Char) : Bool := char.isAlphanum || char = '_'

/-- `META_ENV_SEGMENT_PATTERN` -/
def isMetaEnvironmentSegment : List Char → Bool
  | [] => false
  | head :: rest => (head.isAlpha || head = '_') && rest.all isWordCharacter

def isAllowedMetaEnvironmentName (name : Name) : Bool :=
  !name.isEmpty && (name.splitOn '.').all isMetaEnvironmentSegment

def assertAllowedEnvironmentMetaName (name : Name) : Async σ Unit :=
  if isAllowedMetaEnvironmentName name ∧ name ∉ ENVIRONMENT_FORBIDDEN_KEYS then pure ()
  else .throw

/-- `validateResolvedMetaValue` on a value of one of the three types -/
def validateResolvedMetaValue (entry : EnvironmentMetaEntry σ) (value : Scalar) : Bool :=
  entry.valueTypeExplicit == some false || value.typeof = entry.valueType

inductive HostValidationFailure where
  | control
  | empty
  | metacharacter
  | whitespace
deriving DecidableEq, Repr

def containsControlCharacter (value : List Char) : Bool :=
  value.any fun char => char.toNat ≤ 0x1f || char.toNat = 0x7f

def validateHostLabel (value : List Char) : Option HostValidationFailure :=
  if value = [] then some .empty
  else if containsControlCharacter value then some .control
  else if value.any isJsSpace then some .whitespace
  else if value.any fun char => char = '*' || char = ',' || char = '?' || char = '!' then
    some .metacharacter
  else none

def MAX_TCP_PORT : Int := 65535

def isValidTcpPort (port : Int) : Bool := 1 ≤ port && port ≤ MAX_TCP_PORT

def assertValidModuleMetaEntry : ModuleMetaEntry σ → Async σ Unit
  | .env entry => if entry.name.isEmpty then .throw else pure ()
  | .control (.sshdPort port) => if isValidTcpPort port then pure () else .throw
  | .control (.systemHost host) => if (validateHostLabel host).isNone then pure () else .throw
  | .control .systemReboot => pure ()

def assertEachMetaEntry : List (ModuleMetaEntry σ) → Async σ Unit
  | [] => pure ()
  | entry :: rest => do
      assertValidModuleMetaEntry entry
      assertEachMetaEntry rest

def assertValidModuleMetaEntries (entries : Option (List (ModuleMetaEntry σ))) : Async σ Unit :=
  assertEachMetaEntry (entries.getD [])

/-! ### Resolving -/

/-- Call a value function; an answer that is not accepted is a rejection. -/
def callProvider (phase : Phase) (entry : Option Nat) (accepts : Scalar → Bool)
    (provider : Provider σ) : Async σ Scalar := do
  let state ← Effect.get
  let answer := (provider state.world).1.filter accepts
  Effect.modify fun state => { state with world := (provider state.world).2 }
  Effect.report (.called phase entry answer state.world (provider state.world).2)
  Effect.rethrow answer

/-- The function that `createMemoizedEnvironmentResolver` returns. A rejection leaves
no cached resolution. -/
def resolveMemoized (phase : Phase) (cell : Nat) : Async σ Scalar := do
  let state ← Effect.get
  match state.cells[cell]? with
  | none => .throw
  | some memo =>
    match memo.cachedResolution with
    | some value => pure value
    | none => do
      let value ← callProvider phase (some memo.entry.identity)
        (validateResolvedMetaValue memo.entry) memo.entry.resolve
      Effect.modify fun state => { state with
        cells := state.cells.set cell { memo with cachedResolution := some value } }
      pure value

def resolveEnvironmentValue (phase : Phase) : EnvironmentValue σ → Async σ Scalar
  | .scalar value => pure value
  | .provider resolve => callProvider phase none (fun _ => true) resolve
  | .memoized cell => resolveMemoized phase cell
  | .perAccess entry => callProvider phase none (validateResolvedMetaValue entry) entry.resolve

/-- The entry behind a memoised resolver. -/
def memoizedEntry (state : RunState σ) : EnvironmentValue σ → Option Nat
  | .memoized cell => state.cells[cell]?.map fun memo => memo.entry.identity
  | _ => none

/-- `resolveEnvironment` -/
def readEnvironment (phase : Phase) (environment : Environment σ) (key : Name) :
    Async σ (Except ResolveError Scalar) :=
  match environment key with
  | none => do
      Effect.report (.read phase key none (.error .undefined))
      pure (.error .undefined)
  | some value => do
      let state ← Effect.get
      let answer ← Effect.attempt (resolveEnvironmentValue phase value)
      let outcome := answer.elim (Except.error ResolveError.rejected) Except.ok
      Effect.report (.read phase key (memoizedEntry state value) outcome)
      pure outcome

/-! ### Merging -/

def bindEnvironment (environment : Environment σ) (name : Name) (value : EnvironmentValue σ) :
    Environment σ :=
  fun key => if key = name then some value else environment key

/-- Bind one entry, a memoised one to a new cell. -/
def mergeEnvironmentEntry (environment : Environment σ) (entry : EnvironmentMetaEntry σ) :
    Async σ (Environment σ) := do
  assertAllowedEnvironmentMetaName entry.name
  if entry.perAccess then pure (bindEnvironment environment entry.name (.perAccess entry))
  else do
    let state ← Effect.get
    Effect.modify fun state => { state with
      cells := state.cells ++ [{ entry := entry, cachedResolution := none }] }
    Effect.report (.merged entry.identity)
    pure (bindEnvironment environment entry.name (.memoized state.cells.length))

def mergeEnvironmentEntries (environment : Environment σ) :
    List (EnvironmentMetaEntry σ) → Async σ (Environment σ)
  | [] => pure environment
  | entry :: rest => do
      let merged ← mergeEnvironmentEntry environment entry
      mergeEnvironmentEntries merged rest

def mergeEnvironmentFromMeta (environment : Environment σ)
    (entries : Option (List (ModuleMetaEntry σ))) : Async σ (Environment σ) :=
  mergeEnvironmentEntries environment (environmentEntries entries)

/-! ### Leaves -/

/-- The body of a leaf's function: it acts on the world, reads keys of the
environment one by one and sees what each read gives; `none` is a throw. -/
inductive Program (σ α : Type) : Type where
  | finish (result : Option α)
  | perform (action : σ → σ) (next : σ → Program σ α)
  | resolve (key : Name) (next : Except ResolveError Scalar → Program σ α)

def runProgram {α : Type} (phase : Phase) (environment : Environment σ) :
    Program σ α → Async σ α
  | .finish result => Effect.rethrow result
  | .perform action next => do
      let state ← Effect.get
      Effect.modify fun state => { state with world := action state.world }
      runProgram phase environment (next state.world)
  | .resolve key next => do
      let outcome ← readEnvironment phase environment key
      runProgram phase environment (next outcome)

structure Leaf (σ : Type) where
  name : Nat
  check : Program σ CheckResult
  apply : Program σ (ModuleResult σ)

/-- Number the entries of a result from `first` on. -/
def identifyEntries (first : Nat) : List (ModuleMetaEntry σ) → List (ModuleMetaEntry σ)
  | [] => []
  | .env entry :: rest => .env { entry with identity := first } :: identifyEntries (first + 1) rest
  | .control entry :: rest => .control entry :: identifyEntries first rest

def emitResult (result : ModuleResult σ) : Async σ (ModuleResult σ) := do
  let state ← Effect.get
  let entries := result.metaEntries.map (identifyEntries state.emitted)
  Effect.modify fun state => { state with
    emitted := state.emitted + (environmentEntries result.metaEntries).length }
  Effect.report (.returned (controlPlaneEntries result.metaEntries))
  pure { result with metaEntries := entries }

def Leaf.toModule (leaf : Leaf σ) : Module σ where
  kind := .module
  supportsChildStepHook := false
  check environment := runProgram .check environment leaf.check
  apply _ environment := do
    Effect.report (.leafApplied leaf.name)
    let result ← runProgram .apply environment leaf.apply
    emitResult result

end Paratix.Orchestration
