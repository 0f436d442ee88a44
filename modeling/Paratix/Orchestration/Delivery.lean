/-
Module: Paratix.Orchestration.Delivery
Purpose: Where the control-plane metadata of leaves goes: handed up, delivered to the
  runner, or dropped by a signal pass without a hook.
Main exports: returnedEntries, control_plane_delivered_iff
-/
import Paratix.Orchestration.Discipline

namespace Paratix.Orchestration

open Foundation Foundation.Effect

variable {σ α β : Type}

/-! ### Entries on record -/

def Event.returnedEntries : Event σ → List ControlPlaneEntry
  | .returned entries => entries
  | _ => []

def Event.deliveredEntries : Event σ → List ControlPlaneEntry
  | .delivered entries => entries
  | _ => []

def Event.droppedEntries : Event σ → List ControlPlaneEntry
  | .dropped entries => entries
  | _ => []

/-- What the leaves returned, in the order in which they were applied. -/
def returnedEntries (events : List (Event σ)) : List ControlPlaneEntry :=
  events.flatMap Event.returnedEntries

/-- What reached `applyRunnerControlPlaneMeta`. -/
def deliveredEntries (events : List (Event σ)) : List ControlPlaneEntry :=
  events.flatMap Event.deliveredEntries

/-- What signals without an `onSignalStep` hook returned. -/
def droppedEntries (events : List (Event σ)) : List ControlPlaneEntry :=
  events.flatMap Event.droppedEntries

theorem returnedEntries_append (events more : List (Event σ)) :
    returnedEntries (events ++ more) = returnedEntries events ++ returnedEntries more :=
  List.flatMap_append

theorem deliveredEntries_append (events more : List (Event σ)) :
    deliveredEntries (events ++ more) = deliveredEntries events ++ deliveredEntries more :=
  List.flatMap_append

theorem droppedEntries_append (events more : List (Event σ)) :
    droppedEntries (events ++ more) = droppedEntries events ++ droppedEntries more :=
  List.flatMap_append

/-- Of what the leaves returned, `carried` is still handed up, and what is missing was
dropped; if nothing was dropped, the order is kept. -/
structure Balanced (events : List (Event σ)) (carried : List ControlPlaneEntry) : Prop where
  ordered : droppedEntries events = [] →
    returnedEntries events = deliveredEntries events ++ carried
  counted : (returnedEntries events).length =
    (deliveredEntries events).length + (droppedEntries events).length + carried.length

theorem Balanced.append {events more : List (Event σ)} {carried further : List ControlPlaneEntry}
    (first : Balanced events carried) (second : Balanced more further)
    (apart : carried = [] ∨ deliveredEntries more = []) :
    Balanced (events ++ more) (carried ++ further) where
  ordered nothingDropped := by
    rw [droppedEntries_append, List.append_eq_nil_iff] at nothingDropped
    rw [returnedEntries_append, deliveredEntries_append, first.ordered nothingDropped.1,
      second.ordered nothingDropped.2]
    rcases apart with rfl | noMore
    · simp
    · simp [noMore]
  counted := by
    have counted := first.counted
    have countedMore := second.counted
    simp only [returnedEntries_append, deliveredEntries_append, droppedEntries_append,
      List.length_append]
    omega

/-- What is handed up is delivered. -/
theorem Balanced.deliver {events more : List (Event σ)} {carried : List ControlPlaneEntry}
    (balanced : Balanced events carried) (returned : returnedEntries more = [])
    (delivered : deliveredEntries more = carried) (dropped : droppedEntries more = []) :
    Balanced (events ++ more) [] where
  ordered nothingDropped := by
    rw [droppedEntries_append, List.append_eq_nil_iff] at nothingDropped
    rw [returnedEntries_append, deliveredEntries_append, balanced.ordered nothingDropped.1,
      returned, delivered]
  counted := by
    have counted := balanced.counted
    simp only [returnedEntries_append, deliveredEntries_append, droppedEntries_append,
      List.length_append, returned, delivered, dropped, List.length_nil]
    omega

/-- What is handed up is dropped. -/
theorem Balanced.drop {events : List (Event σ)} {carried : List ControlPlaneEntry}
    (balanced : Balanced events carried) : Balanced (events ++ [.dropped carried]) [] where
  ordered nothingDropped := by
    rw [droppedEntries_append, List.append_eq_nil_iff] at nothingDropped
    have nothingCarried : carried = [] := by
      simpa [droppedEntries, Event.droppedEntries] using nothingDropped.2
    subst nothingCarried
    rw [returnedEntries_append, deliveredEntries_append, balanced.ordered nothingDropped.1]
    simp [returnedEntries, deliveredEntries, Event.returnedEntries, Event.deliveredEntries]
  counted := by
    have counted := balanced.counted
    rw [returnedEntries_append, deliveredEntries_append, droppedEntries_append]
    simp only [List.length_append, List.length_nil]
    simp only [returnedEntries, deliveredEntries, droppedEntries, List.flatMap_cons,
      List.flatMap_nil, Event.returnedEntries, Event.deliveredEntries, Event.droppedEntries,
      List.append_nil, List.length_nil] at counted ⊢
    omega

/-! ### Events without entries -/

/-- Events that concern neither control-plane entries nor a shutdown. -/
def Event.Silent : Event σ → Prop
  | .returned _ | .delivered _ | .dropped _ | .interrupted => False
  | _ => True

/-- Only silent events. -/
def Silent (_ : RunState σ) (events : List (Event σ)) (_ : RunState σ) : Prop :=
  ∀ event ∈ events, event.Silent

theorem Silent.trail : Trail (Silent (σ := σ)) where
  refl _ := fun _ mem => absurd mem List.not_mem_nil
  trans start continued := fun event mem =>
    (List.mem_append.1 mem).elim (start event) (continued event)

theorem Event.Plain.silent {event : Event σ} (plain : event.Plain) : event.Silent := by
  cases event with
  | called | read | merged => trivial
  | _ => exact plain.elim

theorem silent_of_plain {computation : Async σ α} (plain : Keeps Plain computation) :
    Keeps Silent computation := fun state =>
  (plain state).mono fun _ _ _ isPlain event mem => (isPlain.2.2 event mem).silent

theorem silent_reportBody (event : BodyEvent) : Keeps Silent (reportBody (σ := σ) event) := by
  intro state own mem
  cases List.mem_singleton.1 mem
  trivial

section SilentEvents

variable {events : List (Event σ)} (silent : ∀ event ∈ events, event.Silent)

include silent

theorem returnedEntries_silent : returnedEntries events = [] :=
  List.flatMap_eq_nil_iff.2 fun event mem => by
    cases event with
    | returned entries => exact (silent _ mem).elim
    | _ => rfl

theorem deliveredEntries_silent : deliveredEntries events = [] :=
  List.flatMap_eq_nil_iff.2 fun event mem => by
    cases event with
    | delivered entries => exact (silent _ mem).elim
    | _ => rfl

theorem droppedEntries_silent : droppedEntries events = [] :=
  List.flatMap_eq_nil_iff.2 fun event mem => by
    cases event with
    | dropped entries => exact (silent _ mem).elim
    | _ => rfl

theorem balanced_silent : Balanced events [] where
  ordered _ := by rw [returnedEntries_silent silent, deliveredEntries_silent silent]; rfl
  counted := by
    rw [returnedEntries_silent silent, deliveredEntries_silent silent, droppedEntries_silent silent]
    rfl

theorem Balanced.afterSilent {more : List (Event σ)} {carried : List ControlPlaneEntry}
    (balanced : Balanced more carried) : Balanced (events ++ more) carried :=
  (balanced_silent silent).append balanced (.inl rfl)

end SilentEvents

/-- `Balanced`, and without a hook for its steps the list delivers nothing. -/
def Settled (hook : Option (OrchestrationStep σ → Async σ Unit)) (events : List (Event σ))
    (carried : List ControlPlaneEntry) : Prop :=
  Balanced events carried ∧ (hook = none → deliveredEntries events = [])

section SettledEvents

variable {hook : Option (OrchestrationStep σ → Async σ Unit)} {events more : List (Event σ)}
  {carried further : List ControlPlaneEntry}

theorem settled_silent (silent : ∀ event ∈ events, event.Silent) : Settled hook events [] :=
  ⟨balanced_silent silent, fun _ => deliveredEntries_silent silent⟩

/-- Two parts in a row: a hook leaves nothing to carry past the second part. -/
theorem Settled.append (first : Settled hook events carried) (second : Settled hook more further)
    (apart : carried = [] ∨ hook = none) : Settled hook (events ++ more) (carried ++ further) := by
  refine ⟨first.1.append second.1 (apart.imp_right second.2), fun noHook => ?_⟩
  rw [deliveredEntries_append, first.2 noHook, second.2 noHook]
  rfl

theorem Settled.afterSilent (silent : ∀ event ∈ events, event.Silent)
    (settled : Settled hook more carried) : Settled hook (events ++ more) carried :=
  (settled_silent silent).append settled (.inl rfl)

theorem Settled.beforeSilent (settled : Settled hook events carried)
    (silent : ∀ event ∈ more, event.Silent) : Settled hook (events ++ more) carried := by
  have noneDelivered := deliveredEntries_silent silent
  have both := settled.1.append (balanced_silent silent) (.inr noneDelivered)
  rw [List.append_nil] at both
  refine ⟨both, fun noHook => ?_⟩
  rw [deliveredEntries_append, settled.2 noHook, noneDelivered]
  rfl

/-- Without a hook nothing is delivered, so any hook may stand for none. -/
theorem Settled.ofNone (settled : Settled none events carried) : Settled hook events carried :=
  ⟨settled.1, fun _ => settled.2 rfl⟩

end SettledEvents

/-! ### Results of runs without a shutdown request -/

/-- If the computation returns a value and no poll saw a shutdown request, the value
and the events satisfy `post`. -/
def Delivers (computation : Async σ α) (post : α → List (Event σ) → Prop) : Prop :=
  ∀ state, computation.After state fun result _ events =>
    .interrupted ∉ events → ∀ value, result = some value → post value events

namespace Delivers

theorem any (computation : Async σ α) : Delivers computation fun _ _ => True :=
  fun _ _ _ _ => trivial

theorem pure {value : α} {post : α → List (Event σ) → Prop} (holds : post value []) :
    Delivers (Pure.pure value) post := by
  rintro state - _ ⟨⟩
  exact holds

theorem throw {post : α → List (Event σ) → Prop} : Delivers Effect.throw post :=
  fun _ _ _ missing => nomatch missing

theorem mono {computation : Async σ α} {post weaker : α → List (Event σ) → Prop}
    (delivers : Delivers computation post)
    (implies : ∀ value events, post value events → weaker value events) :
    Delivers computation weaker := fun state =>
  (delivers state).mono fun _ _ _ holds noShutdown value isValue =>
    implies value _ (holds noShutdown value isValue)

theorem bind {first : Async σ α} {next : α → Async σ β} {middle : α → List (Event σ) → Prop}
    {post : β → List (Event σ) → Prop} (delivers : Delivers first middle)
    (continued : ∀ value events, middle value events →
      Delivers (next value) fun result more => post result (events ++ more)) :
    Delivers (first >>= next) post := by
  intro state
  refine After.bind (delivers state) (fun _ _ _ _ _ missing => nomatch missing) ?_
  intro value between events holds
  by_cases noShutdown : .interrupted ∉ events
  · refine (continued value events (holds noShutdown value rfl) between).mono ?_
    intro result after more further quiet own isOwn
    exact further (fun mem => quiet (List.mem_append_right _ mem)) own isOwn
  · have anything : (next value).After between fun _ _ _ => True := trivial
    refine anything.mono ?_
    intro result after more _ quiet
    exact absurd (fun mem => quiet (List.mem_append_left _ mem)) noShutdown

theorem attempt {computation : Async σ α} {post : α → List (Event σ) → Prop}
    (delivers : Delivers computation post) : Delivers computation.attempt fun result events =>
      ∀ value, result = some value → post value events := by
  rintro state noShutdown _ ⟨⟩ value isValue
  exact delivers state noShutdown value isValue

theorem silent {computation : Async σ α} (keeps : Keeps Silent computation) :
    Delivers computation fun _ events => ∀ event ∈ events, event.Silent :=
  fun state _ _ _ => keeps state

theorem and {computation : Async σ α} {post further : α → List (Event σ) → Prop}
    (delivers : Delivers computation post) (also : Delivers computation further) :
    Delivers computation fun value events => post value events ∧ further value events :=
  fun state quiet value isValue =>
    ⟨delivers state quiet value isValue, also state quiet value isValue⟩

theorem ite {condition : Prop} [Decidable condition] {yes no : Async σ α}
    {post : α → List (Event σ) → Prop} (deliversYes : condition → Delivers yes post)
    (deliversNo : ¬ condition → Delivers no post) :
    Delivers (if condition then yes else no) post := by
  split
  · exact deliversYes ‹_›
  · exact deliversNo ‹_›

end Delivers

/-! ### Hooks, leaves and signals -/

theorem silent_assertValid (entries : Option (List (ModuleMetaEntry σ))) :
    Keeps Silent (assertValidModuleMetaEntries entries) :=
  silent_of_plain (plain_assertValidModuleMetaEntries entries)

/-- The runner's hook delivers the entries of a step that has not failed. -/
theorem delivers_applyRunnerControlPlaneMeta (host : Host σ)
    (entries : Option (List (ModuleMetaEntry σ))) {status : ModuleStatus}
    (succeeded : status ≠ .failed) :
    Delivers (applyRunnerControlPlaneMeta host entries status) fun _ events =>
      returnedEntries events = [] ∧ deliveredEntries events = controlPlaneEntries entries ∧
        droppedEntries events = [] := by
  unfold applyRunnerControlPlaneMeta
  rw [if_neg succeeded]
  cases entries with
  | none => exact Delivers.pure ⟨rfl, rfl, rfl⟩
  | some list =>
    have silent : Keeps Silent (do
        assertValidModuleMetaEntries (some list)
        handlePortChange host (controlPlaneEntries (some list))
        handleReboot host (controlPlaneEntries (some list))) :=
      .bind Silent.trail (silent_assertValid _) fun _ =>
        .bind Silent.trail (silent_of_plain (plain_handlePortChange host _)) fun _ =>
          silent_of_plain (plain_handleReboot host _)
    let delivery : Event σ := .delivered (controlPlaneEntries (some list))
    have delivers : Delivers (Effect.report delivery) fun _ events => events = [delivery] :=
      fun _ _ _ _ => rfl
    refine Delivers.bind delivers ?_
    rintro _ _ rfl
    refine (Delivers.silent silent).mono fun _ events isSilent => ?_
    rw [returnedEntries_append, deliveredEntries_append, droppedEntries_append,
      returnedEntries_silent isSilent, deliveredEntries_silent isSilent,
      droppedEntries_silent isSilent]
    simp [delivery, returnedEntries, deliveredEntries, droppedEntries, Event.returnedEntries,
      Event.deliveredEntries, Event.droppedEntries]

/-- Hooks and getters as a run hands them down: a recipe whose signals are reported to
the runner has its children reported too. -/
structure DeliveryOptions (host : Host σ) (options : ApplyOptions σ) : Prop where
  child : options.onChildStep = none ∨ options.onChildStep = some (controlPlaneHook host)
  signal : options.onSignalStep = none ∨
    options.onSignalStep = some (controlPlaneHook host) ∧
      options.onChildStep = some (controlPlaneHook host)
  poll : Delivers (pollOptional options.shutdownSignal) fun interrupted events =>
    interrupted = false ∧ ∀ event ∈ events, event.Silent
  started : Keeps Silent (onSignalStarted options.signalHooks)
  finished : ∀ status, Keeps Silent (onSignalFinished options.signalHooks status)

/-- What a module that has not failed returned is handed up, delivered or dropped;
without a hook nothing of it is delivered. -/
def Accounted (host : Host σ) (module : Module σ) : Prop :=
  ∀ options, DeliveryOptions host options → ∀ env,
    Delivers (module.apply options env) fun result events =>
      result.status ≠ .failed →
        Settled options.onChildStep events (controlPlaneEntries result.metaEntries)

theorem DeliveryOptions.absent (host : Host σ) : DeliveryOptions host .absent where
  child := .inl rfl
  signal := .inl rfl
  poll := Delivers.pure ⟨rfl, nofun⟩
  started := .pure Silent.trail _
  finished _ := .pure Silent.trail _

theorem DeliveryOptions.onlyShutdown {host : Host σ} {options : ApplyOptions σ}
    (given : DeliveryOptions host options) : DeliveryOptions host
      { ApplyOptions.absent with shutdownSignal := options.shutdownSignal } :=
  { DeliveryOptions.absent host with poll := given.poll }

theorem DeliveryOptions.child_ {host : Host σ} {options : ApplyOptions σ}
    (given : DeliveryOptions host options) : DeliveryOptions host { ApplyOptions.absent with
        onChildStep := options.onChildStep, shutdownSignal := options.shutdownSignal } :=
  { DeliveryOptions.absent host with
    child := given.child, signal := .inl rfl, poll := given.poll }

theorem DeliveryOptions.conditional {host : Host σ} {options : ApplyOptions σ}
    (given : DeliveryOptions host options) : DeliveryOptions host { ApplyOptions.absent with
        onChildStep := options.onChildStep
        shutdownSignal := some (pollOptional options.shutdownSignal) } :=
  { DeliveryOptions.absent host with
    child := given.child, signal := .inl rfl, poll := given.poll }

theorem controlPlaneEntries_identifyEntries (first : Nat) (entries : List (ModuleMetaEntry σ)) :
    controlPlaneEntries (some (identifyEntries first entries)) =
      controlPlaneEntries (some entries) := by
  unfold controlPlaneEntries
  induction entries generalizing first with
  | nil => rfl
  | cons entry rest ih =>
    cases entry with
    | env entry => exact ih (first + 1)
    | control entry => exact congrArg (entry :: ·) (ih first)

theorem delivers_emitResult (result : ModuleResult σ)
    (hook : Option (OrchestrationStep σ → Async σ Unit)) :
    Delivers (emitResult result) fun own events =>
      Settled hook events (controlPlaneEntries own.metaEntries) := by
  rintro state - _ ⟨⟩
  have sameEntries : controlPlaneEntries (result.metaEntries.map (identifyEntries state.emitted)) =
      controlPlaneEntries result.metaEntries := by
    cases result.metaEntries with
    | none => rfl
    | some list => exact controlPlaneEntries_identifyEntries _ _
  refine ⟨?_, fun _ => rfl⟩
  change Balanced [.returned (controlPlaneEntries result.metaEntries)]
    (controlPlaneEntries (result.metaEntries.map (identifyEntries state.emitted)))
  rw [sameEntries]
  constructor
  · simp [returnedEntries, deliveredEntries, Event.returnedEntries, Event.deliveredEntries]
  · simp [returnedEntries, deliveredEntries, droppedEntries, Event.returnedEntries,
      Event.deliveredEntries, Event.droppedEntries]

theorem accounted_leaf (host : Host σ) (leaf : Leaf σ) : Accounted host leaf.toModule := by
  intro options given env
  refine Delivers.bind (Delivers.silent
    (.report fun _ _ mem => List.mem_singleton.1 mem ▸ trivial)) fun _ before isSilent => ?_
  refine Delivers.bind (Delivers.silent (silent_of_plain (plain_runProgram _ _ _)))
    fun result reads readsSilent => ?_
  exact (delivers_emitResult result options.onChildStep).mono fun own events settled _ =>
    .afterSilent isSilent (.afterSilent readsSilent settled)

section Lists

variable {host : Host σ} {options : ApplyOptions σ} (given : DeliveryOptions host options)

include given

/-- The hook of a signal pass takes what the signal handed up, or drops it. -/
theorem delivers_notifySignalStep (step : OrchestrationStep σ) (succeeded : step.status ≠ .failed) :
    Delivers (notifySignalStep options.onSignalStep step) fun _ events =>
      ∀ before, Settled none before (controlPlaneEntries step.metaEntries) →
        Settled options.onChildStep (before ++ events) [] := by
  rcases given.signal with noHook | ⟨hook, childHook⟩
  · rw [noHook]
    rintro state - _ ⟨⟩ before settled
    refine ⟨settled.1.drop, fun _ => ?_⟩
    change deliveredEntries (before ++ [.dropped (controlPlaneEntries step.metaEntries)]) = []
    rw [deliveredEntries_append, settled.2 rfl]
    rfl
  · rw [hook, childHook]
    refine (delivers_applyRunnerControlPlaneMeta host step.metaEntries succeeded).mono ?_
    rintro _ events ⟨returned, delivered, dropped⟩ before settled
    exact ⟨settled.1.deliver returned delivered dropped, nofun⟩

theorem delivers_applySignalMeta (env : Environment σ) {result : ModuleResult σ}
    (succeeded : result.status ≠ .failed) :
    Delivers (applySignalMeta env options.onSignalStep result) fun _ events =>
      ∀ before, Settled none before (controlPlaneEntries result.metaEntries) →
        Settled options.onChildStep (before ++ events) [] := by
  refine Delivers.bind (Delivers.silent (silent_assertValid _)) fun _ checks checksSilent => ?_
  refine Delivers.bind (Delivers.silent (silent_of_plain (plain_mergeUnlessFailed _ _)))
    fun next merges mergesSilent => ?_
  refine Delivers.bind
    (delivers_notifySignalStep given ⟨false, false, next, result.metaEntries, _⟩ succeeded)
    fun _ notified settles => ?_
  refine Delivers.pure fun before settled => ?_
  have handedUp := settles _ ((settled.beforeSilent checksSilent).beforeSilent mergesSilent)
  simpa only [List.append_assoc, List.append_nil] using handedUp

theorem delivers_handleSignalResult (result : ModuleResult σ) :
    Delivers (handleSignalResult options.signalHooks result) fun status events =>
      (status = .failed ↔ result.status = .failed) ∧ ∀ event ∈ events, event.Silent := by
  refine Delivers.bind (Delivers.silent (silent_reportBody _)) fun _ before isSilent => ?_
  refine Delivers.bind (Delivers.silent (given.finished _)) fun _ after afterSilent => ?_
  refine Delivers.pure ⟨?_, ?_⟩
  · split
    · exact iff_of_true rfl ‹_›
    · exact iff_of_false nofun ‹_›
  · rw [List.append_nil]
    exact List.forall_mem_append.2 ⟨isSilent, afterSilent⟩

theorem delivers_runOneSignal {signal : Module σ} (accounted : Accounted host signal)
    (env : Environment σ) :
    Delivers (runOneSignal (signalParameters options) env signal) fun step events =>
      step.status ≠ .failed → Settled options.onChildStep events [] := by
  refine Delivers.bind (Delivers.silent (silent_reportBody _)) fun _ start startSilent => ?_
  refine Delivers.bind (accounted _ given.onlyShutdown env) fun result events held => ?_
  by_cases isFailed : result.status = .failed
  · refine Delivers.bind (Delivers.any _) fun next _ _ => ?_
    refine Delivers.bind (delivers_handleSignalResult given result) fun status _ same => ?_
    exact Delivers.pure fun succeeded => absurd (same.1.2 isFailed) succeeded
  · refine Delivers.bind (delivers_applySignalMeta given env isFailed)
      fun next notified settles => ?_
    refine Delivers.bind (delivers_handleSignalResult given result) fun status ended same => ?_
    refine Delivers.pure fun _ => ?_
    have settled := (settles events (held isFailed)).beforeSilent same.2
    rw [List.append_nil]
    rw [List.append_assoc] at settled
    exact settled.afterSilent startSilent

theorem delivers_runSignalList {signals : List (Module σ)}
    (accounted : ∀ signal ∈ signals, Accounted host signal) (env : Environment σ) :
    Delivers (runSignalList (signalParameters options) env signals)
      fun status events => status ≠ .failed → Settled options.onChildStep events [] := by
  induction signals generalizing env with
  | nil => exact Delivers.pure fun _ => settled_silent nofun
  | cons signal rest ih =>
    refine Delivers.bind given.poll fun interrupted polled quiet => ?_
    obtain ⟨rfl, pollSilent⟩ := quiet
    refine Delivers.bind (Delivers.silent given.started) fun _ started startedSilent => ?_
    refine Delivers.bind (Delivers.attempt (delivers_runOneSignal given
      (accounted signal List.mem_cons_self) env)) fun attempted events held => ?_
    cases attempted with
    | none =>
      refine Delivers.bind (Delivers.any _) fun _ _ _ => ?_
      refine Delivers.bind (Delivers.any _) fun _ _ _ => ?_
      exact Delivers.pure fun succeeded => absurd rfl succeeded
    | some step =>
      refine Delivers.ite (fun _ => Delivers.pure fun succeeded => absurd rfl succeeded)
        fun stepSucceeded => ?_
      have stepSettled := held step rfl stepSucceeded
      refine (ih (fun own mem => accounted own (List.mem_cons_of_mem _ mem))
        step.nextEnvironment).mono fun status more restSettled succeeded => ?_
      have both := stepSettled.append (restSettled succeeded) (.inl rfl)
      exact .afterSilent pollSilent (.afterSilent startedSilent both)

theorem delivers_runSignalModules {signals : List (Module σ)}
    (accounted : ∀ signal ∈ signals, Accounted host signal) (env : Environment σ) :
    Delivers (runSignalModules (signalParameters options) env signals)
      fun status events => status ≠ .failed → Settled options.onChildStep events [] := by
  refine Delivers.bind (Delivers.silent (silent_reportBody _)) fun _ start startSilent => ?_
  exact (delivers_runSignalList given accounted env).mono
    fun status events settles succeeded => (settles succeeded).afterSilent startSilent

/-! ### Recipes -/

/-- What a child that was applied comes to. -/
def ChildSettled (hook : Option (OrchestrationStep σ → Async σ Unit))
    (events : List (Event σ)) : RecipeChildExecution σ → Prop
  | .failed state => state.status = .failed
  | .step .interruptedBeforeApply => False
  | .step .alreadyOk => ∀ event ∈ events, event.Silent
  | .step (.step step) =>
      step.status ≠ .failed → Settled hook events (controlPlaneEntries step.metaEntries)

theorem delivers_applyRecipeChild {child : Module σ} (accounted : Accounted host child)
    (env : Environment σ) : Delivers (applyRecipeChild options child env) fun result events =>
      result.status ≠ .failed →
        Settled options.onChildStep events (controlPlaneEntries result.metaEntries) := by
  refine Delivers.ite (fun _ => accounted options given env) fun _ => ?_
  refine Delivers.ite (fun _ => accounted _ given.child_ env) fun _ => ?_
  exact (accounted _ (.absent host) env).mono
    fun result events settles succeeded => (settles succeeded).ofNone

omit given in
theorem delivers_buildRecipeChildStep (result : ModuleResult σ) (env : Environment σ) :
    Delivers (buildRecipeChildStep result env) fun step events =>
      step.status = result.status ∧ step.metaEntries = result.metaEntries ∧
        ∀ event ∈ events, event.Silent := by
  refine Delivers.bind (Delivers.silent (silent_of_plain (plain_mergeUnlessFailed env result)))
    fun next merges mergesSilent => Delivers.pure ⟨rfl, rfl, ?_⟩
  rw [List.append_nil]
  exact mergesSilent

theorem delivers_executeOneModule {child : Module σ} (framed : Framed child)
    (accounted : Accounted host child) (env : Environment σ) :
    Delivers (executeOneModule options child env) fun step events =>
      ChildSettled options.onChildStep events (.step step) := by
  refine Delivers.bind (Delivers.silent (silent_of_plain (framed.check env)))
    fun checkResult checks checksSilent => ?_
  cases checkResult with
  | ok =>
    refine Delivers.pure ?_
    rw [List.append_nil]
    exact checksSilent
  | needsApply =>
    refine Delivers.bind given.poll fun interrupted polled quiet => ?_
    obtain ⟨rfl, pollSilent⟩ := quiet
    refine Delivers.bind (Delivers.silent (silent_reportBody _)) fun _ start startSilent => ?_
    refine Delivers.bind (delivers_applyRecipeChild given accounted env)
      fun result events held => ?_
    refine Delivers.bind (delivers_buildRecipeChildStep result env)
      fun step merges built => Delivers.pure fun succeeded => ?_
    obtain ⟨sameStatus, sameEntries, mergesSilent⟩ := built
    have settled := (held (sameStatus ▸ succeeded)).beforeSilent mergesSilent
    rw [sameEntries, List.append_nil]
    exact .afterSilent checksSilent (.afterSilent pollSilent (.afterSilent startSilent settled))

theorem delivers_executeRecipeChildStep {child : Module σ} (framed : Framed child)
    (accounted : Accounted host child) (env : Environment σ) :
    Delivers (executeRecipeChildStep options child env) fun execution events =>
      ChildSettled options.onChildStep events execution := by
  refine Delivers.bind (Delivers.attempt (delivers_executeOneModule given framed accounted
    env)) fun attempted events held => ?_
  cases attempted with
  | some step =>
    refine Delivers.pure ?_
    rw [List.append_nil]
    exact held step rfl
  | none =>
    refine Delivers.bind given.poll fun interrupted polled quiet => ?_
    obtain ⟨rfl, pollSilent⟩ := quiet
    exact Delivers.bind (Delivers.any _) fun _ _ _ => Delivers.pure rfl

omit given in
theorem controlPlaneEntries_passedOn (own : List (ModuleMetaEntry σ)) (preserve : Bool)
    (entries : Option (List (ModuleMetaEntry σ))) :
    controlPlaneEntries (some (own ++ (entries.map (passedOnEntries preserve)).getD [])) =
      controlPlaneEntries (some own) ++ if preserve then controlPlaneEntries entries else [] := by
  have noControl (list : List (ModuleMetaEntry σ)) :
      controlPlaneEntries (some (list.filter isEnvironmentMetaEntry)) = [] := by
    refine List.filterMap_eq_nil_iff.2 fun entry mem => ?_
    cases entry with
    | env entry => rfl
    | control entry => cases (List.mem_filter.1 mem).2
  have appended (list : List (ModuleMetaEntry σ)) : controlPlaneEntries (some (own ++ list)) =
      controlPlaneEntries (some own) ++ controlPlaneEntries (some list) :=
    List.filterMap_append
  rw [appended]
  cases entries with
  | none => cases preserve <;> rfl
  | some list =>
    cases preserve with
    | true => rfl
    | false => exact congrArg _ (noControl list)

/-- What a list of steps has in hand after some of them: with a hook, nothing. -/
def HandsUp (hook : Option (OrchestrationStep σ → Async σ Unit)) (events : List (Event σ))
    (entries : Option (List (ModuleMetaEntry σ))) : Prop :=
  Settled hook events (controlPlaneEntries entries) ∧
    (hook = none ∨ controlPlaneEntries entries = [])

omit given in
theorem HandsUp.settle {hook : Option (OrchestrationStep σ → Async σ Unit)}
    {events more : List (Event σ)} {entries : Option (List (ModuleMetaEntry σ))}
    (handsUp : HandsUp hook events entries) (settled : Settled hook more []) :
    HandsUp hook (events ++ more) entries := by
  refine ⟨?_, handsUp.2⟩
  have both := handsUp.1.append settled handsUp.2.symm
  rwa [List.append_nil] at both

/-- The hook takes what a step handed up, or the list hands it on. -/
theorem delivers_callHook {before events : List (Event σ)}
    {entries : Option (List (ModuleMetaEntry σ))} (step : OrchestrationStep σ)
    (start : HandsUp options.onChildStep before entries) (child : step.status ≠ .failed →
      Settled options.onChildStep events (controlPlaneEntries step.metaEntries)) :
    Delivers (callHook options.onChildStep step) fun _ more => step.status ≠ .failed →
      HandsUp options.onChildStep (before ++ (events ++ more)) (some (entries.getD [] ++
          (step.metaEntries.map (passedOnEntries options.onChildStep.isNone)).getD [])) := by
  by_cases isFailed : step.status = .failed
  · exact fun _ _ _ _ succeeded => absurd isFailed succeeded
  have settled := child isFailed
  unfold HandsUp
  rw [controlPlaneEntries_passedOn]
  rcases given.child with noHook | hook
  · rw [noHook] at start settled ⊢
    refine Delivers.pure fun _ => ?_
    rw [List.append_nil]
    exact ⟨start.1.append settled (.inr rfl), .inl rfl⟩
  · rw [hook] at start settled ⊢
    have inHand : controlPlaneEntries entries = [] := start.2.resolve_left nofun
    refine (delivers_applyRunnerControlPlaneMeta host step.metaEntries isFailed).mono ?_
    rintro _ more ⟨returned, delivered, dropped⟩ -
    have taken : Settled (some (controlPlaneHook host)) (events ++ more) [] :=
      ⟨settled.1.deliver returned delivered dropped, nofun⟩
    have nothing : controlPlaneEntries (some (entries.getD [])) ++
        (if (some (controlPlaneHook host)).isNone = true then
          controlPlaneEntries step.metaEntries else []) = [] := by
      rw [if_neg nofun, List.append_nil]
      exact inHand
    rw [nothing]
    refine ⟨?_, .inr rfl⟩
    have first := start.1
    rw [inHand] at first
    exact first.append taken (.inl rfl)

section Recipe

variable {signals : Option (List (Module σ))}
  (accounted : ∀ list, signals = some list → ∀ signal ∈ list, Accounted host signal)

include accounted

theorem delivers_flushRecipeSignals (step : OrchestrationStep σ) (state : RecipeState σ) :
    Delivers (flushRecipeSignals options signals step state) fun flushed events =>
      flushed.status ≠ .failed → state.status ≠ .failed ∧
        flushed.metaEntries = state.metaEntries ∧ Settled options.onChildStep events [] := by
  unfold flushRecipeSignals
  cases signals with
  | none => exact Delivers.pure fun succeeded => ⟨succeeded, rfl, settled_silent nofun⟩
  | some list =>
    refine Delivers.ite (fun _ => ?_)
      fun _ => Delivers.pure fun succeeded => ⟨succeeded, rfl, settled_silent nofun⟩
    refine Delivers.bind (delivers_runSignalModules given (accounted list rfl) state.env)
      fun status events settles => Delivers.pure fun succeeded => ?_
    rw [List.append_nil]
    by_cases isFailed : status = .failed
    · exact absurd (if_pos isFailed) succeeded
    · exact ⟨fun stateFailed => succeeded ((if_neg isFailed).trans stateFailed), rfl,
        settles isFailed⟩

theorem delivers_processRecipeStep {before events : List (Event σ)} {state : RecipeState σ}
    (start : HandsUp options.onChildStep before state.metaEntries)
    {execution : RecipeChildExecution σ}
    (child : ChildSettled options.onChildStep events execution) :
    Delivers (processRecipeStep options signals state execution) fun processed more =>
      (processed.state.status ≠ .failed →
        HandsUp options.onChildStep (before ++ (events ++ more)) processed.state.metaEntries) ∧
      ∀ next, processed = .proceed next → next.status ≠ .failed := by
  have proceeds {own next : RecipeState σ} (same : stopAfter own = .proceed next) :
      next.status ≠ .failed := by
    obtain ⟨rfl, running⟩ := stopAfter_proceed same
    exact running
  rcases execution with failedState | _ | _ | step
  · exact Delivers.pure ⟨fun succeeded => absurd child succeeded, nofun⟩
  · refine Delivers.pure ⟨fun _ => ?_, fun _ => proceeds⟩
    rw [stopAfter_state, List.append_nil]
    exact start.settle (settled_silent child)
  · exact child.elim
  · refine Delivers.bind (delivers_callHook given step start child) fun _ hooked handsUp => ?_
    refine Delivers.bind (Delivers.silent (silent_reportBody _)) fun _ rows rowsSilent => ?_
    refine Delivers.bind (delivers_flushRecipeSignals given accounted step _)
      fun flushed passes settles => Delivers.pure ⟨fun succeeded => ?_, fun _ => proceeds⟩
    rw [stopAfter_state] at succeeded ⊢
    obtain ⟨nextSucceeded, sameEntries, settled⟩ := settles succeeded
    have stepSucceeded : step.status ≠ .failed := fun isFailed => nextSucceeded (if_pos isFailed)
    have handedUp := ((handsUp stepSucceeded).settle (settled_silent rowsSilent)).settle settled
    rw [sameEntries, List.append_nil]
    simp only [List.append_assoc] at handedUp
    exact handedUp

theorem delivers_executeModules {modules : List (Module σ)}
    (framed : ∀ child ∈ modules, Framed child)
    (children : ∀ child ∈ modules, Accounted host child) {before : List (Event σ)}
    {state : RecipeState σ} (start : HandsUp options.onChildStep before state.metaEntries) :
    Delivers (executeModules options signals state modules) fun final events =>
      final.status ≠ .failed →
        HandsUp options.onChildStep (before ++ events) final.metaEntries := by
  induction modules generalizing before state with
  | nil =>
    refine Delivers.pure fun _ => ?_
    rw [List.append_nil]
    exact start
  | cons child rest ih =>
    refine Delivers.bind given.poll fun interrupted polled quiet => ?_
    obtain ⟨rfl, pollSilent⟩ := quiet
    refine Delivers.bind (delivers_executeRecipeChildStep given
      (framed child List.mem_cons_self) (children child List.mem_cons_self) state.env)
      fun execution events childSettled => ?_
    refine Delivers.bind (delivers_processRecipeStep given accounted
      (start.settle (settled_silent pollSilent)) childSettled) fun processed more held => ?_
    obtain ⟨handsUp, running⟩ := held
    cases processed with
    | stop final =>
      refine Delivers.pure fun succeeded => ?_
      have handedUp := handsUp succeeded
      rw [List.append_assoc] at handedUp
      rw [List.append_nil]
      exact handedUp
    | proceed next =>
      refine (ih (fun own mem => framed own (List.mem_cons_of_mem _ mem))
        (fun own mem => children own (List.mem_cons_of_mem _ mem))
        (handsUp (running next rfl))).mono fun final rest ended succeeded => ?_
      simpa only [List.append_assoc] using ended succeeded

theorem delivers_runRecipeSignalsAtEnd (state : RecipeState σ) :
    Delivers (runRecipeSignalsAtEnd options signals state) fun status events =>
      status ≠ .failed → state.status ≠ .failed ∧ Settled options.onChildStep events [] := by
  unfold runRecipeSignalsAtEnd
  cases signals with
  | none => exact Delivers.pure fun succeeded => ⟨succeeded, settled_silent nofun⟩
  | some list =>
    refine Delivers.ite (fun due => ?_)
      fun _ => Delivers.pure fun succeeded => ⟨succeeded, settled_silent nofun⟩
    refine Delivers.bind (delivers_runSignalModules given (accounted list rfl) state.env)
      fun status events settles => Delivers.pure fun succeeded => ?_
    rw [List.append_nil]
    by_cases isFailed : status = .failed
    · exact absurd (if_pos isFailed) succeeded
    · exact ⟨fun stateFailed => absurd (due.2.symm.trans stateFailed) nofun, settles isFailed⟩

end Recipe

end Lists

theorem Delivers.scoped {scopedOperation : Async σ α} {post : α → List (Event σ) → Prop}
    (delivers : Delivers scopedOperation post) :
    Delivers (withRecipeOutputScope scopedOperation) post := fun _ =>
  after_withRecipeOutputScope (delivers _)

theorem accounted_recipe {host : Host σ} (shutdownRequested : σ → Bool)
    {modules : List (Module σ)} {signals : Option (List (Module σ))}
    (framed : ∀ child ∈ modules, Framed child) (children : ∀ child ∈ modules, Accounted host child)
    (accounted : ∀ list, signals = some list → ∀ signal ∈ list, Accounted host signal) :
    Accounted host (recipe shutdownRequested modules signals) := by
  intro options given env
  have nothingYet : HandsUp options.onChildStep [] (initialRecipeState env).metaEntries :=
    ⟨settled_silent nofun, .inr rfl⟩
  refine Delivers.scoped ?_
  refine Delivers.bind (delivers_executeModules given accounted framed children nothingYet)
    fun state events handsUp => ?_
  refine Delivers.bind (delivers_runRecipeSignalsAtEnd given accounted state)
    fun status passes settles => Delivers.pure fun succeeded => ?_
  obtain ⟨stateSucceeded, settled⟩ := settles succeeded
  rw [List.append_nil]
  exact ((handsUp stateSucceeded).settle settled).1

/-! ### `when` blocks -/

section Conditional

variable {host : Host σ} {options : ApplyOptions σ} (given : DeliveryOptions host options)

include given

def ConditionalStepSettled (hook : Option (OrchestrationStep σ → Async σ Unit))
    (events : List (Event σ)) : ConditionalApplyStepResult σ → Prop
  | .failed result => result.status = .failed
  | .stop state => HandsUp hook events (some state.metaEntries)
  | .proceed state => HandsUp hook events (some state.metaEntries)

theorem delivers_executeConditionalApply {child : Module σ} (accounted : Accounted host child)
    (env : Environment σ) :
    Delivers (executeConditionalApply options child env) fun result events =>
      result.status ≠ .failed →
        Settled options.onChildStep events (controlPlaneEntries result.metaEntries) := by
  refine Delivers.ite (fun _ => accounted _ given.conditional env) fun _ => ?_
  exact (accounted _ (.absent host) env).mono
    fun result events settles succeeded => (settles succeeded).ofNone

omit given in
theorem delivers_mergeConditionalApplyState (preserve : Bool) (state : ConditionalApplyState σ)
    (result : ModuleResult σ) :
    Delivers (mergeConditionalApplyState preserve state result) fun merged events =>
      merged.metaEntries =
          state.metaEntries ++ (result.metaEntries.map (passedOnEntries preserve)).getD [] ∧
        ∀ event ∈ events, event.Silent := by
  refine Delivers.bind (Delivers.silent (silent_of_plain
    (plain_mergeEnvironmentFromMeta state.environment result.metaEntries)))
    fun env merges mergesSilent => Delivers.pure ⟨rfl, ?_⟩
  rw [List.append_nil]
  exact mergesSilent

theorem delivers_processConditionalApplyResult {before events : List (Event σ)}
    {state : ConditionalApplyState σ}
    (start : HandsUp options.onChildStep before (some state.metaEntries))
    {result : ModuleResult σ} (succeeded : result.status ≠ .failed)
    (settled : Settled options.onChildStep events (controlPlaneEntries result.metaEntries)) :
    Delivers (processConditionalApplyResult options state result) fun next more =>
      HandsUp options.onChildStep (before ++ (events ++ more)) (some next.metaEntries) := by
  refine Delivers.bind
    (delivers_mergeConditionalApplyState options.onChildStep.isNone state result)
    fun merged merges held => ?_
  obtain ⟨sameEntries, mergesSilent⟩ := held
  refine Delivers.bind (delivers_callHook given _ start
    fun _ => settled.beforeSilent mergesSilent) fun _ hooked handsUp => Delivers.pure ?_
  have handedUp := handsUp succeeded
  rw [sameEntries, List.append_nil]
  rw [List.append_assoc] at handedUp
  exact handedUp

theorem delivers_applyConditionalModuleStep {child : Module σ} (framed : Framed child)
    (accounted : Accounted host child) {before : List (Event σ)} {state : ConditionalApplyState σ}
    (start : HandsUp options.onChildStep before (some state.metaEntries)) :
    Delivers (applyConditionalModuleStep options state child) fun step more =>
      ConditionalStepSettled options.onChildStep (before ++ more) step := by
  refine Delivers.bind given.poll fun interrupted polled quiet => ?_
  obtain ⟨rfl, pollSilent⟩ := quiet
  refine Delivers.bind (Delivers.silent (silent_of_plain (framed.check state.environment)))
    fun checkResult checks checksSilent => ?_
  have checked := (start.settle (settled_silent pollSilent)).settle (settled_silent checksSilent)
  rw [List.append_assoc] at checked
  cases checkResult with
  | ok =>
    refine Delivers.pure ?_
    rw [List.append_nil]
    exact checked
  | needsApply =>
    refine Delivers.bind given.poll fun interrupted again quiet => ?_
    obtain ⟨rfl, againSilent⟩ := quiet
    refine Delivers.bind (delivers_executeConditionalApply given accounted state.environment)
      fun result events settles => ?_
    refine Delivers.ite (fun isFailed => Delivers.pure isFailed) fun succeeded => ?_
    refine Delivers.bind (delivers_processConditionalApplyResult given
      (checked.settle (settled_silent againSilent)) succeeded (settles succeeded))
      fun next more handsUp => Delivers.pure ?_
    rw [List.append_nil]
    simp only [List.append_assoc] at handsUp
    split
    · exact handsUp
    · exact handsUp

omit given in
theorem HandsUp.conditionalResult {hook : Option (OrchestrationStep σ → Async σ Unit)}
    {events : List (Event σ)} {state : ConditionalApplyState σ}
    (handsUp : HandsUp hook events (some state.metaEntries)) :
    HandsUp hook events (conditionalResult state).metaEntries := by
  rcases state with ⟨env, flushSignals, entries, status, stopRun⟩
  cases entries with
  | nil => exact handsUp
  | cons entry rest => exact handsUp

theorem delivers_runConditionalModuleLoop {modules : List (Module σ)}
    (framed : ∀ child ∈ modules, Framed child)
    (accounted : ∀ child ∈ modules, Accounted host child) {before : List (Event σ)}
    {state : ConditionalApplyState σ}
    (start : HandsUp options.onChildStep before (some state.metaEntries)) :
    Delivers (runConditionalModuleLoop options state modules) fun result more =>
      result.status ≠ .failed →
        HandsUp options.onChildStep (before ++ more) result.metaEntries := by
  induction modules generalizing before state with
  | nil =>
    refine Delivers.pure fun _ => ?_
    rw [List.append_nil]
    exact start.conditionalResult
  | cons child rest ih =>
    refine Delivers.bind (delivers_applyConditionalModuleStep given
      (framed child List.mem_cons_self) (accounted child List.mem_cons_self) start)
      fun step events settles => ?_
    cases step with
    | failed result => exact Delivers.pure fun succeeded => absurd settles succeeded
    | stop final =>
      refine Delivers.pure fun _ => ?_
      rw [List.append_nil]
      exact HandsUp.conditionalResult settles
    | proceed next =>
      refine (ih (fun own mem => framed own (List.mem_cons_of_mem _ mem))
        (fun own mem => accounted own (List.mem_cons_of_mem _ mem)) settles).mono
        fun result more ended succeeded => ?_
      have handedUp := ended succeeded
      rw [List.append_assoc] at handedUp
      exact handedUp

end Conditional

theorem accounted_conditional {host : Host σ} (block : Nat) (condition : Program σ Bool)
    {modules : List (Module σ)} (framed : ∀ child ∈ modules, Framed child)
    (accounted : ∀ child ∈ modules, Accounted host child) :
    Accounted host (createConditionalModule block condition modules) := by
  intro options given env
  refine Delivers.bind (Delivers.silent
    (silent_of_plain (plain_readConditionForApply block condition env)))
    fun holds guards guardsSilent => ?_
  refine Delivers.ite (fun _ => ?_) fun _ => Delivers.pure fun _ => ?_
  · have nothingYet : HandsUp options.onChildStep []
        (some (createConditionalApplyState env).metaEntries) :=
      ⟨settled_silent nofun, .inr rfl⟩
    exact (delivers_runConditionalModuleLoop given framed accounted nothingYet).scoped.mono
      fun result events handsUp succeeded => (handsUp succeeded).1.afterSilent guardsSilent
  · rw [List.append_nil]
    exact settled_silent guardsSilent

theorem Built.accounted {host : Host σ} {module : Module σ} (built : Built host module) :
    Accounted host module := by
  induction built with
  | leaf leaf => exact accounted_leaf host leaf
  | recipe children signalModules childrenAccounted signalsAccounted =>
    exact accounted_recipe _ (fun own mem => (children own mem).framed) childrenAccounted
      signalsAccounted
  | conditional block condition children childrenAccounted =>
    exact accounted_conditional block condition (fun own mem => (children own mem).framed)
      childrenAccounted

/-! ### The run -/

/-- A list of steps reported that a step or a signal failed. -/
def ReportsFailure (events : List (Event σ)) : Prop :=
  ∃ depth row, Event.body depth row ∈ events ∧ row.IsFailure

theorem ReportsFailure.before {events : List (Event σ)} (fails : ReportsFailure events)
    (more : List (Event σ)) : ReportsFailure (events ++ more) := by
  obtain ⟨depth, row, mem, isFailure⟩ := fails
  exact ⟨depth, row, List.mem_append_left _ mem, isFailure⟩

theorem ReportsFailure.after {more : List (Event σ)} (fails : ReportsFailure more)
    (events : List (Event σ)) : ReportsFailure (events ++ more) := by
  obtain ⟨depth, row, mem, isFailure⟩ := fails
  exact ⟨depth, row, List.mem_append_right _ mem, isFailure⟩

theorem delivers_failureReported {event : BodyEvent} (isFailure : event.IsFailure) :
    Delivers (reportBody (σ := σ) event) fun _ events => ReportsFailure events := by
  rintro state - _ ⟨⟩
  exact ⟨_, event, List.mem_singleton_self _, isFailure⟩

theorem delivers_handleSignalFailure (hooks : Option (SignalHooks σ)) :
    Delivers (handleSignalFailure hooks) fun _ events => ReportsFailure events := by
  have isFailure : (BodyEvent.signalReported .failed).IsFailure := trivial
  refine Delivers.bind (delivers_failureReported isFailure) fun _ rows fails => ?_
  exact Delivers.bind (Delivers.any _) fun _ _ _ => Delivers.pure (fails.before _)

theorem delivers_failedResult (hooks : Option (SignalHooks σ)) (result : ModuleResult σ) :
    Delivers (handleSignalResult hooks result) fun status events =>
      status = .failed → ReportsFailure events := by
  by_cases isFailed : result.status = .failed
  · have isFailure : (BodyEvent.signalReported result.status).IsFailure := isFailed ▸ trivial
    refine Delivers.bind (delivers_failureReported isFailure) fun _ rows fails => ?_
    exact Delivers.bind (Delivers.any _) fun _ _ _ => Delivers.pure fun _ => fails.before _
  · refine Delivers.bind (Delivers.any _) fun _ _ _ => ?_
    refine Delivers.bind (Delivers.any _) fun _ _ _ => Delivers.pure ?_
    rw [if_neg isFailed]
    exact nofun

theorem delivers_failedSignal (parameters : SignalRunParameters σ) (env : Environment σ)
    (signal : Module σ) : Delivers (runOneSignal parameters env signal) fun step events =>
      step.status = .failed → ReportsFailure events := by
  refine Delivers.bind (Delivers.any _) fun _ start _ => ?_
  refine Delivers.bind (Delivers.any _) fun result events _ => ?_
  refine Delivers.bind (Delivers.any _) fun next notified _ => ?_
  refine Delivers.bind (delivers_failedResult parameters.hooks result) fun status rows fails => ?_
  refine Delivers.pure fun isFailed => ?_
  exact ((((fails isFailed).before _).after _).after _).after _

theorem delivers_failedSignalList (parameters : SignalRunParameters σ) (env : Environment σ)
    (signals : List (Module σ)) :
    Delivers (runSignalList parameters env signals) fun status events =>
      status = .failed → ReportsFailure events := by
  induction signals generalizing env with
  | nil => exact Delivers.pure nofun
  | cons signal rest ih =>
    refine Delivers.bind (Delivers.any _) fun interrupted polled _ => ?_
    refine Delivers.ite (fun _ => Delivers.pure nofun) fun _ => ?_
    refine Delivers.bind (Delivers.any _) fun _ started _ => ?_
    refine Delivers.bind (Delivers.attempt (delivers_failedSignal parameters env signal))
      fun attempted events held => ?_
    cases attempted with
    | none =>
      exact (delivers_handleSignalFailure _).mono fun _ rows fails _ =>
        ((fails.after _).after _).after _
    | some step =>
      refine Delivers.ite (fun isFailed => Delivers.pure fun _ => ?_) fun _ => ?_
      · exact (((held step rfl isFailed).before _).after _).after _
      · exact (ih step.nextEnvironment).mono fun status more fails isFailed =>
          (((fails isFailed).after _).after _).after _

/-- A pass that fails has reported a failed signal. -/
theorem delivers_failedSignalModules (parameters : SignalRunParameters σ)
    (env : Environment σ) (signals : List (Module σ)) :
    Delivers (runSignalModules parameters env signals) fun status events =>
      status = .failed → ReportsFailure events := by
  refine Delivers.bind (Delivers.any _) fun _ start _ => ?_
  exact (delivers_failedSignalList parameters env signals).mono
    fun status events fails isFailed => (fails isFailed).after start

section Run

variable (host : Host σ)

theorem deliveryOptions_recipeOptions : DeliveryOptions host (recipeOptions host) where
  child := .inr rfl
  signal := .inr ⟨rfl, rfl⟩
  poll := by
    refine Delivers.bind (Delivers.silent (.get Silent.trail)) fun state got gotSilent => ?_
    refine Delivers.ite (fun _ => ?_) fun _ => Delivers.pure ⟨rfl, ?_⟩
    · intro between quiet
      exact absurd (List.mem_singleton_self _) quiet
    · rw [List.append_nil]
      exact gotSilent
  started := .pure Silent.trail _
  finished status := by
    refine .ite (fun _ => ?_) fun _ => .pure Silent.trail _
    exact .modify fun _ => nofun

theorem deliveryOptions_childStepOptions : DeliveryOptions host (childStepOptions host) :=
  (deliveryOptions_recipeOptions host).child_

/-- A step of the runner's loop that has not failed leaves nothing in hand. -/
def StepDelivers (computation : Async σ (StepResult σ)) : Prop :=
  Delivers computation fun result events => result.status ≠ some .failed → Balanced events []

theorem delivers_handleMetaAndBuildResult {before : List (Event σ)} (env : Environment σ)
    {result : ModuleResult σ} (settled : result.status ≠ .failed →
      Balanced before (controlPlaneEntries result.metaEntries)) :
    Delivers (handleMetaAndBuildResult host env result) fun own events =>
      own.status ≠ some .failed → Balanced (before ++ events) [] := by
  refine Delivers.bind (Delivers.silent (silent_of_plain
    (plain_mergeEnvironmentFromMeta env result.metaEntries)))
    fun next merges mergesSilent => ?_
  by_cases isFailed : result.status = .failed
  · refine Delivers.bind (Delivers.any _) fun _ _ _ => Delivers.pure fun succeeded => ?_
    exact absurd (congrArg some isFailed) succeeded
  · refine Delivers.bind (delivers_applyRunnerControlPlaneMeta host result.metaEntries isFailed)
      fun _ delivery held => Delivers.pure fun _ => ?_
    obtain ⟨returned, delivered, dropped⟩ := held
    have handedUp := (settled isFailed).append (balanced_silent mergesSilent)
      (.inr (deliveredEntries_silent mergesSilent))
    rw [List.append_nil] at handedUp
    have taken := handedUp.deliver returned delivered dropped
    rw [List.append_assoc] at taken
    rw [List.append_nil]
    exact taken

theorem stepDelivers_checkAndApplyRecipe {target : Module σ} (built : Built host target)
    (env : Environment σ) :
    StepDelivers (checkAndApplyRecipe host env target) := by
  refine Delivers.bind (Delivers.silent (silent_of_plain (built.framed.check env)))
    fun checkResult checks checksSilent => ?_
  cases checkResult with
  | ok =>
    refine Delivers.pure fun _ => ?_
    rw [List.append_nil]
    exact balanced_silent checksSilent
  | needsApply =>
    refine Delivers.bind (Delivers.silent (silent_reportBody _)) fun _ start startSilent => ?_
    refine Delivers.bind (built.accounted _ (deliveryOptions_recipeOptions host) env)
      fun result events settles => ?_
    refine (delivers_handleMetaAndBuildResult host env
      fun succeeded => (settles succeeded).1).mono fun own more delivered succeeded => ?_
    exact .afterSilent checksSilent (.afterSilent startSilent (delivered succeeded))

theorem delivers_executeModuleForApply {target : Module σ} (built : Built host target)
    (env : Environment σ) : Delivers (executeModuleForApply host env target) fun result events =>
      result.status ≠ .failed → Balanced events (controlPlaneEntries result.metaEntries) := by
  refine Delivers.ite (fun _ => ?_) fun _ => ?_
  · exact (built.accounted _ (deliveryOptions_childStepOptions host) env).mono
      fun _ _ settles succeeded => (settles succeeded).1
  · exact (built.accounted _ (.absent host) env).mono
      fun _ _ settles succeeded => (settles succeeded).1

theorem stepDelivers_checkAndApplyModule {target : Module σ} (built : Built host target)
    (env : Environment σ) :
    StepDelivers (checkAndApplyModule host env target) := by
  refine Delivers.bind (Delivers.silent (silent_of_plain (built.framed.check env)))
    fun checkResult checks checksSilent => ?_
  cases checkResult with
  | ok =>
    refine Delivers.pure fun _ => ?_
    rw [List.append_nil]
    exact balanced_silent checksSilent
  | needsApply =>
    refine Delivers.bind (deliveryOptions_recipeOptions host).poll
      fun interrupted polled quiet => ?_
    obtain ⟨rfl, pollSilent⟩ := quiet
    refine Delivers.bind (Delivers.silent (silent_reportBody _)) fun _ start startSilent => ?_
    refine Delivers.bind (delivers_executeModuleForApply host built env)
      fun result events settles => ?_
    refine (delivers_handleMetaAndBuildResult host env settles).mono
      fun own more delivered succeeded => ?_
    exact .afterSilent checksSilent
      (.afterSilent pollSilent (.afterSilent startSilent (delivered succeeded)))

theorem stepDelivers_createModuleStepPromise {target : Module σ} (built : Built host target)
    (env : Environment σ) :
    StepDelivers (createModuleStepPromise host env target) := by
  have caught {attempt : Async σ (StepResult σ)} (delivers : StepDelivers attempt) :
      StepDelivers (Effect.attempt attempt >>= fun attempted =>
        attempted.elim (handleCaughtStepError host env) pure) := by
    refine Delivers.bind (Delivers.attempt delivers) fun attempted events held => ?_
    cases attempted with
    | some result =>
      refine Delivers.pure ?_
      rw [List.append_nil]
      exact held result rfl
    | none =>
      refine Delivers.bind (deliveryOptions_recipeOptions host).poll
        fun interrupted polled quiet => ?_
      obtain ⟨rfl, -⟩ := quiet
      exact Delivers.pure fun succeeded => absurd rfl succeeded
  have ofRecipe := caught (stepDelivers_checkAndApplyRecipe host built env)
  have ofModule := caught (stepDelivers_checkAndApplyModule host built env)
  rw [← runRecipeModule_eq] at ofRecipe
  rw [← runRegularModule_eq] at ofModule
  exact Delivers.ite (fun _ => ofRecipe) fun _ => ofModule

/-- Counting a step changes no balance and reports its failure. -/
theorem delivers_countStep (result : StepResult σ) :
    Delivers (countStep result) fun _ events => (∀ event ∈ events, event.Silent) ∧
      (result.status = some .failed → ReportsFailure events) := by
  unfold countStep
  cases isStatus : result.status with
  | none => exact Delivers.pure ⟨nofun, nofun⟩
  | some status =>
    have counts : Keeps Silent (updateStats (σ := σ) status) :=
      .ite (fun _ => .modify fun _ => nofun) fun _ => .pure Silent.trail _
    refine Delivers.bind (Delivers.silent counts) fun _ counted countedSilent => ?_
    rintro state - _ ⟨⟩
    refine ⟨List.forall_mem_append.2 ⟨countedSilent, List.forall_mem_singleton.2 trivial⟩, ?_⟩
    rintro ⟨⟩
    exact ReportsFailure.after
      ⟨_, .reported .failed result.flushSignals, List.mem_singleton_self _, trivial⟩ counted

variable {signals : Option (List (Module σ))}
  (built : ∀ list, signals = some list → ∀ signal ∈ list, Built host signal)

include built

theorem delivers_runSignals (env : Environment σ) {list : List (Module σ)}
    (given : signals = some list) : Delivers (runSignals host env list) fun _ events =>
      ¬ ReportsFailure events → Balanced events [] := by
  have accounted := fun signal mem => (built list given signal mem).accounted
  have settles := delivers_runSignalModules (deliveryOptions_recipeOptions host) accounted env
  have fails := delivers_failedSignalModules (signalParameters (recipeOptions host)) env list
  refine (settles.and fails).mono fun status events held unfailed => ?_
  exact (held.1 fun isFailed => unfailed (held.2 isFailed)).1

theorem delivers_flushTopLevelSignals (result : StepResult σ) (loopState : ModuleLoopState σ) :
    Delivers (flushTopLevelSignalsIfRequested host signals result loopState) fun _ events =>
      ¬ ReportsFailure events → Balanced events [] := by
  have asks : Delivers (shouldFlushTopLevelSignals host result loopState) fun _ events =>
      ∀ event ∈ events, event.Silent := by
    refine Delivers.ite (fun _ => ?_) fun _ => Delivers.pure nofun
    refine Delivers.bind (deliveryOptions_recipeOptions host).poll
      fun interrupted polled quiet => ?_
    refine Delivers.bind (Delivers.silent (.get Silent.trail)) fun state got gotSilent =>
      Delivers.pure ?_
    rw [List.append_nil]
    exact List.forall_mem_append.2 ⟨quiet.2, gotSilent⟩
  refine Delivers.bind asks fun flush asked askedSilent => ?_
  have nothing (own : FlushResult) : Delivers (pure own : Async σ FlushResult) fun _ more =>
      ¬ ReportsFailure (asked ++ more) → Balanced (asked ++ more) [] :=
    Delivers.pure fun _ => .afterSilent askedSilent (balanced_silent nofun)
  cases signals with
  | none => exact nothing _
  | some list =>
    refine Delivers.ite (fun _ => ?_) fun _ => nothing _
    refine Delivers.bind (delivers_runSignals host built loopState.currentEnvironment rfl)
      fun status events settles => Delivers.pure fun unfailed => ?_
    rw [List.append_nil] at unfailed ⊢
    exact .afterSilent askedSilent (settles fun fails => unfailed (fails.after asked))

theorem delivers_runModuleLoop {modules : List (Module σ)}
    (modulesBuilt : ∀ child ∈ modules, Built host child) (loopState : ModuleLoopState σ) :
    Delivers (runModuleLoop host signals loopState modules) fun _ events =>
      ¬ ReportsFailure events → Balanced events [] := by
  induction modules generalizing loopState with
  | nil => exact Delivers.pure fun _ => balanced_silent nofun
  | cons child rest ih =>
    refine Delivers.bind (deliveryOptions_recipeOptions host).poll
      fun interrupted polled quiet => ?_
    obtain ⟨rfl, pollSilent⟩ := quiet
    refine Delivers.bind (stepDelivers_createModuleStepPromise host
      (modulesBuilt child List.mem_cons_self) loopState.currentEnvironment)
      fun result events step => ?_
    refine Delivers.bind (delivers_countStep result) fun _ counted held => ?_
    obtain ⟨countedSilent, fails⟩ := held
    refine Delivers.bind (delivers_flushTopLevelSignals host built result _)
      fun flushResult flushed flush => ?_
    have upToHere (more : List (Event σ)) (continued : ¬ ReportsFailure more → Balanced more [])
        (unfailed : ¬ ReportsFailure (polled ++ (events ++ (counted ++ (flushed ++ more))))) :
        Balanced (polled ++ (events ++ (counted ++ (flushed ++ more)))) [] := by
      have stepBalanced := step fun isFailed =>
        unfailed ((((fails isFailed).before _).after events).after polled)
      have flushBalanced := flush fun fails =>
        unfailed ((((fails.before more).after counted).after events).after polled)
      have restBalanced := continued fun fails =>
        unfailed ((((fails.after flushed).after counted).after events).after polled)
      have last := flushBalanced.append restBalanced (.inl rfl)
      exact .afterSilent pollSilent
        (stepBalanced.append (.afterSilent countedSilent last) (.inl rfl))
    refine Delivers.ite (fun _ => Delivers.pure ?_) fun _ => ?_
    · exact upToHere [] fun _ => balanced_silent nofun
    · exact (ih (fun own mem => modulesBuilt own (List.mem_cons_of_mem _ mem)) _).mono
        fun _ more => upToHere more

theorem delivers_runEndSignals (loopResult : ModuleLoopState σ) :
    Delivers (runEndSignals host signals loopResult) fun _ events =>
      ¬ ReportsFailure events → Balanced events [] := by
  refine Delivers.bind (deliveryOptions_recipeOptions host).poll fun interrupted polled quiet => ?_
  refine Delivers.bind (Delivers.silent (.get Silent.trail)) fun state got gotSilent => ?_
  have nothing : Delivers (pure () : Async σ Unit) fun _ more =>
      ¬ ReportsFailure (polled ++ (got ++ more)) → Balanced (polled ++ (got ++ more)) [] :=
    Delivers.pure fun _ => .afterSilent quiet.2 (.afterSilent gotSilent (balanced_silent nofun))
  cases signals with
  | none => exact nothing
  | some list =>
    refine Delivers.ite (fun _ => ?_) fun _ => nothing
    refine Delivers.bind (delivers_runSignals host built loopResult.currentEnvironment rfl)
      fun status events settles => Delivers.pure fun unfailed => ?_
    rw [List.append_nil] at unfailed ⊢
    exact .afterSilent quiet.2 (.afterSilent gotSilent
      (settles fun fails => unfailed ((fails.after got).after polled)))

theorem delivers_executeRun {modules : List (Module σ)}
    (modulesBuilt : ∀ child ∈ modules, Built host child) (env : Environment σ) :
    Delivers (executeRun host modules signals env) fun _ events =>
      ¬ ReportsFailure events → Balanced events [] := by
  refine Delivers.bind (delivers_runModuleLoop host built modulesBuilt _)
    fun loopResult events loop => ?_
  refine Delivers.bind (delivers_runEndSignals host built loopResult)
    fun _ more ended => Delivers.pure fun unfailed => ?_
  rw [List.append_nil] at unfailed ⊢
  exact (loop fun fails => unfailed (fails.before more)).append
    (ended fun fails => unfailed (fails.after events)) (.inl rfl)

end Run

/-! ### Every run returns -/

/-- No run of the computation throws. -/
def Returns (computation : Async σ α) : Prop :=
  ∀ state, computation.After state fun result _ _ => result.isSome = true

namespace Returns

theorem pure (value : α) : Returns (Pure.pure value : Async σ α) := fun _ => rfl

theorem bind {first : Async σ α} {next : α → Async σ β} (returns : Returns first)
    (continued : ∀ value, Returns (next value)) : Returns (first >>= next) := fun state =>
  After.bind (returns state) (fun _ _ missing => missing) fun value between _ _ =>
    continued value between

theorem attempt (computation : Async σ α) : Returns computation.attempt := fun _ => rfl

theorem ite {condition : Prop} [Decidable condition] {yes no : Async σ α}
    (returnsYes : Returns yes) (returnsNo : Returns no) :
    Returns (if condition then yes else no) := by
  split
  · exact returnsYes
  · exact returnsNo

end Returns

section Total

variable (host : Host σ)

theorem returns_shutdownSignal : Returns (shutdownSignal host) :=
  .bind (fun _ => rfl) fun _ => .ite (.bind (fun _ => rfl) fun _ => .pure _) (.pure _)

theorem returns_updateStats (status : ModuleStatus) : Returns (updateStats (σ := σ) status) :=
  .ite (fun _ => rfl) (.pure _)

theorem returns_createModuleStepPromise (env : Environment σ) (target : Module σ) :
    Returns (createModuleStepPromise host env target) := by
  have caught (attempted : Option (StepResult σ)) :
      Returns (attempted.elim (handleCaughtStepError host env) pure) := by
    cases attempted with
    | some result => exact .pure _
    | none => exact .bind (returns_shutdownSignal host) fun _ => .pure _
  have ofRecipe : Returns (runRecipeModule host env target) := by
    rw [runRecipeModule_eq]
    exact .bind (.attempt _) caught
  have ofModule : Returns (runRegularModule host env target) := by
    rw [runRegularModule_eq]
    exact .bind (.attempt _) caught
  exact .ite ofRecipe ofModule

theorem returns_runSignals (env : Environment σ) (signals : List (Module σ)) :
    Returns (runSignals host env signals) := by
  refine .bind (fun _ => rfl) fun _ => ?_
  induction signals generalizing env with
  | nil => exact .pure _
  | cons signal rest ih =>
    refine .bind (returns_shutdownSignal host) fun interrupted => .ite (.pure _) ?_
    refine .bind (.pure _) fun _ => .bind (.attempt _) fun attempted => ?_
    cases attempted with
    | none =>
      exact .bind (fun _ => rfl) fun _ => .bind (returns_updateStats _) fun _ => .pure _
    | some step => exact .ite (.pure _) (ih step.nextEnvironment)

theorem returns_flushTopLevelSignals (signals : Option (List (Module σ))) (result : StepResult σ)
    (loopState : ModuleLoopState σ) :
    Returns (flushTopLevelSignalsIfRequested host signals result loopState) := by
  refine .bind (.ite (.bind (returns_shutdownSignal host) fun _ =>
    .bind (fun _ => rfl) fun _ => .pure _) (.pure _)) fun flush => ?_
  cases signals with
  | none => exact .pure _
  | some list =>
    exact .ite (.bind (returns_runSignals host _ list) fun _ => .pure _) (.pure _)

theorem returns_runModuleLoop (signals : Option (List (Module σ))) (loopState : ModuleLoopState σ)
    (modules : List (Module σ)) : Returns (runModuleLoop host signals loopState modules) := by
  induction modules generalizing loopState with
  | nil => exact .pure _
  | cons child rest ih =>
    refine .bind (returns_shutdownSignal host) fun _ => .ite (.pure _) ?_
    refine .bind (returns_createModuleStepPromise host _ child) fun result => ?_
    refine .bind ?_ fun _ => .bind (returns_flushTopLevelSignals host signals result _) fun _ =>
      .ite (.pure _) (ih _)
    unfold countStep
    cases result.status with
    | none => exact .pure _
    | some status => exact .bind (returns_updateStats status) fun _ _ => rfl

/-- A run handles every error of its modules, hooks and signals. -/
theorem returns_executeRun (modules : List (Module σ)) (signals : Option (List (Module σ)))
    (env : Environment σ) : Returns (executeRun host modules signals env) := by
  refine .bind (returns_runModuleLoop host signals _ modules) fun loopResult => ?_
  refine .bind (.bind (returns_shutdownSignal host) fun _ => .bind (fun _ => rfl) fun _ => ?_)
    fun _ => .pure _
  cases signals with
  | none => exact .pure _
  | some list => exact .ite (.bind (returns_runSignals host _ list) fun _ => .pure _) (.pure _)

end Total

/-! ### Exactly once, in order -/

/-- In a run without a failure and without a shutdown request, the runner receives
exactly what the leaves returned, in their order, unless a signal pass dropped some
of it. -/
theorem control_plane_delivered_iff (host : Host σ) {modules : List (Module σ)}
    {signals : Option (List (Module σ))} (modulesBuilt : ∀ child ∈ modules, Built host child)
    (signalsBuilt : ∀ list, signals = some list → ∀ signal ∈ list, Built host signal)
    (env : Environment σ) (state : RunState σ)
    (unfailed : ¬ ReportsFailure ((executeRun host modules signals env).run state).events)
    (noShutdown :
      .interrupted ∉ ((executeRun host modules signals env).run state).events) :
    deliveredEntries ((executeRun host modules signals env).run state).events =
        returnedEntries ((executeRun host modules signals env).run state).events ↔
      droppedEntries ((executeRun host modules signals env).run state).events = [] := by
  obtain ⟨final, isFinal⟩ :=
    Option.isSome_iff_exists.1 (returns_executeRun host modules signals env state)
  have balanced := delivers_executeRun host signalsBuilt modulesBuilt env state noShutdown
    final isFinal unfailed
  constructor
  · intro same
    have counted := balanced.counted
    rw [← same, List.length_nil, Nat.add_zero] at counted
    exact List.length_eq_zero_iff.1 (Nat.left_eq_add.1 counted)
  · intro nothingDropped
    have ordered := balanced.ordered nothingDropped
    rw [List.append_nil] at ordered
    exact ordered.symm

/-- A recipe whose signal changes the port of the ssh daemon -/
def portRecipe : Module Unit :=
  recipe steadyHost.shutdownRequested [(resultLeaf 0 .changed false []).toModule]
    (some [(resultLeaf 1 .ok false [.control (.sshdPort 2222)]).toModule])

theorem portRecipe_built : Built steadyHost portRecipe := by
  refine .recipe ?_ ?_
  · exact List.forall_mem_singleton.2 (.leaf _)
  · rintro list ⟨⟩
    exact List.forall_mem_singleton.2 (.leaf _)

/-- The same recipe in a `when` block -/
def guardedPortRecipe : Module Unit :=
  createConditionalModule 0 (.finish (some true)) [portRecipe]

def portRun (module : Module Unit) : Outcome (Event Unit) (RunState Unit) (ModuleLoopState Unit) :=
  (executeRun steadyHost [module] none emptyEnvironment).run startState

/-- What the two runs show: the recipe runs at `depth`, and `fate` is what becomes of the
port. -/
def portEvents (depth : Nat) (fate : Event Unit) : List (Event Unit) :=
  [.body 0 .applied, .body depth .applied, .leafApplied 0, .returned [], .delivered [],
    .body depth (.reported .changed false), .body depth .signalPass, .body depth .signalApplied,
    .leafApplied 1, .returned [.sshdPort 2222], fate, .body depth (.signalReported .ok),
    .delivered [], .body 0 (.reported .changed false)]

theorem portEvents_unfailed (depth : Nat) {fate : Event Unit}
    (outside : ∀ depth row, fate ≠ .body depth row) :
    ¬ ReportsFailure (portEvents depth fate) := by
  rintro ⟨own, row, mem, isFailure⟩
  simp only [portEvents, List.mem_cons, Event.body.injEq, reduceCtorEq, List.not_mem_nil, false_or,
    or_false, (outside _ _).symm] at mem
  rcases mem with ⟨-, rfl⟩ | ⟨-, rfl⟩ | ⟨-, rfl⟩ | ⟨-, rfl⟩ | ⟨-, rfl⟩ | ⟨-, rfl⟩ | ⟨-, rfl⟩
  all_goals exact isFailure

/-- At top level the port reaches the runner. -/
theorem control_plane_delivered_port :
    (deliveredEntries (portRun portRecipe).events = returnedEntries (portRun portRecipe).events ↔
      droppedEntries (portRun portRecipe).events = []) ∧
    deliveredEntries (portRun portRecipe).events = [.sshdPort 2222] := by
  have events : (portRun portRecipe).events = portEvents 1 (.delivered [.sshdPort 2222]) := rfl
  have unfailed : ¬ ReportsFailure (portRun portRecipe).events :=
    events ▸ portEvents_unfailed 1 nofun
  have noShutdown : .interrupted ∉ (portRun portRecipe).events := by
    rw [events]
    simp [portEvents]
  have noSignals : ∀ list : List (Module Unit), none = some list → ∀ signal ∈ list,
      Built steadyHost signal := nofun
  exact ⟨control_plane_delivered_iff steadyHost (List.forall_mem_singleton.2 portRecipe_built)
    noSignals emptyEnvironment startState unfailed noShutdown, rfl⟩

/-- In a `when` block it is lost. -/
theorem guarded_signal_port_lost :
    ¬ ∀ (host : Host Unit) (modules : List (Module Unit)) (signals : Option (List (Module Unit))),
      (∀ child ∈ modules, Built host child) →
      (∀ list, signals = some list → ∀ signal ∈ list, Built host signal) →
      ∀ (env : Environment Unit) (state : RunState Unit),
      ¬ ReportsFailure ((executeRun host modules signals env).run state).events →
      .interrupted ∉ ((executeRun host modules signals env).run state).events →
      deliveredEntries ((executeRun host modules signals env).run state).events =
        returnedEntries ((executeRun host modules signals env).run state).events := by
  intro delivered
  have built : Built steadyHost guardedPortRecipe :=
    .conditional _ _ (List.forall_mem_singleton.2 portRecipe_built)
  have noSignals : ∀ list : List (Module Unit), none = some list → ∀ signal ∈ list,
      Built steadyHost signal := nofun
  have same := delivered steadyHost [guardedPortRecipe] none (List.forall_mem_singleton.2 built)
    noSignals emptyEnvironment startState
  have events : ((executeRun steadyHost [guardedPortRecipe] none emptyEnvironment).run
      startState).events = portEvents 2 (.dropped [.sshdPort 2222]) := rfl
  rw [events] at same
  exact absurd (same (portEvents_unfailed 2 nofun) (by simp [portEvents])) (by decide)

end Paratix.Orchestration
