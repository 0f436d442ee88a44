/-
Module: Paratix.Orchestration.Discipline
Purpose: When signal passes run: only for a waiting change, for every change, and
  what may still run after a failure.
Main exports: BodyRows, signal_discipline
-/
import Mathlib.Data.List.Induction
import Paratix.Foundation.Separator
import Paratix.Orchestration.Rows

namespace Paratix.Orchestration

open Foundation Foundation.Effect

variable {σ : Type}

/-! ### Recipe bodies -/

/-- No step of a body with signals fails with a flush request while a change waits. -/
def NoFailedFlush (signals : Option (List (Module σ))) (pending : Bool)
    (rows : List BodyEvent) : Prop :=
  ∀ list, signals = some list → list ≠ [] → flushMonitor.Accepts pending rows

/-- What a part of a recipe's loop reports, entered with `pending` and no failure. -/
structure BodyRows (signals : Option (List (Module σ))) (pending : Bool)
    (rows : List BodyEvent) (final : Option (RecipeState σ)) : Prop where
  passes : passMonitor.Accepts pending rows
  quiet : NoFailedFlush signals pending rows → failureMonitor.Accepts false rows
  ended : ∀ state, final = some state → state.status ≠ .failed →
    passMonitor.after pending rows = state.signalsPending ∧
      failureMonitor.after false rows = false ∧
      (state.signalsPending = true → state.status = .changed)

namespace BodyRows

variable {signals : Option (List (Module σ))} {pending : Bool} {rows more : List BodyEvent}
  {final : Option (RecipeState σ)}

/-- The loop ends where it is. -/
theorem idle {state : RecipeState σ}
    (waits : state.signalsPending = true → state.status = .changed) :
    BodyRows signals state.signalsPending [] (some state) where
  passes := trivial
  quiet _ := trivial
  ended := by
    rintro _ ⟨⟩ _
    exact ⟨rfl, rfl, waits⟩

theorem thrown : BodyRows signals pending [] none := ⟨trivial, fun _ => trivial, nofun⟩

theorem append {middle : RecipeState σ} (start : BodyRows signals pending rows (some middle))
    (running : middle.status ≠ .failed)
    (continued : BodyRows signals middle.signalsPending more final) :
    BodyRows signals pending (rows ++ more) final := by
  obtain ⟨afterPending, afterFailure, -⟩ := start.ended middle rfl running
  have sameStates : flushMonitor.after pending rows = middle.signalsPending := afterPending
  refine ⟨?_, fun noFlush => ?_, fun state isFinal unfailed => ?_⟩
  · rw [Monitor.accepts_append, afterPending]
    exact ⟨start.passes, continued.passes⟩
  · have split := fun list given nonempty =>
      (Monitor.accepts_append _ _ _ _).1 (noFlush list given nonempty)
    rw [Monitor.accepts_append, afterFailure]
    refine ⟨start.quiet fun list given nonempty => (split list given nonempty).1,
      continued.quiet fun list given nonempty => ?_⟩
    have later := (split list given nonempty).2
    rwa [sameStates] at later
  · rw [Monitor.after_append, Monitor.after_append, afterPending, afterFailure]
    exact continued.ended state isFinal unfailed

/-- Calling `apply` changes nothing that the monitors follow. -/
theorem applied (rest : BodyRows signals pending rows final) :
    BodyRows signals pending (.applied :: rows) final where
  passes := ⟨nofun, rest.passes⟩
  quiet noFlush := ⟨fun _ => rfl, rest.quiet fun list given nonempty =>
    (noFlush list given nonempty).2⟩
  ended := rest.ended

end BodyRows

/-! ### A pass that is due -/

theorem passes_due {list : List (Module σ)} {pending : Bool} {rows signalRows : List BodyEvent}
    (accepted : passMonitor.Accepts pending rows) (due : passMonitor.after pending rows = true)
    (signalRowsOf : SignalRows list signalRows) :
    passMonitor.Accepts pending (rows ++ .signalPass :: signalRows) ∧
      passMonitor.after pending (rows ++ .signalPass :: signalRows) = false := by
  obtain ⟨passes, afterPasses⟩ := signalRowsOf.passes false
  rw [Monitor.accepts_append, Monitor.after_append, due]
  exact ⟨⟨accepted, fun _ => rfl, passes⟩, afterPasses⟩

theorem quiet_pass {list : List (Module σ)} {rows signalRows : List BodyEvent}
    (accepted : failureMonitor.Accepts false rows)
    (unfailed : failureMonitor.after false rows = false)
    (signalRowsOf : SignalRows list signalRows) :
    failureMonitor.Accepts false (rows ++ .signalPass :: signalRows) := by
  rw [Monitor.accepts_append, unfailed]
  exact ⟨accepted, nofun, signalRowsOf.quiet⟩

/-! ### What a step does to the state of the loop -/

theorem applyRecipeStepToState_pending (state : RecipeState σ) (step : OrchestrationStep σ)
    (preserve : Bool) : (applyRecipeStepToState state step preserve).signalsPending =
      noteChange state.signalsPending (.reported step.status step.flushSignals) := by
  unfold applyRecipeStepToState noteChange
  cases step.status with
  | changed => rfl
  | _ => rfl

theorem applyRecipeStepToState_failed_iff {state : RecipeState σ}
    (running : state.status ≠ .failed) (step : OrchestrationStep σ) (preserve : Bool) :
    (applyRecipeStepToState state step preserve).status = .failed ↔ step.status = .failed := by
  unfold applyRecipeStepToState
  cases step.status with
  | failed => simp
  | changed => simp
  | _ => simpa using running

/-- A change that waits is the status of a body that has not failed. -/
theorem applyRecipeStepToState_waits {state : RecipeState σ}
    (waits : state.signalsPending = true → state.status = .changed)
    (step : OrchestrationStep σ) (preserve : Bool) (succeeded : step.status ≠ .failed)
    (pending : (applyRecipeStepToState state step preserve).signalsPending = true) :
    (applyRecipeStepToState state step preserve).status = .changed := by
  unfold applyRecipeStepToState at pending ⊢
  cases status : step.status with
  | failed => exact absurd status succeeded
  | changed => simp
  | _ => exact waits (by simpa [status] using pending)

theorem noteFailure_reported {status : ModuleStatus} {flush : Bool}
    (succeeded : status ≠ .failed) : noteFailure false (.reported status flush) = false := by
  cases status with
  | failed => exact absurd rfl succeeded
  | _ => rfl

/-- A step that is not followed by a flush. -/
theorem bodyRows_reported {signals : Option (List (Module σ))} {state : RecipeState σ}
    (running : state.status ≠ .failed)
    (waits : state.signalsPending = true → state.status = .changed)
    (step : OrchestrationStep σ) (preserve : Bool) :
    BodyRows signals state.signalsPending [.reported step.status step.flushSignals]
      (some (applyRecipeStepToState state step preserve)) where
  passes := ⟨nofun, trivial⟩
  quiet _ := ⟨nofun, trivial⟩
  ended := by
    rintro _ ⟨⟩ unfailed
    have succeeded : step.status ≠ .failed := fun failedStatus =>
      unfailed ((applyRecipeStepToState_failed_iff running step preserve).2 failedStatus)
    exact ⟨(applyRecipeStepToState_pending state step preserve).symm,
      noteFailure_reported succeeded, applyRecipeStepToState_waits waits step preserve succeeded⟩

/-- A step that is followed by a flush: after a failure only if it asked for one while
a change waited. -/
theorem bodyRows_flushed {list : List (Module σ)} {state : RecipeState σ} {step : OrchestrationStep σ} {preserve : Bool}
    (asked : step.flushSignals = true)
    (pending : (applyRecipeStepToState state step preserve).signalsPending = true)
    {signalRows : List BodyEvent} (signalRowsOf : SignalRows list signalRows)
    {final : Option (RecipeState σ)} (ends : ∀ last, final = some last → last.status ≠ .failed →
      step.status ≠ .failed ∧ failureMonitor.after false signalRows = false ∧
        last.signalsPending = false) :
    BodyRows (some list) state.signalsPending
      (.reported step.status step.flushSignals :: .signalPass :: signalRows) final := by
  have waiting : noteChange state.signalsPending (.reported step.status step.flushSignals) =
      true := (applyRecipeStepToState_pending state step preserve).symm.trans pending
  obtain ⟨passes, afterPasses⟩ := signalRowsOf.passes false
  refine ⟨⟨nofun, fun _ => waiting, passes⟩, fun noFlush => ⟨nofun, nofun, ?_⟩, ?_⟩
  · change failureMonitor.Accepts
      (noteFailure false (.reported step.status step.flushSignals)) signalRows
    by_cases failedStatus : step.status = .failed
    · rcases Decidable.eq_or_ne list [] with empty | nonempty
      · rw [signalRowsOf.empty empty]
        trivial
      · have noPending := (noFlush list rfl nonempty).1 (by rw [failedStatus, asked])
        rw [noPending, failedStatus] at waiting
        cases waiting
    · rw [noteFailure_reported failedStatus]
      exact signalRowsOf.quiet
  · intro last isLast unfailed
    obtain ⟨succeeded, quiet, noPending⟩ := ends last isLast unfailed
    refine ⟨afterPasses.trans noPending.symm, ?_, fun isPending => ?_⟩
    · change failureMonitor.after
        (noteFailure false (.reported step.status step.flushSignals)) signalRows = false
      rw [noteFailure_reported succeeded]
      exact quiet
    · rw [noPending] at isPending
      cases isPending

/-- A child that threw is reported as failed, and the loop ends. -/
theorem bodyRows_childFailed {signals : Option (List (Module σ))} {pending : Bool}
    {start : List BodyEvent} (started : start = [] ∨ start = [.applied])
    {final : Option (RecipeState σ)}
    (isFailed : ∀ state, final = some state → state.status = .failed) :
    BodyRows signals pending (start ++ [.reported .failed false]) final := by
  have alone : BodyRows signals pending [.reported .failed false] final :=
    ⟨⟨nofun, trivial⟩, fun _ => ⟨nofun, trivial⟩, fun state isFinal unfailed =>
      absurd (isFailed state isFinal) unfailed⟩
  rcases started with rfl | rfl
  · exact alone
  · exact alone.applied

/-- The rows of executing a child that did not throw stand before those of its step. -/
theorem bodyRows_childStarted {signals : Option (List (Module σ))} {pending : Bool}
    {start rows : List BodyEvent} (started : start = [] ∨ start = [.applied])
    {final : Option (RecipeState σ)} (body : BodyRows signals pending rows final) :
    BodyRows signals pending (start ++ rows) final := by
  rcases started with rfl | rfl
  · exact body
  · exact body.applied

section Recipe

variable {options : ApplyOptions σ} (framed : FramedOptions options) {depth failed : Nat}

include framed

/-- Executing one child reports at most its application, and a throw as a failure. -/
def ChildRows (result : Option (RecipeChildExecution σ)) (rows : List BodyEvent) : Prop :=
  (rows = [] ∨ rows = [.applied]) ∧ (∀ state, result ≠ some (.failed state)) ∨
    ∃ start, (start = [] ∨ start = [.applied]) ∧ rows = start ++ [.reported .failed false] ∧
      ∃ state, state.status = .failed ∧ result = some (.failed state)

theorem reports_executeOneModule {child : Module σ} (childFramed : Framed child)
    (env : Environment σ) : Reports depth failed (executeOneModule options child env)
      fun _ rows _ => rows = [] ∨ rows = [.applied] := by
  refine Reports.innerBind (inner_of_plain (childFramed.check _)) (fun _ _ => .inl rfl) fun checkResult _ _ => ?_
  cases checkResult with
  | ok => exact Reports.pure (.inl rfl)
  | needsApply =>
    refine Reports.innerBind (keeps_pollOptional InnerFrame.trail framed.shutdownSignal) (fun _ _ => .inl rfl)
      fun _ _ _ => ?_
    refine Reports.ite (fun _ => Reports.pure (.inl rfl)) fun _ => ?_
    refine Reports.bodyBind ?_
    refine Reports.innerBind (inner_applyRecipeChild framed childFramed _)
      (fun _ _ => .inr rfl) fun _ _ _ => ?_
    refine Reports.innerBind ?_ (fun _ _ => .inr rfl) fun _ _ _ => Reports.pure (.inr rfl)
    exact .bind InnerFrame.trail (inner_of_plain (plain_mergeUnlessFailed _ _)) fun _ =>
      .pure InnerFrame.trail _

theorem reports_executeRecipeChildStep {child : Module σ} (childFramed : Framed child)
    (env : Environment σ) : Reports depth failed (executeRecipeChildStep options child env)
      fun result rows _ => ChildRows result rows := by
  refine Reports.attemptBind (reports_executeOneModule framed childFramed env) ?_
  intro attempted rows count started
  cases attempted with
  | some step =>
    refine Reports.pure (.inl ⟨?_, nofun⟩)
    rwa [List.append_nil]
  | none =>
    refine Reports.innerBind (keeps_pollOptional InnerFrame.trail framed.shutdownSignal) (fun _ _ => ?_)
      fun _ _ _ => Reports.ite (fun _ => Reports.pure ?_) fun _ => Reports.bodyBind ?_
    · exact .inl ⟨by rwa [List.append_nil], nofun⟩
    · exact .inl ⟨by rwa [List.append_nil], nofun⟩
    · exact Reports.pure (.inr ⟨rows, started, rfl, _, rfl, rfl⟩)

variable {signals : Option (List (Module σ))}
  (signalsFramed : ∀ list, signals = some list → ∀ signal ∈ list, Framed signal)

include signalsFramed

theorem reports_flushRecipeSignals (step : OrchestrationStep σ) {state : RecipeState σ}
    (running : state.status ≠ .failed)
    (waits : state.signalsPending = true → state.status = .changed) (preserve : Bool) :
    Reports depth failed
      (flushRecipeSignals options signals step (applyRecipeStepToState state step preserve))
      fun result rows _ => BodyRows signals state.signalsPending
        (.reported step.status step.flushSignals :: rows) result := by
  have reported : BodyRows signals state.signalsPending
      [.reported step.status step.flushSignals] (some (applyRecipeStepToState state step preserve)) :=
    bodyRows_reported running waits step preserve
  unfold flushRecipeSignals
  cases signals with
  | none => exact Reports.pure reported
  | some list =>
    refine Reports.ite (fun flushes => ?_) fun _ => Reports.pure reported
    refine Reports.bind (reports_runSignalModules framed _ (signalsFramed list rfl)) ?_ ?_
    · rintro rows count ⟨signalRows, rfl, signalRowsOf, -⟩
      exact bodyRows_flushed flushes.1 flushes.2 signalRowsOf nofun
    · rintro signalStatus rows count ⟨signalRows, rfl, signalRowsOf, passEnd⟩
      refine Reports.pure ?_
      rw [List.append_nil]
      refine bodyRows_flushed flushes.1 flushes.2 signalRowsOf ?_
      rintro _ ⟨⟩ unfailed
      cases signalStatus with
      | failed => exact absurd rfl unfailed
      | changed =>
        exact ⟨fun failedStatus => unfailed
          ((applyRecipeStepToState_failed_iff running step preserve).2 failedStatus),
          passEnd.unfailed rfl, rfl⟩

theorem reports_processRecipeStep {state : RecipeState σ} (running : state.status ≠ .failed)
    (waits : state.signalsPending = true → state.status = .changed)
    (execution : RecipeChildExecution σ) :
    Reports depth failed (processRecipeStep options signals state execution) fun result rows _ =>
        (∀ failedState, execution = .failed failedState →
          rows = [] ∧ result = some (.stop failedState)) ∧
        ((∀ failedState, execution ≠ .failed failedState) →
          BodyRows signals state.signalsPending rows (result.map RecipeLoopStepResult.state)) ∧
        (∀ next, result = some (.proceed next) → next.status ≠ .failed) := by
  have idle : BodyRows signals state.signalsPending [] (some state) := BodyRows.idle waits
  rcases execution with failedState | _ | _ | step
  · refine Reports.pure ⟨?_, fun other => absurd rfl (other failedState), nofun⟩
    rintro _ ⟨⟩
    exact ⟨rfl, rfl⟩
  · refine Reports.pure ⟨nofun, fun _ => ?_, fun next proceeds => ?_⟩
    · rwa [Option.map_some, stopAfter_state]
    · rw [(stopAfter_proceed (Option.some.inj proceeds)).1]
      exact running
  · exact Reports.pure ⟨nofun, fun _ => idle, nofun⟩
  · refine Reports.innerBind (keeps_callHook InnerFrame.trail framed.onChildStep step)
      (fun _ _ => ⟨nofun, fun _ => .thrown, nofun⟩) fun _ count _ => ?_
    refine Reports.bodyBind ?_
    refine Reports.bind (reports_flushRecipeSignals framed signalsFramed step running waits _) ?_ ?_
    · exact fun rows count body => ⟨nofun, fun _ => body, nofun⟩
    · intro flushed rows count body
      refine Reports.pure ⟨nofun, fun _ => ?_, fun next proceeds => ?_⟩
      · rwa [List.append_nil, Option.map_some, stopAfter_state]
      · have stopped := stopAfter_proceed (Option.some.inj proceeds)
        rw [stopped.1]
        exact stopped.2

theorem reports_executeModules {modules : List (Module σ)}
    (modulesFramed : ∀ child ∈ modules, Framed child) {state : RecipeState σ}
    (running : state.status ≠ .failed)
    (waits : state.signalsPending = true → state.status = .changed) :
    Reports depth failed (executeModules options signals state modules)
      fun result rows _ => BodyRows signals state.signalsPending rows result := by
  induction modules generalizing state failed with
  | nil => exact Reports.pure (.idle waits)
  | cons child rest ih =>
    have childFramed := modulesFramed child List.mem_cons_self
    have restFramed := fun own mem => modulesFramed own (List.mem_cons_of_mem child mem)
    refine Reports.innerBind (keeps_pollOptional InnerFrame.trail framed.shutdownSignal)
      (fun _ _ => .thrown) fun _ _ _ => ?_
    refine Reports.ite (fun _ => Reports.pure (.idle waits)) fun _ => ?_
    refine Reports.bind (reports_executeRecipeChildStep framed childFramed state.env) ?_ ?_
    · rintro rows count (⟨started, -⟩ | ⟨start, started, rfl, failedState, -, missing⟩)
      · simpa only [List.append_nil] using bodyRows_childStarted started BodyRows.thrown
      · cases missing
    · intro execution rows count childRows
      refine Reports.bind
        (reports_processRecipeStep framed signalsFramed running waits execution) ?_ ?_
      · rintro moreRows last ⟨ofFailed, ofOther, -⟩
        obtain ⟨started, other⟩ | ⟨start, started, rfl, failedState, isFailed, same⟩ := childRows
        · exact bodyRows_childStarted started
            (ofOther fun failedState same => other failedState (congrArg some same))
        · obtain ⟨-, missing⟩ := ofFailed failedState (Option.some.inj same)
          cases missing
      · rintro processed moreRows last ⟨ofFailed, ofOther, proceeding⟩
        obtain ⟨started, other⟩ | ⟨start, started, rfl, failedState, isFailed, same⟩ := childRows
        · have step := bodyRows_childStarted started
            (ofOther fun failedState same => other failedState (congrArg some same))
          cases processed with
          | stop final =>
            refine Reports.pure ?_
            rwa [List.append_nil]
          | proceed next =>
            have nextRunning := proceeding next rfl
            refine (ih restFramed nextRunning
              (step.ended next rfl nextRunning).2.2).mono fun result later _ continued => ?_
            rw [← List.append_assoc]
            exact step.append nextRunning continued
        · obtain ⟨rfl, stops⟩ := ofFailed failedState (Option.some.inj same)
          cases stops
          refine Reports.pure ?_
          rw [List.append_nil, List.append_nil]
          refine bodyRows_childFailed started ?_
          rintro _ ⟨⟩
          exact isFailed

theorem reports_runRecipeSignalsAtEnd {state : RecipeState σ}
    (waits : state.status ≠ .failed → state.signalsPending = true → state.status = .changed) :
    Reports depth failed (runRecipeSignalsAtEnd options signals state) fun status rows _ =>
        (rows = [] ∧ ∀ own, status = some own → own ≠ .failed → signals.isSome = true →
          state.status ≠ .failed ∧ state.signalsPending = false) ∨
        ∃ (list : List (Module σ)) (signalRows : List BodyEvent), rows = .signalPass :: signalRows ∧ SignalRows list signalRows ∧
          state.signalsPending = true ∧ state.status ≠ .failed := by
  unfold runRecipeSignalsAtEnd
  cases signals with
  | none => exact Reports.pure (.inl ⟨rfl, nofun⟩)
  | some list =>
    refine Reports.ite (fun due => ?_) fun notDue => ?_
    · have unfailed : state.status ≠ .failed := by rw [due.2]; nofun
      refine Reports.bind (reports_runSignalModules framed _ (signalsFramed list rfl)) ?_ ?_
      · rintro rows last ⟨signalRows, rfl, signalRowsOf, -⟩
        exact .inr ⟨list, signalRows, rfl, signalRowsOf, due.1, unfailed⟩
      · rintro status rows last ⟨signalRows, rfl, signalRowsOf, -⟩
        exact Reports.pure
          (.inr ⟨list, signalRows, List.append_nil _, signalRowsOf, due.1, unfailed⟩)
    · refine Reports.pure (.inl ⟨rfl, ?_⟩)
      rintro _ ⟨⟩ unfailed -
      refine ⟨unfailed, ?_⟩
      cases pending : state.signalsPending with
      | false => rfl
      | true => exact absurd ⟨pending, waits unfailed pending⟩ notDue

/-- What a whole recipe body reports. -/
theorem reports_recipeBody {modules : List (Module σ)}
    (modulesFramed : ∀ child ∈ modules, Framed child) (env : Environment σ) :
    Reports depth failed (recipeBody modules signals options env)
      fun result rows _ => passMonitor.Accepts false rows ∧
        (NoFailedFlush signals false rows → failureMonitor.Accepts false rows) ∧
        (∀ own, result = some own → own.status ≠ .failed → signals.isSome = true →
          passMonitor.after false rows = false) := by
  have loop : Reports depth failed
      (executeModules options signals (initialRecipeState env) modules)
      fun final rows _ => BodyRows signals false rows final :=
    reports_executeModules framed signalsFramed modulesFramed nofun nofun
  refine Reports.bind loop ?_ ?_
  · exact fun rows count body => ⟨body.passes, body.quiet, nofun⟩
  · intro state rows count body
    have ended := body.ended state rfl
    have withPass {list : List (Module σ)} {signalRows : List BodyEvent}
        (signalRowsOf : SignalRows list signalRows) (pending : state.signalsPending = true)
        (unfailed : state.status ≠ .failed) :
        passMonitor.Accepts false (rows ++ .signalPass :: signalRows) ∧
          (NoFailedFlush signals false (rows ++ .signalPass :: signalRows) →
            failureMonitor.Accepts false (rows ++ .signalPass :: signalRows)) ∧
          passMonitor.after false (rows ++ .signalPass :: signalRows) = false := by
      have due := (ended unfailed).1.trans pending
      have duePass := passes_due body.passes due signalRowsOf
      refine ⟨duePass.1, fun noFlush => ?_, duePass.2⟩
      exact quiet_pass (body.quiet fun own given nonempty =>
        ((Monitor.accepts_append _ _ _ _).1 (noFlush own given nonempty)).1)
        (ended unfailed).2.1 signalRowsOf
    refine Reports.bind (reports_runRecipeSignalsAtEnd framed signalsFramed
      fun unfailed => (ended unfailed).2.2) ?_ ?_
    · rintro more last (⟨rfl, -⟩ | ⟨list, signalRows, rfl, signalRowsOf, pending, unfailed⟩)
      · rw [List.append_nil]
        exact ⟨body.passes, body.quiet, nofun⟩
      · have held := withPass signalRowsOf pending unfailed
        exact ⟨held.1, held.2.1, nofun⟩
    · rintro status more last
        (⟨rfl, noPending⟩ | ⟨list, signalRows, rfl, signalRowsOf, pending, unfailed⟩)
      · refine Reports.pure ?_
        rw [List.append_nil, List.append_nil]
        refine ⟨body.passes, body.quiet, ?_⟩
        rintro _ ⟨⟩ unfailed given
        obtain ⟨running, isFalse⟩ := noPending status rfl unfailed given
        exact (ended running).1.trans isFalse
      · refine Reports.pure ?_
        rw [List.append_nil]
        have held := withPass signalRowsOf pending unfailed
        exact ⟨held.1, held.2.1, fun _ _ _ _ => held.2.2⟩

end Recipe

/-! ### The run -/

section Run

variable (host : Host σ) {depth failed : Nat}

theorem countsFailures_recipeOptions : CountsFailures (recipeOptions host) := by
  rintro depth failed state atDepth rfl
  exact ⟨atDepth, Nat.lt_succ_self _⟩

theorem reports_updateStats (status : ModuleStatus) :
    Reports depth failed (updateStats (σ := σ) status) fun result rows count =>
      result ≠ none ∧ rows = [] ∧ failed ≤ count ∧ (status = .failed → failed < count) := by
  refine Reports.ite (fun isFailed => ?_) fun unfailed => ?_
  · rintro state atDepth rfl
    exact ⟨atDepth, nofun, rfl, Nat.le_succ _, fun _ => Nat.lt_succ_self _⟩
  · exact Reports.pure ⟨nofun, rfl, le_refl _, fun isFailed => absurd isFailed unfailed⟩

theorem reports_countStep (result : StepResult σ) :
    Reports depth failed (countStep result) fun outcome rows count =>
      outcome ≠ none ∧ failed ≤ count ∧ (result.status = some .failed → failed < count) ∧
        rows = (result.status.map fun status =>
          BodyEvent.reported status result.flushSignals).toList := by
  unfold countStep
  cases result.status with
  | none => exact Reports.pure ⟨nofun, le_refl _, nofun, rfl⟩
  | some status =>
    refine Reports.bind (reports_updateStats status) (fun rows count held => absurd rfl held.1) ?_
    rintro _ rows count ⟨-, rfl, grown, counted⟩
    refine (Reports.body _).mono ?_
    rintro outcome more last ⟨rfl, rfl, rfl⟩
    exact ⟨nofun, grown, fun isFailed => counted (Option.some.inj isFailed), rfl⟩

/-- A failed step ends the loop. -/
def StepResult.Breaks (result : StepResult σ) : Prop :=
  result.status = some .failed → result.shouldBreak = true

theorem reports_handleCaughtStepError (env : Environment σ) :
    Reports depth failed (handleCaughtStepError host env) fun result rows _ =>
      rows = [] ∧ ∀ own, result = some own → own.Breaks := by
  refine Reports.innerBind (inner_shutdownSignal host) (fun _ _ => ⟨rfl, nofun⟩)
    fun interrupted _ _ => Reports.pure ⟨rfl, ?_⟩
  rintro own ⟨⟩
  cases interrupted with
  | true => exact nofun
  | false => exact fun _ => rfl

theorem reports_handleMetaAndBuildResult (env : Environment σ) (result : ModuleResult σ) :
    Reports depth failed (handleMetaAndBuildResult host env result)
      fun result rows _ => rows = [] ∧ ∀ own, result = some own → own.Breaks := by
  refine Reports.innerBind (inner_of_plain (plain_mergeEnvironmentFromMeta _ _))
    (fun _ _ => ⟨rfl, nofun⟩) fun merged _ _ => ?_
  refine Reports.innerBind (inner_applyRunnerControlPlaneMeta host _ _)
    (fun _ _ => ⟨rfl, nofun⟩) fun _ _ _ => Reports.pure ⟨rfl, ?_⟩
  rintro own ⟨⟩ isFailed
  simp only [Option.some.injEq] at isFailed
  simp [isFailed]

/-- A step reports its application at most, and breaks the loop if it failed. -/
def StepRows (result : Option (StepResult σ)) (rows : List BodyEvent) : Prop :=
  (rows = [] ∨ rows = [.applied]) ∧ ∀ own, result = some own → own.Breaks

theorem reports_checkAndApplyRecipe {target : Module σ} (targetFramed : Framed target)
    (env : Environment σ) : Reports depth failed (checkAndApplyRecipe host env target)
      fun result rows _ => StepRows result rows := by
  refine Reports.innerBind (inner_of_plain (targetFramed.check _)) (fun _ _ => ⟨.inl rfl, nofun⟩)
    fun checkResult _ _ => ?_
  cases checkResult with
  | ok => exact Reports.pure ⟨.inl rfl, by rintro own ⟨⟩; exact nofun⟩
  | needsApply =>
    refine Reports.bodyBind ?_
    refine Reports.innerBind (targetFramed.apply _ (framed_recipeOptions host) _)
      (fun _ _ => ⟨.inr rfl, nofun⟩) fun result _ _ => ?_
    refine (reports_handleMetaAndBuildResult host env result).mono ?_
    rintro own rows count ⟨rfl, breaks⟩
    exact ⟨.inr rfl, breaks⟩

theorem reports_checkAndApplyModule {target : Module σ} (targetFramed : Framed target)
    (env : Environment σ) : Reports depth failed (checkAndApplyModule host env target)
      fun result rows _ => StepRows result rows := by
  refine Reports.innerBind (inner_of_plain (targetFramed.check _)) (fun _ _ => ⟨.inl rfl, nofun⟩)
    fun checkResult _ _ => ?_
  cases checkResult with
  | ok => exact Reports.pure ⟨.inl rfl, by rintro own ⟨⟩; exact nofun⟩
  | needsApply =>
    refine Reports.innerBind (inner_shutdownSignal host) (fun _ _ => ⟨.inl rfl, nofun⟩)
      fun _ _ _ => ?_
    refine Reports.ite
      (fun _ => Reports.pure ⟨.inl rfl, by rintro own ⟨⟩; exact nofun⟩) fun _ => ?_
    refine Reports.bodyBind ?_
    refine Reports.innerBind ?_ (fun _ _ => ⟨.inr rfl, nofun⟩) fun result _ _ => ?_
    · exact .ite (fun _ => targetFramed.apply _ (framed_childStepOptions host) _)
        fun _ => targetFramed.apply _ .absent _
    · refine (reports_handleMetaAndBuildResult host env result).mono ?_
      rintro own rows count ⟨rfl, breaks⟩
      exact ⟨.inr rfl, breaks⟩

theorem reports_createModuleStepPromise {target : Module σ} (targetFramed : Framed target)
    (env : Environment σ) : Reports depth failed (createModuleStepPromise host env target)
      fun result rows _ => StepRows result rows := by
  have caught {attempt : Async σ (StepResult σ)}
      (reports : ∀ count, Reports depth count attempt fun result rows _ => StepRows result rows) :
      Reports depth failed (Effect.attempt attempt >>= fun attempted =>
        attempted.elim (handleCaughtStepError host env) pure)
      fun result rows _ => StepRows result rows := by
    refine Reports.attemptBind (reports failed) ?_
    rintro (_ | own) rows count held
    · refine (reports_handleCaughtStepError host env).mono ?_
      rintro result more last ⟨rfl, breaks⟩
      rw [List.append_nil]
      exact ⟨held.1, breaks⟩
    · refine Reports.pure ?_
      rwa [List.append_nil]
  have ofRecipe := caught fun _ => reports_checkAndApplyRecipe host targetFramed env
  have ofModule := caught fun _ => reports_checkAndApplyModule host targetFramed env
  rw [← runRecipeModule_eq] at ofRecipe
  rw [← runRegularModule_eq] at ofModule
  exact Reports.ite (fun _ => ofRecipe) fun _ => ofModule

/-- What a part of the runner's loop reports, entered with `pending` and no failure. -/
structure LoopRows (pending : Bool) (rows : List BodyEvent)
    (final : Option (ModuleLoopState σ)) (count : Nat) : Prop where
  passes : passMonitor.Accepts pending rows
  quiet : failureMonitor.Accepts false rows
  ended : ∀ state, final = some state → passMonitor.after pending rows = state.signalsPending ∧
    (failureMonitor.after false rows = true → 0 < count)

theorem LoopRows.idle {loopState : ModuleLoopState σ} {count : Nat} :
    LoopRows loopState.signalsPending [] (some loopState) count := by
  refine ⟨trivial, trivial, ?_⟩
  rintro _ ⟨⟩
  exact ⟨rfl, nofun⟩

theorem LoopRows.started {pending : Bool} {rows : List BodyEvent} {count : Nat}
    (started : rows = [] ∨ rows = [.applied]) :
    LoopRows (σ := σ) pending rows none count := by
  rcases started with rfl | rfl
  · exact ⟨trivial, trivial, nofun⟩
  · exact ⟨⟨nofun, trivial⟩, ⟨fun _ => rfl, trivial⟩, nofun⟩

/-- What the flush after a step reports, and what it makes of the loop's state. -/
def FlushRows (failed : Nat) (loopState : ModuleLoopState σ) (outcome : Option FlushResult)
    (rows : List BodyEvent) (count : Nat) : Prop :=
  (rows = [] ∧ failed ≤ count ∧ ∀ own, outcome = some own →
    own.nextSignalsPending = loopState.signalsPending ∧ own.outcome = .proceed) ∨
  ∃ (list : List (Module σ)) (signalRows : List BodyEvent),
    rows = .signalPass :: signalRows ∧ SignalRows list signalRows ∧
    loopState.signalsPending = true ∧ failed = 0 ∧ ∀ own, outcome = some own →
      own.nextSignalsPending = false ∧
      (own.outcome = .proceed → failureMonitor.after false signalRows = false) ∧
      (own.outcome = .stop → 0 < count)

/-- The rows of a step of the runner's loop before a flush. -/
def stepRows (start : List BodyEvent) (result : StepResult σ) : List BodyEvent :=
  start ++ (result.status.map fun status =>
    BodyEvent.reported status result.flushSignals).toList

theorem stepRows_facts {start : List BodyEvent} (started : start = [] ∨ start = [.applied])
    (loopState : ModuleLoopState σ) (result : StepResult σ) :
    passMonitor.Accepts loopState.signalsPending (stepRows start result) ∧
      passMonitor.after loopState.signalsPending (stepRows start result) =
        (applyLoopResultToState loopState result).signalsPending ∧
      failureMonitor.Accepts false (stepRows start result) ∧
      (failureMonitor.after false (stepRows start result) = true ↔
        result.status = some .failed) := by
  unfold stepRows applyLoopResultToState
  rcases result.status with _ | status
  · rcases started with rfl | rfl <;> simp [passMonitor, failureMonitor, noteChange, noteFailure]
  · rcases started with rfl | rfl <;> cases status <;>
      simp [passMonitor, failureMonitor, noteChange, noteFailure]

theorem LoopRows.append {pending : Bool} {rows more : List BodyEvent}
    {middle : ModuleLoopState σ} {final : Option (ModuleLoopState σ)} {count last : Nat}
    (start : LoopRows pending rows (some middle) count)
    (unfailed : failureMonitor.after false rows = false)
    (continued : LoopRows middle.signalsPending more final last) :
    LoopRows pending (rows ++ more) final last := by
  have afterPasses := (start.ended middle rfl).1
  refine ⟨?_, ?_, fun state isFinal => ?_⟩
  · rw [Monitor.accepts_append, afterPasses]
    exact ⟨start.passes, continued.passes⟩
  · rw [Monitor.accepts_append, unfailed]
    exact ⟨start.quiet, continued.quiet⟩
  · rw [Monitor.after_append, Monitor.after_append, afterPasses, unfailed]
    exact continued.ended state isFinal

/-- The state of the loop after a step and its flush. -/
def afterFlush (loopState : ModuleLoopState σ) (result : StepResult σ) (flushed : FlushResult) :
    ModuleLoopState σ :=
  { applyLoopResultToState loopState result with signalsPending := flushed.nextSignalsPending }

/-- A step and its flush, put together. -/
theorem loopRows_flushed {start : List BodyEvent} (started : start = [] ∨ start = [.applied])
    {loopState : ModuleLoopState σ} {result : StepResult σ} {failed count : Nat}
    (counts : result.status = some .failed → 0 < failed)
    {outcome : Option FlushResult} {rows : List BodyEvent}
    (flush : FlushRows failed (applyLoopResultToState loopState result) outcome rows count) :
    LoopRows loopState.signalsPending (stepRows start result ++ rows)
        (outcome.map (afterFlush loopState result)) count ∧
      (∀ own, outcome = some own → own.outcome = .proceed → result.status ≠ some .failed →
        failureMonitor.after false (stepRows start result ++ rows) = false) := by
  obtain ⟨passes, afterPasses, quiet, afterFailures⟩ := stepRows_facts started loopState result
  obtain ⟨rfl, grown, next⟩ | ⟨list, signalRows, rfl, signalRowsOf, pending, rfl, next⟩ := flush
  · rw [List.append_nil]
    refine ⟨⟨passes, quiet, ?_⟩, fun _ _ _ succeeded => ?_⟩
    · intro state isState
      obtain ⟨own, isOwn, rfl⟩ := Option.map_eq_some_iff.1 isState
      refine ⟨afterPasses.trans (next own isOwn).1.symm, fun hasFailed => ?_⟩
      exact (counts (afterFailures.1 hasFailed)).trans_le grown
    · exact Bool.eq_false_iff.2 fun hasFailed => succeeded (afterFailures.1 hasFailed)
  · have succeeded : result.status ≠ some .failed := fun isFailed =>
      absurd (counts isFailed) (Nat.lt_irrefl 0)
    have unfailed : failureMonitor.after false (stepRows start result) = false :=
      Bool.eq_false_iff.2 fun hasFailed => succeeded (afterFailures.1 hasFailed)
    have duePass := passes_due passes (afterPasses.trans pending) signalRowsOf
    have sameAfter : failureMonitor.after false (stepRows start result ++ .signalPass :: signalRows) =
        failureMonitor.after false signalRows := by
      rw [Monitor.after_append, unfailed]
      rfl
    refine ⟨⟨duePass.1, quiet_pass quiet unfailed signalRowsOf, ?_⟩, fun own isOwn proceeds _ => ?_⟩
    · intro state isState
      obtain ⟨own, isOwn, rfl⟩ := Option.map_eq_some_iff.1 isState
      refine ⟨duePass.2.trans (next own isOwn).1.symm, fun hasFailed => ?_⟩
      cases ends : own.outcome with
      | stop => exact (next own isOwn).2.2 ends
      | proceed =>
        rw [sameAfter, (next own isOwn).2.1 ends] at hasFailed
        cases hasFailed
    · exact sameAfter.trans ((next own isOwn).2.1 proceeds)

variable {signals : Option (List (Module σ))}
  (signalsFramed : ∀ list, signals = some list → ∀ signal ∈ list, Framed signal)

theorem reports_shouldFlushTopLevelSignals (result : StepResult σ) (loopState : ModuleLoopState σ) :
    Reports depth failed (shouldFlushTopLevelSignals host result loopState)
      fun flush rows count => rows = [] ∧ failed ≤ count ∧
        (flush = some true → loopState.signalsPending = true ∧ failed = 0) := by
  refine Reports.ite (fun _ => ?_) fun _ => Reports.pure ⟨rfl, le_refl _, nofun⟩
  refine Reports.innerBind (inner_shutdownSignal host) (fun _ grown => ⟨rfl, grown, nofun⟩)
    fun interrupted count grown => ?_
  refine Reports.bind Reports.get ?_ ?_
  · rintro rows last ⟨state, missing, -⟩
    cases missing
  · rintro state rows last ⟨_, ⟨⟩, counted, rfl, rfl⟩
    refine Reports.pure ⟨rfl, grown, fun flush => ?_⟩
    simp only [Option.some.injEq, Bool.and_eq_true, decide_eq_true_eq] at flush
    exact ⟨flush.1.2, by omega⟩

include signalsFramed

theorem reports_runSignals (env : Environment σ) {list : List (Module σ)}
    (given : signals = some list) : Reports depth failed (runSignals host env list)
      fun result rows count => ∃ signalRows, rows = .signalPass :: signalRows ∧
        SignalRows list signalRows ∧
        PassEnd (recipeOptions host) failed result signalRows count :=
  reports_runSignalModules (framed_recipeOptions host) env (signalsFramed list given)

/-- The flush after a step: it runs for a waiting change if nothing failed so far. -/
theorem reports_flushTopLevelSignals (result : StepResult σ) (loopState : ModuleLoopState σ) :
    Reports depth failed (flushTopLevelSignalsIfRequested host signals result loopState)
      fun outcome rows count => FlushRows failed loopState outcome rows count := by
  refine Reports.bind (reports_shouldFlushTopLevelSignals host result loopState) ?_ ?_
  · rintro rows count ⟨rfl, grown, -⟩
    exact .inl ⟨rfl, grown, nofun⟩
  · rintro flush rows count ⟨rfl, grown, due⟩
    cases signals with
    | none =>
      refine Reports.pure (.inl ⟨rfl, grown, ?_⟩)
      rintro own ⟨⟩
      exact ⟨rfl, rfl⟩
    | some list =>
      refine Reports.ite (fun flushes => ?_) fun _ => Reports.pure (.inl ⟨rfl, grown, ?_⟩)
      · obtain ⟨pending, noFailures⟩ := due (congrArg some flushes)
        refine Reports.bind (reports_runSignals host signalsFramed _ rfl) ?_ ?_
        · rintro more last ⟨signalRows, rfl, signalRowsOf, -⟩
          exact .inr ⟨list, signalRows, rfl, signalRowsOf, pending, noFailures, nofun⟩
        · rintro status more last ⟨signalRows, rfl, signalRowsOf, passEnd⟩
          refine Reports.pure (.inr
            ⟨list, signalRows, List.append_nil _, signalRowsOf, pending, noFailures, ?_⟩)
          rintro own ⟨⟩
          cases status with
          | changed => exact ⟨rfl, fun _ => passEnd.unfailed rfl, nofun⟩
          | failed =>
            have counted := passEnd.counts (countsFailures_recipeOptions host) rfl
            exact ⟨rfl, nofun, fun _ => Nat.zero_lt_of_lt counted⟩
      · rintro own ⟨⟩
        exact ⟨rfl, rfl⟩

theorem reports_runModuleLoop {modules : List (Module σ)}
    (modulesFramed : ∀ child ∈ modules, Framed child) (loopState : ModuleLoopState σ) :
    Reports depth failed (runModuleLoop host signals loopState modules)
      fun result rows count => LoopRows loopState.signalsPending rows result count := by
  induction modules generalizing loopState failed with
  | nil => exact Reports.pure .idle
  | cons child rest ih =>
    have childFramed := modulesFramed child List.mem_cons_self
    have restFramed := fun own mem => modulesFramed own (List.mem_cons_of_mem child mem)
    refine Reports.innerBind (inner_shutdownSignal host)
      (fun _ _ => ⟨trivial, trivial, nofun⟩) fun _ _ _ => ?_
    refine Reports.ite (fun _ => Reports.pure .idle) fun _ => ?_
    refine Reports.bind (reports_createModuleStepPromise host childFramed _)
      (fun rows count held => .started held.1) ?_
    rintro result start count ⟨started, breaks⟩
    refine Reports.bind (reports_countStep result)
      (fun rows counted held => absurd rfl held.1) ?_
    rintro _ _ counted ⟨-, grown, counts, rfl⟩
    have positive : result.status = some .failed → 0 < counted := fun isFailed =>
      Nat.zero_lt_of_lt (counts isFailed)
    refine Reports.bind (reports_flushTopLevelSignals host signalsFramed result _) ?_ ?_
    · intro flushRows last flush
      rw [← List.append_assoc]
      exact (loopRows_flushed started positive flush).1
    · intro flushed flushRows last flush
      obtain ⟨step, unfailed⟩ := loopRows_flushed started positive flush
      refine Reports.ite (fun _ => Reports.pure ?_) fun goesOn => ?_
      · rw [List.append_nil, ← List.append_assoc]
        exact step
      · obtain ⟨notStopped, notBroken⟩ := not_or.1 goesOn
        have proceeds : flushed.outcome = .proceed := by
          cases ends : flushed.outcome with
          | stop => exact absurd ends notStopped
          | proceed => rfl
        have succeeded : result.status ≠ some .failed := fun isFailed =>
          notBroken (breaks result rfl isFailed)
        refine (ih restFramed
          (afterFlush loopState result flushed)).mono fun final later end_ continued => ?_
        rw [← List.append_assoc, ← List.append_assoc]
        exact step.append (unfailed flushed rfl proceeds succeeded) continued

omit signalsFramed in
/-- A poll changes nothing, and a shutdown it sees is on record. -/
theorem after_shutdownSignal (state : RunState σ) :
    (shutdownSignal host).After state fun result after events => after = state ∧
      (result = some true ∧ events = [.interrupted] ∨ result = some false ∧ events = []) := by
  unfold After Effect.run shutdownSignal
  by_cases requested : host.shutdownRequested state.world = true
  · simp [Bind.bind, Effect.get, requested, Effect.report, Pure.pure]
  · simp [Bind.bind, Effect.get, requested, Pure.pure]

theorem after_runEndSignals (loopResult : ModuleLoopState σ) (state : RunState σ) :
    (runEndSignals host signals loopResult).After state fun _ after events =>
      state.failed ≤ after.failed ∧
      ((bodyEvents state.recipeOutputDepth events = [] ∧
          (∀ list, signals = some list → state.failed = 0 → .interrupted ∉ events →
            loopResult.signalsPending = false)) ∨
        ∃ (list : List (Module σ)) (signalRows : List BodyEvent),
          bodyEvents state.recipeOutputDepth events = .signalPass :: signalRows ∧
          SignalRows list signalRows ∧ loopResult.signalsPending = true ∧ state.failed = 0) := by
  refine After.bind (after_shutdownSignal host state) ?_ ?_
  · rintro after events ⟨-, ⟨missing, -⟩ | ⟨missing, -⟩⟩
    · cases missing
    · cases missing
  · rintro interrupted between events ⟨rfl, polled⟩
    have rows : bodyEvents between.recipeOutputDepth events = [] := by
      obtain ⟨-, rfl⟩ | ⟨-, rfl⟩ := polled
      · rfl
      · rfl
    have got : (Effect.get : Async σ (RunState σ)).After between fun own after more =>
        own = some between ∧ between = after ∧ more = [] := After.get ⟨rfl, rfl, rfl⟩
    refine After.bind got nofun ?_
    rintro _ _ _ ⟨⟨⟩, rfl, rfl⟩
    cases signals with
    | none => exact After.pure ⟨le_refl _, .inl ⟨by simpa using rows, nofun⟩⟩
    | some list =>
      refine After.ite (fun due => ?_) fun notDue => ?_
      · have pass := reports_runSignals host signalsFramed loopResult.currentEnvironment rfl
          between rfl rfl
        refine After.bind pass ?_ ?_
        · rintro after more ⟨-, signalRows, isRows, signalRowsOf, passEnd⟩
          refine ⟨passEnd.grown, .inr ⟨list, signalRows, ?_, signalRowsOf, due.2.1, due.2.2⟩⟩
          simp [rows, isRows]
        · rintro status after more ⟨-, signalRows, isRows, signalRowsOf, passEnd⟩
          refine After.pure
            ⟨passEnd.grown, .inr ⟨list, signalRows, ?_, signalRowsOf, due.2.1, due.2.2⟩⟩
          simp [rows, isRows]
      · refine After.pure ⟨le_refl _, .inl ⟨by simpa using rows, fun _ _ noFailures quiet => ?_⟩⟩
        obtain ⟨⟨⟩, rfl⟩ | ⟨⟨⟩, rfl⟩ := polled
        · simp at quiet
        · simpa [noFailures] using notDue

/-- What a whole run reports at its own depth. -/
theorem after_executeRun {modules : List (Module σ)}
    (modulesFramed : ∀ child ∈ modules, Framed child) (env : Environment σ) (state : RunState σ) :
    (executeRun host modules signals env).After state fun result after events =>
      passMonitor.Accepts false (bodyEvents state.recipeOutputDepth events) ∧
      failureMonitor.Accepts false (bodyEvents state.recipeOutputDepth events) ∧
      (∀ final list, result = some final → signals = some list → after.failed = 0 →
        .interrupted ∉ events →
          passMonitor.after false (bodyEvents state.recipeOutputDepth events) = false) := by
  have loop := reports_runModuleLoop host signalsFramed modulesFramed
    (initialLoopState env) state rfl rfl
  refine After.bind loop (fun after events held => ⟨held.2.passes, held.2.quiet, nofun⟩) ?_
  rintro loopResult between events ⟨sameDepth, rows⟩
  obtain ⟨afterPasses, counted⟩ := rows.ended loopResult rfl
  have ending {after : RunState σ} {more : List (Event σ)} (atEnd : between.failed ≤ after.failed ∧
      ((bodyEvents between.recipeOutputDepth more = [] ∧
          (∀ list, signals = some list → between.failed = 0 → .interrupted ∉ more →
            loopResult.signalsPending = false)) ∨
        ∃ (list : List (Module σ)) (signalRows : List BodyEvent),
          bodyEvents between.recipeOutputDepth more = .signalPass :: signalRows ∧
          SignalRows list signalRows ∧ loopResult.signalsPending = true ∧ between.failed = 0)) :
      passMonitor.Accepts false (bodyEvents state.recipeOutputDepth (events ++ more)) ∧
      failureMonitor.Accepts false (bodyEvents state.recipeOutputDepth (events ++ more)) ∧
      ∀ list, signals = some list → after.failed = 0 → .interrupted ∉ events ++ more →
        passMonitor.after false (bodyEvents state.recipeOutputDepth (events ++ more)) = false := by
    rw [sameDepth] at atEnd
    rw [bodyEvents_append]
    obtain ⟨grown, ⟨noRows, covers⟩ |
      ⟨list, signalRows, isRows, signalRowsOf, pending, noFailures⟩⟩ := atEnd
    · rw [noRows, List.append_nil]
      refine ⟨rows.passes, rows.quiet, fun list given unfailed quiet => ?_⟩
      exact afterPasses.trans (covers list given (Nat.le_zero.1 (unfailed ▸ grown))
        fun mem => quiet (List.mem_append_right _ mem))
    · have unfailed : failureMonitor.after false
          (bodyEvents state.recipeOutputDepth events) = false :=
        Bool.eq_false_iff.2 fun hasFailed =>
          absurd (counted hasFailed) (noFailures ▸ Nat.lt_irrefl 0)
      have duePass := passes_due rows.passes (afterPasses.trans pending) signalRowsOf
      rw [isRows]
      exact ⟨duePass.1, quiet_pass rows.quiet unfailed signalRowsOf, fun _ _ _ _ => duePass.2⟩
  refine After.bind (after_runEndSignals host signalsFramed loopResult between) ?_ ?_
  · intro after more atEnd
    exact ⟨(ending atEnd).1, (ending atEnd).2.1, nofun⟩
  · intro _ after more atEnd
    refine After.pure ?_
    rw [List.append_nil]
    exact ⟨(ending atEnd).1, (ending atEnd).2.1, fun _ list _ => (ending atEnd).2.2 list⟩

end Run

/-! ### The discipline of signal passes -/

/-- Every pass comes after a change that no pass before it came after. -/
def PassesWarranted (rows : List BodyEvent) : Prop :=
  ∀ before after, rows = before ++ .signalPass :: after →
    ∃ early flush late, before = early ++ .reported .changed flush :: late ∧ .signalPass ∉ late

/-- Exactly one pass is the first one after a change. -/
def EachChangeCovered (rows : List BodyEvent) : Prop :=
  ∀ before flush after, rows = before ++ .reported .changed flush :: after →
    ∃! covering : List BodyEvent × List BodyEvent,
      after = covering.1 ++ .signalPass :: covering.2 ∧ .signalPass ∉ covering.1

def BodyEvent.IsFailure : BodyEvent → Prop
  | .reported .failed _ => True
  | .signalReported .failed => True
  | _ => False

def NothingAppliedAfterFailure (rows : List BodyEvent) : Prop :=
  ∀ before event after, rows = before ++ event :: after → event.IsFailure →
    .applied ∉ after ∧ .signalApplied ∉ after

theorem stays_pending {rows : List BodyEvent} (noPass : .signalPass ∉ rows) :
    passMonitor.after true rows = true := by
  induction rows with
  | nil => rfl
  | cons row rest ih =>
    have restNoPass := fun mem => noPass (List.mem_cons_of_mem row mem)
    have kept : noteChange true row = true := by
      cases row with
      | signalPass => exact absurd List.mem_cons_self noPass
      | reported status flush => cases status <;> rfl
      | _ => rfl
    change passMonitor.after (noteChange true row) rest = true
    rw [kept]
    exact ih restNoPass

/-- A change waits if no pass came after it. -/
theorem change_of_pending {rows : List BodyEvent} (pending : passMonitor.after false rows = true) :
    ∃ early flush late, rows = early ++ .reported .changed flush :: late ∧
      .signalPass ∉ late := by
  induction rows using List.reverseRec with
  | nil => cases pending
  | append_singleton init last ih =>
    rw [Monitor.after_append] at pending
    change noteChange (passMonitor.after false init) last = true at pending
    have earlier (kept : noteChange (passMonitor.after false init) last =
        passMonitor.after false init) (noPass : last ≠ .signalPass) :
        ∃ early flush late, init ++ [last] = early ++ .reported .changed flush :: late ∧
          .signalPass ∉ late := by
      obtain ⟨early, flush, late, rfl, notLate⟩ := ih (kept ▸ pending)
      refine ⟨early, flush, late ++ [last], by simp, fun mem => ?_⟩
      rcases List.mem_append.1 mem with own | isLast
      · exact notLate own
      · exact noPass (List.mem_singleton.1 isLast).symm
    cases last with
    | signalPass => cases pending
    | reported status flush =>
      cases status with
      | changed => exact ⟨init, flush, [], rfl, nofun⟩
      | _ => exact earlier rfl nofun
    | _ => exact earlier rfl nofun

theorem passesWarranted_of_accepts {rows : List BodyEvent}
    (accepted : passMonitor.Accepts false rows) : PassesWarranted rows := by
  intro before after split
  exact change_of_pending ((passMonitor.accepts_iff false rows).1 accepted _ _ _ split rfl)

theorem eachChangeCovered_of_after {rows : List BodyEvent}
    (nothingWaits : passMonitor.after false rows = false) : EachChangeCovered rows := by
  intro before flush after split
  have hasPass : BodyEvent.signalPass ∈ after := by
    by_contra noPass
    rw [split, Monitor.after_append, Monitor.after_cons] at nothingWaits
    have pending := stays_pending noPass
    change passMonitor.after true after = false at nothingWaits
    rw [nothingWaits] at pending
    cases pending
  obtain ⟨early, late, isSplit, noPass⟩ := List.eq_append_cons_of_mem hasPass
  refine ⟨(early, late), ⟨isSplit, noPass⟩, ?_⟩
  rintro ⟨otherEarly, otherLate⟩ ⟨otherSplit, otherNoPass⟩
  have first := cutFirst_singleton noPass late
  rw [← isSplit, otherSplit, cutFirst_singleton otherNoPass otherLate] at first
  exact Option.some.inj first

theorem quiet_after_failure {rows : List BodyEvent} (accepted : failureMonitor.Accepts true rows) :
    .applied ∉ rows ∧ .signalApplied ∉ rows := by
  induction rows with
  | nil => exact ⟨nofun, nofun⟩
  | cons row rest ih =>
    have kept : noteFailure true row = true := by
      cases row with
      | reported status flush => cases status <;> rfl
      | signalReported status => cases status <;> rfl
      | _ => rfl
    have notApplied : ¬ (row = .applied ∨ row = .signalApplied) := fun applies =>
      Bool.noConfusion (accepted.1 applies)
    have restAccepted := accepted.2
    change failureMonitor.Accepts (noteFailure true row) rest at restAccepted
    rw [kept] at restAccepted
    obtain ⟨noApply, noSignal⟩ := ih restAccepted
    refine ⟨fun mem => ?_, fun mem => ?_⟩
    · exact (List.mem_cons.1 mem).elim (fun same => notApplied (.inl same.symm)) noApply
    · exact (List.mem_cons.1 mem).elim (fun same => notApplied (.inr same.symm)) noSignal

theorem nothingAppliedAfterFailure_of_accepts {rows : List BodyEvent}
    (accepted : failureMonitor.Accepts false rows) : NothingAppliedAfterFailure rows := by
  intro before event after split isFailure
  rw [split, Monitor.accepts_append] at accepted
  have afterEvent := accepted.2.2
  have hasFailed : noteFailure (failureMonitor.after false before) event = true := by
    cases event with
    | reported status flush =>
      cases status with
      | failed => rfl
      | _ => exact isFailure.elim
    | signalReported status =>
      cases status with
      | failed => rfl
      | _ => exact isFailure.elim
    | _ => exact isFailure.elim
  change failureMonitor.Accepts (noteFailure (failureMonitor.after false before) event) after
    at afterEvent
  rw [hasFailed] at afterEvent
  exact quiet_after_failure afterEvent

/-- What a list of steps with signals owes to them. -/
structure SignalDiscipline (rows : List BodyEvent) (finished : Prop) : Prop where
  warranted : PassesWarranted rows
  covered : finished → EachChangeCovered rows
  quiet : NothingAppliedAfterFailure rows

/-- The steps of a run follow the discipline; so do the children of every recipe,
unless one of them fails and asks for a flush while a change waits. -/
theorem signal_discipline (host : Host σ) {modules : List (Module σ)}
    {signals : Option (List (Module σ))} (modulesBuilt : ∀ child ∈ modules, Built host child)
    (signalsBuilt : ∀ list, signals = some list → ∀ signal ∈ list, Built host signal)
    (env : Environment σ) (state : RunState σ) :
    SignalDiscipline
      (bodyEvents state.recipeOutputDepth
        ((executeRun host modules signals env).run state).events)
      (((executeRun host modules signals env).run state).value.isSome = true ∧
        signals.isSome = true ∧
        ((executeRun host modules signals env).run state).state.failed = 0 ∧
        .interrupted ∉ ((executeRun host modules signals env).run state).events) ∧
    ∀ options, RunnerOptions host options →
      NoFailedFlush signals false (bodyEvents (state.recipeOutputDepth + 1)
        ((applyRecipe modules signals options env).run state).events) →
      SignalDiscipline
        (bodyEvents (state.recipeOutputDepth + 1)
          ((applyRecipe modules signals options env).run state).events)
        (signals.isSome = true ∧ ∃ result,
          ((applyRecipe modules signals options env).run state).value = some result ∧
            result.status ≠ .failed) := by
  have modulesFramed := fun child mem => (modulesBuilt child mem).framed
  have signalsFramed := fun list given signal mem => (signalsBuilt list given signal mem).framed
  constructor
  · obtain ⟨passes, quiet, covered⟩ :=
      after_executeRun host signalsFramed modulesFramed env state
    refine ⟨passesWarranted_of_accepts passes, ?_, nothingAppliedAfterFailure_of_accepts quiet⟩
    rintro ⟨finished, given, unfailed, noShutdown⟩
    obtain ⟨final, isFinal⟩ := Option.isSome_iff_exists.1 finished
    obtain ⟨list, isList⟩ := Option.isSome_iff_exists.1 given
    exact eachChangeCovered_of_after (covered final list isFinal isList unfailed noShutdown)
  · intro options runnerOptions noFlush
    have body : (applyRecipe modules signals options env).After state fun result _ events =>
        passMonitor.Accepts false (bodyEvents (state.recipeOutputDepth + 1) events) ∧
        (NoFailedFlush signals false (bodyEvents (state.recipeOutputDepth + 1) events) →
          failureMonitor.Accepts false (bodyEvents (state.recipeOutputDepth + 1) events)) ∧
        (∀ own, result = some own → own.status ≠ .failed → signals.isSome = true →
          passMonitor.after false (bodyEvents (state.recipeOutputDepth + 1) events) = false) :=
      after_withRecipeOutputScope <|
        (reports_recipeBody runnerOptions.framed signalsFramed modulesFramed env
          { state with recipeOutputDepth := state.recipeOutputDepth + 1 } rfl rfl).mono
          fun _ _ _ held => held.2
    obtain ⟨passes, quiet, covered⟩ := body
    refine ⟨passesWarranted_of_accepts passes, ?_,
      nothingAppliedAfterFailure_of_accepts (quiet noFlush)⟩
    rintro ⟨given, result, isResult, unfailed⟩
    exact eachChangeCovered_of_after (covered result isResult unfailed given)

/-! ### A small run -/

/-- The steps of the small runs: a change, and a flush point or a failure that asks for
a flush. -/
def smallSteps (last : ModuleStatus) : List (Module Unit) :=
  [(resultLeaf 0 .changed false []).toModule, (resultLeaf 1 last true []).toModule]

def smallSignals : List (Module Unit) := [(resultLeaf 2 .ok false []).toModule]

def smallRun (last : ModuleStatus) : Outcome (Event Unit) (RunState Unit) (ModuleResult Unit) :=
  (applyRecipe (smallSteps last) (some smallSignals) (recipeOptions steadyHost)
    emptyEnvironment).run startState

theorem smallSteps_built (last : ModuleStatus) :
    ∀ child ∈ smallSteps last, Built steadyHost child := by
  intro child mem
  obtain rfl | rfl := List.mem_pair.1 mem
  · exact .leaf _
  · exact .leaf _

theorem smallSignals_built : ∀ list, some smallSignals = some list → ∀ signal ∈ list,
    Built steadyHost signal := by
  rintro list ⟨⟩ signal mem
  cases List.mem_singleton.1 mem
  exact .leaf _

/-- A change, a flush point, and the signal. -/
theorem signal_discipline_flush :
    bodyEvents 1 (smallRun .ok).events =
        [.applied, .reported .changed false, .applied, .reported .ok true, .signalPass,
          .signalApplied, .signalReported .ok] ∧
      SignalDiscipline (bodyEvents 1 (smallRun .ok).events)
        ((some smallSignals).isSome = true ∧ ∃ result,
          (smallRun .ok).value = some result ∧ result.status ≠ .failed) := by
  have rows : bodyEvents 1 (smallRun .ok).events =
      [.applied, .reported .changed false, .applied, .reported .ok true, .signalPass,
        .signalApplied, .signalReported .ok] := rfl
  refine ⟨rows, (signal_discipline steadyHost (smallSteps_built .ok) smallSignals_built
    emptyEnvironment startState).2 _ .recipe fun list given nonempty => ?_⟩
  change flushMonitor.Accepts false (bodyEvents 1 (smallRun .ok).events)
  rw [rows]
  simp [flushMonitor]

/-- The signal is applied although the step before it failed. -/
theorem failed_flush_applies_signal :
    ¬ ∀ (modules : List (Module Unit)) (signals : Option (List (Module Unit)))
        (env : Environment Unit) (state : RunState Unit) (options : ApplyOptions Unit),
      (∀ child ∈ modules, Built steadyHost child) →
      (∀ list, signals = some list → ∀ signal ∈ list, Built steadyHost signal) →
      RunnerOptions steadyHost options →
      NothingAppliedAfterFailure (bodyEvents (state.recipeOutputDepth + 1)
        ((applyRecipe modules signals options env).run state).events) := by
  intro disciplined
  have quiet := disciplined _ _ emptyEnvironment startState _ (smallSteps_built .failed)
    smallSignals_built .recipe
  have rows : bodyEvents 1 (smallRun .failed).events =
      [.applied, .reported .changed false, .applied] ++ .reported .failed true ::
        [.signalPass, .signalApplied, .signalReported .ok] := rfl
  exact (quiet _ _ _ rows trivial).2 (by decide)

end Paratix.Orchestration
