/-
Module: Paratix.Lock.Heartbeat
Purpose: A holder that refreshes within the guard age keeps its lock, whatever the others do; an
  abandoned lock is taken over by whoever waits.
Main exports: Attended, heartbeat_keeps_lock
-/
import Paratix.Lock.Exclusion

namespace Paratix.Lock

open Foundation

variable {Process Token : Type*}

/-- The process holds the lock, knows of no loss and gave a sign within the guard age. -/
structure Attended (config : MutexLockConfig Process Token) (state : LockState Process Token)
    (process : Process) : Prop where
  phase : (state.processes process).phase = .holding
  unlost : ∃ handle, (state.processes process).handle = some handle ∧ handle.isLost = false
  recent : olderThan config.guard state.clock (state.processes process).stamp = false

/-- The holder refreshes before the guard age has passed, is answered, and goes on. -/
def Attends (config : MutexLockConfig Process Token) (process : Process)
    (state : LockState Process Token) : LockAction Process → Prop
  | .tick elapsed =>
      olderThan config.guard (state.clock + elapsed) (state.processes process).stamp = false
  | .refresh other outcome => other = process → outcome = .answered
  | .release other _ | .crash other => other ≠ process
  | .mkdir _ | .write _ _ | .removeAfterWrite _ _ | .readBack _ _ | .removeMarker _ _
  | .removeDirectory _ _ | .reclaim _ => True

instance [DecidableEq Process] (config : MutexLockConfig Process Token) (process : Process)
    (state : LockState Process Token) (action : LockAction Process) :
    Decidable (Attends config process state action) := by
  cases action <;> unfold Attends <;> infer_instance

/-! ### Heartbeats -/

theorem guard_le_reclaim (config : MutexLockConfig Process Token) :
    config.guard.effectiveAgeSeconds ≤ config.reclaim.effectiveAgeSeconds := by
  have validated := config.validated
  unfold validateMutexLockTiming at validated
  grind

section Heartbeat

variable {config : MutexLockConfig Process Token} {state : LockState Process Token}
  {process : Process}

theorem Attended.live (attended : Attended config state process) : Live config state process where
  phase := .inr (.inr attended.phase)
  young := by
    have recent := attended.recent
    have ages : (config.guard.effectiveAgeSeconds : Rat) ≤ config.reclaim.effectiveAgeSeconds :=
      Nat.cast_le.2 (guard_le_reclaim config)
    simp only [olderThan, decide_eq_false_iff_not, not_lt] at recent ⊢
    exact recent.trans ages

/-- The lock directory of a holder carries its token and the time of its last sign. -/
theorem Attended.marker (attended : Attended config state process)
    (inv : LockInv config state) : ∃ directory, state.lock = some directory ∧
      directory.marker =
        some ⟨some (config.token process), (state.processes process).stamp⟩ := by
  obtain ⟨directory, isLock, _, stands⟩ := inv.standing process attended.live
  rw [Stands, if_neg (by rw [attended.phase]; decide)] at stands
  exact ⟨directory, isLock, stands⟩

variable [DecidableEq Token]

/-- A refresh in time is granted, and the handle stays as it is. -/
theorem Attended.refreshed (attended : Attended config state process)
    (inv : LockInv config state) {handle : MutexLockHandle Token}
    (isHandle : (state.processes process).handle = some handle) (unlost : handle.isLost = false) :
    (refreshResult config state.clock handle state.lock .answered).2 = (handle, true) := by
  obtain ⟨directory, isLock, isMarker⟩ := attended.marker inv
  have touched : (refreshGuard config.guard state.clock handle.token state.lock).2 = true := by
    simp only [isLock, refreshGuard, isMarker, inv.handles process handle isHandle,
      attended.recent, and_self, if_true]
  simp only [refreshResult, unlost, touched, Bool.false_eq_true, if_false, if_true]

variable [DecidableEq Process]

theorem Attended.step (attended : Attended config state process) (inv : LockInv config state)
    {action : LockAction Process} {after : LockState Process Token}
    (attends : Attends config process state action) (stepped : next config state action after) :
    Attended config after process := by
  rcases next_cases stepped with
    ⟨elapsed, rfl, _, rfl⟩ | ⟨actor, lock, entry, _, rfl, processStep⟩
  · exact ⟨attended.phase, attended.unlost, attends⟩
  · by_cases isOwn : process = actor
    · subst isOwn
      have notYet : ∀ {phase : LockPhase}, (state.processes process).phase = phase →
          phase ≠ .holding → Attended config (state.set lock process entry) process :=
        fun isPhase other => absurd (isPhase.symm.trans attended.phase) other
      cases processStep with
      | mkdir phase => exact notYet phase nofun
      | write phase => exact notYet phase nofun
      | removeAfterWrite phase => exact notYet phase nofun
      | readBack phase => exact notYet phase nofun
      | removeMarker phase => exact notYet phase nofun
      | removeDirectory phase => exact notYet phase nofun
      | @refresh outcome handle phase isHandle =>
        obtain rfl : outcome = .answered := attends rfl
        obtain ⟨own, isOwn, unlost⟩ := attended.unlost
        obtain rfl := Option.some.inj (isHandle.symm.trans isOwn)
        have granted := attended.refreshed inv isHandle unlost
        rw [granted]
        refine ⟨?_, ⟨handle, ?_, unlost⟩, ?_⟩
        · rw [processes_set_self]
          exact phase
        · rw [processes_set_self]
        · rw [processes_set_self]
          simp [olderThan, LockState.set]
      | release _ _ => exact absurd rfl attends
      | reclaim phase => exact notYet phase nofun
      | crash => exact absurd rfl attends
    · have same := @processes_set_of_ne _ _ state _ lock actor process entry isOwn
      exact ⟨same ▸ attended.phase, same ▸ attended.unlost, same ▸ attended.recent⟩

/-- Whatever the other processes do in place, a holder whose heartbeats come within the guard age
keeps a fresh lock that carries its token, and its handle never reports a loss. -/
theorem heartbeat_keeps_lock (distinct : Function.Injective config.token)
    {actions more : List (LockAction Process)} {after : LockState Process Token}
    (run : Run (next config) (StepInPlace config) initialLockState actions state)
    (attended : Attended config state process)
    (continued : Run (next config) (fun state action => StepInPlace config state action ∧
      Attends config process state action) state more after) :
    Attended config after process ∧ Fresh config after process ∧ Marked config after process := by
  have preserved : ∀ (state : LockState Process Token) action after,
      LockInv config state ∧ Attended config state process →
      StepInPlace config state action ∧ Attends config process state action →
      next config state action after → LockInv config after ∧ Attended config after process :=
    fun _ _ _ both allowed stepped =>
      ⟨lockInv_step distinct both.1 allowed.1 stepped, both.2.step both.1 allowed.2 stepped⟩
  obtain ⟨inv, still⟩ := continued.invariant preserved ⟨lockInv_run distinct run, attended⟩
  obtain ⟨directory, isLock, isMarker⟩ := still.marker inv
  refine ⟨still, inv.fresh_of_live still.live, ?_⟩
  rw [Marked, readHolderToken, isLock, Option.bind_some, isMarker, Option.bind_some]

/-- A heartbeat after a minute, while the other process tries to reclaim and to enter. -/
theorem heartbeat_keeps_lock_minute : ∃ state : LockState Bool Bool,
    Attended twoProcesses state false ∧ Fresh twoProcesses state false ∧
      Marked twoProcesses state false := by
  have ends : (runSteps (step twoProcesses) (StepInPlace twoProcesses) initialLockState
      [.mkdir false, .write false .done, .readBack false false]).map (fun state =>
        ((state.processes false).phase, (state.processes false).handle.map (·.isLost),
          olderThan twoProcesses.guard state.clock (state.processes false).stamp,
          (runSteps (step twoProcesses) (fun state action => StepInPlace twoProcesses state action ∧
            Attends twoProcesses false state action) state
            [.tick 60, .reclaim true, .refresh false .answered, .mkdir true]).isSome)) =
        some (.holding, some false, false, true) := by
    decide +kernel
  obtain ⟨state, ran, isOutcome⟩ := Option.map_eq_some_iff.mp ends
  simp only [Prod.mk.injEq, Option.map_eq_some_iff] at isOutcome
  obtain ⟨phase, unlost, recent, goesOn⟩ := isOutcome
  obtain ⟨after, continued⟩ := Option.isSome_iff_exists.mp goesOn
  exact ⟨after, heartbeat_keeps_lock Function.injective_id (Run.of_runSteps ran)
    ⟨phase, unlost, recent⟩ (Run.of_runSteps continued)⟩

/-! ### Abandoned locks -/

omit [DecidableEq Token] [DecidableEq Process] in
/-- Once enough time has passed, a reclaim leaves no lock. -/
theorem exists_reclaimed (config : MutexLockConfig Process Token) (clock : Rat)
    (lock : Option (LockDirectory Process Token)) : ∃ elapsed, 0 ≤ elapsed ∧
      (reclaimCommand config.reclaim (clock + elapsed) lock).1 = none := by
  cases lock with
  | none => exact ⟨0, le_refl _, rfl⟩
  | some directory =>
    let age := config.reclaim.effectiveAgeSeconds + 1 + directory.touched - clock
    have old : olderThan config.reclaim (clock + |age|) directory.touched = true := by
      have atLeast := le_abs_self age
      simp only [olderThan, decide_eq_true_eq, age] at atLeast ⊢
      linarith
    refine ⟨|age|, abs_nonneg _, ?_⟩
    cases isMarker : directory.marker <;>
      simp_all [LockDirectory.touched, reclaimCommand]

/-- Whatever has happened, a process that tries gets the lock when it reclaims late enough. -/
theorem waiting_process_acquires (isTrying : (state.processes process).phase = .trying) :
    ∃ elapsed after, Run (next config) (StepInPlace config) state
        [.tick elapsed, .reclaim process, .mkdir process, .write process .done,
          .readBack process false] after ∧
      Attended config after process ∧ Marked config after process := by
  obtain ⟨elapsed, forward, reclaimed⟩ := exists_reclaimed config state.clock state.lock
  let clock := state.clock + elapsed
  let entry := state.processes process
  let made : LockDirectory Process Token := ⟨process, clock, none⟩
  let marked : LockDirectory Process Token :=
    ⟨process, clock, some ⟨some (config.token process), clock⟩⟩
  let state₁ := { state with clock := clock }
  let state₂ := state₁.set none process entry
  let state₃ := state₂.set (some made) process { entry with phase := .created, stamp := clock }
  let state₄ := state₃.set (some marked) process { entry with phase := .written, stamp := clock }
  let state₅ := state₄.set (some marked) process
    { entry with phase := .holding, stamp := clock, handle := some ⟨config.token process, none⟩ }
  have ticked : next config state (.tick elapsed) state₁ := if_pos forward
  have reclaims : next config state₁ (.reclaim process) state₂ := by
    simp [next, step, state₁, state₂, isTrying, reclaimed, clock, entry]
  have makes : next config state₂ (.mkdir process) state₃ := by
    simp [next, step, state₁, state₂, state₃, LockState.set, makeLockDirectory, isTrying, made,
      entry, clock]
  have writes : next config state₃ (.write process .done) state₄ := by
    simp [next, step, state₂, state₃, state₄, LockState.set, writeOutcome, writeHolderMarker, made,
      marked, state₁, entry]
  have reads : next config state₄ (.readBack process false) state₅ := by
    simp [next, step, state₄, state₅, LockState.set, readBackResult, readHolderToken, marked, entry]
  have madeHere : InPlace state₃ process := by
    intro directory isLock
    cases isLock
    rfl
  have markedHere : InPlace state₄ process := by
    intro directory isLock
    cases isLock
    rfl
  have attended : Attended config state₅ process := by
    refine ⟨?_, ⟨⟨config.token process, none⟩, ?_, rfl⟩, ?_⟩
    · simp only [state₅, processes_set_self]
    · simp only [state₅, processes_set_self]
    · simp only [state₅, processes_set_self]
      simp [olderThan, LockState.set, state₁, state₂, state₃, state₄]
  exact ⟨elapsed, state₅, .cons trivial ticked (.cons trivial reclaims (.cons trivial makes
    (.cons (.inr madeHere) writes (.cons (.inr (.inr (.inr markedHere))) reads .nil)))),
    attended, rfl⟩

/-- The second process takes over after a crash of the first. -/
theorem waiting_process_acquires_crashed : ∃ (state after : LockState Bool Bool) (actions : _),
    (state.processes false).phase = .finished ∧
      Run (next twoProcesses) (StepInPlace twoProcesses) state actions after ∧
      Attended twoProcesses after true := by
  have ends : (runSteps (step twoProcesses) (StepInPlace twoProcesses) initialLockState
      [.mkdir false, .write false .done, .readBack false false, .crash false]).map (fun state =>
        ((state.processes false).phase, (state.processes true).phase)) =
        some (.finished, .trying) := by
    decide +kernel
  obtain ⟨state, _, isOutcome⟩ := Option.map_eq_some_iff.mp ends
  obtain ⟨isCrashed, isTrying⟩ := Prod.ext_iff.mp isOutcome
  obtain ⟨elapsed, after, continued, attended, _⟩ : ∃ elapsed after,
      Run (next twoProcesses) (StepInPlace twoProcesses) state [.tick elapsed, .reclaim true,
        .mkdir true, .write true .done, .readBack true false] after ∧
        Attended twoProcesses after true ∧ Marked twoProcesses after true :=
    waiting_process_acquires isTrying
  exact ⟨state, after, _, isCrashed, continued, attended⟩

end Heartbeat

end Paratix.Lock
