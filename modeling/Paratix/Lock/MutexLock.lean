/-
Module: Paratix.Lock.MutexLock
Purpose: The age thresholds and remote commands of the flag lock, and processes that acquire,
  refresh, release and reclaim one lock in any order.
Main exports: flagLockAgeThreshold, next_cases
-/
import Mathlib.Data.Rat.Defs
import Mathlib.Logic.Function.Basic
import Paratix.Foundation.Run

namespace Paratix.Lock

open Foundation

/-! ### Thresholds -/

/-- An age threshold expressed with `find -mmin +N`. -/
structure FlagLockAgeThreshold where
  effectiveAgeSeconds : Nat
  mminMinutes : Nat
deriving DecidableEq, Repr

def SECONDS_PER_MINUTE : Nat := 60

/-- The threshold for an age in seconds; nothing when the age is negative. -/
def flagLockAgeThreshold (seconds : Rat) : Option FlagLockAgeThreshold :=
  if seconds < 0 then none
  else
    let mminMinutes := max 1 (seconds / SECONDS_PER_MINUTE).ceil.toNat - 1
    some ⟨mminMinutes * SECONDS_PER_MINUTE, mminMinutes⟩

def FLAG_LOCK_STALE_SECONDS : Rat := 4 * 60 * 60

def MUTEX_LOCK_HEARTBEAT_INTERVAL_MILLISECONDS : Rat := 60000

/-- The timing parameters of a mutex lock, absent ones at their defaults. -/
structure MutexLockTiming where
  staleSeconds : Option Rat
  refreshGuardSeconds : Option Rat
  /-- the interval of the heartbeat, if there is one, and if it is given -/
  heartbeat : Option (Option Rat)
deriving DecidableEq, Repr

inductive MutexLockTimingError where
  | negativeAge (seconds : Rat)
  | guardExceedsReclaim (guardAge reclaimAge : Nat)
  | heartbeatNotBelowGuard (intervalSeconds : Rat) (guardAge : Nat)
deriving DecidableEq, Repr

/-- The guard must not accept a marker the reclaim may take, and a heartbeat must
be faster than the guard. -/
def validateMutexLockTiming (timing : MutexLockTiming) :
    Except MutexLockTimingError (FlagLockAgeThreshold × FlagLockAgeThreshold) :=
  let staleSeconds := timing.staleSeconds.getD FLAG_LOCK_STALE_SECONDS
  match flagLockAgeThreshold staleSeconds with
  | none => .error (.negativeAge staleSeconds)
  | some reclaim =>
      let guardSeconds := timing.refreshGuardSeconds.getD staleSeconds
      match flagLockAgeThreshold guardSeconds with
      | none => .error (.negativeAge guardSeconds)
      | some guard =>
          if guard.effectiveAgeSeconds > reclaim.effectiveAgeSeconds then
            .error (.guardExceedsReclaim guard.effectiveAgeSeconds reclaim.effectiveAgeSeconds)
          else
            match timing.heartbeat with
            | none => .ok (reclaim, guard)
            | some interval =>
                let intervalSeconds :=
                  interval.getD MUTEX_LOCK_HEARTBEAT_INTERVAL_MILLISECONDS / 1000
                if (guard.effectiveAgeSeconds : Rat) ≤ intervalSeconds then
                  .error (.heartbeatNotBelowGuard intervalSeconds guard.effectiveAgeSeconds)
                else .ok (reclaim, guard)

/-! ### The lock directory -/

/-- The holder marker: its first word, if it has one, and when it was last
written or touched. -/
structure HolderMarker (Token : Type*) where
  token : Option Token
  mtime : Rat
deriving DecidableEq, Repr

/-- The lock directory. Who made it is no information of the host. -/
structure LockDirectory (Process Token : Type*) where
  madeBy : Process
  mtime : Rat
  marker : Option (HolderMarker Token)
deriving DecidableEq, Repr

variable {Process Token : Type*}

/-- `find -mmin +N`: strictly older than the threshold. -/
def olderThan (threshold : FlagLockAgeThreshold) (now mtime : Rat) : Bool :=
  threshold.effectiveAgeSeconds < now - mtime

/-- `mkdir`, and whether it succeeded. -/
def makeLockDirectory (now : Rat) (process : Process) :
    Option (LockDirectory Process Token) → Option (LockDirectory Process Token) × Bool
  | none => (some ⟨process, now, none⟩, true)
  | some directory => (some directory, false)

/-- `printf … > marker`; a new marker also touches the directory. -/
def writeHolderMarker (now : Rat) (token : Option Token) :
    Option (LockDirectory Process Token) → Option (LockDirectory Process Token)
  | none => none
  | some directory =>
      some { directory with
        mtime := if directory.marker.isSome then directory.mtime else now
        marker := some ⟨token, now⟩ }

/-- `awk 'NR==1{print $1}' marker`; nothing also when the marker is missing. -/
def readHolderToken (lock : Option (LockDirectory Process Token)) : Option Token :=
  (lock.bind (·.marker)).bind (·.token)

/-- `rmdir`: only an empty directory is removed. -/
def removeLockDirectory :
    Option (LockDirectory Process Token) → Option (LockDirectory Process Token)
  | none => none
  | some directory => if directory.marker.isSome then some directory else none

/-- `rm -f marker` -/
def removeHolderMarker (now : Rat) :
    Option (LockDirectory Process Token) → Option (LockDirectory Process Token)
  | none => none
  | some directory =>
      if directory.marker.isSome then some { directory with mtime := now, marker := none }
      else some directory

variable [DecidableEq Token]

/-- The refresh guard: touch the marker when it carries the token and is not
older than the guard age. -/
def refreshGuard (guard : FlagLockAgeThreshold) (now : Rat) (token : Token) :
    Option (LockDirectory Process Token) → Option (LockDirectory Process Token) × Bool
  | none => (none, false)
  | some directory =>
      match directory.marker with
      | none => (some directory, false)
      | some marker =>
          if marker.token = some token ∧ olderThan guard now marker.mtime = false then
            (some { directory with marker := some { marker with mtime := now } }, true)
          else (some directory, false)

/-- The release: marker and directory are removed when the marker carries the
token. -/
def releaseCommand (token : Token) (lock : Option (LockDirectory Process Token)) :
    Option (LockDirectory Process Token) :=
  if readHolderToken lock = some token then none else lock

omit [DecidableEq Token] in
/-- The stale reclaim, and whether it removed the lock. Between its two reads of
the token nothing can happen, so the token is the same. -/
def reclaimCommand (reclaim : FlagLockAgeThreshold) (now : Rat) :
    Option (LockDirectory Process Token) → Option (LockDirectory Process Token) × Bool
  | none => (none, false)
  | some directory =>
      match directory.marker with
      | some marker =>
          if olderThan reclaim now marker.mtime then (none, true) else (some directory, false)
      | none =>
          if olderThan reclaim now directory.mtime then (none, true)
          else (some directory, false)

/-- The processes of one lock: the token each writes, whether it supplied that
token itself, and the common timing. -/
structure MutexLockConfig (Process Token : Type*) where
  token : Process → Token
  supplied : Process → Bool
  timing : MutexLockTiming
  reclaim : FlagLockAgeThreshold
  guard : FlagLockAgeThreshold
  validated : validateMutexLockTiming timing = .ok (reclaim, guard)

/-- Why a lock handle was latched as lost. -/
inductive MutexLockLostReason where
  | error
  | refused
deriving DecidableEq, Repr

/-- The held lock as seen by the critical section. -/
structure MutexLockHandle (Token : Type*) where
  token : Token
  lostReason : Option MutexLockLostReason
deriving DecidableEq, Repr

def MutexLockHandle.isLost {Token : Type*} (handle : MutexLockHandle Token) : Bool :=
  handle.lostReason.isSome

/-- Latch only: the first reason is kept. -/
def MutexLockHandle.markLost {Token : Type*} (handle : MutexLockHandle Token)
    (reason : MutexLockLostReason) : MutexLockHandle Token :=
  { handle with lostReason := handle.lostReason <|> some reason }

/-- Where a process stands between its remote commands. -/
inductive LockPhase where
  | trying
  /-- `mkdir` succeeded -/
  | created
  /-- the marker write failed, `rmdir` is next -/
  | writeFailed
  | written
  /-- the readback failed or was empty, `rm -f` of the marker is next -/
  | readFailed
  /-- `rmdir` is next -/
  | markerRemoved
  | holding
  | finished
deriving DecidableEq, Repr

/-- One call of the lock. `stamp` is when the process last made its directory or
its marker young; the process itself does not know it. -/
structure LockProcess (Token : Type*) where
  phase : LockPhase
  handle : Option (MutexLockHandle Token)
  stamp : Rat
deriving DecidableEq, Repr

structure LockState (Process Token : Type*) where
  clock : Rat
  lock : Option (LockDirectory Process Token)
  processes : Process → LockProcess Token

/-- How a marker write ends. -/
inductive WriteOutcome where
  | done
  /-- failed before the marker was opened -/
  | failed
  /-- failed with a marker that holds no token -/
  | emptied
deriving DecidableEq, Repr

/-- How a refresh ends: answered by the host, or thrown by the transport before
or after the command ran. -/
inductive RefreshOutcome where
  | answered
  | threwBefore
  | threwAfter
deriving DecidableEq, Repr

inductive LockAction (Process : Type*) where
  | tick (elapsed : Rat)
  | mkdir (process : Process)
  | write (process : Process) (outcome : WriteOutcome)
  | removeAfterWrite (process : Process) (effective : Bool)
  | readBack (process : Process) (fails : Bool)
  | removeMarker (process : Process) (effective : Bool)
  | removeDirectory (process : Process) (effective : Bool)
  | refresh (process : Process) (outcome : RefreshOutcome)
  | release (process : Process) (effective : Bool)
  | reclaim (process : Process)
  | crash (process : Process)
deriving DecidableEq, Repr

def LockAction.actor {Process : Type*} : LockAction Process → Option Process
  | .tick _ => none
  | .mkdir process | .write process _ | .removeAfterWrite process _
  | .readBack process _ | .removeMarker process _ | .removeDirectory process _
  | .refresh process _ | .release process _ | .reclaim process | .crash process =>
      some process

variable {Process Token : Type*} [DecidableEq Process]

/-- A step of one process: the lock and its own entry change. -/
def LockState.set (state : LockState Process Token)
    (lock : Option (LockDirectory Process Token)) (process : Process)
    (entry : LockProcess Token) : LockState Process Token :=
  { state with lock, processes := Function.update state.processes process entry }

variable [DecidableEq Token]

/-- What the marker write leaves, and whether it reported success. -/
def writeOutcome (now : Rat) (token : Token)
    (lock : Option (LockDirectory Process Token)) :
    WriteOutcome → Option (LockDirectory Process Token) × Bool
  | .done => (writeHolderMarker now (some token) lock, lock.isSome)
  | .failed => (lock, false)
  | .emptied => (writeHolderMarker now none lock, false)

/-- What the readback makes of a process: a holder, one that has to clean up, or
one that leaves the lock to the holder whose token it read. -/
def readBackResult (config : MutexLockConfig Process Token) (process : Process)
    (entry : LockProcess Token) (read : Option Token) : LockProcess Token :=
  match read with
  | none => { entry with phase := .readFailed }
  | some token =>
      if config.supplied process = true ∧ token ≠ config.token process then
        { entry with phase := .finished }
      else { entry with phase := .holding, handle := some ⟨token, none⟩ }

/-- A refresh by a handle: the lock after it, the handle after it, and whether
the host touched the marker. A lost handle does not contact the host. -/
def refreshResult (config : MutexLockConfig Process Token) (now : Rat)
    (handle : MutexLockHandle Token) (lock : Option (LockDirectory Process Token))
    (outcome : RefreshOutcome) :
    Option (LockDirectory Process Token) × MutexLockHandle Token × Bool :=
  if handle.isLost then (lock, handle, false)
  else
    let guarded := refreshGuard config.guard now handle.token lock
    match outcome with
    | .answered =>
        (guarded.1, if guarded.2 then handle else handle.markLost .refused, guarded.2)
    | .threwBefore => (lock, handle.markLost .error, false)
    | .threwAfter => (guarded.1, handle.markLost .error, guarded.2)

/-- One remote command, or the passing of time; nothing when it is not the
process's turn for it. -/
def step (config : MutexLockConfig Process Token) (state : LockState Process Token) :
    LockAction Process → Option (LockState Process Token)
  | .tick elapsed =>
      if 0 ≤ elapsed then some { state with clock := state.clock + elapsed } else none
  | .mkdir process =>
      let entry := state.processes process
      if entry.phase = .trying then
        let made := makeLockDirectory state.clock process state.lock
        some (state.set made.1 process
          (if made.2 then { entry with phase := .created, stamp := state.clock } else entry))
      else none
  | .write process outcome =>
      let entry := state.processes process
      if entry.phase = .created then
        let wrote := writeOutcome state.clock (config.token process) state.lock outcome
        some (state.set wrote.1 process
          (if wrote.2 then { entry with phase := .written, stamp := state.clock }
          else { entry with phase := .writeFailed }))
      else none
  | .removeAfterWrite process effective =>
      let entry := state.processes process
      if entry.phase = .writeFailed then
        some (state.set (if effective then removeLockDirectory state.lock else state.lock)
          process { entry with phase := .finished })
      else none
  | .readBack process fails =>
      let entry := state.processes process
      if entry.phase = .written then
        let read := if fails then none else readHolderToken state.lock
        some (state.set state.lock process (readBackResult config process entry read))
      else none
  | .removeMarker process effective =>
      let entry := state.processes process
      if entry.phase = .readFailed then
        some (state.set
          (if effective then removeHolderMarker state.clock state.lock else state.lock)
          process { entry with phase := .markerRemoved })
      else none
  | .removeDirectory process effective =>
      let entry := state.processes process
      if entry.phase = .markerRemoved then
        some (state.set (if effective then removeLockDirectory state.lock else state.lock)
          process { entry with phase := .finished })
      else none
  | .refresh process outcome =>
      let entry := state.processes process
      match entry.phase, entry.handle with
      | .holding, some handle =>
          let refreshed := refreshResult config state.clock handle state.lock outcome
          some (state.set refreshed.1 process
            { entry with
              handle := some refreshed.2.1
              stamp := if refreshed.2.2 then state.clock else entry.stamp })
      | _, _ => none
  | .release process effective =>
      let entry := state.processes process
      match entry.phase, entry.handle with
      | .holding, some handle =>
          some (state.set
            (if effective then releaseCommand handle.token state.lock else state.lock)
            process { entry with phase := .finished })
      | _, _ => none
  | .reclaim process =>
      let entry := state.processes process
      if entry.phase = .trying then
        some (state.set (reclaimCommand config.reclaim state.clock state.lock).1 process entry)
      else none
  | .crash process =>
      some (state.set state.lock process
        { state.processes process with phase := .finished })

/-- The transitions of the lock. -/
def next (config : MutexLockConfig Process Token) (state : LockState Process Token)
    (action : LockAction Process) (after : LockState Process Token) : Prop :=
  step config state action = some after

/-- No lock, and every process about to try. -/
def initialLockState : LockState Process Token where
  clock := 0
  lock := none
  processes _ := ⟨.trying, none, 0⟩

/-! ### What a step does -/

/-- The lock and the entry a process's command leaves. -/
inductive ProcessStep (config : MutexLockConfig Process Token)
    (state : LockState Process Token) (process : Process) :
    LockAction Process → Option (LockDirectory Process Token) → LockProcess Token → Prop where
  | mkdir (phase : (state.processes process).phase = .trying) :
      ProcessStep config state process (.mkdir process)
        (makeLockDirectory state.clock process state.lock).1
        (if (makeLockDirectory state.clock process state.lock).2 then
          { state.processes process with phase := .created, stamp := state.clock }
        else state.processes process)
  | write {outcome : WriteOutcome} (phase : (state.processes process).phase = .created) :
      ProcessStep config state process (.write process outcome)
        (writeOutcome state.clock (config.token process) state.lock outcome).1
        (if (writeOutcome state.clock (config.token process) state.lock outcome).2 then
          { state.processes process with phase := .written, stamp := state.clock }
        else { state.processes process with phase := .writeFailed })
  | removeAfterWrite {effective : Bool}
      (phase : (state.processes process).phase = .writeFailed) :
      ProcessStep config state process (.removeAfterWrite process effective)
        (if effective then removeLockDirectory state.lock else state.lock)
        { state.processes process with phase := .finished }
  | readBack {fails : Bool} (phase : (state.processes process).phase = .written) :
      ProcessStep config state process (.readBack process fails) state.lock
        (readBackResult config process (state.processes process)
          (if fails then none else readHolderToken state.lock))
  | removeMarker {effective : Bool} (phase : (state.processes process).phase = .readFailed) :
      ProcessStep config state process (.removeMarker process effective)
        (if effective then removeHolderMarker state.clock state.lock else state.lock)
        { state.processes process with phase := .markerRemoved }
  | removeDirectory {effective : Bool}
      (phase : (state.processes process).phase = .markerRemoved) :
      ProcessStep config state process (.removeDirectory process effective)
        (if effective then removeLockDirectory state.lock else state.lock)
        { state.processes process with phase := .finished }
  | refresh {outcome : RefreshOutcome} {handle : MutexLockHandle Token}
      (phase : (state.processes process).phase = .holding)
      (isHandle : (state.processes process).handle = some handle) :
      ProcessStep config state process (.refresh process outcome)
        (refreshResult config state.clock handle state.lock outcome).1
        { state.processes process with
          handle := some (refreshResult config state.clock handle state.lock outcome).2.1
          stamp := if (refreshResult config state.clock handle state.lock outcome).2.2 then
            state.clock else (state.processes process).stamp }
  | release {effective : Bool} {handle : MutexLockHandle Token}
      (phase : (state.processes process).phase = .holding)
      (isHandle : (state.processes process).handle = some handle) :
      ProcessStep config state process (.release process effective)
        (if effective then releaseCommand handle.token state.lock else state.lock)
        { state.processes process with phase := .finished }
  | reclaim (phase : (state.processes process).phase = .trying) :
      ProcessStep config state process (.reclaim process)
        (reclaimCommand config.reclaim state.clock state.lock).1 (state.processes process)
  | crash : ProcessStep config state process (.crash process) state.lock
        { state.processes process with phase := .finished }

/-- Time passes, or one process takes its step. -/
theorem next_cases {config : MutexLockConfig Process Token}
    {state after : LockState Process Token} {action : LockAction Process}
    (stepped : next config state action after) : (∃ elapsed, action = .tick elapsed ∧ 0 ≤ elapsed ∧
        after = { state with clock := state.clock + elapsed }) ∨
      ∃ process lock entry, action.actor = some process ∧
        after = state.set lock process entry ∧
        ProcessStep config state process action lock entry := by
  rw [next] at stepped
  cases action with
  | tick elapsed =>
    left
    simp only [step] at stepped
    split at stepped
    · next forward => exact ⟨elapsed, rfl, forward, (Option.some.inj stepped).symm⟩
    · cases stepped
  | mkdir process =>
    right
    simp only [step] at stepped
    split at stepped
    · next phase => exact ⟨process, _, _, rfl, (Option.some.inj stepped).symm, .mkdir phase⟩
    · cases stepped
  | write process outcome =>
    right
    simp only [step] at stepped
    split at stepped
    · next phase => exact ⟨process, _, _, rfl, (Option.some.inj stepped).symm, .write phase⟩
    · cases stepped
  | removeAfterWrite process effective =>
    right
    simp only [step] at stepped
    split at stepped
    · next phase =>
        exact ⟨process, _, _, rfl, (Option.some.inj stepped).symm, .removeAfterWrite phase⟩
    · cases stepped
  | readBack process fails =>
    right
    simp only [step] at stepped
    split at stepped
    · next phase =>
        exact ⟨process, _, _, rfl, (Option.some.inj stepped).symm, .readBack phase⟩
    · cases stepped
  | removeMarker process effective =>
    right
    simp only [step] at stepped
    split at stepped
    · next phase =>
        exact ⟨process, _, _, rfl, (Option.some.inj stepped).symm, .removeMarker phase⟩
    · cases stepped
  | removeDirectory process effective =>
    right
    simp only [step] at stepped
    split at stepped
    · next phase =>
        exact ⟨process, _, _, rfl, (Option.some.inj stepped).symm, .removeDirectory phase⟩
    · cases stepped
  | refresh process outcome =>
    right
    simp only [step] at stepped
    split at stepped
    · next phase isHandle =>
        exact ⟨process, _, _, rfl, (Option.some.inj stepped).symm, .refresh phase isHandle⟩
    · cases stepped
  | release process effective =>
    right
    simp only [step] at stepped
    split at stepped
    · next phase isHandle =>
        exact ⟨process, _, _, rfl, (Option.some.inj stepped).symm, .release phase isHandle⟩
    · cases stepped
  | reclaim process =>
    right
    simp only [step] at stepped
    split at stepped
    · next phase =>
        exact ⟨process, _, _, rfl, (Option.some.inj stepped).symm, .reclaim phase⟩
    · cases stepped
  | crash process =>
    right
    exact ⟨process, _, _, rfl, (Option.some.inj stepped).symm, .crash⟩

end Paratix.Lock
