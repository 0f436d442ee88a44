/-
Module: Paratix.Timer.AbsentUndone
Purpose: The apply of `timer.absent`, and when one that fails leaves the timer as it was.
Main exports: applyAbsent, timer_absent_undone_iff
-/
import Paratix.Files.Metadata
import Paratix.Orchestration.Environment

namespace Paratix.Timer

open Foundation Archive Orchestration Files

/-! ### Hosts and steps -/

/-- What stands at the path of a unit; a link shows the content behind it unless it dangles. -/
inductive UnitPath where
  | missing
  | file (content : Text) (mode : FileMode)
  | link (target : Text) (behind : Option Text)
deriving DecidableEq

/-- `[ -e path ]` -/
def UnitPath.exists : UnitPath → Bool
  | missing => false
  | file .. => true
  | link _ behind => behind.isSome

/-- `cat` -/
def UnitPath.read : UnitPath → Option Text
  | missing => none
  | file content _ => some content
  | link _ behind => behind

/-- `stat` does not follow links. -/
def UnitPath.mode : UnitPath → Option FileMode
  | missing => none
  | file _ mode => some mode
  | link .. => some 0x1FF

inductive UnitKind where
  | service
  | timer
deriving DecidableEq

structure TimerHost where
  service : UnitPath
  timer : UnitPath
  enabled : Bool
  active : Bool
deriving DecidableEq

def TimerHost.path (host : TimerHost) : UnitKind → UnitPath
  | .service => host.service
  | .timer => host.timer

def TimerHost.put (host : TimerHost) (path : UnitPath) : UnitKind → TimerHost
  | .service => { host with service := path }
  | .timer => { host with timer := path }

/-- The remote steps. `disable --now` and `rm -f` do their work in parts before they report. -/
inductive AbsentStep where
  | exists (unit : UnitKind)
  | isEnabled
  | isActive
  | disable
  | stop
  | disableReport
  | residualEnabled
  | residualActive
  | existsAgain (unit : UnitKind)
  | read (unit : UnitKind)
  | stat (unit : UnitKind)
  | unlink (unit : UnitKind)
  | removeReport
  | reload
  | write (unit : UnitKind)
  | removeRestored (unit : UnitKind)
  | reloadAgain
  | reactivate
deriving DecidableEq

/-- What does not change: how each step exits, whether a failed `disable --now` names a missing
unit, and whether the connection is one of root. -/
structure AbsentMachine where
  exitCode : AbsentStep → Nat
  saysMissingUnit : Bool
  asRoot : Bool

variable (machine : AbsentMachine)

/-- A step that exits with zero takes effect; another one has none. -/
def AbsentMachine.runs (step : AbsentStep) : Bool := machine.exitCode step = 0

/-! ### Activation -/

/-- The codes up to three are answers. -/
def probeUnit (step : AbsentStep) (state : Bool) : Option Bool :=
  if machine.runs step then some state
  else if machine.exitCode step ≤ 3 then some false
  else none

structure TimerActivationSnapshot where
  active : Bool
  enabled : Bool
deriving DecidableEq

def readTimerActivationSnapshot (host : TimerHost) : Option TimerActivationSnapshot :=
  match probeUnit machine .isEnabled host.enabled with
  | none => none
  | some enabled =>
      match probeUnit machine .isActive host.active with
      | none => none
      | some active => some { active := active, enabled := enabled }

def hasResidualTimerState (host : TimerHost) : Option Bool :=
  match probeUnit machine .residualEnabled host.enabled with
  | none => none
  | some true => some true
  | some false => probeUnit machine .residualActive host.active

/-- `enable --now`, `enable` or `start`; a failure only adds to a message. -/
def restoreTimerActivationForAbsent (snapshot : TimerActivationSnapshot) (host : TimerHost) :
    TimerHost :=
  if machine.runs .reactivate then
    { host with
      enabled := snapshot.enabled || host.enabled
      active := snapshot.active || host.active }
  else host

inductive DisableAbsentFailure where
  | disable
  | probe
deriving DecidableEq

def TimerHost.afterDisable (host : TimerHost) : TimerHost :=
  { host with
    enabled := host.enabled && !machine.runs .disable
    active := host.active && !machine.runs .stop }

def disableTimerForAbsent (host : TimerHost) : Option DisableAbsentFailure :=
  if machine.runs .disable && machine.runs .stop && machine.runs .disableReport then none
  else if machine.saysMissingUnit then
    match hasResidualTimerState machine (host.afterDisable machine) with
    | some false => none
    | _ => some .probe
  else some .disable

/-! ### Unit files -/

def UNIT_FILE_MODE : Text := text "0644"

inductive FileSnapshot where
  | captured (content mode : Text)
  | absent
  | failed
deriving DecidableEq

/-- What `stat` prints, or the default where it fails or prints nothing. -/
def snapshotMode (unit : UnitKind) (path : UnitPath) : Text :=
  let printed :=
    match path.mode with
    | some mode => if machine.runs (.stat unit) then trim (mode.octal ++ ['\n']) else []
    | none => []
  let rawMode := if printed ≠ [] then printed else UNIT_FILE_MODE
  if rawMode.length = 3 then '0' :: rawMode else rawMode

def readFileSnapshot (unit : UnitKind) (path : UnitPath) : FileSnapshot :=
  if !(machine.runs (.existsAgain unit) && path.exists) then .absent
  else
    match path.read with
    | some content =>
        if machine.runs (.read unit) then .captured content (snapshotMode machine unit path)
        else .failed
    | none => .failed

/-- The mode of the new file; without root its owner is set after its mode. -/
def AbsentMachine.written (mode : FileMode) : FileMode :=
  if machine.asRoot then mode else mode.chowned

/-- `ssh.writeFile` throws for an invalid mode and where it would replace a link. -/
def writeFile (unit : UnitKind) (content mode : Text) (path : UnitPath) : Bool × UnitPath :=
  if validateMode mode && machine.runs (.write unit) then
    match path with
    | .link .. => (false, path)
    | _ => (true, .file content (machine.written (FileMode.ofOctal mode)))
  else (false, path)

/-- `[ ! -L path ] && [ -f path ] && rm -f path || [ ! -e path ]` -/
def removeRestored (unit : UnitKind) (path : UnitPath) : Bool × UnitPath :=
  if machine.runs (.removeRestored unit) then
    match path with
    | .file .. => (true, .missing)
    | _ => (!path.exists, path)
  else (false, path)

/-- Whether nothing is thrown, and the path after it. -/
def restoreFileSnapshot (unit : UnitKind) (path : UnitPath) : Option FileSnapshot → Bool × UnitPath
  | none => (true, path)
  | some .failed => (true, path)
  | some (.captured content mode) => writeFile machine unit content mode path
  | some .absent => removeRestored machine unit path

/-- The timer is not restored where the restore of the service throws. -/
def restoreUnitFileSnapshots (service timer : Option FileSnapshot) (host : TimerHost) :
    Bool × TimerHost :=
  let restoredService := restoreFileSnapshot machine .service host.service service
  let after := host.put restoredService.2 .service
  if restoredService.1 then
    let restoredTimer := restoreFileSnapshot machine .timer after.timer timer
    (restoredTimer.1, after.put restoredTimer.2 .timer)
  else (false, after)

/-! ### Removal -/

/-- The rollback after a removal or a reload that failed, which differ in their messages. -/
def rollBackUnitFiles (activation : TimerActivationSnapshot) (service timer : Option FileSnapshot)
    (host : TimerHost) : TimerHost :=
  let restored := restoreUnitFileSnapshots machine service timer host
  if restored.1 && machine.runs .reloadAgain then
    restoreTimerActivationForAbsent machine activation restored.2
  else restored.2

def handleAbsentUnitRemovalFailure := rollBackUnitFiles machine

def restoreUnitFileSnapshotsAfterReloadFailure := rollBackUnitFiles machine

/-- What `rm -f` leaves of a path. -/
def removedPath (unit : UnitKind) (path : UnitPath) : UnitPath :=
  if machine.runs (.unlink unit) then .missing else path

def TimerHost.afterRemove (host : TimerHost) : TimerHost :=
  { host with
    service := removedPath machine .service host.service
    timer := removedPath machine .timer host.timer }

/-- Whether it failed, and the host after it. -/
def removeAbsentUnitFiles (activation : TimerActivationSnapshot) (service timer : Bool)
    (host : TimerHost) : Bool × TimerHost :=
  let serviceSnapshot :=
    if service then some (readFileSnapshot machine .service host.service) else none
  let timerSnapshot := if timer then some (readFileSnapshot machine .timer host.timer) else none
  if serviceSnapshot = some .failed || timerSnapshot = some .failed then
    (true, restoreTimerActivationForAbsent machine activation host)
  else
    let removed := if service || timer then host.afterRemove machine else host
    if (service || timer) && !(machine.runs (.unlink .service) && machine.runs (.unlink .timer) &&
        machine.runs .removeReport) then
      (true, handleAbsentUnitRemovalFailure machine activation serviceSnapshot timerSnapshot
        removed)
    else if machine.runs .reload then (false, removed)
    else
      (true, restoreUnitFileSnapshotsAfterReloadFailure machine activation serviceSnapshot
        timerSnapshot removed)

def AbsentMachine.sees (unit : UnitKind) (host : TimerHost) : Bool :=
  machine.runs (.exists unit) && (host.path unit).exists

def applyAbsent (host : TimerHost) : ModuleStatus × TimerHost :=
  let service := machine.sees .service host
  let timer := machine.sees .timer host
  match readTimerActivationSnapshot machine host with
  | none => (.failed, host)
  | some activation =>
      if !service && !timer && !activation.enabled && !activation.active then (.ok, host)
      else
        let disabled := host.afterDisable machine
        match disableTimerForAbsent machine host with
        | some .probe => (.failed, disabled)
        | some .disable => (.failed, restoreTimerActivationForAbsent machine activation disabled)
        | none =>
            let removal := removeAbsentUnitFiles machine activation service timer disabled
            if removal.1 then
              (.failed, restoreTimerActivationForAbsent machine activation removal.2)
            else (.changed, removal.2)

/-! ### Conditions -/

section Conditions

variable (machine : AbsentMachine) (host : TimerHost)

/-- The steps that only the rollbacks take succeed. -/
def RollbackSucceeds : Prop :=
  ∀ step ∈ [AbsentStep.write .service, .write .timer, .removeRestored .service,
    .removeRestored .timer, .reloadAgain, .reactivate], machine.runs step = true

instance : Decidable (RollbackSucceeds machine) :=
  inferInstanceAs (Decidable (∀ step ∈ _, machine.runs step = true))

/-- The activation probes answer, and there is something to take away. -/
def Applies : Prop :=
  machine.exitCode .isEnabled ≤ 3 ∧ machine.exitCode .isActive ≤ 3 ∧
    (machine.sees .service host ∨ machine.sees .timer host ∨
      machine.runs .isEnabled ∧ host.enabled ∨ machine.runs .isActive ∧ host.active)

def DisableWorks : Prop :=
  machine.runs .disable ∧ machine.runs .stop ∧ machine.runs .disableReport

/-- The failed disable names a missing unit, and the probes behind it agree. -/
def FoundMissing : Prop :=
  machine.saysMissingUnit ∧ hasResidualTimerState machine (host.afterDisable machine) = some false

/-- The failed disable names a missing unit, and the probes behind it do not agree. -/
def Contradicted : Prop :=
  ¬DisableWorks machine ∧ machine.saysMissingUnit ∧ ¬FoundMissing machine host

def Unread (unit : UnitKind) : Prop :=
  machine.sees unit host ∧ machine.runs (.existsAgain unit) ∧ ¬machine.runs (.read unit)

/-- The removal takes the path away, or would. -/
def Unlinks (unit : UnitKind) : Prop :=
  (machine.sees .service host ∨ machine.sees .timer host) ∧ machine.runs (.unlink unit)

def RemovalFails : Prop :=
  ¬machine.runs .reload ∨ (machine.sees .service host ∨ machine.sees .timer host) ∧
    ¬(machine.runs (.unlink .service) ∧ machine.runs (.unlink .timer) ∧ machine.runs .removeReport)

/-- The disable has changed nothing that was on. -/
def ActivationUntouched : Prop :=
  (host.enabled → ¬machine.runs .disable) ∧ (host.active → ¬machine.runs .stop)

/-- What was on has been seen, or is not switched off. -/
def ActivationNoted : Prop :=
  (host.enabled → machine.runs .isEnabled ∨ ¬machine.runs .disable) ∧
    (host.active → machine.runs .isActive ∨ ¬machine.runs .stop)

/-- A link stays only where it is not removed; a file that was seen comes back if it is seen
again, with a mode of three digits that the write keeps or with the default mode. -/
def PathKept (unit : UnitKind) : Prop :=
  match host.path unit with
  | .missing => True
  | .link _ _ => ¬Unlinks machine host unit
  | .file _ mode =>
      if machine.sees unit host then
        machine.runs (.existsAgain unit) ∧
          if machine.runs (.stat unit) then
            if 64 ≤ mode.toNat then machine.written mode = mode else ¬Unlinks machine host unit
          else mode = FileMode.ofOctal UNIT_FILE_MODE
      else ¬Unlinks machine host unit

/-- The write refuses a link, and a mode of less than three digits. -/
def RestoreThrows (unit : UnitKind) : Prop :=
  machine.sees unit host ∧
    match host.path unit with
    | .missing => False
    | .link _ _ => ¬Unlinks machine host unit
    | .file _ mode =>
        machine.runs (.existsAgain unit) ∧ machine.runs (.stat unit) ∧ mode.toNat < 64

/-- The timer is restored only where the restore of the service does not throw. -/
def PathsKept : Prop :=
  PathKept machine host .service ∧
    ((RestoreThrows machine host .service ∧
        (host.timer = .missing ∨ ¬Unlinks machine host .timer)) ∨
      ¬RestoreThrows machine host .service ∧ PathKept machine host .timer)

/-- A failed disable that is taken for one of a missing unit has changed nothing; otherwise the
activation was seen where it is switched off, and the paths are kept once the removal fails. -/
structure TimerUndoable : Prop where
  untouched : Applies machine host → Contradicted machine host → ActivationUntouched machine host
  noted : Applies machine host → ¬Contradicted machine host →
    (¬DisableWorks machine ∧ ¬FoundMissing machine host ∨ Unread machine host .service ∨
      Unread machine host .timer ∨ RemovalFails machine host) → ActivationNoted machine host
  kept : Applies machine host → (DisableWorks machine ∨ FoundMissing machine host) →
    ¬Unread machine host .service → ¬Unread machine host .timer → RemovalFails machine host →
    PathsKept machine host

end Conditions

variable {machine : AbsentMachine} {host : TimerHost}

/-! ### Activation -/

theorem readTimerActivationSnapshot_eq_some_iff {activation : TimerActivationSnapshot} :
    readTimerActivationSnapshot machine host = some activation ↔
      machine.exitCode .isEnabled ≤ 3 ∧ machine.exitCode .isActive ≤ 3 ∧ activation =
        { active := machine.runs .isActive && host.active
          enabled := machine.runs .isEnabled && host.enabled } := by
  have probed : ∀ step state, probeUnit machine step state =
      if machine.exitCode step ≤ 3 then some (machine.runs step && state) else none := by
    intro step state
    unfold probeUnit
    cases works : machine.runs step with
    | true =>
      have zero : machine.exitCode step = 0 := of_decide_eq_true works
      simp [zero]
    | false => simp
  unfold readTimerActivationSnapshot
  rw [probed, probed]
  by_cases enabledAnswers : machine.exitCode .isEnabled ≤ 3
  · by_cases activeAnswers : machine.exitCode .isActive ≤ 3
    · simp [enabledAnswers, activeAnswers, eq_comm]
    · simp [enabledAnswers, activeAnswers]
  · simp [enabledAnswers]

theorem afterDisable_eq_iff :
    host.afterDisable machine = host ↔ ActivationUntouched machine host := by
  obtain ⟨service, timer, enabled, active⟩ := host
  simp [TimerHost.afterDisable, ActivationUntouched, Bool.and_eq_left_iff_imp]

theorem restoreTimerActivation_twice (activation : TimerActivationSnapshot) (after : TimerHost) :
    restoreTimerActivationForAbsent machine activation
        (restoreTimerActivationForAbsent machine activation after) =
      restoreTimerActivationForAbsent machine activation after := by
  unfold restoreTimerActivationForAbsent
  split
  · simp
  · rfl

/-- The activation comes back where it was noted. -/
theorem restoreTimerActivation_eq_iff (succeeds : RollbackSucceeds machine)
    {activation : TimerActivationSnapshot}
    (noted : readTimerActivationSnapshot machine host = some activation)
    (service timer : UnitPath) : restoreTimerActivationForAbsent machine activation
        { host.afterDisable machine with service := service, timer := timer } = host ↔
      ActivationNoted machine host ∧ service = host.service ∧ timer = host.timer := by
  obtain ⟨-, -, rfl⟩ := readTimerActivationSnapshot_eq_some_iff.1 noted
  obtain ⟨_, _, enabled, active⟩ := host
  rw [restoreTimerActivationForAbsent, if_pos (succeeds .reactivate (by simp))]
  cases enabled with
  | true => cases active with
    | true => simp [TimerHost.afterDisable, ActivationNoted, and_comm, and_assoc]
    | false => simp [TimerHost.afterDisable, ActivationNoted, and_comm, and_assoc]
  | false => cases active with
    | true => simp [TimerHost.afterDisable, ActivationNoted, and_comm, and_assoc]
    | false => simp [TimerHost.afterDisable, ActivationNoted]

theorem disableTimerForAbsent_cases : (disableTimerForAbsent machine host = none ∧
        (DisableWorks machine ∨ FoundMissing machine host) ∧ ¬Contradicted machine host) ∨
      (disableTimerForAbsent machine host = some .probe ∧ Contradicted machine host) ∨
      disableTimerForAbsent machine host = some .disable ∧ ¬DisableWorks machine ∧
        ¬FoundMissing machine host ∧ ¬Contradicted machine host := by
  unfold disableTimerForAbsent Contradicted FoundMissing
  by_cases works : DisableWorks machine
  · exact .inl ⟨if_pos (by simpa [DisableWorks, and_assoc] using works), .inl works,
      fun contradicted => contradicted.1 works⟩
  · rw [if_neg (by simpa [DisableWorks, and_assoc] using works)]
    cases machine.saysMissingUnit with
    | false => simp [works]
    | true =>
      rcases residual : hasResidualTimerState machine (host.afterDisable machine) with _ | _ | _
      all_goals simp [works]

/-! ### Paths -/

theorem snapshotMode_eq (unit : UnitKind) {path : UnitPath} {mode : FileMode}
    (isMode : path.mode = some mode) : snapshotMode machine unit path =
      if machine.runs (.stat unit) then
        if mode.octal.length = 3 then '0' :: mode.octal else mode.octal
      else UNIT_FILE_MODE := by
  have printed : trim (mode.octal ++ ['\n']) = mode.octal := trim_octal mode
  have nonempty : mode.octal ≠ [] := Nat.toDigits_ne_nil
  unfold snapshotMode
  rw [isMode]
  cases machine.runs (.stat unit) with
  | true => simp only [if_true, printed, nonempty, ne_eq, not_false_eq_true]
  | false => rfl

/-- A mode of at least three digits is accepted, and is the one that is set. -/
theorem validateMode_padded (mode : FileMode) :
    let padded := if mode.octal.length = 3 then '0' :: mode.octal else mode.octal
    (validateMode padded = true ↔ 64 ≤ mode.toNat) ∧ FileMode.ofOctal padded = mode := by
  have zeroFirst (digits : Text) : FileMode.ofOctal ('0' :: digits) = FileMode.ofOctal digits := rfl
  rw [← validateMode_octal]
  by_cases three : mode.octal.length = 3
  · have isOctal := isOctalDigit_octal mode
    have zero : Files.isOctalDigit '0' = true := by decide
    dsimp only
    rw [if_pos three, zeroFirst, FileMode.ofOctal_octal]
    simp [validateMode, three, isOctal, zero]
  · dsimp only
    rw [if_neg three]
    exact ⟨Iff.rfl, FileMode.ofOctal_octal mode⟩

/-- What the removal knows of a path. -/
def pathSnapshot (machine : AbsentMachine) (host : TimerHost) (unit : UnitKind) :
    Option FileSnapshot :=
  if machine.sees unit host then some (readFileSnapshot machine unit (host.path unit)) else none

/-- The restore of a path, from the snapshot taken before the removal. -/
theorem restoreFileSnapshot_spec (succeeds : RollbackSucceeds machine) (unit : UnitKind)
    (isRead : ¬Unread machine host unit) {path : UnitPath}
    (unlinked : Unlinks machine host unit → path = .missing)
    (stayed : ¬Unlinks machine host unit → path = host.path unit) :
    ((restoreFileSnapshot machine unit path (pathSnapshot machine host unit)).1 = false ↔
        RestoreThrows machine host unit) ∧
      ((restoreFileSnapshot machine unit path (pathSnapshot machine host unit)).2 = host.path unit ↔
        PathKept machine host unit) := by
  have writes : machine.runs (.write unit) = true := by
    cases unit with
    | service => exact succeeds _ (by simp)
    | timer => exact succeeds _ (by simp)
  have removes : machine.runs (.removeRestored unit) = true := by
    cases unit with
    | service => exact succeeds _ (by simp)
    | timer => exact succeeds _ (by simp)
  unfold pathSnapshot RestoreThrows PathKept
  cases seen : machine.sees unit host with
  | false =>
    rcases isPath : host.path unit with _ | ⟨content, mode⟩ | ⟨target, behind⟩
    all_goals by_cases unlinks : Unlinks machine host unit
    all_goals simp [restoreFileSnapshot, unlinks, unlinked, stayed, isPath]
  | true =>
    have there : (host.path unit).exists = true := by
      rw [AbsentMachine.sees, Bool.and_eq_true] at seen
      exact seen.2
    have reads : machine.runs (.existsAgain unit) = true → machine.runs (.read unit) = true := by
      simpa [Unread, seen] using isRead
    rcases isPath : host.path unit with _ | ⟨content, mode⟩ | ⟨target, _ | behind⟩
    · simp [isPath, UnitPath.exists] at there
    · cases again : machine.runs (.existsAgain unit) with
      | false =>
        by_cases unlinks : Unlinks machine host unit
        · simp [restoreFileSnapshot, readFileSnapshot, again, removeRestored, removes,
            unlinked unlinks, UnitPath.exists]
        · simp [restoreFileSnapshot, readFileSnapshot, again, removeRestored, removes,
            stayed unlinks, isPath]
      | true =>
        have notLink : path = .missing ∨ path = .file content mode := by
          by_cases unlinks : Unlinks machine host unit
          · exact .inl (unlinked unlinks)
          · exact .inr ((stayed unlinks).trans isPath)
        have stays : path = .file content mode ↔ ¬Unlinks machine host unit := by
          by_cases unlinks : Unlinks machine host unit
          · simp [unlinked unlinks, unlinks]
          · simp [(stayed unlinks).trans isPath, unlinks]
        have isMode : (UnitPath.file content mode).mode = some mode := rfl
        have written (text : Text) (valid : validateMode text = true) :
            writeFile machine unit content text path =
              (true, .file content (machine.written (FileMode.ofOctal text))) := by
          rcases notLink with isMissing | isFile
          · simp [writeFile, valid, writes, isMissing]
          · simp [writeFile, valid, writes, isFile]
        have refused (text : Text) (invalid : validateMode text = false) :
            writeFile machine unit content text path = (false, path) := by
          simp [writeFile, invalid]
        simp only [readFileSnapshot, again, UnitPath.exists, UnitPath.read, reads again,
          Bool.true_and, Bool.not_true, if_true, Bool.false_eq_true, if_false, restoreFileSnapshot,
          snapshotMode_eq unit isMode, true_and]
        obtain ⟨valid, sets⟩ := validateMode_padded mode
        cases machine.runs (.stat unit) with
        | true =>
          by_cases digits : 64 ≤ mode.toNat
          · simp only [if_true]
            rw [written _ (valid.2 digits), sets]
            simp [digits, Nat.not_lt.2 digits]
          · simp only [if_true]
            rw [refused _ (Bool.eq_false_iff.2 (mt valid.1 digits))]
            simp [digits, Nat.not_le.1 digits, stays]
        | false =>
          have kept : machine.written (FileMode.ofOctal UNIT_FILE_MODE) =
              FileMode.ofOctal UNIT_FILE_MODE := by
            rw [AbsentMachine.written]
            split
            · rfl
            · decide
          simp only [Bool.false_eq_true, if_false]
          rw [written _ (by decide), kept]
          simp [eq_comm]
    · simp [isPath, UnitPath.exists] at there
    · have isMode : (UnitPath.link target (some behind)).mode = some 0x1FF := rfl
      have valid :
          validateMode (snapshotMode machine unit (.link target (some behind))) = true := by
        rw [snapshotMode_eq unit isMode]
        split
        · exact (validateMode_padded 0x1FF).1.2 (by decide)
        · decide
      by_cases unlinks : Unlinks machine host unit
      · cases again : machine.runs (.existsAgain unit) with
        | false => simp [restoreFileSnapshot, readFileSnapshot, again, removeRestored, removes,
            unlinked unlinks, unlinks, UnitPath.exists]
        | true => simp [restoreFileSnapshot, readFileSnapshot, again, reads, UnitPath.exists,
            UnitPath.read, writeFile, valid, writes, unlinked unlinks, unlinks]
      · cases again : machine.runs (.existsAgain unit) with
        | false => simp [restoreFileSnapshot, readFileSnapshot, again, removeRestored, removes,
            stayed unlinks, isPath, unlinks, UnitPath.exists]
        | true => simp [restoreFileSnapshot, readFileSnapshot, again, reads, UnitPath.exists,
            UnitPath.read, writeFile, valid, writes, stayed unlinks, isPath, unlinks]

/-! ### Rollback -/

/-- The disabled host after the attempt to remove its files -/
def removedHost (machine : AbsentMachine) (host : TimerHost) : TimerHost :=
  if machine.sees .service host || machine.sees .timer host then
    (host.afterDisable machine).afterRemove machine
  else host.afterDisable machine

theorem removedHost_path (unit : UnitKind) :
    (Unlinks machine host unit → (removedHost machine host).path unit = .missing) ∧
      (¬Unlinks machine host unit → (removedHost machine host).path unit = host.path unit) := by
  unfold removedHost Unlinks
  cases attempted : machine.sees .service host || machine.sees .timer host with
  | true =>
    have attempts : machine.sees .service host ∨ machine.sees .timer host := by
      simpa using attempted
    cases unlinked : machine.runs (.unlink unit) with
    | true => cases unit with
      | service => simp [TimerHost.path, TimerHost.afterRemove, removedPath, unlinked, attempts]
      | timer => simp [TimerHost.path, TimerHost.afterRemove, removedPath, unlinked, attempts]
    | false => cases unit with
      | service => simp [TimerHost.path, TimerHost.afterRemove, removedPath, unlinked,
          TimerHost.afterDisable]
      | timer => simp [TimerHost.path, TimerHost.afterRemove, removedPath, unlinked,
          TimerHost.afterDisable]
  | false =>
    have noAttempt : ¬(machine.sees .service host ∨ machine.sees .timer host) := by
      simpa using attempted
    cases unit with
    | service => simp [noAttempt, TimerHost.path, TimerHost.afterDisable]
    | timer => simp [noAttempt, TimerHost.path, TimerHost.afterDisable]

theorem removedHost_eq : removedHost machine host = { host.afterDisable machine with
      service := (removedHost machine host).service
      timer := (removedHost machine host).timer } := by
  unfold removedHost
  split
  · rfl
  · rfl

theorem pathSnapshot_failed_iff (unit : UnitKind) :
    pathSnapshot machine host unit = some .failed ↔ Unread machine host unit := by
  unfold pathSnapshot Unread
  cases seen : machine.sees unit host with
  | false => simp
  | true =>
    have there : (host.path unit).exists = true := by
      rw [AbsentMachine.sees, Bool.and_eq_true] at seen
      exact seen.2
    cases again : machine.runs (.existsAgain unit) with
    | false => simp [readFileSnapshot, again]
    | true =>
      rcases isPath : host.path unit with _ | _ | ⟨_, _ | _⟩
      · simp [isPath, UnitPath.exists] at there
      · simp [readFileSnapshot, again, UnitPath.exists, UnitPath.read]
      · simp [isPath, UnitPath.exists] at there
      · simp [readFileSnapshot, again, UnitPath.exists, UnitPath.read]

/-- The rollback and the one behind it leave the host as it was. -/
theorem rollBackUnitFiles_eq_iff (succeeds : RollbackSucceeds machine)
    {activation : TimerActivationSnapshot}
    (noted : readTimerActivationSnapshot machine host = some activation)
    (serviceRead : ¬Unread machine host .service) (timerRead : ¬Unread machine host .timer) :
    restoreTimerActivationForAbsent machine activation
        (rollBackUnitFiles machine activation (pathSnapshot machine host .service)
          (pathSnapshot machine host .timer) (removedHost machine host)) = host ↔
      ActivationNoted machine host ∧ PathsKept machine host := by
  obtain ⟨serviceGone, serviceStayed⟩ := @removedHost_path machine host .service
  obtain ⟨timerGone, timerStayed⟩ := @removedHost_path machine host .timer
  have isRemoved := @removedHost_eq machine host
  simp only [TimerHost.path] at serviceGone serviceStayed timerGone timerStayed
  generalize (removedHost machine host).service = service at *
  generalize (removedHost machine host).timer = timer at *
  obtain ⟨serviceThrows, serviceKept⟩ :=
    restoreFileSnapshot_spec succeeds .service serviceRead serviceGone serviceStayed
  obtain ⟨-, timerKept⟩ := restoreFileSnapshot_spec succeeds .timer timerRead timerGone timerStayed
  have timerLeft : timer = host.timer ↔ host.timer = .missing ∨ ¬Unlinks machine host .timer := by
    by_cases unlinks : Unlinks machine host .timer
    · simp [timerGone unlinks, unlinks, eq_comm]
    · simp [timerStayed unlinks, unlinks]
  -- The activation is restored once more in any case.
  have again (worked : Bool) (after : TimerHost) :
      restoreTimerActivationForAbsent machine activation
      (if worked && machine.runs .reloadAgain then
        restoreTimerActivationForAbsent machine activation after else after) =
      restoreTimerActivationForAbsent machine activation after := by
    split
    · exact restoreTimerActivation_twice activation after
    · rfl
  rw [isRemoved, rollBackUnitFiles]
  dsimp only
  rw [again, restoreUnitFileSnapshots, PathsKept, ← serviceKept, ← timerKept, ← timerLeft,
    ← serviceThrows]
  dsimp only
  cases threw : (restoreFileSnapshot machine .service service
      (pathSnapshot machine host .service)).1 with
  | true =>
    rw [if_pos rfl]
    refine (restoreTimerActivation_eq_iff succeeds noted _ _).trans ?_
    simp [TimerHost.path, TimerHost.put]
  | false =>
    rw [if_neg Bool.false_ne_true]
    refine (restoreTimerActivation_eq_iff succeeds noted _ _).trans ?_
    simp [TimerHost.path]

theorem removeAbsentUnitFiles_spec (succeeds : RollbackSucceeds machine)
    {activation : TimerActivationSnapshot}
    (noted : readTimerActivationSnapshot machine host = some activation) :
    let removal := removeAbsentUnitFiles machine activation (machine.sees .service host)
      (machine.sees .timer host) (host.afterDisable machine)
    (removal.1 = true ↔ Unread machine host .service ∨ Unread machine host .timer ∨
        RemovalFails machine host) ∧
      (removal.1 = true → (restoreTimerActivationForAbsent machine activation removal.2 = host ↔
        ActivationNoted machine host ∧
          (¬Unread machine host .service → ¬Unread machine host .timer →
            PathsKept machine host))) := by
  have isRemoval : removeAbsentUnitFiles machine activation (machine.sees .service host)
      (machine.sees .timer host) (host.afterDisable machine) =
      if pathSnapshot machine host .service = some .failed ||
          pathSnapshot machine host .timer = some .failed then
        (true, restoreTimerActivationForAbsent machine activation (host.afterDisable machine))
      else if (machine.sees .service host || machine.sees .timer host) &&
          !(machine.runs (.unlink .service) && machine.runs (.unlink .timer) &&
            machine.runs .removeReport) then
        (true, rollBackUnitFiles machine activation (pathSnapshot machine host .service)
          (pathSnapshot machine host .timer) (removedHost machine host))
      else if machine.runs .reload then (false, removedHost machine host)
      else
        (true, rollBackUnitFiles machine activation (pathSnapshot machine host .service)
          (pathSnapshot machine host .timer) (removedHost machine host)) := rfl
  have serviceFailed := @pathSnapshot_failed_iff machine host .service
  have timerFailed := @pathSnapshot_failed_iff machine host .timer
  dsimp only
  rw [isRemoval]
  by_cases unread : Unread machine host .service ∨ Unread machine host .timer
  · rw [if_pos (by simpa [serviceFailed, timerFailed] using unread)]
    refine ⟨iff_of_true rfl (or_assoc.1 (.inl unread)), fun _ => ?_⟩
    rw [restoreTimerActivation_twice]
    refine (restoreTimerActivation_eq_iff succeeds noted host.service host.timer).trans ?_
    tauto
  · obtain ⟨serviceRead, timerRead⟩ := not_or.1 unread
    rw [if_neg (by simpa [serviceFailed, timerFailed] using unread)]
    have rolledBack := rollBackUnitFiles_eq_iff succeeds noted serviceRead timerRead
    have ends (removal : Bool × TimerHost) (isRemoval : removal =
        (true, rollBackUnitFiles machine activation (pathSnapshot machine host .service)
          (pathSnapshot machine host .timer) (removedHost machine host)))
        (fails : RemovalFails machine host) :
        (removal.1 = true ↔ Unread machine host .service ∨ Unread machine host .timer ∨
            RemovalFails machine host) ∧
          (removal.1 = true → (restoreTimerActivationForAbsent machine activation removal.2 = host ↔
            ActivationNoted machine host ∧
              (¬Unread machine host .service → ¬Unread machine host .timer →
                PathsKept machine host))) := by
      subst isRemoval
      exact ⟨iff_of_true rfl (.inr (.inr fails)), fun _ => rolledBack.trans (by tauto)⟩
    split
    · next removeFails =>
      rw [Bool.and_eq_true, Bool.or_eq_true, Bool.not_eq_true', ← Bool.not_eq_true,
        Bool.and_eq_true, Bool.and_eq_true, and_assoc] at removeFails
      exact ends _ rfl (.inr removeFails)
    · next removed =>
      split
      · next reloads =>
        refine ⟨iff_of_false nofun ?_, nofun⟩
        simp only [serviceRead, timerRead, RemovalFails, reloads, not_true_eq_false, false_or]
        simpa [and_assoc] using removed
      · next notReloaded => exact ends _ rfl (.inl notReloaded)

/-- An apply that returns failed leaves the timer as it was exactly where it is undoable: the
rollback writes through what `[ -e path ]` and `stat` say, which does not bring back links. -/
theorem timer_absent_undone_iff (machine : AbsentMachine) (host : TimerHost)
    (succeeds : RollbackSucceeds machine) :
    ((applyAbsent machine host).1 = .failed → (applyAbsent machine host).2 = host) ↔
      TimerUndoable machine host := by
  unfold applyAbsent
  cases noted : readTimerActivationSnapshot machine host with
  | none =>
    have notApplied : ¬Applies machine host := by
      intro applies
      have isSome :=
        (@readTimerActivationSnapshot_eq_some_iff machine host _).2 ⟨applies.1, applies.2.1, rfl⟩
      rw [noted] at isSome
      cases isSome
    exact iff_of_true (fun _ => rfl) ⟨fun applies => absurd applies notApplied,
      fun applies => absurd applies notApplied, fun applies => absurd applies notApplied⟩
  | some activation =>
    obtain ⟨enabledAnswers, activeAnswers, isActivation⟩ :=
      readTimerActivationSnapshot_eq_some_iff.1 noted
    have applies : Applies machine host ↔ ¬(!machine.sees .service host &&
        !machine.sees .timer host && !activation.enabled && !activation.active) = true := by
      have flags : ∀ service timer probed enabled again active : Bool,
          (service ∨ timer ∨ probed ∧ enabled ∨ again ∧ active) ↔
            ¬(!service && !timer && !(probed && enabled) && !(again && active)) = true := by decide
      subst isActivation
      rw [← flags, Applies]
      simp only [enabledAnswers, activeAnswers, true_and]
    dsimp only
    split
    · next nothing =>
      have notApplied : ¬Applies machine host := fun isApplied => applies.1 isApplied nothing
      exact iff_of_true nofun ⟨fun applies => absurd applies notApplied,
        fun applies => absurd applies notApplied, fun applies => absurd applies notApplied⟩
    · next something =>
      have isApplied := applies.2 something
      rcases @disableTimerForAbsent_cases machine host with ⟨disabled, proceeds, agreed⟩ |
        ⟨disabled, contradicted⟩ | ⟨disabled, broken, present, agreed⟩
      · rw [disabled]
        dsimp only
        obtain ⟨failsIff, restored⟩ := removeAbsentUnitFiles_spec succeeds noted
        split
        · next failed =>
          have fails := failsIff.1 failed
          simp only [forall_const]
          rw [restored failed]
          constructor
          · rintro ⟨isNoted, kept⟩
            exact ⟨fun _ contradicted => absurd contradicted agreed, fun _ _ _ => isNoted,
              fun _ _ serviceRead timerRead _ => kept serviceRead timerRead⟩
          · intro undoable
            refine ⟨undoable.noted isApplied agreed (.inr fails), fun serviceRead timerRead => ?_⟩
            have removal := (fails.resolve_left serviceRead).resolve_left timerRead
            exact undoable.kept isApplied proceeds serviceRead timerRead removal
        · next succeeded =>
          have nothingFails := mt failsIff.2 succeeded
          refine iff_of_true nofun ⟨fun _ contradicted => absurd contradicted agreed, ?_, ?_⟩
          · rintro - - (⟨notWorks, notMissing⟩ | fails)
            · exact absurd proceeds (not_or.2 ⟨notWorks, notMissing⟩)
            · exact absurd fails nothingFails
          · exact fun _ _ _ _ removal => absurd (.inr (.inr removal)) nothingFails
      · rw [disabled]
        simp only [forall_const]
        rw [afterDisable_eq_iff]
        have stopped : ¬(DisableWorks machine ∨ FoundMissing machine host) :=
          not_or.2 ⟨contradicted.1, contradicted.2.2⟩
        exact ⟨fun untouched => ⟨fun _ _ => untouched, fun _ agreed => absurd contradicted agreed,
          fun _ proceeds => absurd proceeds stopped⟩,
          fun undoable => undoable.untouched isApplied contradicted⟩
      · rw [disabled]
        simp only [forall_const]
        refine (restoreTimerActivation_eq_iff succeeds noted host.service host.timer).trans ?_
        simp only [and_true]
        have stopped : ¬(DisableWorks machine ∨ FoundMissing machine host) :=
          not_or.2 ⟨broken, present⟩
        exact ⟨fun isNoted => ⟨fun _ contradicted => absurd contradicted agreed,
          fun _ _ _ => isNoted, fun _ proceeds => absurd proceeds stopped⟩,
          fun undoable => undoable.noted isApplied agreed (.inl ⟨broken, present⟩)⟩

/-- Every step takes effect but this one. -/
def failing (step : AbsentStep) : AbsentMachine where
  exitCode other := if other = step then 1 else 0
  saysMissingUnit := false
  asRoot := true

def runningTimer (service : UnitPath) : TimerHost where
  service := service
  timer := .file (text "[Timer]") 0x1A4
  enabled := true
  active := true

theorem refused_removal_undone :
    (applyAbsent (failing (.unlink .timer)) (runningTimer (.file (text "[Service]") 0x180))).1 =
        .failed ∧
      TimerUndoable (failing (.unlink .timer)) (runningTimer (.file (text "[Service]") 0x180)) :=
  ⟨by decide +kernel, (timer_absent_undone_iff (failing (.unlink .timer))
    (runningTimer (.file (text "[Service]") 0x180)) (by decide)).1 fun _ => by decide +kernel⟩

/-- A link comes back as a regular file with the mode of the link. -/
theorem failed_reload_replaces_link : ¬∀ (machine : AbsentMachine) (host : TimerHost),
    RollbackSucceeds machine → (applyAbsent machine host).1 = .failed →
      (applyAbsent machine host).2 = host := by
  intro undone
  have same := undone (failing .reload)
    (runningTimer (.link (text "/opt/job.service") (some (text "[Service]")))) (by decide)
    (by decide +kernel)
  exact absurd same (by decide +kernel)

end Paratix.Timer
