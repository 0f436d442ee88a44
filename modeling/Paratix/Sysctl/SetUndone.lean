/-
Module: Paratix.Sysctl.SetUndone
Purpose: The apply of `sysctl.set`, and when one that fails leaves the live value and the
  persistence file as they were.
Main exports: SysctlHost, sysctl_undone_iff
-/
import Paratix.Archive.Member
import Paratix.Foundation.Remote
import Paratix.Foundation.Words
import Paratix.Orchestration.Environment

namespace Paratix.Sysctl

open Foundation Archive Orchestration

/-! ### Settings -/

/-- `\w` of an expression that ignores case by Unicode folding: the long s and the Kelvin sign
fold to letters. -/
def isFoldedWordCharacter (char : Char) : Bool :=
  char.isAlphanum || char = '_' || char.toNat = 0x17F || char.toNat = 0x212A

/-- `SYSCTL_KEY_PATTERN` -/
def isSysctlKey : Text → Bool
  | [] => false
  | first :: rest =>
      isFoldedWordCharacter first &&
        rest.all fun char => isFoldedWordCharacter char || char = '.' || char = '-'

/-- Neither a newline nor a carriage return -/
def isSysctlValue (value : Text) : Bool := value.all fun char => char ≠ '\n' && char ≠ '\r'

inductive SysctlState where
  | present
  | absent
deriving DecidableEq

structure SysctlSetOptions where
  resetValue : Option Text := none
  state : SysctlState := .present

/-- The arguments of `set` once they are validated. -/
structure SysctlSetting where
  key : Text
  value : Text
  state : SysctlState
  resetValue : Option Text
  validKey : isSysctlKey key = true
  validValue : isSysctlValue value = true
  validReset : resetValue.all isSysctlValue = true

/-- `none` where an argument is refused. -/
def sysctlSet (key value : Text) (options : SysctlSetOptions) : Option SysctlSetting :=
  if validKey : isSysctlKey key = true then
    if validValue : isSysctlValue value = true then
      if validReset : options.resetValue.all isSysctlValue = true then
        some
          { key := key
            value := value
            state := options.state
            resetValue := options.resetValue
            validKey := validKey
            validValue := validValue
            validReset := validReset }
      else none
    else none
  else none

def buildSysctlConfig (key value : Text) : Text := key ++ text " = " ++ value ++ ['\n']

/-! ### Hosts and steps -/

/-- The value that the kernel prints for the key, and the content of the persistence file. -/
structure SysctlHost where
  live : Text
  file : Option Text
deriving DecidableEq

/-- The remote steps. Each is taken at most once. -/
inductive SysctlStep where
  | readLive
  | writeLive
  | persist
  | rollbackLive
  | probeSymlink
  | testFile
  | readFile
  | removeFile
  | resetLive
  | verifyLive
  | probeSymlinkAgain
  | restoreFile
deriving DecidableEq

/-- Messages are left out. -/
abbrev SysctlRemote (α : Type) := Remote SysctlStep SysctlHost Unit α

def SysctlHost.persist (content : Text) (host : SysctlHost) : SysctlHost :=
  { host with file := some content }

def SysctlHost.removeFile (host : SysctlHost) : SysctlHost := { host with file := none }

/-- `sysctl -n`, trimmed; `none` where it fails. -/
def sysctlN (step : SysctlStep) : SysctlRemote (Option Text) :=
  Remote.query step fun host => some (trim (host.live ++ ['\n']))

section Kernel

/- What the kernel makes of a value that is written. -/
variable (stored : Text → Text)

/-- `sysctl -w` -/
def SysctlHost.write (value : Text) (host : SysctlHost) : SysctlHost :=
  { host with live := stored value }

/-! ### Present -/

/-- Whether the rollback succeeded; its message goes into that of the failure. -/
def rollbackLiveValue (previousValue : Text) : SysctlRemote Bool :=
  Remote.step .rollbackLive (SysctlHost.write stored previousValue)

def applyPresentState (value expectedContent : Text) : SysctlRemote ModuleStatus := do
  match ← sysctlN .readLive with
  | none => pure .failed
  | some previousValue => do
      if !(← Remote.step .writeLive (SysctlHost.write stored value)) then pure .failed
      else
        match ← (Remote.require () .persist (SysctlHost.persist expectedContent)).attempt with
        | .ok _ => pure .changed
        | .error _ => do
            let _ ← rollbackLiveValue stored previousValue
            pure .failed

/-! ### Absent -/

/-- Whether the live value was reset and reads back as written. -/
def resetLiveValue (resetValue : Text) : SysctlRemote Bool := do
  if !(← Remote.step .resetLive (SysctlHost.write stored resetValue)) then pure false
  else
    match ← sysctlN .verifyLive with
    | none => pure false
    | some live => pure (decide (live = resetValue))

inductive PersistenceFileSnapshot where
  | captured (content : Text)
  | failed
  | missing
deriving DecidableEq

/-- The snapshot of a path that is no symbolic link -/
def captureRegularFile : SysctlRemote PersistenceFileSnapshot := do
  if !(← Remote.tests .testFile fun host => host.file.isSome) then pure .missing
  else
    match ← (Remote.read () .readFile SysctlHost.file).attempt with
    | .ok (some content) => pure (.captured content)
    | .ok none => pure .failed
    | .error _ => pure .failed

/-- The persistence path is never a symbolic link here, but the probe may fail. -/
def snapshotPersistenceFile : SysctlRemote PersistenceFileSnapshot := do
  if ← Remote.tests .probeSymlink fun _ => false then pure .failed
  else captureRegularFile

def restorePersistenceFile : PersistenceFileSnapshot → SysctlRemote Unit
  | .missing => pure ()
  | .failed => pure ()
  | .captured content => do
      if ← Remote.tests .probeSymlinkAgain fun _ => false then pure ()
      else
        let _ ← (Remote.require () .restoreFile (SysctlHost.persist content)).attempt
        pure ()

/-- The reset, and the restored file where it fails -/
def resetOrRestore (resetValue : Text) (snapshot : PersistenceFileSnapshot) :
    SysctlRemote ModuleStatus := do
  if ← resetLiveValue stored resetValue then pure .changed
  else
    restorePersistenceFile snapshot
    pure .failed

def applyAbsentState (resetValue : Option Text) : SysctlRemote ModuleStatus := do
  let snapshot ← snapshotPersistenceFile
  if snapshot = .failed then pure .failed
  else if !(← Remote.step .removeFile SysctlHost.removeFile) then pure .failed
  else
    match resetValue with
    | none => pure .changed
    | some value => resetOrRestore stored value snapshot

def SysctlSetting.apply (setting : SysctlSetting) : SysctlRemote ModuleStatus :=
  match setting.state with
  | .present =>
      applyPresentState stored setting.value (buildSysctlConfig setting.key setting.value)
  | .absent => applyAbsentState stored setting.resetValue

end Kernel

abbrev SysctlCommands := Commands SysctlStep Unit

/-- The steps that only the rollbacks take succeed. -/
def RollbackSucceeds (commands : SysctlCommands) : Prop :=
  ∀ key ∈ [SysctlStep.rollbackLive, .probeSymlinkAgain, .restoreFile],
    commands key = .takesEffect

instance (commands : SysctlCommands) : Decidable (RollbackSucceeds commands) :=
  inferInstanceAs (Decidable (∀ key ∈ [SysctlStep.rollbackLive, .probeSymlinkAgain, .restoreFile],
    commands key = .takesEffect))

section Kernel

variable (stored : Text → Text) (commands : SysctlCommands) (host : SysctlHost)

/-- If the apply returns failed, live value and persistence file are as they were. -/
def Undone (setting : SysctlSetting) : Prop :=
  let ending := (setting.apply stored).run commands.script host
  ending.result = .ok .failed → ending.world = host

/-! ### Stages -/

/-- The live value is written and the persistence file is not. -/
def PersistFails : Prop :=
  commands .readLive = .takesEffect ∧ commands .writeLive = .takesEffect ∧
    commands .persist ≠ .takesEffect

/-- The snapshot is certain: the probes answer, and a file that is found is read. -/
def SnapshotTaken : Prop :=
  (commands .probeSymlink).Returns ∧ (commands .testFile).Returns ∧
    (commands .testFile = .takesEffect → host.file.isSome = true →
      commands .readFile = .takesEffect)

/-- The snapshot is taken and the persistence file is removed. -/
def FileRemoved : Prop := SnapshotTaken commands host ∧ commands .removeFile = .takesEffect

/-- The live value is not written, cannot be read back or reads back in another form. -/
def ResetFails (resetValue : Text) : Prop :=
  commands .resetLive = .fails ∨
    commands .resetLive = .takesEffect ∧ (commands .verifyLive = .fails ∨
      commands .verifyLive = .takesEffect ∧ trim (stored resetValue ++ ['\n']) ≠ resetValue)

/-- Where the persistence file cannot be written, the kernel takes back the value it printed;
where a reset fails after the file was removed, the file was seen before and the value was not
written, or the kernel makes of it what it had before. -/
structure SysctlUndoable (setting : SysctlSetting) : Prop where
  rolledBack : setting.state = .present → PersistFails commands →
    stored (trim (host.live ++ ['\n'])) = host.live
  restored : setting.state = .absent → FileRemoved commands host →
    ∀ resetValue ∈ setting.resetValue, ResetFails stored commands resetValue →
      host.file.isSome = true → commands .testFile = .takesEffect
  unchanged : setting.state = .absent → FileRemoved commands host →
    ∀ resetValue ∈ setting.resetValue, ResetFails stored commands resetValue →
      commands .resetLive = .takesEffect → stored resetValue = host.live

end Kernel

variable {stored : Text → Text} {commands : SysctlCommands} {host : SysctlHost}

/-! ### Present -/

theorem write_eq_iff {value : Text} : host.write stored value = host ↔ stored value = host.live := by
  cases host
  simp [SysctlHost.write]

/-- The value read before is written again; whatever was written between is gone. -/
theorem applyPresentState_spec (succeeds : RollbackSucceeds commands) (value content : Text) :
    Ends commands (applyPresentState stored value content) (fun result after =>
      (result = .ok .failed → after = host) ↔
        (PersistFails commands → stored (trim (host.live ++ ['\n'])) = host.live)) host := by
  have rollback : commands .rollbackLive = .takesEffect := succeeds _ (by simp)
  have twice : ∀ next, ((host.write stored value).write stored next) = host.write stored next :=
    fun _ => rfl
  unfold applyPresentState sysctlN
  rw [ends_query]
  cases read : commands .readLive with
  | takesEffect =>
    rw [CommandOutcome.after_takesEffect, ends_step]
    cases written : commands .writeLive with
    | takesEffect =>
      rw [CommandOutcome.after_takesEffect, Bool.not_true, if_neg Bool.false_ne_true,
        ends_attempt_require]
      have rolled : commands .persist ≠ .takesEffect →
          Ends commands (do
            let _ ← rollbackLiveValue stored (trim (host.live ++ ['\n']))
            pure ModuleStatus.failed) (fun result after =>
              (result = .ok .failed → after = host) ↔
                (PersistFails commands → stored (trim (host.live ++ ['\n'])) = host.live))
            (host.write stored value) := by
        intro fails
        rw [rollbackLiveValue, ends_step, rollback, CommandOutcome.after_takesEffect, ends_pure,
          twice, write_eq_iff]
        simp [PersistFails, read, written, fails]
      cases persisted : commands .persist with
      | takesEffect =>
        rw [CommandOutcome.after_takesEffect, ends_pure]
        simp [PersistFails, persisted]
      | fails => exact rolled (by simp [persisted])
      | throws error => exact rolled (by simp [persisted])
    | fails =>
      rw [CommandOutcome.after_fails, Bool.not_false, if_pos rfl, ends_pure]
      simp [PersistFails, written]
    | throws error => simp [PersistFails, written]
  | fails =>
    rw [CommandOutcome.after_fails, ends_pure]
    simp [PersistFails, read]
  | throws error => simp [PersistFails, read]

/-! ### Absent -/

/-- The reset changes the live value where its write takes effect, whatever is read back. -/
theorem resetLiveValue_spec (value : Text) :
    Ends commands (resetLiveValue stored value) (fun result after =>
      after = (if commands .resetLive = .takesEffect then host.write stored value else host) ∧
        (result = .ok true ∧ ¬ResetFails stored commands value ∨
          result = .ok false ∧ ResetFails stored commands value ∨
          (∃ error, result = .error (.raised error)) ∧ ¬ResetFails stored commands value)) host := by
  unfold resetLiveValue sysctlN
  rw [ends_step]
  cases reset : commands .resetLive with
  | takesEffect =>
    rw [CommandOutcome.after_takesEffect, Bool.not_true, if_neg Bool.false_ne_true, ends_query]
    cases verify : commands .verifyLive with
    | takesEffect =>
      rw [CommandOutcome.after_takesEffect, ends_pure]
      by_cases same : trim (stored value ++ ['\n']) = value
      · simp [SysctlHost.write, ResetFails, reset, verify, same]
      · simp [SysctlHost.write, ResetFails, reset, verify, same]
    | fails =>
      rw [CommandOutcome.after_fails, ends_pure]
      simp [ResetFails, reset, verify]
    | throws error => simp [ResetFails, reset, verify]
  | fails =>
    rw [CommandOutcome.after_fails, Bool.not_false, if_pos rfl, ends_pure]
    simp [ResetFails, reset]
  | throws error => simp [ResetFails, reset]

/-- What a certain snapshot holds -/
def SnapshotOf (commands : SysctlCommands) (host : SysctlHost) :
    PersistenceFileSnapshot → Prop
  | .captured content => commands .testFile = .takesEffect ∧ host.file = some content
  | .missing => commands .testFile = .takesEffect → host.file = none
  | .failed => False

/-- What a snapshot ends with -/
def Snapshots (commands : SysctlCommands) (host : SysctlHost)
    (result : Except (Exit Unit) PersistenceFileSnapshot) (after : SysctlHost) : Prop :=
  after = host ∧
    ((∃ snapshot, result = .ok snapshot ∧ SnapshotOf commands host snapshot ∧
        SnapshotTaken commands host) ∨
      result = .ok .failed ∧ ¬SnapshotTaken commands host ∨
      (∃ error, result = .error (.raised error)) ∧ ¬SnapshotTaken commands host)

theorem captureRegularFile_spec (probed : (commands .probeSymlink).Returns) :
    Ends commands captureRegularFile (Snapshots commands host) host := by
  unfold captureRegularFile
  rw [ends_tests]
  cases test : commands .testFile with
  | takesEffect =>
    rw [CommandOutcome.after_takesEffect]
    cases file : host.file with
    | none =>
      rw [if_pos (by rfl), ends_pure]
      exact ⟨rfl, .inl ⟨.missing, rfl, fun _ => file, probed, by simp [test], by simp [file]⟩⟩
    | some content =>
      have unread : commands .readFile ≠ .takesEffect → ¬SnapshotTaken commands host :=
        fun fails taken => fails (taken.2.2 test (by simp [file]))
      rw [if_neg (by simp), ends_attempt_read]
      cases read : commands .readFile with
      | takesEffect =>
        rw [CommandOutcome.after_takesEffect, file, ends_pure]
        exact ⟨rfl, .inl ⟨.captured content, rfl, ⟨test, file⟩, probed, by simp [test],
          fun _ _ => read⟩⟩
      | fails =>
        rw [CommandOutcome.after_fails, ends_pure]
        exact ⟨rfl, .inr (.inl ⟨rfl, unread (by simp [read])⟩)⟩
      | throws error =>
        rw [CommandOutcome.after_throws, ends_pure]
        exact ⟨rfl, .inr (.inl ⟨rfl, unread (by simp [read])⟩)⟩
  | fails =>
    rw [CommandOutcome.after_fails, Bool.not_false, if_pos rfl, ends_pure]
    exact ⟨rfl, .inl ⟨.missing, rfl, by simp [SnapshotOf, test], probed, by simp [test],
      by simp [test]⟩⟩
  | throws error => simp [Snapshots, SnapshotTaken, test]

theorem snapshotPersistenceFile_spec :
    Ends commands snapshotPersistenceFile (Snapshots commands host) host := by
  unfold snapshotPersistenceFile
  rw [ends_tests]
  cases probe : commands .probeSymlink with
  | takesEffect => exact captureRegularFile_spec (by simp [probe])
  | fails => exact captureRegularFile_spec (by simp [probe])
  | throws error => simp [Snapshots, SnapshotTaken, probe]

/-- The host after the file was restored from a certain snapshot -/
theorem restorePersistenceFile_spec (succeeds : RollbackSucceeds commands)
    {snapshot : PersistenceFileSnapshot} (live : Text) (isOf : SnapshotOf commands host snapshot) :
    Ends commands (restorePersistenceFile snapshot) (fun result after => result = .ok () ∧
      after = { live := live
                file := if commands .testFile = .takesEffect then host.file else none })
      { live := live, file := none } := by
  have probe : commands .probeSymlinkAgain = .takesEffect := succeeds _ (by simp)
  have restore : commands .restoreFile = .takesEffect := succeeds _ (by simp)
  unfold restorePersistenceFile
  cases snapshot with
  | captured content =>
    obtain ⟨test, file⟩ := isOf
    dsimp only
    rw [ends_tests, probe, CommandOutcome.after_takesEffect, if_neg Bool.false_ne_true,
      ends_attempt_require, restore, CommandOutcome.after_takesEffect, ends_pure, if_pos test, file]
    exact ⟨rfl, rfl⟩
  | missing =>
    rw [ends_pure]
    refine ⟨rfl, ?_⟩
    split
    · next test => rw [isOf test]
    · rfl
  | failed => exact isOf.elim

/-- A failed reset is undone if the file was found and the live value is what it was. -/
theorem resetOrRestore_spec (succeeds : RollbackSucceeds commands)
    {snapshot : PersistenceFileSnapshot} (value : Text) (isOf : SnapshotOf commands host snapshot) :
    Ends commands (resetOrRestore stored value snapshot) (fun result after =>
      (result = .ok .failed → after = host) ↔ (ResetFails stored commands value →
        (host.file.isSome = true → commands .testFile = .takesEffect) ∧
          (commands .resetLive = .takesEffect → stored value = host.live))) host.removeFile := by
  unfold resetOrRestore
  rw [ends_bind]
  refine (resetLiveValue_spec value).mono fun result after holds => ?_
  obtain ⟨rfl, ⟨rfl, reset⟩ | ⟨rfl, fails⟩ | ⟨⟨error, rfl⟩, returned⟩⟩ := holds
  · rw [Remote.onValue_ok, if_pos rfl, ends_pure]
    simp [reset]
  · rw [Remote.onValue_ok, if_neg Bool.false_ne_true, ends_bind]
    have isHost : (if commands .resetLive = .takesEffect then host.removeFile.write stored value
        else host.removeFile) =
          { live := if commands .resetLive = .takesEffect then stored value else host.live
            file := none } := by
      split
      · rfl
      · rfl
    rw [isHost]
    refine (restorePersistenceFile_spec succeeds _ isOf).mono fun result after holds => ?_
    obtain ⟨rfl, rfl⟩ := holds
    rw [Remote.onValue_ok, ends_pure]
    obtain ⟨live, _ | content⟩ := host
    · by_cases reset : commands .resetLive = .takesEffect
      · simp [fails, reset]
      · simp [fails, reset]
    · by_cases reset : commands .resetLive = .takesEffect
      · simp [fails, reset, and_comm]
      · simp [fails, reset]
  · simp [returned]

theorem applyAbsentState_spec (succeeds : RollbackSucceeds commands) (resetValue : Option Text) :
    Ends commands (applyAbsentState stored resetValue) (fun result after =>
      (result = .ok .failed → after = host) ↔ (FileRemoved commands host →
        ∀ value ∈ resetValue, ResetFails stored commands value →
          (host.file.isSome = true → commands .testFile = .takesEffect) ∧
            (commands .resetLive = .takesEffect → stored value = host.live))) host := by
  unfold applyAbsentState
  rw [ends_bind]
  refine snapshotPersistenceFile_spec.mono fun result after holds => ?_
  obtain ⟨rfl, ⟨snapshot, rfl, isOf, taken⟩ | ⟨rfl, uncertain⟩ | ⟨⟨error, rfl⟩, uncertain⟩⟩ := holds
  · have certain : snapshot ≠ .failed := by
      rintro rfl
      exact isOf
    rw [Remote.onValue_ok, if_neg certain, ends_step]
    cases removed : commands .removeFile with
    | takesEffect =>
      rw [CommandOutcome.after_takesEffect, Bool.not_true, if_neg Bool.false_ne_true]
      cases resetValue with
      | none =>
        rw [ends_pure]
        simp
      | some value =>
        refine (resetOrRestore_spec succeeds value isOf).mono fun result after holds => ?_
        rw [holds]
        simp [FileRemoved, taken, removed]
    | fails =>
      rw [CommandOutcome.after_fails, Bool.not_false, if_pos rfl, ends_pure]
      simp [FileRemoved, removed]
    | throws error => simp [FileRemoved, removed]
  · rw [Remote.onValue_ok, if_pos rfl, ends_pure]
    simp [FileRemoved, uncertain]
  · simp [FileRemoved, uncertain]

/-! ### Main result -/

/-- With rollback steps that succeed, a failed apply is undone exactly where the kernel takes
back what it printed, and a failed reset has changed nothing that the restored file does not
undo. -/
theorem sysctl_undone_iff (setting : SysctlSetting) (succeeds : RollbackSucceeds commands) :
    Undone stored commands host setting ↔ SysctlUndoable stored commands host setting := by
  have undone : Undone stored commands host setting ↔
      Ends commands (setting.apply stored)
        (fun result after => result = .ok .failed → after = host) host := by
    rw [ends_iff]
    rfl
  rw [undone, SysctlSetting.apply]
  cases state : setting.state with
  | present =>
    have spec := ends_iff.1 (@applyPresentState_spec stored commands host succeeds
      setting.value (buildSysctlConfig setting.key setting.value))
    dsimp only
    rw [ends_iff, spec]
    constructor
    · intro rolledBack
      exact ⟨fun _ => rolledBack, by simp [state], by simp [state]⟩
    · intro undoable
      exact undoable.rolledBack state
  | absent =>
    have spec := ends_iff.1 (@applyAbsentState_spec stored commands host succeeds
      setting.resetValue)
    dsimp only
    rw [ends_iff, spec]
    constructor
    · intro undone
      refine ⟨by simp [state], fun _ removed value isValue fails => ?_,
        fun _ removed value isValue fails => ?_⟩
      · exact (undone removed value isValue fails).1
      · exact (undone removed value isValue fails).2
    · intro undoable removed value isValue fails
      exact ⟨undoable.restored state removed value isValue fails,
        undoable.unchanged state removed value isValue fails⟩

/-! ### Runs -/

/-- A kernel that prints the hexadecimal number in decimal. -/
def storesDecimal (value : Text) : Text := if value = text "0x10" then text "16" else value

def swappinessHost : SysctlHost :=
  { live := text "60", file := some (text "vm.swappiness = 10\n") }

def swappinessAbsent : SysctlSetting where
  key := text "vm.swappiness"
  value := text "10"
  state := .absent
  resetValue := some (text "0x10")
  validKey := by decide
  validValue := by decide
  validReset := by decide

def swappinessPresent : SysctlSetting :=
  { swappinessAbsent with state := .present, resetValue := none, validReset := rfl }

def persistFails (key : SysctlStep) : CommandOutcome Unit :=
  if key = .persist then .throws () else .takesEffect

/-- The persistence file cannot be written, and the value is written back. -/
theorem failed_persist_undone :
    Undone storesDecimal persistFails swappinessHost swappinessPresent := by
  apply (sysctl_undone_iff swappinessPresent (by decide)).2
  constructor
  · exact fun _ _ => by decide
  · intro isAbsent
    cases isAbsent
  · intro isAbsent
    cases isAbsent

/-- All steps take effect, the reset reads back in another form, and the value stays reset. -/
theorem unconverged_reset_stays : RollbackSucceeds (fun _ => .takesEffect) ∧
    ¬Undone storesDecimal (fun _ => .takesEffect) swappinessHost swappinessAbsent := by
  refine ⟨by decide, fun undone => ?_⟩
  have same := undone (by decide)
  exact absurd same (by decide)

end Paratix.Sysctl
