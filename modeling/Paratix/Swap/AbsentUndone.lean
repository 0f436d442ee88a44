/-
Module: Paratix.Swap.AbsentUndone
Purpose: The apply of `swap.file` with the state absent, and when one that fails leaves the host as
  it was.
Main exports: applyAbsentSwapFile, swap_undone_iff
-/
import Mathlib.Data.Finset.Basic
import Paratix.Archive.Member
import Paratix.Foundation.Remote
import Paratix.Foundation.Words
import Paratix.Orchestration.Environment

namespace Paratix.Swap

open Foundation Archive Orchestration

/-! ### Hosts and steps -/

/-- What stands at a path; hard links to one swap file share its number. -/
inductive PathEntry where
  | symlink
  | notRegular
  | otherFile
  | swapFile (inode : Nat)
deriving DecidableEq

/-- The host, with the swap file and its hardlink backup at their paths. -/
structure SwapHost where
  active : Finset Text
  file : Option PathEntry
  backup : Option PathEntry
  fstab : Text
deriving DecidableEq

/-- The remote steps. Each is taken at most once; releasing the lock cannot fail the apply and
is left out. -/
inductive SwapStep where
  | testSymlink
  | testExists
  | testRegular
  | testSignature
  | probeActive
  | swapoff
  | safeParent
  | removeLeftover
  | link
  | testExistsAgain
  | remove
  | acquireLock
  | readFstab
  | readFstabAgain
  | writeFstab
  | reactivate
  | restore
  | probeActiveAgain
  | swapon
  | cleanup
deriving DecidableEq

inductive SwapError where
  | remote
  | concurrentModification
deriving DecidableEq

abbrev SwapRemote (α : Type) := Remote SwapStep SwapHost SwapError α

/-- `ssh.test`: only an exit code of zero says yes. -/
def tests (key : SwapStep) (view : SwapHost → Bool) : SwapRemote Bool := do
  let answer ← Remote.query key fun host => if view host then some () else none
  pure answer.isSome

def SwapHost.deactivate (path : Text) (host : SwapHost) : SwapHost :=
  { host with active := host.active.erase path }

def SwapHost.activate (path : Text) (host : SwapHost) : SwapHost :=
  { host with active := insert path host.active }

def SwapHost.linkBackup (host : SwapHost) : SwapHost := { host with backup := host.file }

def SwapHost.removeBackup (host : SwapHost) : SwapHost := { host with backup := none }

def SwapHost.removeFile (host : SwapHost) : SwapHost := { host with file := none }

/-- `mv -T backup path` -/
def SwapHost.moveBackup (host : SwapHost) : SwapHost :=
  { host with file := host.backup, backup := none }

/-! ### Probes -/

inductive SwapFilePathClassification where
  | unsafePath (reason : Text)
  | missing
  | managedSwapFile
deriving DecidableEq

def classifySwapFilePath : SwapRemote SwapFilePathClassification := do
  if ← tests .testSymlink fun host => host.file = some .symlink then
    pure (.unsafePath (text "existing path is a symbolic link"))
  else if !(← tests .testExists fun host => host.file.isSome) then pure .missing
  else if !(← tests .testRegular fun host =>
      host.file ≠ some .notRegular ∧ host.file.isSome) then
    pure (.unsafePath (text "existing path is not a regular file"))
  else if !(← tests .testSignature fun host =>
      match host.file with
      | some (.swapFile _) => true
      | _ => false) then
    pure (.unsafePath (text "existing regular file is not a swap file"))
  else pure .managedSwapFile

inductive SafeRemoval where
  | missing
  | ok
deriving DecidableEq

/-- `none` where the removal is refused. -/
def ensureSafeSwapRemoval : SwapRemote (Option SafeRemoval) := do
  match ← classifySwapFilePath with
  | .missing => pure (some .missing)
  | .managedSwapFile => pure (some .ok)
  | .unsafePath _ => pure none

/-- `none` where the probe fails. -/
def isSwapActive (key : SwapStep) (path : Text) : SwapRemote (Option Bool) :=
  Remote.query key fun host => some (decide (path ∈ host.active))

/-! ### Swap areas -/

/-- Whether swap was switched off; `none` where a command fails. -/
def disableSwap (path : Text) : SwapRemote (Option Bool) := do
  match ← isSwapActive .probeActive path with
  | none => pure none
  | some active =>
      if !active then pure (some false)
      else if ← Remote.step .swapoff (SwapHost.deactivate path) then pure (some true)
      else pure none

def enableSwap (path : Text) : SwapRemote (Option Bool) := do
  match ← isSwapActive .probeActiveAgain path with
  | none => pure none
  | some active =>
      if active then pure (some false)
      else if ← Remote.step .swapon (SwapHost.activate path) then pure (some true)
      else pure none

def reactivateSwap (path : Text) : SwapRemote Bool :=
  Remote.step .reactivate (SwapHost.activate path)

/-- The result is a failure in any case; its messages are left out here and below. -/
def handleAbsentSwapRemovalFailure (disabledSwap : Bool) (path : Text) : SwapRemote Unit := do
  if disabledSwap then
    let _ ← reactivateSwap path

/-! ### The fstab entry -/

def isFstabEntryOf (path line : Text) : Bool :=
  let trimmed := trim line
  if trimmed = [] ∨ trimmed.head? = some '#' then false
  else (splitSpaces trimmed).head? = some path

def findFstabEntry (fstabContent path : Text) : Option Text :=
  ((fstabContent.splitOn '\n').find? (isFstabEntryOf path)).map trim

def removeFstabEntry (fstabContent path : Text) : Text :=
  ['\n'].intercalate ((fstabContent.splitOn '\n').filter fun line => !isFstabEntryOf path line) ++
    ['\n']

def guardedWriteFstab (originalContent newContent : Text) : SwapRemote Unit := do
  let currentContent ← Remote.read .remote .readFstabAgain SwapHost.fstab
  if currentContent ≠ originalContent then Remote.throw .concurrentModification
  else Remote.require .remote .writeFstab fun host => { host with fstab := newContent }

/-- Under the lock: whether the entry was removed -/
def removeEntry (path : Text) : SwapRemote Bool := do
  let fstabContent ← Remote.read .remote .readFstab SwapHost.fstab
  match findFstabEntry fstabContent path with
  | none => pure false
  | some _ => do
      guardedWriteFstab fstabContent (removeFstabEntry fstabContent path)
      pure true

/-- `desiredLine: null`; what the section throws becomes a failed result. -/
def ensureSwapFstabState (path : Text) : SwapRemote (Option Bool) := do
  if ← Remote.step .acquireLock id then
    match ← (removeEntry path).attempt with
    | .ok changed => pure (some changed)
    | .error _ => pure none
  else pure none

/-! ### Removal -/

/-- Whether the file was removed; `none` where the removal fails. -/
def removeSwapFile : SwapRemote (Option Bool) := do
  if !(← tests .testExistsAgain fun host => host.file.isSome) then pure (some false)
  else if ← Remote.step .remove SwapHost.removeFile then pure (some true)
  else pure none

def snapshotSwapFileForAbsentFlow : SwapRemote Bool := do
  if !(← Remote.step .removeLeftover SwapHost.removeBackup) then pure false
  else Remote.step .link SwapHost.linkBackup

def restoreSwapBackup : SwapRemote Bool := Remote.step .restore SwapHost.moveBackup

inductive AbsentRemovalOutcome where
  | proceed (snapshotCreated swapChangedDelta : Bool)
  | done (result : ModuleStatus)
deriving DecidableEq

def performAbsentSwapRemoval (disableResult : Bool) (path : Text) :
    SafeRemoval → SwapRemote AbsentRemovalOutcome
  | .missing => pure (.proceed false false)
  | .ok => do
      if !(← Remote.step .safeParent id) then
        handleAbsentSwapRemovalFailure disableResult path
        pure (.done .failed)
      else if !(← snapshotSwapFileForAbsentFlow) then
        handleAbsentSwapRemovalFailure disableResult path
        pure (.done .failed)
      else
        match ← removeSwapFile with
        | none => do
            handleAbsentSwapRemovalFailure disableResult path
            pure (.done .failed)
        | some removeResult => pure (.proceed true removeResult)

/-- Whether the snapshot was consumed; the result is a failure in any case. -/
def rollbackAbsentSwapAfterFstabFailure (disabledSwap : Bool) (path : Text) :
    SwapRemote Bool := do
  if !(← restoreSwapBackup) then pure false
  else
    if disabledSwap then
      let _ ← enableSwap path
    pure true

inductive AbsentFstabOutcome where
  | pruned (changed : Bool)
  | failed (snapshotConsumed : Bool)
deriving DecidableEq

def pruneSwapFstabAndRollbackOnFailure (disableResult snapshotCreated : Bool) (path : Text) :
    SwapRemote AbsentFstabOutcome := do
  match ← ensureSwapFstabState path with
  | some changed => pure (.pruned changed)
  | none =>
      if !snapshotCreated then pure (.failed true)
      else do
        let snapshotConsumed ← rollbackAbsentSwapAfterFstabFailure disableResult path
        pure (.failed snapshotConsumed)

structure AbsentSwapInnerOutcome where
  result : ModuleStatus
  snapshotConsumed : Bool
  snapshotCreated : Bool
deriving DecidableEq

def runAbsentSwapRemovalAndFstabUpdate (disableResult : Bool) (path : Text)
    (safeRemoval : SafeRemoval) : SwapRemote AbsentSwapInnerOutcome := do
  match ← performAbsentSwapRemoval disableResult path safeRemoval with
  | .done result =>
      pure { result := result, snapshotConsumed := true, snapshotCreated := false }
  | .proceed snapshotCreated swapChangedDelta => do
      match ← pruneSwapFstabAndRollbackOnFailure disableResult snapshotCreated path with
      | .failed snapshotConsumed =>
          pure
            { result := .failed
              snapshotConsumed := snapshotConsumed
              snapshotCreated := snapshotCreated }
      | .pruned changed =>
          let swapChanged := disableResult || swapChangedDelta || changed
          pure
            { result := if swapChanged then .changed else .ok
              snapshotConsumed := true
              snapshotCreated := snapshotCreated }

def cleanupAbsentSwapSnapshot : SwapRemote Unit := do
  let _ ← Remote.step .cleanup SwapHost.removeBackup

/-- The inner stage, then the `finally`: where the stage throws, the flags still say that there
is nothing to clean up. -/
def runAndCleanUp (disableResult : Bool) (path : Text) (safeRemoval : SafeRemoval) :
    SwapRemote ModuleStatus := do
  match ← (runAbsentSwapRemovalAndFstabUpdate disableResult path safeRemoval).attempt with
  | .error error => Remote.throw error
  | .ok outcome => do
      if outcome.snapshotCreated && outcome.snapshotConsumed then cleanupAbsentSwapSnapshot
      pure outcome.result

def applyAbsentSwapFile (path : Text) : SwapRemote ModuleStatus := do
  match ← ensureSafeSwapRemoval with
  | none => pure .failed
  | some safeRemoval => do
      match ← disableSwap path with
      | none => pure .failed
      | some disableResult => runAndCleanUp disableResult path safeRemoval

/-! ### Outcomes of commands -/

/-- A command that fails or throws has no effect. -/
inductive CommandOutcome where
  | takesEffect
  | fails
  | throws
deriving DecidableEq

def CommandOutcome.outcome : CommandOutcome → StepOutcome SwapError
  | takesEffect => .completed
  | fails => .refused false
  | throws => .threw false .remote

/-- The second command is only reached where the first one takes effect. -/
def CommandOutcome.andThen : CommandOutcome → CommandOutcome → CommandOutcome
  | takesEffect, second => second
  | fails, _ => fails
  | throws, _ => throws

abbrev Commands := SwapStep → CommandOutcome

def Commands.script (commands : Commands) (key : SwapStep) : StepOutcome SwapError :=
  (commands key).outcome

/-- The steps that only the rollbacks take succeed. -/
def RollbackSucceeds (commands : Commands) : Prop :=
  ∀ key ∈ [SwapStep.reactivate, .restore, .probeActiveAgain, .swapon],
    commands key = .takesEffect

instance (commands : Commands) : Decidable (RollbackSucceeds commands) :=
  inferInstanceAs (Decidable (∀ key ∈ [SwapStep.reactivate, .restore, .probeActiveAgain, .swapon],
    commands key = .takesEffect))

/-- The apply returns failed or throws. -/
def Fails (result : Except (Exit SwapError) ModuleStatus) : Prop :=
  result = .ok .failed ∨ ∃ error, result = .error (.raised error)

/-- If the apply fails, the host is as it was. -/
def Undone (path : Text) (commands : Commands) (host : SwapHost) : Prop :=
  let ending := (applyAbsentSwapFile path).run commands.script host
  Fails ending.result → ending.world = host

/-! ### Stages -/

section Stages

variable (path : Text) (commands : Commands) (host : SwapHost)

def YesTo (key : SwapStep) (fact : Prop) : Prop := commands key = .takesEffect ∧ fact

def NoTo (key : SwapStep) (fact : Prop) : Prop :=
  commands key = .fails ∨ commands key = .takesEffect ∧ ¬fact

/-- The probes find no file. -/
def FoundMissing : Prop :=
  NoTo commands .testSymlink (host.file = some .symlink) ∧
    NoTo commands .testExists (host.file.isSome = true)

/-- The probes find a swap file. -/
def FoundManaged : Prop :=
  NoTo commands .testSymlink (host.file = some .symlink) ∧
    YesTo commands .testExists (host.file.isSome = true) ∧
    YesTo commands .testRegular (host.file ≠ some .notRegular ∧ host.file.isSome = true) ∧
    YesTo commands .testSignature (∃ inode, host.file = some (.swapFile inode))

/-- The swap area was active and is switched off. -/
def SwitchedOff : Prop :=
  path ∈ host.active ∧ commands .probeActive = .takesEffect ∧ commands .swapoff = .takesEffect

/-- No active swap area is left at the path. -/
def Inactive : Prop :=
  commands .probeActive = .takesEffect ∧
    (path ∈ host.active → commands .swapoff = .takesEffect)

/-- What becomes of the checks and commands up to the hardlink backup. -/
def preparing : CommandOutcome :=
  (commands .safeParent).andThen ((commands .removeLeftover).andThen (commands .link))

/-- What becomes of the removal of a file that is there. -/
def removing : CommandOutcome :=
  match commands .testExistsAgain with
  | .takesEffect => commands .remove
  | .fails => .takesEffect
  | .throws => .throws

/-- What becomes of the removal of the fstab entry: what is thrown under the lock fails. -/
def pruning : CommandOutcome :=
  (commands .acquireLock).andThen
    (if commands .readFstab = .takesEffect ∧
        (findFstabEntry host.fstab path = none ∨
          commands .readFstabAgain = .takesEffect ∧ commands .writeFstab = .takesEffect) then
      .takesEffect
    else .fails)

end Stages

/-- Where no file was found, an area that was switched off needs the fstab update to succeed;
where there was one, nothing throws after the area was switched off, the file is removed once
the backup is there, the lock is not lost and the backup is cleaned up. -/
structure SwapUndoable (path : Text) (commands : Commands) (host : SwapHost) : Prop where
  missing : FoundMissing commands host → SwitchedOff path commands host →
    pruning path commands host = .takesEffect
  prepared : FoundManaged commands host → SwitchedOff path commands host →
    preparing commands ≠ .throws
  removed : FoundManaged commands host → Inactive path commands host →
    preparing commands = .takesEffect → removing commands = .takesEffect
  locked : FoundManaged commands host → Inactive path commands host →
    preparing commands = .takesEffect → pruning path commands host ≠ .throws
  cleaned : FoundManaged commands host → Inactive path commands host →
    preparing commands = .takesEffect → pruning path commands host = .takesEffect →
    commands .cleanup ≠ .throws

variable {path : Text} {commands : Commands} {host : SwapHost}

/-- What holds of the result and of the host that a program leaves. -/
abbrev Ends {α : Type} (commands : Commands) (program : SwapRemote α)
    (post : Except (Exit SwapError) α → SwapHost → Prop) (host : SwapHost) : Prop :=
  Remote.Leads commands.script (fun _ => True) program post host

/-! ### Execution of a command -/

section Execution

variable {α β : Type} {post : Except (Exit SwapError) β → SwapHost → Prop} {key : SwapStep}

theorem ends_pure {value : β} : Ends commands (pure value) post host ↔ post (.ok value) host :=
  Remote.leads_pure

theorem ends_bind {first : SwapRemote α} {next : α → SwapRemote β} :
    Ends commands (first >>= next) post host ↔
      Ends commands first
        (Remote.onValue (fun value middle => Ends commands (next value) post middle)
          fun exit middle => post (.error exit) middle) host :=
  Remote.leads_bind

/-- A command whose exit code is looked at, and what follows -/
theorem ends_step {change : SwapHost → SwapHost} {next : Bool → SwapRemote β} :
    Ends commands (Remote.step key change >>= next) post host ↔
      match commands key with
      | .takesEffect => Ends commands (next true) post (change host)
      | .fails => Ends commands (next false) post host
      | .throws => post (.error (.raised .remote)) host := by
  rw [Ends, Remote.leads_bind, Remote.leads_step, Commands.script]
  cases outcome : commands key with
  | takesEffect => simp [CommandOutcome.outcome]
  | fails => simp [CommandOutcome.outcome]
  | throws => simp [CommandOutcome.outcome]

theorem ends_query {view : SwapHost → Option α} {next : Option α → SwapRemote β} :
    Ends commands (Remote.query key view >>= next) post host ↔
      match commands key with
      | .takesEffect => Ends commands (next (view host)) post host
      | .fails => Ends commands (next none) post host
      | .throws => post (.error (.raised .remote)) host := by
  rw [Ends, Remote.leads_bind, Remote.leads_query, Commands.script]
  cases outcome : commands key with
  | takesEffect => simp [CommandOutcome.outcome, Except.map]
  | fails => simp [CommandOutcome.outcome, Except.map]
  | throws => simp [CommandOutcome.outcome, Except.map]

theorem ends_tests {view : SwapHost → Bool} {next : Bool → SwapRemote β} :
    Ends commands (tests key view >>= next) post host ↔
      match commands key with
      | .takesEffect => Ends commands (next (view host)) post host
      | .fails => Ends commands (next false) post host
      | .throws => post (.error (.raised .remote)) host := by
  rw [tests, ends_bind, ends_query]
  cases outcome : commands key with
  | takesEffect => cases viewed : view host with
    | true => simp
    | false => simp
  | fails => simp
  | throws => simp

theorem ends_read {view : SwapHost → α} {next : α → SwapRemote β} :
    Ends commands (Remote.read .remote key view >>= next) post host ↔
      match commands key with
      | .takesEffect => Ends commands (next (view host)) post host
      | .fails => post (.error (.raised .remote)) host
      | .throws => post (.error (.raised .remote)) host := by
  rw [Ends, Remote.leads_bind, Remote.leads_read, Commands.script]
  cases outcome : commands key with
  | takesEffect => simp [CommandOutcome.outcome, Except.map]
  | fails => simp [CommandOutcome.outcome, Except.map]
  | throws => simp [CommandOutcome.outcome, Except.map]

theorem ends_require {change : SwapHost → SwapHost} {next : Unit → SwapRemote β} :
    Ends commands (Remote.require .remote key change >>= next) post host ↔
      match commands key with
      | .takesEffect => Ends commands (next ()) post (change host)
      | .fails => post (.error (.raised .remote)) host
      | .throws => post (.error (.raised .remote)) host := by
  rw [Ends, Remote.leads_bind, Remote.leads_require, Commands.script]
  cases outcome : commands key with
  | takesEffect => simp [CommandOutcome.outcome]
  | fails => simp [CommandOutcome.outcome]
  | throws => simp [CommandOutcome.outcome]

end Execution

/-! ### Probes -/

theorem YesTo.not_noTo {key : SwapStep} {fact : Prop} (yes : YesTo commands key fact) :
    ¬NoTo commands key fact := by
  rintro (fails | ⟨_, no⟩)
  · rw [yes.1] at fails
    cases fails
  · exact no yes.2

theorem not_of_throws {key : SwapStep} (throws : commands key = .throws) (fact : Prop) :
    ¬YesTo commands key fact ∧ ¬NoTo commands key fact := by
  simp [YesTo, NoTo, throws]

/-- A test says yes, says no or throws. -/
theorem ends_tests_cases {β : Type} {post : Except (Exit SwapError) β → SwapHost → Prop}
    {key : SwapStep} {view : SwapHost → Bool} {next : Bool → SwapRemote β} (fact : Prop)
    (isFact : view host = true ↔ fact)
    (onYes : YesTo commands key fact → Ends commands (next true) post host)
    (onNo : NoTo commands key fact → Ends commands (next false) post host)
    (onThrow : commands key = .throws → post (.error (.raised .remote)) host) :
    Ends commands (tests key view >>= next) post host := by
  rw [ends_tests]
  cases outcome : commands key with
  | takesEffect =>
    cases viewed : view host with
    | true => exact onYes ⟨outcome, isFact.1 viewed⟩
    | false =>
      have isNo : ¬fact := fun holds => by simp [isFact.2 holds] at viewed
      exact onNo (.inr ⟨outcome, isNo⟩)
  | fails => exact onNo (.inl outcome)
  | throws => exact onThrow outcome

/-- What a classification says, without a change of the host. -/
def Classifies (commands : Commands) (host : SwapHost) (result : Except (Exit SwapError)
    SwapFilePathClassification) (after : SwapHost) : Prop :=
  after = host ∧
    (result = .ok .missing ∧ FoundMissing commands host ∨
      result = .ok .managedSwapFile ∧ FoundManaged commands host ∨
      ((∃ reason, result = .ok (.unsafePath reason)) ∨ ∃ error, result = .error (.raised error)) ∧
        ¬FoundMissing commands host ∧ ¬FoundManaged commands host)

theorem classifySwapFilePath_spec :
    Ends commands classifySwapFilePath (Classifies commands host) host := by
  have refused : ∀ {reason : Text}, ¬FoundMissing commands host → ¬FoundManaged commands host →
      Ends commands (pure (.unsafePath reason)) (Classifies commands host) host :=
    fun missing managed =>
      Remote.leads_pure.2 ⟨rfl, .inr (.inr ⟨.inl ⟨_, rfl⟩, missing, managed⟩)⟩
  have thrown : ¬FoundMissing commands host → ¬FoundManaged commands host →
      Classifies commands host (.error (.raised .remote)) host :=
    fun missing managed => ⟨rfl, .inr (.inr ⟨.inr ⟨_, rfl⟩, missing, managed⟩)⟩
  unfold classifySwapFilePath
  refine ends_tests_cases (host.file = some .symlink) decide_eq_true_iff ?_ ?_ ?_
  · intro isSymlink
    exact refused (fun missing => isSymlink.not_noTo missing.1)
      fun managed => isSymlink.not_noTo managed.1
  · intro noSymlink
    refine ends_tests_cases (host.file.isSome = true) Iff.rfl ?_ ?_ ?_
    · intro exists_
      have notMissing : ¬FoundMissing commands host := fun missing => exists_.not_noTo missing.2
      refine ends_tests_cases (host.file ≠ some .notRegular ∧ host.file.isSome = true)
        decide_eq_true_iff ?_ ?_ ?_
      · intro regular
        refine ends_tests_cases (∃ inode, host.file = some (.swapFile inode)) ?_ ?_ ?_ ?_
        · rcases host.file with _ | _ | _ | _ | inode
          all_goals simp
        · intro signature
          exact Remote.leads_pure.2 ⟨rfl, .inr (.inl ⟨rfl, noSymlink, exists_, regular, signature⟩)⟩
        · intro noSignature
          exact refused notMissing fun managed => managed.2.2.2.not_noTo noSignature
        · intro throws
          exact thrown notMissing fun managed => (not_of_throws throws _).1 managed.2.2.2
      · intro notRegular
        exact refused notMissing fun managed => managed.2.2.1.not_noTo notRegular
      · intro throws
        exact thrown notMissing fun managed => (not_of_throws throws _).1 managed.2.2.1
    · intro isMissing
      exact Remote.leads_pure.2 ⟨rfl, .inl ⟨rfl, noSymlink, isMissing⟩⟩
    · intro throws
      exact thrown (fun missing => (not_of_throws throws _).2 missing.2)
        fun managed => (not_of_throws throws _).1 managed.2.1
  · intro throws
    exact thrown (fun missing => (not_of_throws throws _).2 missing.1)
      fun managed => (not_of_throws throws _).2 managed.1

/-- The host with the swap area switched off, where it is active. -/
theorem disableSwap_spec : Ends commands (disableSwap path) (fun result after =>
      result = .ok (some true) ∧ SwitchedOff path commands host ∧
          Inactive path commands host ∧ after = host.deactivate path ∨
        result = .ok (some false) ∧ path ∉ host.active ∧ Inactive path commands host ∧
          after = host ∨
        (result = .ok none ∨ ∃ error, result = .error (.raised error)) ∧
          ¬Inactive path commands host ∧ after = host) host := by
  unfold disableSwap isSwapActive
  rw [ends_query]
  have refused : ∀ {other : CommandOutcome}, commands .probeActive = other →
      other ≠ .takesEffect → ¬Inactive path commands host :=
    fun probe notTaken inactive => notTaken (probe.symm.trans inactive.1)
  cases probe : commands .probeActive with
  | takesEffect =>
    dsimp only
    by_cases active : path ∈ host.active
    · have unfinished : ∀ {other : CommandOutcome}, commands .swapoff = other →
          other ≠ .takesEffect → ¬Inactive path commands host :=
        fun off notTaken inactive => notTaken (off.symm.trans (inactive.2 active))
      rw [decide_eq_true active, Bool.not_true, if_neg Bool.false_ne_true, ends_step]
      cases off : commands .swapoff with
      | takesEffect =>
        exact Remote.leads_pure.2 (.inl ⟨rfl, ⟨active, probe, off⟩, ⟨probe, fun _ => off⟩, rfl⟩)
      | fails => exact Remote.leads_pure.2 (.inr (.inr ⟨.inl rfl, unfinished off nofun, rfl⟩))
      | throws => exact .inr (.inr ⟨.inr ⟨_, rfl⟩, unfinished off nofun, rfl⟩)
    · rw [decide_eq_false active, Bool.not_false, if_pos rfl]
      exact Remote.leads_pure.2 (.inr (.inl ⟨rfl, active, ⟨probe, fun isActive =>
        absurd isActive active⟩, rfl⟩))
  | fails => exact Remote.leads_pure.2 (.inr (.inr ⟨.inl rfl, refused probe nofun, rfl⟩))
  | throws => exact .inr (.inr ⟨.inr ⟨_, rfl⟩, refused probe nofun, rfl⟩)

/-! ### Rollbacks -/

/-- The host with the swap area active again, if it was switched off. -/
def SwapHost.reactivated (disabled : Bool) (path : Text) (host : SwapHost) : SwapHost :=
  if disabled then host.activate path else host

theorem handleFailure_spec (succeeds : RollbackSucceeds commands) (disabled : Bool) {β : Type}
    {post : Except (Exit SwapError) β → SwapHost → Prop} {next : Unit → SwapRemote β} :
    Ends commands (handleAbsentSwapRemovalFailure disabled path >>= next) post host ↔
      Ends commands (next ()) post (host.reactivated disabled path) := by
  unfold handleAbsentSwapRemovalFailure reactivateSwap SwapHost.reactivated
  cases disabled with
  | true =>
    rw [if_pos rfl, if_pos rfl, ends_bind, ends_step, succeeds _ (by simp)]
    simp
  | false => simp

/-- Whatever the host is, the backup comes back and swap is switched on again. -/
theorem rollback_spec (succeeds : RollbackSucceeds commands) (disabled : Bool)
    (inactive : disabled = true → path ∉ host.active) {β : Type}
    {post : Except (Exit SwapError) β → SwapHost → Prop} {next : Bool → SwapRemote β} :
    Ends commands (rollbackAbsentSwapAfterFstabFailure disabled path >>= next) post host ↔
      Ends commands (next true) post (host.moveBackup.reactivated disabled path) := by
  unfold rollbackAbsentSwapAfterFstabFailure restoreSwapBackup enableSwap isSwapActive
    SwapHost.reactivated
  rw [ends_bind, ends_step, succeeds .restore (by simp)]
  cases disabled with
  | true =>
    have notActive : path ∉ host.moveBackup.active := inactive rfl
    simp only [Bool.not_true, Bool.false_eq_true, if_false, if_true]
    rw [ends_bind, ends_query, succeeds .probeActiveAgain (by simp)]
    dsimp only
    rw [decide_eq_false notActive, if_neg Bool.false_ne_true, ends_step, succeeds .swapon (by simp)]
    simp
  | false => simp

/-! ### The fstab entry -/

theorem removeEntry_spec : Ends commands (removeEntry path) (fun result after =>
      if commands .readFstab = .takesEffect ∧
          (findFstabEntry host.fstab path = none ∨
            commands .readFstabAgain = .takesEffect ∧ commands .writeFstab = .takesEffect) then
        (∃ changed, result = .ok changed) ∧ after.backup = host.backup
      else (∃ error, result = .error (.raised error)) ∧ after = host) host := by
  unfold removeEntry
  rw [ends_read]
  cases first : commands .readFstab with
  | takesEffect =>
    dsimp only
    cases entry : findFstabEntry host.fstab path with
    | none => exact ends_pure.2 (by simp)
    | some line =>
      dsimp only [guardedWriteFstab]
      rw [ends_bind, ends_read]
      cases again : commands .readFstabAgain with
      | takesEffect =>
        dsimp only
        rw [if_neg (not_not_intro rfl), ← ends_bind, ends_require]
        cases write : commands .writeFstab with
        | takesEffect => exact ends_pure.2 (by simp)
        | fails => simp
        | throws => simp
      | fails => simp
      | throws => simp
  | fails => simp
  | throws => simp

/-- The update of fstab keeps the backup; where it fails it changes nothing. -/
theorem ensureSwapFstabState_spec : Ends commands (ensureSwapFstabState path) (fun result after =>
      match pruning path commands host with
      | .takesEffect => (∃ changed, result = .ok (some changed)) ∧ after.backup = host.backup
      | .fails => result = .ok none ∧ after = host
      | .throws => (∃ error, result = .error (.raised error)) ∧ after = host) host := by
  unfold ensureSwapFstabState pruning
  rw [ends_step]
  cases lock : commands .acquireLock with
  | takesEffect =>
    simp only [if_true, CommandOutcome.andThen, id_eq]
    rw [ends_bind, Ends, Remote.leads_attempt]
    refine removeEntry_spec.mono fun result after holds => ?_
    split at holds
    · next succeeds =>
      obtain ⟨⟨changed, rfl⟩, kept⟩ := holds
      rw [if_pos succeeds, Remote.caught_ok, Remote.onValue_ok, ends_pure]
      exact ⟨⟨changed, rfl⟩, kept⟩
    · next notSucceeds =>
      obtain ⟨⟨error, rfl⟩, same⟩ := holds
      rw [if_neg notSucceeds, Remote.caught_raised, Remote.onValue_ok, ends_pure]
      exact ⟨rfl, same⟩
  | fails => exact ends_pure.2 ⟨rfl, rfl⟩
  | throws => exact ⟨⟨_, rfl⟩, rfl⟩

/-! ### The removal -/

/-- The removal of a file that is there. -/
theorem removeSwapFile_spec (isFile : host.file.isSome = true) :
    Ends commands removeSwapFile (fun result after =>
      after.active = host.active ∧ after.backup = host.backup ∧ after.fstab = host.fstab ∧
        if removing commands = .takesEffect then ∃ delta, result = .ok (some delta)
        else result = .ok none ∨ ∃ error, result = .error (.raised error)) host := by
  unfold removeSwapFile removing
  rw [ends_tests]
  cases again : commands .testExistsAgain with
  | takesEffect =>
    dsimp only
    rw [isFile, Bool.not_true, if_neg Bool.false_ne_true, ends_step]
    cases remove : commands .remove with
    | takesEffect => exact ends_pure.2 ⟨rfl, rfl, rfl, _, rfl⟩
    | fails => exact ends_pure.2 ⟨rfl, rfl, rfl, .inl rfl⟩
    | throws => exact ⟨rfl, rfl, rfl, .inr ⟨_, rfl⟩⟩
  | fails => exact ends_pure.2 ⟨rfl, rfl, rfl, _, rfl⟩
  | throws => exact ⟨rfl, rfl, rfl, .inr ⟨_, rfl⟩⟩

/-- The removal of a file whose path holds no backup yet. -/
theorem performAbsentSwapRemoval_spec (succeeds : RollbackSucceeds commands) (disabled : Bool)
    (noBackup : host.backup = none) (isFile : host.file.isSome = true) :
    Ends commands (performAbsentSwapRemoval disabled path .ok) (fun result after =>
      match preparing commands with
      | .takesEffect => if removing commands = .takesEffect then
          (∃ delta, result = .ok (.proceed true delta)) ∧ after.moveBackup = host ∧
            after.backup = host.file ∧ after.active = host.active
        else (result = .ok (.done .failed) ∨ ∃ error, result = .error (.raised error)) ∧
            after.backup = host.file
      | .fails => result = .ok (.done .failed) ∧ after = host.reactivated disabled path
      | .throws => (∃ error, result = .error (.raised error)) ∧ after = host) host := by
  have cleared : host.removeBackup = host := by
    rw [SwapHost.removeBackup, ← noBackup]
  unfold performAbsentSwapRemoval snapshotSwapFileForAbsentFlow preparing
  rw [ends_step]
  cases parent : commands .safeParent with
  | takesEffect =>
    simp only [Bool.not_true, Bool.false_eq_true, if_false, CommandOutcome.andThen, id_eq]
    rw [ends_bind, ends_step]
    cases leftover : commands .removeLeftover with
    | takesEffect =>
      simp only [Bool.not_true, Bool.false_eq_true, if_false, cleared]
      rw [Ends, Remote.leads_step, Commands.script]
      cases link : commands .link with
      | takesEffect =>
        refine ⟨trivial, ?_⟩
        simp only [CommandOutcome.outcome, StepOutcome.report_completed, Remote.onValue_ok,
          StepOutcome.apply_completed, Bool.not_true, Bool.false_eq_true, if_false]
        rw [ends_bind]
        have linked : host.linkBackup.file.isSome = true := isFile
        refine (removeSwapFile_spec linked).mono fun result after holds => ?_
        obtain ⟨active, backup, fstab, removed⟩ := holds
        split at removed
        · next isRemoved =>
          obtain ⟨delta, rfl⟩ := removed
          rw [Remote.onValue_ok, ends_pure, if_pos isRemoved]
          refine ⟨⟨delta, rfl⟩, ?_, backup, active⟩
          rw [SwapHost.moveBackup, backup, active, fstab, ← noBackup]
          rfl
        · next notRemoved =>
          rcases removed with rfl | ⟨error, rfl⟩
          · rw [Remote.onValue_ok, handleFailure_spec succeeds, ends_pure, if_neg notRemoved]
            refine ⟨.inl rfl, ?_⟩
            cases disabled with
            | true => exact backup
            | false => exact backup
          · rw [Remote.onValue_error, if_neg notRemoved]
            exact ⟨.inr ⟨error, rfl⟩, backup⟩
      | fails =>
        refine ⟨trivial, ?_⟩
        simp only [CommandOutcome.outcome, StepOutcome.report_refused, Remote.onValue_ok,
          StepOutcome.apply_refused, Bool.false_eq_true, if_false, Bool.not_false, if_true]
        rw [handleFailure_spec succeeds]
        refine ends_pure.2 ?_
        exact ⟨rfl, rfl⟩
      | throws => exact ⟨trivial, ⟨_, rfl⟩, rfl⟩
    | fails =>
      simp only [Bool.not_false, if_true]
      rw [ends_pure, Remote.onValue_ok, Bool.not_false, if_pos rfl, handleFailure_spec succeeds]
      exact ends_pure.2 ⟨rfl, rfl⟩
    | throws => exact ⟨⟨_, rfl⟩, rfl⟩
  | fails =>
    simp only [Bool.not_false, if_true]
    rw [handleFailure_spec succeeds]
    exact ends_pure.2 ⟨rfl, rfl⟩
  | throws => exact ⟨⟨_, rfl⟩, rfl⟩

/-! ### The whole pipeline -/

/-- The fstab update behind a removal that left a backup. -/
theorem pruneSwapFstab_spec (succeeds : RollbackSucceeds commands) (disabled : Bool)
    (inactive : disabled = true → path ∉ host.active) :
    Ends commands (pruneSwapFstabAndRollbackOnFailure disabled true path) (fun result after =>
      match pruning path commands host with
      | .takesEffect => (∃ changed, result = .ok (.pruned changed)) ∧ after.backup = host.backup
      | .fails => result = .ok (.failed true) ∧
          after = host.moveBackup.reactivated disabled path
      | .throws => (∃ error, result = .error (.raised error)) ∧ after = host) host := by
  unfold pruneSwapFstabAndRollbackOnFailure
  rw [ends_bind]
  refine ensureSwapFstabState_spec.mono fun result after holds => ?_
  cases outcome : pruning path commands host with
  | takesEffect =>
    rw [outcome] at holds
    obtain ⟨⟨changed, rfl⟩, kept⟩ := holds
    rw [Remote.onValue_ok, ends_pure]
    exact ⟨⟨changed, rfl⟩, kept⟩
  | fails =>
    rw [outcome] at holds
    obtain ⟨rfl, rfl⟩ := holds
    rw [Remote.onValue_ok]
    dsimp only
    rw [Bool.not_true, if_neg Bool.false_ne_true, rollback_spec succeeds disabled inactive,
      ends_pure]
    exact ⟨rfl, rfl⟩
  | throws =>
    rw [outcome] at holds
    obtain ⟨⟨error, rfl⟩, rfl⟩ := holds
    exact ⟨⟨error, rfl⟩, rfl⟩

/-- The inner stage, where a swap file is there and no backup. -/
theorem runAbsentSwapRemoval_spec (succeeds : RollbackSucceeds commands) (disabled : Bool)
    (noBackup : host.backup = none) (isFile : host.file.isSome = true)
    (inactive : disabled = true → path ∉ host.active) :
    Ends commands (runAbsentSwapRemovalAndFstabUpdate disabled path .ok) (fun result after =>
      match preparing commands with
      | .takesEffect => if removing commands = .takesEffect then
          match pruning path commands host with
          | .takesEffect => (∃ status, status ≠ .failed ∧ result = .ok ⟨status, true, true⟩) ∧
              after.backup = host.file
          | .fails => result = .ok ⟨.failed, true, true⟩ ∧
              after = host.reactivated disabled path
          | .throws => (∃ error, result = .error (.raised error)) ∧ after.backup = host.file
        else (result = .ok ⟨.failed, true, false⟩ ∨ ∃ error, result = .error (.raised error)) ∧
            after.backup = host.file
      | .fails => result = .ok ⟨.failed, true, false⟩ ∧ after = host.reactivated disabled path
      | .throws => (∃ error, result = .error (.raised error)) ∧ after = host) host := by
  unfold runAbsentSwapRemovalAndFstabUpdate
  rw [ends_bind]
  refine (performAbsentSwapRemoval_spec succeeds disabled noBackup isFile).mono
    fun result after holds => ?_
  cases prepared : preparing commands with
  | takesEffect =>
    rw [prepared] at holds
    dsimp only at holds
    split at holds
    · next removed =>
      obtain ⟨⟨delta, rfl⟩, moved, backup, active⟩ := holds
      have samePruning : pruning path commands after = pruning path commands host := by
        rw [← moved]
        rfl
      have stillInactive : disabled = true → path ∉ after.active := by rwa [active]
      rw [Remote.onValue_ok]
      simp only [if_pos removed]
      rw [ends_bind]
      refine (pruneSwapFstab_spec succeeds disabled stillInactive).mono fun result last holds => ?_
      rw [samePruning] at holds
      cases outcome : pruning path commands host with
      | takesEffect =>
        rw [outcome] at holds
        obtain ⟨⟨changed, rfl⟩, kept⟩ := holds
        rw [Remote.onValue_ok, ends_pure]
        refine ⟨⟨_, ?_, rfl⟩, kept.trans backup⟩
        split
        · exact nofun
        · exact nofun
      | fails =>
        rw [outcome] at holds
        obtain ⟨rfl, rfl⟩ := holds
        rw [Remote.onValue_ok, ends_pure, moved]
        exact ⟨rfl, rfl⟩
      | throws =>
        rw [outcome] at holds
        obtain ⟨⟨error, rfl⟩, rfl⟩ := holds
        exact ⟨⟨error, rfl⟩, backup⟩
    · next notRemoved =>
      obtain ⟨rfl | ⟨error, rfl⟩, backup⟩ := holds
      · rw [Remote.onValue_ok, ends_pure, if_neg notRemoved]
        exact ⟨.inl rfl, backup⟩
      · rw [Remote.onValue_error, if_neg notRemoved]
        exact ⟨.inr ⟨error, rfl⟩, backup⟩
  | fails =>
    rw [prepared] at holds
    obtain ⟨rfl, rfl⟩ := holds
    rw [Remote.onValue_ok, ends_pure]
    exact ⟨rfl, rfl⟩
  | throws =>
    rw [prepared] at holds
    obtain ⟨⟨error, rfl⟩, rfl⟩ := holds
    exact ⟨⟨error, rfl⟩, rfl⟩

theorem fails_raised (error : SwapError) : Fails (.error (.raised error)) := .inr ⟨error, rfl⟩

theorem not_fails {status : ModuleStatus} (notFailed : status ≠ .failed) :
    ¬Fails (.ok status) := by
  rintro (isFailed | ⟨error, raised⟩)
  · exact notFailed (Except.ok.inj isFailed)
  · cases raised

/-- A host that kept the backup is not the one before. -/
theorem ne_reactivated {after : SwapHost} {disabled : Bool} (noBackup : host.backup = none)
    (isFile : host.file.isSome = true) (kept : after.backup = host.file) :
    after ≠ host.reactivated disabled path := by
  rintro rfl
  have same : (host.reactivated disabled path).backup = none := by
    cases disabled with
    | true => exact noBackup
    | false => exact noBackup
  rw [same] at kept
  rw [← kept] at isFile
  cases isFile

theorem eq_reactivated_iff (disabled : Bool) (inactive : disabled = true → path ∉ host.active) :
    host = host.reactivated disabled path ↔ disabled = false := by
  cases disabled with
  | true =>
    refine iff_of_false (fun same => inactive rfl ?_) nofun
    rw [same]
    exact Finset.mem_insert_self path host.active
  | false => exact iff_of_true rfl rfl

/-- What cleans up behind a result of the inner stage. -/
theorem cleanup_spec {result : ModuleStatus} :
    Ends commands (cleanupAbsentSwapSnapshot >>= fun _ => pure result)
      (fun last after => if commands .cleanup = .throws then
          (∃ error, last = .error (.raised error)) ∧ after = host
        else last = .ok result ∧ (after = host ∨ after = host.removeBackup)) host := by
  unfold cleanupAbsentSwapSnapshot
  rw [ends_bind, ends_step]
  cases outcome : commands .cleanup with
  | takesEffect => simp
  | fails => simp
  | throws => simp

/-- What follows the inner stage: an error goes on, a result may have to be cleaned up. -/
theorem ends_runAndCleanUp {disabled : Bool} {safeRemoval : SafeRemoval}
    {post : Except (Exit SwapError) ModuleStatus → SwapHost → Prop} :
    Ends commands (runAndCleanUp disabled path safeRemoval) post host ↔
      Ends commands (runAbsentSwapRemovalAndFstabUpdate disabled path safeRemoval)
        (Remote.onValue (fun outcome middle =>
          if outcome.snapshotCreated && outcome.snapshotConsumed then
            Ends commands (cleanupAbsentSwapSnapshot >>= fun _ => pure outcome.result) post middle
          else post (.ok outcome.result) middle) fun exit middle => post (.error exit) middle)
        host := by
  unfold runAndCleanUp
  rw [ends_bind, Ends, Remote.leads_attempt]
  constructor
  · intro ends
    refine ends.mono ?_
    rintro ((error | _) | outcome) middle holds
    · simpa using holds
    · exact holds
    · rw [Remote.caught_ok, Remote.onValue_ok] at holds
      rw [Remote.onValue_ok]
      dsimp only at holds
      split at holds
      · next consumed => rwa [if_pos consumed]
      · next kept =>
        rw [if_neg kept]
        exact ends_pure.1 holds
  · intro ends
    refine ends.mono ?_
    rintro ((error | _) | outcome) middle holds
    · simpa using holds
    · exact holds
    · rw [Remote.onValue_ok] at holds
      rw [Remote.caught_ok, Remote.onValue_ok]
      dsimp only
      split at holds
      · next consumed => rwa [if_pos consumed]
      · next kept => rwa [if_neg kept, ends_pure]

/-- The inner stage, where no file was found. -/
theorem runAbsentSwapRemoval_missing (disabled : Bool) :
    Ends commands (runAbsentSwapRemovalAndFstabUpdate disabled path .missing) (fun result after =>
      match pruning path commands host with
      | .takesEffect => ∃ status, status ≠ .failed ∧ result = .ok ⟨status, true, false⟩
      | .fails => result = .ok ⟨.failed, true, false⟩ ∧ after = host
      | .throws => (∃ error, result = .error (.raised error)) ∧ after = host) host := by
  unfold runAbsentSwapRemovalAndFstabUpdate performAbsentSwapRemoval
    pruneSwapFstabAndRollbackOnFailure
  rw [ends_bind, ends_pure, Remote.onValue_ok]
  dsimp only
  rw [ends_bind, ends_bind]
  refine ensureSwapFstabState_spec.mono fun result after holds => ?_
  cases outcome : pruning path commands host with
  | takesEffect =>
    rw [outcome] at holds
    obtain ⟨⟨changed, rfl⟩, _⟩ := holds
    rw [Remote.onValue_ok, ends_pure, Remote.onValue_ok, ends_pure]
    refine ⟨_, ?_, rfl⟩
    split
    · exact nofun
    · exact nofun
  | fails =>
    rw [outcome] at holds
    obtain ⟨rfl, rfl⟩ := holds
    simp
  | throws =>
    rw [outcome] at holds
    obtain ⟨⟨error, rfl⟩, rfl⟩ := holds
    exact ⟨⟨error, rfl⟩, rfl⟩

/-- Where no file was found, a failure is undone if nothing was switched off. -/
theorem runAndCleanUp_missing (disabled : Bool) (inactive : disabled = true → path ∉ host.active) :
    Ends commands (runAndCleanUp disabled path .missing) (fun result after =>
      (Fails result → after = host.reactivated disabled path) ↔
        (disabled = true → pruning path commands host = .takesEffect)) host := by
  have unchanged : host = host.reactivated disabled path ↔ ¬disabled = true := by
    rw [eq_reactivated_iff disabled inactive, Bool.not_eq_true]
  rw [ends_runAndCleanUp]
  refine (runAbsentSwapRemoval_missing disabled).mono fun result after holds => ?_
  cases outcome : pruning path commands host with
  | takesEffect =>
    rw [outcome] at holds
    obtain ⟨status, notFailed, rfl⟩ := holds
    simp [not_fails notFailed]
  | fails =>
    rw [outcome] at holds
    obtain ⟨rfl, rfl⟩ := holds
    simpa [Fails] using unchanged
  | throws =>
    rw [outcome] at holds
    obtain ⟨⟨error, rfl⟩, rfl⟩ := holds
    simpa [Fails] using unchanged

/-- Where a swap file was found, a failure is undone if nothing throws while swap is off, and
once the backup is there the file is removed, the lock is not lost and the backup goes. -/
theorem runAndCleanUp_managed (succeeds : RollbackSucceeds commands) (disabled : Bool)
    (noBackup : host.backup = none) (isFile : host.file.isSome = true)
    (inactive : disabled = true → path ∉ host.active) :
    Ends commands (runAndCleanUp disabled path .ok) (fun result after =>
      (Fails result → after = host.reactivated disabled path) ↔
        (disabled = true → preparing commands ≠ .throws) ∧
          (preparing commands = .takesEffect →
            removing commands = .takesEffect ∧ pruning path commands host ≠ .throws ∧
              (pruning path commands host = .takesEffect → commands .cleanup ≠ .throws))) host := by
  have unchanged : host = host.reactivated disabled path ↔ ¬disabled = true := by
    rw [eq_reactivated_iff disabled inactive, Bool.not_eq_true]
  rw [ends_runAndCleanUp]
  refine (runAbsentSwapRemoval_spec succeeds disabled noBackup isFile inactive).mono
    fun result after holds => ?_
  cases prepared : preparing commands with
  | takesEffect =>
    rw [prepared] at holds
    dsimp only at holds
    split at holds
    · next removed =>
      cases outcome : pruning path commands host with
      | takesEffect =>
        rw [outcome] at holds
        obtain ⟨⟨status, notFailed, rfl⟩, backup⟩ := holds
        rw [Remote.onValue_ok, if_pos (by rfl)]
        refine cleanup_spec.mono fun last final ended => ?_
        split at ended
        · next throws =>
          obtain ⟨⟨error, rfl⟩, rfl⟩ := ended
          refine iff_of_false (fun undone => ?_) fun meets => (meets.2 rfl).2.2 rfl throws
          exact ne_reactivated noBackup isFile backup (undone (fails_raised error))
        · next cleans =>
          obtain ⟨rfl, _⟩ := ended
          refine iff_of_true (fun fails => absurd fails (not_fails notFailed)) ⟨fun _ => nofun, ?_⟩
          exact fun _ => ⟨removed, nofun, fun _ => cleans⟩
      | fails =>
        rw [outcome] at holds
        obtain ⟨rfl, rfl⟩ := holds
        rw [Remote.onValue_ok, if_pos (by rfl)]
        refine cleanup_spec.mono fun last final ended => ?_
        have nothingLeft : (host.reactivated disabled path).removeBackup =
            host.reactivated disabled path := by
          cases disabled with
          | true => rw [SwapHost.removeBackup, ← noBackup]; rfl
          | false => rw [SwapHost.removeBackup, ← noBackup]; rfl
        have restored : final = host.reactivated disabled path := by
          split at ended
          · exact ended.2
          · rcases ended.2 with same | same
            · exact same
            · exact same.trans nothingLeft
        exact iff_of_true (fun _ => restored) ⟨fun _ => nofun, fun _ => ⟨removed, nofun, nofun⟩⟩
      | throws =>
        rw [outcome] at holds
        obtain ⟨⟨error, rfl⟩, backup⟩ := holds
        refine iff_of_false (fun undone => ?_) fun meets => (meets.2 rfl).2.1 rfl
        exact ne_reactivated noBackup isFile backup (undone (fails_raised error))
    · next notRemoved =>
      obtain ⟨failed, backup⟩ := holds
      have kept : after ≠ host.reactivated disabled path := ne_reactivated noBackup isFile backup
      rcases failed with rfl | ⟨error, rfl⟩
      · exact iff_of_false (fun undone => kept (undone (.inl rfl)))
          fun meets => notRemoved (meets.2 rfl).1
      · exact iff_of_false (fun undone => kept (undone (fails_raised error)))
          fun meets => notRemoved (meets.2 rfl).1
  | fails =>
    rw [prepared] at holds
    obtain ⟨rfl, rfl⟩ := holds
    simp
  | throws =>
    rw [prepared] at holds
    obtain ⟨⟨error, rfl⟩, rfl⟩ := holds
    simpa [Fails] using unchanged

theorem SwitchedOff.inactive (off : SwitchedOff path commands host) :
    Inactive path commands host := ⟨off.2.1, fun _ => off.2.2⟩

theorem FoundManaged.not_missing (managed : FoundManaged commands host) :
    ¬FoundMissing commands host := fun missing => managed.2.1.not_noTo missing.2

theorem FoundManaged.isFile (managed : FoundManaged commands host) :
    host.file.isSome = true := managed.2.1.2

/-- Without a file only the first clause says anything. -/
theorem undoable_of_missing (missing : FoundMissing commands host) :
    SwapUndoable path commands host ↔
      (SwitchedOff path commands host → pruning path commands host = .takesEffect) := by
  have notManaged : ¬FoundManaged commands host := fun managed => managed.not_missing missing
  refine ⟨fun undoable => undoable.missing missing, fun pruned => ⟨fun _ => pruned, ?_, ?_, ?_, ?_⟩⟩
  · exact fun managed => absurd managed notManaged
  · exact fun managed => absurd managed notManaged
  · exact fun managed => absurd managed notManaged
  · exact fun managed => absurd managed notManaged

theorem undoable_of_managed (managed : FoundManaged commands host)
    (inactive : Inactive path commands host) : SwapUndoable path commands host ↔
      (SwitchedOff path commands host → preparing commands ≠ .throws) ∧
        (preparing commands = .takesEffect →
          removing commands = .takesEffect ∧ pruning path commands host ≠ .throws ∧
            (pruning path commands host = .takesEffect → commands .cleanup ≠ .throws)) := by
  constructor
  · intro undoable
    exact ⟨undoable.prepared managed, fun prepared => ⟨undoable.removed managed inactive prepared,
      undoable.locked managed inactive prepared, undoable.cleaned managed inactive prepared⟩⟩
  · rintro ⟨prepared, behind⟩
    exact ⟨fun missing => absurd missing managed.not_missing, fun _ => prepared,
      fun _ _ isPrepared => (behind isPrepared).1, fun _ _ isPrepared => (behind isPrepared).2.1,
      fun _ _ isPrepared => (behind isPrepared).2.2⟩

/-- Where no swap area was switched off, nothing had to be undone. -/
theorem undoable_of_not_inactive (stillActive : ¬Inactive path commands host) :
    SwapUndoable path commands host where
  missing := fun _ off => absurd off.inactive stillActive
  prepared := fun _ off => absurd off.inactive stillActive
  removed := fun _ inactive => absurd inactive stillActive
  locked := fun _ inactive => absurd inactive stillActive
  cleaned := fun _ inactive => absurd inactive stillActive

theorem reactivated_deactivate (active : path ∈ host.active) :
    (host.deactivate path).reactivated true path = host := by
  rw [SwapHost.reactivated, if_pos rfl, SwapHost.activate, SwapHost.deactivate]
  dsimp only
  rw [Finset.insert_erase active]

theorem applyAbsentSwapFile_spec (noBackup : host.backup = none)
    (succeeds : RollbackSucceeds commands) :
    Ends commands (applyAbsentSwapFile path) (fun result after =>
      (Fails result → after = host) ↔ SwapUndoable path commands host) host := by
  unfold applyAbsentSwapFile ensureSafeSwapRemoval
  rw [ends_bind, ends_bind]
  refine classifySwapFilePath_spec.mono fun classified probed found => ?_
  obtain ⟨rfl, ⟨rfl, missing⟩ | ⟨rfl, managed⟩ | ⟨refused, notMissing, notManaged⟩⟩ := found
  · rw [Remote.onValue_ok, ends_pure, Remote.onValue_ok]
    dsimp only
    rw [ends_bind]
    refine disableSwap_spec.mono fun result mid disabled => ?_
    rcases disabled with ⟨rfl, off, _, rfl⟩ | ⟨rfl, notActive, _, rfl⟩ | ⟨failed, still, rfl⟩
    · rw [Remote.onValue_ok, undoable_of_missing missing]
      refine (runAndCleanUp_missing true fun _ => Finset.notMem_erase path _).mono
        fun result last holds => ?_
      rw [reactivated_deactivate off.1] at holds
      rw [holds]
      exact ⟨fun pruned _ => pruned rfl, fun pruned _ => pruned off⟩
    · rw [Remote.onValue_ok, undoable_of_missing missing]
      refine (runAndCleanUp_missing false nofun).mono fun result last holds => ?_
      exact holds.trans ⟨fun _ off => absurd off.1 notActive, fun _ => nofun⟩
    · rcases failed with rfl | ⟨error, rfl⟩
      · rw [Remote.onValue_ok]
        exact ends_pure.2 (iff_of_true (fun _ => rfl) (undoable_of_not_inactive still))
      · exact iff_of_true (fun _ => rfl) (undoable_of_not_inactive still)
  · rw [Remote.onValue_ok, ends_pure, Remote.onValue_ok]
    dsimp only
    rw [ends_bind]
    refine disableSwap_spec.mono fun result mid disabled => ?_
    rcases disabled with ⟨rfl, off, inactive, rfl⟩ | ⟨rfl, notActive, inactive, rfl⟩ |
      ⟨failed, still, rfl⟩
    · rw [Remote.onValue_ok, undoable_of_managed managed inactive]
      have stillNoBackup : (probed.deactivate path).backup = none := noBackup
      refine (runAndCleanUp_managed succeeds true stillNoBackup managed.isFile
        fun _ => Finset.notMem_erase path probed.active).mono fun result last holds => ?_
      rw [reactivated_deactivate off.1] at holds
      rw [holds]
      exact ⟨fun meets => ⟨fun _ => meets.1 rfl, meets.2⟩,
        fun meets => ⟨fun _ => meets.1 off, meets.2⟩⟩
    · rw [Remote.onValue_ok, undoable_of_managed managed inactive]
      refine (runAndCleanUp_managed succeeds false noBackup managed.isFile nofun).mono
        fun result last holds => ?_
      exact holds.trans ⟨fun meets => ⟨fun off => absurd off.1 notActive, meets.2⟩,
        fun meets => ⟨nofun, meets.2⟩⟩
    · rcases failed with rfl | ⟨error, rfl⟩
      · rw [Remote.onValue_ok]
        exact ends_pure.2 (iff_of_true (fun _ => rfl) (undoable_of_not_inactive still))
      · exact iff_of_true (fun _ => rfl) (undoable_of_not_inactive still)
  · have undoable : SwapUndoable path commands probed :=
      ⟨fun found => absurd found notMissing, fun found => absurd found notManaged,
        fun found => absurd found notManaged, fun found => absurd found notManaged,
        fun found => absurd found notManaged⟩
    rcases refused with ⟨reason, rfl⟩ | ⟨error, rfl⟩
    · rw [Remote.onValue_ok, ends_pure, Remote.onValue_ok]
      exact ends_pure.2 (iff_of_true (fun _ => rfl) undoable)
    · exact iff_of_true (fun _ => rfl) undoable

/-- A failed apply leaves the host as it was exactly where, with no file found, a switched off
area is followed by an fstab update that succeeds, and where, with one found, nothing throws
before the backup is there, the removal and the lock do not fail behind it and the backup is
cleaned up. -/
theorem swap_undone_iff (path : Text) {commands : Commands} {host : SwapHost}
    (noBackup : host.backup = none) (succeeds : RollbackSucceeds commands) :
    Undone path commands host ↔ SwapUndoable path commands host :=
  (applyAbsentSwapFile_spec noBackup succeeds).2

/-- The fstab write fails behind the removal, and everything comes back. -/
theorem failed_write_undone :
    let commands : Commands := fun key => if key = .writeFstab then .fails else .takesEffect
    let host : SwapHost :=
      { active := {text "/swap"}
        file := some (.swapFile 7)
        backup := none
        fstab := text "/swap none swap sw 0 0\n" }
    Undone (text "/swap") commands host := by
  intro commands host
  refine (swap_undone_iff (text "/swap") rfl (by decide)).2 ⟨?_, ?_, ?_, ?_, ?_⟩
  · rintro ⟨_, fails | ⟨_, isMissing⟩⟩
    · cases fails
    · exact absurd rfl isMissing
  · exact fun _ _ => by decide
  · exact fun _ _ _ => by decide
  · exact fun _ _ _ => by decide +kernel
  · exact fun _ _ _ _ => by decide

/-- The removal fails once the backup is there, and the backup stays. -/
theorem failed_removal_keeps_backup :
    let commands : Commands := fun key => if key = .remove then .fails else .takesEffect
    let host : SwapHost :=
      { active := {text "/swap"}
        file := some (.swapFile 7)
        backup := none
        fstab := text "/swap none swap sw 0 0\n" }
    host.backup = none ∧ RollbackSucceeds commands ∧ ¬Undone (text "/swap") commands host := by
  intro commands host
  refine ⟨rfl, by decide, fun undone => ?_⟩
  have same := congrArg SwapHost.backup (undone (.inl (by rfl)))
  have kept : ((applyAbsentSwapFile (text "/swap")).run commands.script host).world.backup =
      some (.swapFile 7) := by
    rfl
  rw [kept] at same
  cases same

end Paratix.Swap
