/-
Module: Paratix.Compose.SystemdUndone
Purpose: When an apply of `compose.systemd` that fails leaves the unit path and the mask as they
  were.
Main exports: RollbackSucceeds, compose_systemd_undone_iff
-/
import Paratix.Compose.Checks

namespace Paratix.Compose

open Foundation Archive Files Orchestration

abbrev ComposeCommands := Commands ComposeStep Unit

/-- The steps that only the rollback takes succeed. -/
def RollbackSucceeds (commands : ComposeCommands) : Prop :=
  ∀ key ∈ [ComposeStep.restoreUnit, .restoreOwner, .removeUnit, .maskAgain, .reloadAgain],
    commands key = .takesEffect

instance (commands : ComposeCommands) : Decidable (RollbackSucceeds commands) :=
  inferInstanceAs (Decidable (∀ key ∈ [ComposeStep.restoreUnit, .restoreOwner, .removeUnit,
    .maskAgain, .reloadAgain], commands key = .takesEffect))

section Stages

variable (machine : ComposeMachine) (commands : ComposeCommands) (host : ComposeHost)

/-- If the apply returns failed, unit path and mask are as they were. -/
def Undone (options : ComposeSystemdOptions) : Prop :=
  let ending := (applyComposeSystemd machine options).run commands.script host
  ending.result = .ok .failed → ending.world = host

/-! ### Stages -/

/-- The probes see a file at the path that is no link. -/
def SeesFile : Prop :=
  commands .testExists = .takesEffect ∧ host.unit.exists = true ∧
    (commands .testSymlink = .fails ∨
      commands .testSymlink = .takesEffect ∧ host.unit.isLink = false)

/-- The probes see no file, or a link. -/
def SeesNone : Prop :=
  commands .testExists = .fails ∨
    commands .testExists = .takesEffect ∧ (host.unit.exists = false ∨
      host.unit.exists = true ∧ commands .testSymlink = .takesEffect ∧ host.unit.isLink = true)

/-- The unit is reported as masked. -/
def SeesMask : Prop := commands .isEnabled = .takesEffect ∧ host.isMasked = true

/-- The snapshot of the unit path is complete. -/
def UnitSnapshotted : Prop :=
  SeesNone commands host ∨ SeesFile commands host ∧ commands .readUnit = .takesEffect ∧
    commands .statMode = .takesEffect ∧ commands .statOwner = .takesEffect

def Snapshotted : Prop := UnitSnapshotted commands host ∧ (commands .isEnabled).Returns

/-- The write is refused at a link, or fails. -/
def WriteRefused : Prop :=
  (commands .testSymlinkAgain).Returns ∧
    (host.unmask.unit.isLink = true ∨ commands .writeUnit ≠ .takesEffect)

/-- The unit is written and can be read. -/
def WriteDone : Prop :=
  (commands .testSymlinkAgain).Returns ∧ host.unmask.unit.isLink = false ∧
    commands .writeUnit = .takesEffect ∧ commands .verifyUnit = .takesEffect

/-- The content is read back as it was written, but for the white space around it. -/
def ReadsBack (content : Text) : Prop :=
  trim (machine.captured content) ≠ [] ∧ trim (machine.captured content) = trim content

instance (content : Text) : Decidable (ReadsBack machine content) :=
  inferInstanceAs (Decidable (_ ∧ _))

/-- The shell fallback, which reads back no better than the write, comes to its end. -/
def FallbackEnds : Prop :=
  commands .mktemp = .fails ∨
    commands .mktemp = .takesEffect ∧
      (commands .shellWrite = .fails ∧ (commands .removeTemporary).Returns ∨
        commands .shellWrite = .takesEffect ∧ commands .verifyAgain = .takesEffect)

/-- The unit is written, and a later step fails. -/
def FailsWritten (content : Text) : Prop :=
  WriteDone commands host ∧
    (¬ReadsBack machine content ∧ FallbackEnds commands ∨
      ReadsBack machine content ∧ (commands .chown = .fails ∨
        commands .chown = .takesEffect ∧ commands .reload = .fails))

/-- The apply fails behind the snapshot and the end of the mask. -/
def RollsBack (content : Text) : Prop :=
  Snapshotted commands host ∧ commands .unmask = .takesEffect ∧
    (WriteRefused commands host ∨ FailsWritten machine commands host content)

/-- What the rollback restores of the unit: a missing unit unless a runtime mask was seen; a
file that was seen, with a content that is read as it is and a mode that `chown` keeps, or an
unwritten file whose mode has less than three digits; a mask that was seen and not taken for a
file; and any other link only where it was taken for a file. -/
def Restores (written : Prop) : Prop :=
  match host.unit with
  | .missing => ¬SeesMask commands host
  | .regular content mode _ =>
      commands .testExists = .takesEffect ∧
        (64 ≤ mode.toNat ∧ machine.captured content = content ∧ mode.chowned = mode ∨
          mode.toNat < 64 ∧ ¬written)
  | .mask => SeesMask commands host ∧ ¬SeesFile commands host
  | .link .. => SeesFile commands host

end Stages

/-- The runtime that was given, or else the one that is found first. -/
def FoundRuntime (commands : ComposeCommands) (host : ComposeHost) :
    Option ComposeRuntime → ComposeRuntime → Prop
  | some explicit, runtime => runtime = explicit
  | none, .podman => commands .testPodman = .takesEffect ∧ host.hasPodman = true
  | none, .docker =>
      (commands .testPodman = .fails ∨
        commands .testPodman = .takesEffect ∧ host.hasPodman = false) ∧
      commands .testDocker = .takesEffect ∧ host.hasDocker = true

variable {machine : ComposeMachine} {commands : ComposeCommands} {host : ComposeHost}
variable {content : Text}

/-! ### Hosts -/

@[simp] theorem put_unit (host : ComposeHost) (unit : UnitPath) : (host.put unit).unit = unit := rfl

@[simp] theorem put_put (host : ComposeHost) (first second : UnitPath) :
    (host.put first).put second = host.put second := rfl

theorem put_eq_iff {unit : UnitPath} : host.put unit = host ↔ unit = host.unit := by
  obtain ⟨_, _, _, _⟩ := host
  simp [ComposeHost.put]

theorem unmask_eq (host : ComposeHost) :
    host.unmask = host.put (if host.unit = .mask then .missing else host.unit) := by
  rw [ComposeHost.unmask]
  split
  · rfl
  · rfl

/-- Where there is no link the file is written; a non-root writer's `chown` comes last. -/
theorem write_file (machine : ComposeMachine) (content : Text) (mode : FileMode)
    (noLink : host.unit.isLink = false) : ∃ written owner, host.write machine content mode =
      some (host.put (.regular content written owner)) ∧
        (written = mode ∨ written = mode.chowned) := by
  have kinds : (if machine.asRoot then mode else mode.chowned) = mode ∨
      (if machine.asRoot then mode else mode.chowned) = mode.chowned := by
    split
    · exact .inl rfl
    · exact .inr rfl
  unfold ComposeHost.write
  cases unit : host.unit with
  | missing => exact ⟨_, _, rfl, kinds⟩
  | regular => exact ⟨_, _, rfl, kinds⟩
  | mask => simp [unit, UnitPath.isLink] at noLink
  | link => simp [unit, UnitPath.isLink] at noLink

theorem write_link (machine : ComposeMachine) (content : Text) (mode : FileMode)
    (isLink : host.unit.isLink = true) : host.write machine content mode = none := by
  unfold ComposeHost.write
  cases unit : host.unit with
  | missing => simp [unit, UnitPath.isLink] at isLink
  | regular => simp [unit, UnitPath.isLink] at isLink
  | mask => rfl
  | link => rfl

/-! ### Rollback -/

/-- Without three digits of a mode nothing is written. -/
theorem rollback_invalid (masked : Bool) (content owner : Text) {mode : FileMode}
    (now : ComposeHost) (invalid : mode.toNat < 64) :
    Ends commands (rollbackComposeSystemdTargetAfterFailure machine
        ⟨masked, .captured content mode.octal owner⟩)
      (fun result after => result = .ok .failed ∧ after = now) now := by
  have refused : ¬validateMode mode.octal = true := by
    rw [validateMode_octal]
    omega
  unfold rollbackComposeSystemdTargetAfterFailure restoreTarget
    restoreComposeSystemdUnitFileSnapshot writeFile
  dsimp only
  rw [if_neg refused, ends_bind, ends_attempt, ends_assoc, ends_bind, ends_throw,
    Remote.onValue_error, Remote.caught_raised, Remote.onValue_ok, ends_pure]
  exact ⟨rfl, rfl⟩

section Rollback

variable (succeeds : RollbackSucceeds commands)

include succeeds

/-- What follows a restored unit path -/
theorem restoreMaskAndReload (masked : Bool) (now : ComposeHost) : Ends commands (do
      if ← restoreComposeSystemdMaskSnapshot masked then
        let _ ← Remote.step ComposeStep.reloadAgain id)
      (fun result after => result = .ok () ∧
        after = if masked then now.mask.getD now else now) now := by
  have mask : commands .maskAgain = .takesEffect := succeeds _ (by simp)
  have reload : commands .reloadAgain = .takesEffect := succeeds _ (by simp)
  unfold restoreComposeSystemdMaskSnapshot
  cases masked with
  | true =>
    simp only [if_true]
    rw [ends_stepWhere, mask, CommandOutcome.after_takesEffect]
    cases masks : now.mask with
    | some after =>
      rw [Option.elim_some, if_pos rfl, ends_step, reload, CommandOutcome.after_takesEffect,
        ends_pure]
      exact ⟨rfl, rfl⟩
    | none =>
      rw [Option.elim_none, if_neg Bool.false_ne_true, ends_pure]
      exact ⟨rfl, rfl⟩
  | false =>
    simp only [Bool.false_eq_true, if_false]
    rw [ends_bind, ends_pure, Remote.onValue_ok, if_pos rfl, ends_step, reload,
      CommandOutcome.after_takesEffect, ends_pure]
    exact ⟨rfl, rfl⟩

/-- A path that was not seen is removed, and masked if it was seen as masked. -/
theorem rollback_absent (masked : Bool) (now : ComposeHost) :
    Ends commands (rollbackComposeSystemdTargetAfterFailure machine ⟨masked, .absent⟩)
      (fun result after => result = .ok .failed ∧
        after = now.put (if masked then .mask else .missing)) now := by
  have remove : commands .removeUnit = .takesEffect := succeeds _ (by simp)
  unfold rollbackComposeSystemdTargetAfterFailure restoreTarget
    restoreComposeSystemdUnitFileSnapshot
  dsimp only
  rw [ends_bind, ends_attempt, ends_step, remove, CommandOutcome.after_takesEffect, if_pos rfl]
  refine (restoreMaskAndReload succeeds masked now.remove).mono fun result after holds => ?_
  obtain ⟨rfl, rfl⟩ := holds
  rw [Remote.caught_ok, Remote.onValue_ok, ends_pure]
  refine ⟨rfl, ?_⟩
  cases masked with
  | true => rfl
  | false => rfl

/-- A file that was seen is written again where there is no link, with its owner; a mask does
not replace it. -/
theorem rollback_captured (masked : Bool) (content : Text) {mode : FileMode} (owner : Owner)
    {now : ComposeHost} (valid : 64 ≤ mode.toNat) (noLink : now.unit.isLink = false) :
    Ends commands (rollbackComposeSystemdTargetAfterFailure machine
        ⟨masked, .captured content mode.octal owner.spec⟩)
      (fun result after => result = .ok .failed ∧
        after = now.put (.regular content mode.chowned owner)) now := by
  have restore : commands .restoreUnit = .takesEffect := succeeds _ (by simp)
  have restoreOwner : commands .restoreOwner = .takesEffect := succeeds _ (by simp)
  obtain ⟨written, other, isWritten, kinds⟩ := write_file machine content mode noLink
  have kept : written.chowned = mode.chowned := by
    rcases kinds with rfl | rfl
    · rfl
    · exact FileMode.chowned_chowned mode
  unfold rollbackComposeSystemdTargetAfterFailure restoreTarget
    restoreComposeSystemdUnitFileSnapshot writeFile chownUnit
  dsimp only
  rw [if_pos ((validateMode_octal mode).2 valid), if_pos (assertValid_spec owner),
    FileMode.ofOctal_octal, ofSpec_spec, ends_bind, ends_attempt, ends_assoc, ends_requireWhere,
    restore, CommandOutcome.after_takesEffect, isWritten, Option.elim_some, ends_stepWhere,
    restoreOwner, CommandOutcome.after_takesEffect, Option.bind_some, ComposeHost.chown]
  dsimp only [put_unit]
  rw [Option.elim_some, if_pos rfl]
  refine (restoreMaskAndReload succeeds masked _).mono fun result after holds => ?_
  obtain ⟨rfl, rfl⟩ := holds
  rw [Remote.caught_ok, Remote.onValue_ok, ends_pure]
  refine ⟨rfl, ?_⟩
  rw [put_put, kept]
  cases masked with
  | true => rfl
  | false => rfl

/-- Nothing is written through a link. -/
theorem rollback_link (masked : Bool) (content mode owner : Text) {now : ComposeHost}
    (isLink : now.unit.isLink = true) :
    Ends commands (rollbackComposeSystemdTargetAfterFailure machine
        ⟨masked, .captured content mode owner⟩)
      (fun result after => result = .ok .failed ∧ after = now) now := by
  have restore : commands .restoreUnit = .takesEffect := succeeds _ (by simp)
  have refused := write_link machine content (FileMode.ofOctal mode) isLink
  unfold rollbackComposeSystemdTargetAfterFailure restoreTarget
    restoreComposeSystemdUnitFileSnapshot writeFile
  dsimp only
  split
  · rw [ends_bind, ends_attempt, ends_assoc, ends_requireWhere, restore,
      CommandOutcome.after_takesEffect, refused, Option.elim_none, Remote.caught_raised,
      Remote.onValue_ok, ends_pure]
    exact ⟨rfl, rfl⟩
  · rw [ends_bind, ends_attempt, ends_assoc, ends_bind, ends_throw, Remote.onValue_error,
      Remote.caught_raised, Remote.onValue_ok, ends_pure]
    exact ⟨rfl, rfl⟩

end Rollback

/-! ### Snapshot -/

/-- What a complete snapshot of the unit path holds -/
def UnitSnapshots (machine : ComposeMachine) (commands : ComposeCommands) (host : ComposeHost) :
    ComposeSystemdUnitFileSnapshot → Prop
  | .captured content mode owner => SeesFile commands host ∧
      host.unit.read machine = some content ∧ host.unit.mode.map FileMode.octal = some mode ∧
      (host.unit.owner machine).map Owner.spec = some owner
  | .absent => SeesNone commands host

/-- What a snapshot of the unit path ends with -/
def Snapshots (machine : ComposeMachine) (commands : ComposeCommands) (host : ComposeHost)
    (result : Except (Exit Unit) (Option ComposeSystemdUnitFileSnapshot))
    (after : ComposeHost) : Prop :=
  after = host ∧
    ((∃ snapshot, result = .ok (some snapshot) ∧ UnitSnapshots machine commands host snapshot ∧
        UnitSnapshotted commands host) ∨
      (result = .ok none ∨ ∃ error, result = .error (.raised error)) ∧
        ¬UnitSnapshotted commands host)

theorem SeesFile.not_seesNone (sees : SeesFile commands host) : ¬SeesNone commands host := by
  obtain ⟨test, isThere, symlink⟩ := sees
  simp only [SeesNone, test, isThere]
  rcases symlink with fails | ⟨_, noLink⟩
  · simp [fails]
  · simp [noLink]

/-- A path that exists has a content to read, a mode and an owner. -/
theorem UnitPath.metadata_of_exists (machine : ComposeMachine) {unit : UnitPath}
    (isThere : unit.exists = true) : ∃ content mode owner, unit.read machine = some content ∧
      unit.mode = some mode ∧ unit.owner machine = some owner := by
  cases unit with
  | missing => cases isThere
  | regular => exact ⟨_, _, _, rfl, rfl, rfl⟩
  | mask => exact ⟨_, _, _, rfl, rfl, rfl⟩
  | link _ behind =>
    obtain ⟨content, rfl⟩ := Option.isSome_iff_exists.1 isThere
    exact ⟨_, _, _, rfl, rfl, rfl⟩

theorem readSnapshot_spec (sees : SeesFile commands host) : Ends commands (do
      let content ← readFile machine .readUnit
      snapshotMetadata machine content) (Snapshots machine commands host) host := by
  obtain ⟨content, mode, owner, isContent, isMode, isOwner⟩ :=
    UnitPath.metadata_of_exists machine sees.2.1
  have incomplete : ¬(commands .readUnit = .takesEffect ∧ commands .statMode = .takesEffect ∧
      commands .statOwner = .takesEffect) → ¬UnitSnapshotted commands host := by
    rintro fails (none | ⟨_, taken⟩)
    · exact sees.not_seesNone none
    · exact fails taken
  unfold readFile
  rw [ends_readWhere]
  cases read : commands .readUnit with
  | takesEffect =>
    rw [CommandOutcome.after_takesEffect, isContent, Option.elim_some, snapshotMetadata,
      ends_query]
    cases stat : commands .statMode with
    | takesEffect =>
      rw [CommandOutcome.after_takesEffect, isMode, ends_query]
      cases statOwner : commands .statOwner with
      | takesEffect =>
        rw [CommandOutcome.after_takesEffect, isOwner, ends_pure, trim_octal, trim_spec]
        refine ⟨rfl, .inl ⟨_, rfl, ⟨sees, isContent, ?_, ?_⟩, .inr ⟨sees, read, stat, statOwner⟩⟩⟩
        · rw [isMode, Option.map_some]
        · rw [isOwner, Option.map_some]
      | fails =>
        rw [CommandOutcome.after_fails, ends_pure]
        exact ⟨rfl, .inr ⟨.inl rfl, incomplete (by simp [statOwner])⟩⟩
      | throws error => exact ⟨rfl, .inr ⟨.inr ⟨_, rfl⟩, incomplete (by simp [statOwner])⟩⟩
    | fails =>
      rw [CommandOutcome.after_fails, ends_pure]
      exact ⟨rfl, .inr ⟨.inl rfl, incomplete (by simp [stat])⟩⟩
    | throws error => exact ⟨rfl, .inr ⟨.inr ⟨_, rfl⟩, incomplete (by simp [stat])⟩⟩
  | fails => exact ⟨rfl, .inr ⟨.inr ⟨_, rfl⟩, incomplete (by simp [read])⟩⟩
  | throws error => exact ⟨rfl, .inr ⟨.inr ⟨_, rfl⟩, incomplete (by simp [read])⟩⟩

theorem snapshotComposeSystemdUnitFile_spec :
    Ends commands (snapshotComposeSystemdUnitFile machine) (Snapshots machine commands host)
      host := by
  have absent : SeesNone commands host →
      Ends commands (pure (some ComposeSystemdUnitFileSnapshot.absent))
        (Snapshots machine commands host) host :=
    fun none => ends_pure.2 ⟨rfl, .inl ⟨_, rfl, none, .inl none⟩⟩
  unfold snapshotComposeSystemdUnitFile
  rw [ends_tests]
  cases test : commands .testExists with
  | takesEffect =>
    rw [CommandOutcome.after_takesEffect]
    cases isThere : host.unit.exists with
    | false =>
      rw [Bool.not_false, if_pos rfl]
      exact absent (.inr ⟨test, .inl isThere⟩)
    | true =>
      rw [Bool.not_true, if_neg Bool.false_ne_true, ends_tests]
      cases symlink : commands .testSymlink with
      | takesEffect =>
        rw [CommandOutcome.after_takesEffect]
        cases isLink : host.unit.isLink with
        | true =>
          rw [if_pos rfl]
          exact absent (.inr ⟨test, .inr ⟨isThere, symlink, isLink⟩⟩)
        | false =>
          rw [if_neg Bool.false_ne_true]
          exact readSnapshot_spec ⟨test, isThere, .inr ⟨symlink, isLink⟩⟩
      | fails =>
        rw [CommandOutcome.after_fails, if_neg Bool.false_ne_true]
        exact readSnapshot_spec ⟨test, isThere, .inl symlink⟩
      | throws error =>
        refine ⟨rfl, .inr ⟨.inr ⟨_, rfl⟩, ?_⟩⟩
        simp [UnitSnapshotted, SeesNone, SeesFile, test, isThere, symlink]
  | fails =>
    rw [CommandOutcome.after_fails, Bool.not_false, if_pos rfl]
    exact absent (.inl test)
  | throws error =>
    refine ⟨rfl, .inr ⟨.inr ⟨_, rfl⟩, ?_⟩⟩
    simp [UnitSnapshotted, SeesNone, SeesFile, test]

/-! ### Write -/

/-- The unit path holds the content with the mode and the owner that it was written with. -/
def Wrote (host : ComposeHost) (content : Text) (after : ComposeHost) : Prop :=
  ∃ owner, after = host.put (.regular content (FileMode.ofOctal SYSTEMD_UNIT_MODE) owner)

/-- What is read of a unit that was written decides the verification. -/
theorem verify_spec {key : ComposeStep} {after : ComposeHost} (wrote : Wrote host content after) :
    Ends commands (verifyNonEmptySystemdUnit machine key content) (fun result final =>
      final = after ∧ (commands key = .takesEffect ∧
          (∃ verified, result = .ok verified ∧
            (verified = .matching ↔ ReadsBack machine content)) ∨
        commands key ≠ .takesEffect ∧ ∃ error, result = .error (.raised error))) after := by
  obtain ⟨owner, rfl⟩ := wrote
  unfold verifyNonEmptySystemdUnit readFile
  rw [ends_readWhere]
  cases read : commands key with
  | takesEffect =>
    rw [CommandOutcome.after_takesEffect, put_unit, UnitPath.read, Option.elim_some, ends_pure]
    refine ⟨rfl, .inl ⟨rfl, _, rfl, ?_⟩⟩
    rw [ReadsBack]
    by_cases empty : trim (machine.captured content) = []
    · simp [empty]
    · by_cases same : trim (machine.captured content) = trim content
      · simp [← same, empty]
      · simp [empty, same]
  | fails => exact ⟨rfl, .inr ⟨nofun, _, rfl⟩⟩
  | throws error => exact ⟨rfl, .inr ⟨nofun, _, rfl⟩⟩

/-- The shell writes the same content, which reads back no better. -/
theorem rewriteComposeSystemdUnitViaShell_spec {after : ComposeHost}
    (wrote : Wrote host content after) (unread : ¬ReadsBack machine content) :
    Ends commands (rewriteComposeSystemdUnitViaShell machine content) (fun result final =>
      Wrote host content final ∧ (result = .ok false ∧ FallbackEnds commands ∨
        (∃ error, result = .error (.raised error)) ∧ ¬FallbackEnds commands)) after := by
  unfold rewriteComposeSystemdUnitViaShell
  rw [ends_step]
  cases temporary : commands .mktemp with
  | takesEffect =>
    have noLink : after.unit.isLink = false := by
      obtain ⟨owner, rfl⟩ := wrote
      rfl
    rw [CommandOutcome.after_takesEffect, Bool.not_true, if_neg Bool.false_ne_true, id_eq,
      ends_stepWhere]
    cases shell : commands .shellWrite with
    | takesEffect =>
      have rewrote : ∀ mode : FileMode, after.shellWrite content mode =
          some (after.put (.regular content mode.chowned rootOwner)) := by
        intro mode
        rw [ComposeHost.shellWrite, noLink, if_neg Bool.false_ne_true]
      have wroteAgain : Wrote host content (after.put (.regular content
          (FileMode.ofOctal SYSTEMD_UNIT_MODE).chowned rootOwner)) := by
        obtain ⟨owner, rfl⟩ := wrote
        exact ⟨rootOwner, rfl⟩
      rw [CommandOutcome.after_takesEffect, rewrote, Option.elim_some, Bool.not_true,
        if_neg Bool.false_ne_true, ends_bind]
      refine (verify_spec wroteAgain).mono fun result final holds => ?_
      obtain ⟨rfl, ⟨verify, verified, rfl, matching⟩ | ⟨verify, error, rfl⟩⟩ := holds
      · rw [Remote.onValue_ok, ends_pure]
        refine ⟨wroteAgain, .inl ⟨?_, .inr ⟨temporary, .inr ⟨shell, verify⟩⟩⟩⟩
        rw [decide_eq_false fun isMatching => unread (matching.1 isMatching)]
      · refine ⟨wroteAgain, .inr ⟨⟨_, rfl⟩, ?_⟩⟩
        simp [FallbackEnds, temporary, shell, verify]
    | fails =>
      rw [CommandOutcome.after_fails, Bool.not_false, if_pos rfl, ends_step]
      cases remove : commands .removeTemporary with
      | takesEffect =>
        rw [CommandOutcome.after_takesEffect, ends_pure]
        exact ⟨wrote, .inl ⟨rfl, .inr ⟨temporary, .inl ⟨shell, .inl remove⟩⟩⟩⟩
      | fails =>
        rw [CommandOutcome.after_fails, ends_pure]
        exact ⟨wrote, .inl ⟨rfl, .inr ⟨temporary, .inl ⟨shell, .inr remove⟩⟩⟩⟩
      | throws error =>
        refine ⟨wrote, .inr ⟨⟨_, rfl⟩, ?_⟩⟩
        simp [FallbackEnds, temporary, shell, remove]
    | throws error =>
      refine ⟨wrote, .inr ⟨⟨_, rfl⟩, ?_⟩⟩
      simp [FallbackEnds, temporary, shell]
  | fails =>
    rw [CommandOutcome.after_fails, Bool.not_false, if_pos rfl, ends_pure]
    exact ⟨wrote, .inl ⟨rfl, .inl temporary⟩⟩
  | throws error =>
    refine ⟨wrote, .inr ⟨⟨_, rfl⟩, ?_⟩⟩
    simp [FallbackEnds, temporary]

/-- What the write ends with -/
def Writes (machine : ComposeMachine) (commands : ComposeCommands) (host : ComposeHost)
    (content : Text) (result : Except (Exit Unit) Bool) (after : ComposeHost) : Prop :=
  result = .ok false ∧ WriteRefused commands host ∧ after = host.unmask ∨
    Wrote host content after ∧
      (result = .ok false ∧ WriteDone commands host ∧ ¬ReadsBack machine content ∧
          FallbackEnds commands ∨
        result = .ok true ∧ WriteDone commands host ∧ ReadsBack machine content) ∨
    (∃ error, result = .error (.raised error)) ∧ ¬WriteRefused commands host ∧
      ¬FailsWritten machine commands host content

theorem writeAndVerify_spec (probed : (commands .testSymlinkAgain).Returns) :
    Ends commands (writeAndVerify machine content) (Writes machine commands host content)
      host.unmask := by
  have refused : (host.unmask.unit.isLink = true ∨ commands .writeUnit ≠ .takesEffect) →
      Ends commands (pure false) (Writes machine commands host content) host.unmask :=
    fun refused => ends_pure.2 (.inl ⟨rfl, ⟨probed, refused⟩, rfl⟩)
  unfold writeAndVerify writeFile
  rw [if_pos (by decide), ends_attempt_requireWhere]
  cases write : commands .writeUnit with
  | takesEffect =>
    rw [CommandOutcome.after_takesEffect]
    cases isLink : host.unmask.unit.isLink with
    | true =>
      rw [write_link machine content _ isLink, Option.elim_none]
      exact refused (.inl isLink)
    | false =>
      obtain ⟨written, owner, isWritten, kinds⟩ :=
        write_file machine content (FileMode.ofOctal SYSTEMD_UNIT_MODE) isLink
      have sameMode : written = FileMode.ofOctal SYSTEMD_UNIT_MODE := by
        rcases kinds with rfl | rfl
        · rfl
        · decide
      have wrote : Wrote host content
          (host.unmask.put (.regular content written owner)) := by
        rw [unmask_eq, put_put, sameMode]
        exact ⟨owner, rfl⟩
      rw [isWritten, Option.elim_some, ends_bind]
      refine (verify_spec wrote).mono fun result after holds => ?_
      obtain ⟨rfl, ⟨verify, verified, rfl, matching⟩ | ⟨verify, error, rfl⟩⟩ := holds
      · have done : WriteDone commands host := ⟨probed, isLink, write, verify⟩
        rw [Remote.onValue_ok]
        split
        · next differs =>
          have unread : ¬ReadsBack machine content := fun reads => differs (matching.2 reads)
          refine (rewriteComposeSystemdUnitViaShell_spec wrote unread).mono
            fun result after holds => ?_
          obtain ⟨wroteAgain, ⟨rfl, ends⟩ | ⟨raised, unfinished⟩⟩ := holds
          · exact .inr (.inl ⟨wroteAgain, .inl ⟨rfl, done, unread, ends⟩⟩)
          · refine .inr (.inr ⟨raised, ?_, ?_⟩)
            · simp [WriteRefused, isLink, write]
            · rintro ⟨_, ⟨_, ends⟩ | ⟨reads, _⟩⟩
              · exact unfinished ends
              · exact unread reads
        · next same =>
          have reads := matching.1 (not_not.1 same)
          exact ends_pure.2 (.inr (.inl ⟨wrote, .inr ⟨rfl, done, reads⟩⟩))
      · refine .inr (.inr ⟨⟨_, rfl⟩, ?_, ?_⟩)
        · simp [WriteRefused, isLink, write]
        · exact fun fails => verify fails.1.2.2.2
  | fails => exact refused (.inr (by simp [write]))
  | throws error => exact refused (.inr (by simp [write]))

theorem writeComposeSystemdUnitFile_spec :
    Ends commands (writeComposeSystemdUnitFile machine content)
      (Writes machine commands host content) host.unmask := by
  unfold writeComposeSystemdUnitFile
  rw [ends_tests]
  cases probe : commands .testSymlinkAgain with
  | takesEffect =>
    rw [CommandOutcome.after_takesEffect]
    split
    · next isLink => exact ends_pure.2 (.inl ⟨rfl, ⟨.inl probe, .inl isLink⟩, rfl⟩)
    · exact writeAndVerify_spec (.inl probe)
  | fails =>
    rw [CommandOutcome.after_fails, if_neg Bool.false_ne_true]
    exact writeAndVerify_spec (.inr probe)
  | throws error =>
    refine .inr (.inr ⟨⟨_, rfl⟩, ?_⟩)
    simp [WriteRefused, FailsWritten, WriteDone, probe]

/-! ### Apply -/

/-- What is left of a path that was not seen -/
theorem restores_of_seesNone {written : Prop} {masked : Bool} (none : SeesNone commands host)
    (masks : masked = true ↔ SeesMask commands host) :
    (if masked then UnitPath.mask else .missing) = host.unit ↔
      Restores machine commands host written := by
  have unseen : ¬SeesFile commands host := fun sees => sees.not_seesNone none
  unfold Restores
  cases unit : host.unit with
  | missing =>
    rw [← masks]
    cases masked with
    | true => simp
    | false => simp
  | regular content mode owner =>
    have untested : commands .testExists ≠ .takesEffect := by
      intro test
      simp [SeesNone, test, unit, UnitPath.exists, UnitPath.isLink] at none
    cases masked with
    | true => simp [untested]
    | false => simp [untested]
  | mask =>
    rw [← masks]
    cases masked with
    | true => simp [unseen]
    | false => simp
  | link target behind =>
    cases masked with
    | true => simp [unseen]
    | false => simp [unseen]

theorem Wrote.ne_host {now : ComposeHost} (wrote : Wrote host content now)
    (small : ∀ content mode owner, host.unit = .regular content mode owner → mode.toNat < 64) :
    now ≠ host := by
  obtain ⟨owner, rfl⟩ := wrote
  intro same
  have below := small _ _ _ (put_eq_iff.1 same).symm
  exact absurd below (by decide)

/-- From the unit that was not written, or was, the rollback restores the host exactly if the
snapshot allows it. -/
theorem rollback_iff (succeeds : RollbackSucceeds commands)
    {masked : Bool} {unitFile : ComposeSystemdUnitFileSnapshot} {written : Prop}
    {now : ComposeHost} (snapshots : UnitSnapshots machine commands host unitFile)
    (masks : masked = true ↔ SeesMask commands host) (isNow : ¬written ∧ now = host.unmask ∨
      written ∧ host.unmask.unit.isLink = false ∧ Wrote host content now) :
    Ends commands (rollbackComposeSystemdTargetAfterFailure machine ⟨masked, unitFile⟩)
      (fun result after => (result = .ok .failed → after = host) ↔
        Restores machine commands host written) now := by
  have putNow : ∀ unit, now.put unit = host.put unit := by
    intro unit
    rcases isNow with ⟨_, rfl⟩ | ⟨_, _, owner, rfl⟩
    · rw [unmask_eq, put_put]
    · rw [put_put]
  cases unitFile with
  | absent =>
    refine (rollback_absent succeeds masked now).mono fun result after holds => ?_
    obtain ⟨rfl, rfl⟩ := holds
    rw [putNow, put_eq_iff, ← restores_of_seesNone snapshots masks]
    simp
  | captured content' modeText ownerText =>
    obtain ⟨sees, isContent, isMode, isOwner⟩ := snapshots
    cases unit : host.unit with
    | missing => simp [SeesFile, unit, UnitPath.exists] at sees
    | regular content mode owner =>
      rw [unit] at isContent isMode isOwner
      cases isContent
      cases isMode
      cases isOwner
      have unmasked : host.unmask = host := by simp [ComposeHost.unmask, unit]
      have noLink : now.unit.isLink = false := by
        rcases isNow with ⟨_, rfl⟩ | ⟨_, _, other, rfl⟩
        · simp [unmasked, unit, UnitPath.isLink]
        · rfl
      by_cases valid : 64 ≤ mode.toNat
      · refine (rollback_captured succeeds masked _ owner valid noLink).mono
          fun result after holds => ?_
        obtain ⟨rfl, rfl⟩ := holds
        rw [putNow, put_eq_iff, unit]
        simp [Restores, unit, sees.1, valid, Nat.not_lt.2 valid]
      · refine (rollback_invalid masked _ _ now (by omega)).mono fun result after holds => ?_
        obtain ⟨rfl, rfl⟩ := holds
        have small : mode.toNat < 64 := by omega
        have isHost : after = host ↔ ¬written := by
          rcases isNow with ⟨unwritten, rfl⟩ | ⟨isWritten, _, wrote⟩
          · simp [unmasked, unwritten]
          · refine iff_of_false (wrote.ne_host ?_) (not_not.2 isWritten)
            intro _ _ _ other
            rw [unit] at other
            cases other
            exact small
        simp [Restores, unit, sees.1, valid, small, isHost]
    | mask =>
      rw [unit] at isContent isMode isOwner
      cases isMode
      cases isOwner
      have noLink : now.unit.isLink = false := by
        rcases isNow with ⟨_, rfl⟩ | ⟨_, _, other, rfl⟩
        · simp [ComposeHost.unmask, unit, UnitPath.isLink]
        · rfl
      refine (rollback_captured succeeds masked _ _ (by decide) noLink).mono
        fun result after holds => ?_
      obtain ⟨rfl, rfl⟩ := holds
      rw [putNow, put_eq_iff, unit]
      simp [Restores, unit, sees]
    | link target behind =>
      have unmasked : host.unmask = host := by simp [ComposeHost.unmask, unit]
      have isLink : host.unit.isLink = true := by simp [unit, UnitPath.isLink]
      have isHost : now = host := by
        rcases isNow with ⟨_, rfl⟩ | ⟨_, noLink, _⟩
        · exact unmasked
        · rw [unmasked, isLink] at noLink
          cases noLink
      rw [isHost]
      refine (rollback_link succeeds masked _ _ _ isLink).mono fun result after holds => ?_
      obtain ⟨rfl, rfl⟩ := holds
      simp [Restores, unit, sees]

theorem isEnabled_spec :
    Ends commands snapshotComposeSystemdMaskState (fun result after => after = host ∧
      ((∃ masked, result = .ok masked ∧ (masked = true ↔ SeesMask commands host) ∧
          (commands .isEnabled).Returns) ∨
        (∃ error, result = .error (.raised error)) ∧ ¬(commands .isEnabled).Returns)) host := by
  unfold snapshotComposeSystemdMaskState Remote.tests
  rw [ends_query]
  cases enabled : commands .isEnabled with
  | takesEffect =>
    rw [CommandOutcome.after_takesEffect, ends_pure]
    cases masked : host.isMasked with
    | true => simp [SeesMask, enabled, masked]
    | false => simp [SeesMask, enabled, masked]
  | fails =>
    rw [CommandOutcome.after_fails, ends_pure]
    simp [SeesMask, enabled]
  | throws error => simp

theorem snapshotComposeSystemdTarget_spec :
    Ends commands (snapshotComposeSystemdTarget machine) (fun result after => after = host ∧
      ((∃ masked unitFile, result = .ok (some ⟨masked, unitFile⟩) ∧
          UnitSnapshots machine commands host unitFile ∧
          (masked = true ↔ SeesMask commands host) ∧ Snapshotted commands host) ∨
        (result = .ok none ∨ ∃ error, result = .error (.raised error)) ∧
          ¬Snapshotted commands host)) host := by
  unfold snapshotComposeSystemdTarget
  rw [ends_bind]
  refine snapshotComposeSystemdUnitFile_spec.mono fun result after holds => ?_
  obtain ⟨rfl, ⟨unitFile, rfl, snapshots, taken⟩ | ⟨rfl | ⟨error, rfl⟩, untaken⟩⟩ := holds
  · rw [Remote.onValue_ok, ends_bind]
    refine isEnabled_spec.mono fun result after holds => ?_
    obtain ⟨rfl, ⟨masked, rfl, masks, returns⟩ | ⟨⟨error, rfl⟩, returns⟩⟩ := holds
    · rw [Remote.onValue_ok, ends_pure]
      exact ⟨rfl, .inl ⟨masked, unitFile, rfl, snapshots, masks, taken, returns⟩⟩
    · exact ⟨rfl, .inr ⟨.inr ⟨_, rfl⟩, fun snapshotted => returns snapshotted.2⟩⟩
  · rw [Remote.onValue_ok, ends_pure]
    exact ⟨rfl, .inr ⟨.inl rfl, fun snapshotted => untaken snapshotted.1⟩⟩
  · exact ⟨rfl, .inr ⟨.inr ⟨_, rfl⟩, fun snapshotted => untaken snapshotted.1⟩⟩

/-- The exits behind the snapshot and the end of the mask -/
theorem writeAndReload_spec (succeeds : RollbackSucceeds commands) {masked : Bool}
    {unitFile : ComposeSystemdUnitFileSnapshot}
    (snapshots : UnitSnapshots machine commands host unitFile)
    (masks : masked = true ↔ SeesMask commands host) :
    Ends commands (writeAndReload machine content ⟨masked, unitFile⟩)
      (fun result after => (result = .ok .failed → after = host) ↔
        (WriteRefused commands host ∨ FailsWritten machine commands host content →
          Restores machine commands host (FailsWritten machine commands host content)))
      host.unmask := by
  have rolls : ∀ {now}, (¬FailsWritten machine commands host content ∧ now = host.unmask ∨
        FailsWritten machine commands host content ∧ host.unmask.unit.isLink = false ∧
          Wrote host content now) →
      (WriteRefused commands host ∨ FailsWritten machine commands host content) →
      Ends commands (rollbackComposeSystemdTargetAfterFailure machine ⟨masked, unitFile⟩)
        (fun result after => (result = .ok .failed → after = host) ↔
          (WriteRefused commands host ∨ FailsWritten machine commands host content →
            Restores machine commands host (FailsWritten machine commands host content)))
        now := by
    intro now isNow fails
    refine (rollback_iff succeeds snapshots masks isNow).mono fun result after holds => ?_
    rw [holds]
    simp [fails]
  unfold writeAndReload
  rw [ends_bind]
  refine writeComposeSystemdUnitFile_spec.mono fun result after holds => ?_
  obtain ⟨rfl, refused, rfl⟩ | ⟨wrote, ⟨rfl, done, unread, ends⟩ | ⟨rfl, done, reads⟩⟩ |
    ⟨⟨error, rfl⟩, noRefusal, unfinished⟩ := holds
  · have unwritten : ¬FailsWritten machine commands host content := by
      rintro ⟨⟨_, noLink, write, _⟩, _⟩
      rcases refused.2 with isLink | fails
      · rw [noLink] at isLink
        cases isLink
      · exact fails write
    rw [Remote.onValue_ok, Bool.not_false, if_pos rfl]
    exact rolls (.inl ⟨unwritten, rfl⟩) (.inl refused)
  · have fails : FailsWritten machine commands host content := ⟨done, .inl ⟨unread, ends⟩⟩
    rw [Remote.onValue_ok, Bool.not_false, if_pos rfl]
    exact rolls (.inr ⟨fails, done.2.1, wrote⟩) (.inr fails)
  · have noRefusal : ¬WriteRefused commands host := by
      rintro ⟨_, isLink | fails⟩
      · rw [done.2.1] at isLink
        cases isLink
      · exact fails done.2.2.1
    have isOwner : Owner.ofSpec (text "root:root") = some rootOwner := by decide
    rw [Remote.onValue_ok, Bool.not_true, if_neg Bool.false_ne_true, chownUnit,
      if_pos (by decide), ends_stepWhere, isOwner, Option.bind_some]
    obtain ⟨owner, rfl⟩ := wrote
    have chowned : Wrote host content ((host.put (.regular content
        (FileMode.ofOctal SYSTEMD_UNIT_MODE) owner)).put (.regular content
          (FileMode.ofOctal SYSTEMD_UNIT_MODE).chowned rootOwner)) := ⟨rootOwner, rfl⟩
    cases chown : commands .chown with
    | takesEffect =>
      rw [CommandOutcome.after_takesEffect, ComposeHost.chown]
      dsimp only [put_unit]
      rw [Option.elim_some, Bool.not_true, if_neg Bool.false_ne_true, ends_step]
      cases reload : commands .reload with
      | takesEffect =>
        rw [CommandOutcome.after_takesEffect, if_pos rfl, ends_pure]
        simp [FailsWritten, noRefusal, chown, reload, reads]
      | fails =>
        have fails : FailsWritten machine commands host content :=
          ⟨done, .inr ⟨reads, .inr ⟨chown, reload⟩⟩⟩
        rw [CommandOutcome.after_fails, if_neg Bool.false_ne_true]
        exact rolls (.inr ⟨fails, done.2.1, chowned⟩) (.inr fails)
      | throws error => simp [FailsWritten, noRefusal, chown, reload, reads]
    | fails =>
      have fails : FailsWritten machine commands host content := ⟨done, .inr ⟨reads, .inl chown⟩⟩
      rw [CommandOutcome.after_fails, Bool.not_false, if_pos rfl]
      exact rolls (.inr ⟨fails, done.2.1, owner, rfl⟩) (.inr fails)
    | throws error => simp [FailsWritten, noRefusal, chown, reads]
  · simp [noRefusal, unfinished]

theorem applyComposeSystemdUnit_spec (succeeds : RollbackSucceeds commands) :
    Ends commands (applyComposeSystemdUnit machine content)
      (fun result after => (result = .ok .failed → after = host) ↔
        (RollsBack machine commands host content →
          Restores machine commands host (FailsWritten machine commands host content)))
      host := by
  unfold applyComposeSystemdUnit
  rw [ends_bind]
  refine snapshotComposeSystemdTarget_spec.mono fun result after holds => ?_
  obtain ⟨rfl, ⟨masked, unitFile, rfl, snapshots, masks, taken⟩ | ⟨rfl | ⟨error, rfl⟩, untaken⟩⟩ :=
    holds
  · rw [Remote.onValue_ok, ends_step]
    cases unmask : commands .unmask with
    | takesEffect =>
      rw [CommandOutcome.after_takesEffect, Bool.not_true, if_neg Bool.false_ne_true]
      refine (writeAndReload_spec succeeds snapshots masks).mono fun result after holds => ?_
      rw [holds]
      simp [RollsBack, taken, unmask]
    | fails =>
      rw [CommandOutcome.after_fails, Bool.not_false, if_pos rfl, ends_pure]
      simp [RollsBack, unmask]
    | throws error => simp [RollsBack, unmask]
  · rw [Remote.onValue_ok, ends_pure]
    simp [RollsBack, untaken]
  · simp [RollsBack, untaken]

/-- What the search for a runtime ends with -/
def FindsRuntime (commands : ComposeCommands) (host : ComposeHost)
    (explicit : Option ComposeRuntime) (result : Except (Exit Unit) (Option ComposeRuntime))
    (after : ComposeHost) : Prop :=
  after = host ∧
    ((∃ runtime, result = .ok (some runtime) ∧
        ∀ other, FoundRuntime commands host explicit other ↔ other = runtime) ∨
      (result = .ok none ∨ ∃ error, result = .error (.raised error)) ∧
        ∀ other, ¬FoundRuntime commands host explicit other)

theorem ComposeRuntime.forall_iff {fact : ComposeRuntime → Prop} :
    (∀ runtime, fact runtime) ↔ fact .docker ∧ fact .podman := by
  constructor
  · exact fun all => ⟨all .docker, all .podman⟩
  · rintro ⟨docker, podman⟩ (_ | _)
    · exact docker
    · exact podman

theorem testDocker_spec (noPodman : commands .testPodman = .fails ∨
    commands .testPodman = .takesEffect ∧ host.hasPodman = false) : Ends commands (do
      if ← Remote.tests .testDocker ComposeHost.hasDocker then pure (some ComposeRuntime.docker)
      else pure none) (FindsRuntime commands host none) host := by
  have notPodman : ¬(commands .testPodman = .takesEffect ∧ host.hasPodman = true) := by
    rcases noPodman with fails | ⟨_, hasNot⟩
    · simp [fails]
    · simp [hasNot]
  rw [ends_tests]
  cases docker : commands .testDocker with
  | takesEffect =>
    rw [CommandOutcome.after_takesEffect]
    cases has : host.hasDocker with
    | true =>
      refine ends_pure.2 ⟨rfl, .inl ⟨.docker, rfl, ComposeRuntime.forall_iff.2 ⟨?_, ?_⟩⟩⟩
      · simp [FoundRuntime, noPodman, docker, has]
      · simpa [FoundRuntime] using notPodman
    | false =>
      refine ends_pure.2 ⟨rfl, .inr ⟨.inl rfl, ComposeRuntime.forall_iff.2 ⟨?_, notPodman⟩⟩⟩
      simp [FoundRuntime, has]
  | fails =>
    refine ends_pure.2 ⟨rfl, .inr ⟨.inl rfl, ComposeRuntime.forall_iff.2 ⟨?_, notPodman⟩⟩⟩
    simp [FoundRuntime, docker]
  | throws error =>
    refine ⟨rfl, .inr ⟨.inr ⟨_, rfl⟩, ComposeRuntime.forall_iff.2 ⟨?_, notPodman⟩⟩⟩
    simp [FoundRuntime, docker]

theorem getRuntime_spec (explicit : Option ComposeRuntime) :
    Ends commands (getRuntime explicit) (FindsRuntime commands host explicit) host := by
  cases explicit with
  | some explicit => exact ends_pure.2 ⟨rfl, .inl ⟨explicit, rfl, fun _ => Iff.rfl⟩⟩
  | none =>
    unfold getRuntime detectRuntime
    rw [ends_tests]
    cases podman : commands .testPodman with
    | takesEffect =>
      rw [CommandOutcome.after_takesEffect]
      cases has : host.hasPodman with
      | true =>
        refine ends_pure.2 ⟨rfl, .inl ⟨.podman, rfl, ComposeRuntime.forall_iff.2 ⟨?_, ?_⟩⟩⟩
        · simp [FoundRuntime, podman, has]
        · simp [FoundRuntime, podman, has]
      | false => exact testDocker_spec (.inr ⟨podman, has⟩)
    | fails => exact testDocker_spec (.inl podman)
    | throws error =>
      refine ⟨rfl, .inr ⟨.inr ⟨_, rfl⟩, ComposeRuntime.forall_iff.2 ⟨?_, ?_⟩⟩⟩
      · simp [FoundRuntime, podman]
      · simp [FoundRuntime, podman]

/-! ### Main result -/

/-- With a rollback that succeeds, a failed apply leaves unit path and mask as they were exactly
where, once a runtime is found and the rollback is reached, what stood at the unit path is
something that the snapshot can restore. -/
theorem compose_systemd_undone_iff (options : ComposeSystemdOptions)
    (succeeds : RollbackSucceeds commands) :
    Undone machine commands host options ↔
      ∀ runtime, FoundRuntime commands host options.runtime runtime →
        validateComposeProjectDirectory options.projectDirectory = true →
        RollsBack machine commands host (generateSystemdUnit options.projectDirectory
          options.serviceName options.detached runtime) →
        Restores machine commands host (FailsWritten machine commands host
          (generateSystemdUnit options.projectDirectory options.serviceName options.detached
            runtime)) := by
  refine ends_iff.1 (?_ : Ends commands (applyComposeSystemd machine options) (fun result after =>
    (result = .ok .failed → after = host) ↔ _) host)
  unfold applyComposeSystemd
  rw [ends_bind]
  refine (getRuntime_spec options.runtime).mono fun result after holds => ?_
  obtain ⟨rfl, ⟨runtime, rfl, isRuntime⟩ | ⟨rfl | ⟨error, rfl⟩, noRuntime⟩⟩ := holds
  · rw [Remote.onValue_ok]
    dsimp only
    cases valid : validateComposeProjectDirectory options.projectDirectory with
    | true =>
      rw [Bool.not_true, if_neg Bool.false_ne_true, validate_generateSystemdUnit, Bool.not_true,
        if_neg Bool.false_ne_true]
      refine (applyComposeSystemdUnit_spec succeeds).mono fun result after holds => ?_
      rw [holds]
      simp [isRuntime]
    | false =>
      rw [Bool.not_false, if_pos rfl, ends_pure]
      simp
  · rw [Remote.onValue_ok, ends_pure]
    simp [noRuntime]
  · simp [noRuntime]

/-! ### Runs -/

/-- A machine that reads contents as they are, connected as root. -/
def plainMachine : ComposeMachine :=
  { captured := id, asRoot := true, directoryOwner := rootOwner, linkOwner := rootOwner }

def dockerHost (unit : UnitPath) : ComposeHost :=
  { unit := unit, runtimeMask := false, hasPodman := false, hasDocker := true }

def appOptions : ComposeSystemdOptions :=
  { detached := true
    serviceName := text "compose-app"
    projectDirectory := text "/srv/app"
    runtime := some .docker }

def reloadFails (key : ComposeStep) : CommandOutcome Unit :=
  if key = .reload then .fails else .takesEffect

/-- A unit whose replacement cannot be loaded is written back. -/
theorem failed_reload_undone : Undone plainMachine reloadFails
    (dockerHost (.regular (text "[Unit]") 0x1A4 rootOwner)) appOptions := by
  apply (compose_systemd_undone_iff appOptions (by decide)).2
  intro runtime _ _ _
  exact ⟨by decide, .inl ⟨by decide, rfl, by decide⟩⟩

/-- All steps take effect; the write is refused at a link, and the rollback removes it. -/
theorem refused_link_removed : RollbackSucceeds (fun _ => .takesEffect) ∧
    ¬Undone plainMachine (fun _ => .takesEffect)
      (dockerHost (.link (text "/opt/app.service") (some (text "[Unit]")))) appOptions := by
  refine ⟨by decide, fun undone => ?_⟩
  have same := undone (by decide +kernel)
  exact absurd same (by decide +kernel)

end Paratix.Compose
