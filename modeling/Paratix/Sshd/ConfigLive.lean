/-
Module: Paratix.Sshd.ConfigLive
Purpose: When runs of sshd.config keep the daemon on the file, and that what a converged
  run reports is then live.
Main exports: InStep, converged_is_live
-/
import Paratix.Foundation.Run
import Paratix.Sshd.Config

namespace Paratix.Sshd

open Foundation Archive Orchestration

abbrev ConfigScript := ConfigStep → StepOutcome RemoteError

/-- The daemon runs with what the file holds. -/
def InStep (host : SshdHost) : Prop := host.loaded = host.config

instance (host : SshdHost) : Decidable (InStep host) := inferInstanceAs (Decidable (_ = _))

/-- What the daemon makes of the content has the requested settings. -/
def Contains (daemon : Daemon) (settings : SshdSettings) (content : Text) : Prop :=
  ((daemon.effective content).map fun output =>
    findNonMatchingEffectiveSshdSetting daemon.toLowerCase output settings) = some none

instance (daemon : Daemon) (settings : SshdSettings) (content : Text) :
    Decidable (Contains daemon settings content) := inferInstanceAs (Decidable (_ = _))

/-! ### Which outcomes leave the daemon on the file -/

section Conditions

variable (daemon : Daemon) (settings : SshdSettings) (script : ConfigScript)

/-- The call comes back with an exit code. -/
def Answers (key : ConfigStep) : Prop := ∃ completed, (script key).report = .ok completed

/-- The rollback of a failed reload undoes the write, and the reload where it took effect
nevertheless; or it undoes neither. -/
def ReloadRollbackLands (reloaded : Bool) : Prop :=
  if reloaded then
    (script .undoFailedReload).takesEffect = false ∨
      script .undoFailedReload = .completed ∧ script .findExecReloadAgain = .completed ∧
        (script .reloadAgain).takesEffect = true
  else (script .undoFailedReload).takesEffect = true

def ReloadLands : Prop :=
  Answers script .findExecReload ∧
    match script .reload with
    | .completed => True
    | .threw tookEffect _ | .interrupted tookEffect => tookEffect = true
    | .refused tookEffect => ReloadRollbackLands script tookEffect

/-- One of the attempts to write the old content back takes effect. -/
def RollbackLands : Nat → Prop
  | 0 => False
  | left + 1 =>
      (script (.rollbackWrite left)).takesEffect = true ∨
        (∃ result, Remote.caught ((script (.rollbackWrite left)).demanded .other) = .ok result) ∧
          RollbackLands left

/-- What follows a write that completed: the answer of `sshd -T` decides between the reload
and the rollback. -/
def CompletedWriteLands (newContent : Text) : Prop :=
  Answers script .effectiveDirectory ∧
    (script .effectiveDirectory = .completed → Answers script .effectiveConfig) ∧
    if script .effectiveDirectory = .completed ∧ script .effectiveConfig = .completed ∧
        Contains daemon settings newContent then
      ReloadLands script
    else RollbackLands script SSHD_ROLLBACK_WRITE_ATTEMPTS

/-- Only a write that completed goes on; the others are undone where the file already has
the new content. -/
def WriteLands (newContent : Text) : Prop :=
  match script .writeConfig with
  | .completed => CompletedWriteLands daemon settings script newContent
  | .refused tookEffect | .threw tookEffect _ =>
      tookEffect = true → script .readAfterFailedWrite = .completed ∧
        (script .undoFailedWrite).takesEffect = true
  | .interrupted tookEffect => tookEffect = false

def UnitFound : Prop :=
  script .findSshdUnit = .completed ∨
    (script .findSshdUnit).report = .ok false ∧ script .findSshUnit = .completed

def CandidateValid (newContent : Text) : Prop :=
  script .allocateCandidate = .completed ∧ script .writeCandidate = .completed ∧
    script .candidateDirectory = .completed ∧ script .candidateSyntax = .completed ∧
    daemon.accepts newContent = true ∧ Answers script .removeCandidate

/-- Nothing ends the run before it writes the new content. -/
def ReachesWrite (newContent : Text) : Prop :=
  script .readConfig = .completed ∧
    findContradictingSshdMatchBlockOverride daemon.toLowerCase newContent settings = none ∧
    UnitFound script ∧ CandidateValid daemon script newContent ∧
    script .rereadConfig = .completed

/-- The outcomes of the steps leave a host in step where the apply found it in step. -/
def Settles (originalConfig : Text) : Prop :=
  let built := buildSshdConfigContent daemon.toLowerCase originalConfig settings
  built.didChange = true → script .acquireLease = .completed →
    ReachesWrite daemon settings script built.newContent →
    WriteLands daemon settings script built.newContent

end Conditions

/-! ### Reload -/

section Steps

variable {daemon : Daemon} {settings : SshdSettings} {script : ConfigScript}

theorem reloadAgain_spec {original new : Text} (apart : new ≠ original) (reloaded : Bool) :
    Remote.Leads script (fun _ => True) runPostRollbackReloadOrSurfaceManualRestart
      (fun result after => (InStep after ↔ (reloaded = true →
          script .findExecReloadAgain = .completed ∧
            (script .reloadAgain).takesEffect = true)) ∧
        ∀ status, result = .ok status → status = .failed)
      { config := original, loaded := if reloaded then new else original } := by
  unfold runPostRollbackReloadOrSurfaceManualRestart InStep quiet
  rcases found : script .findExecReloadAgain with _ | _ | _ | _
  case completed =>
    rcases again : script .reloadAgain with _ | tookEffect | ⟨tookEffect, _⟩ | tookEffect
    case completed => simp [found, again, SshdHost.load]
    all_goals cases reloaded <;> cases tookEffect <;> simp [found, again, SshdHost.load, apart]
  all_goals cases reloaded <;> simp [found, apart]

theorem reloadRollback_spec {original new : Text} (apart : new ≠ original) (reloaded : Bool) :
    Remote.Leads script (fun _ => True) (rollbackSshdConfigAfterReloadFailure original)
      (fun result after => (InStep after ↔ ReloadRollbackLands script reloaded) ∧
        ∀ status, result = .ok status → status = .failed)
      { config := new, loaded := if reloaded then new else original } := by
  unfold rollbackSshdConfigAfterReloadFailure ReloadRollbackLands writeFile
  rcases undone : script .undoFailedReload with _ | tookEffect | ⟨tookEffect, _⟩ | tookEffect
  case completed =>
    simp only [Remote.leads_bind, Remote.leads_attempt, Remote.leads_require, undone,
      StepOutcome.demanded, Remote.caught, Remote.onValue_ok, true_and, SshdHost.write,
      StepOutcome.apply_completed]
    refine (reloadAgain_spec apart reloaded).mono fun result after ⟨inStep, failed⟩ => ⟨?_, failed⟩
    cases reloaded <;> simp_all
  all_goals
    cases reloaded <;> cases tookEffect <;>
      simp [undone, InStep, SshdHost.write, apart, apart.symm]

theorem reload_spec {original new : Text} (apart : new ≠ original) :
    Remote.Leads script (fun _ => True) (reloadChangedSshdConfig true original)
      (fun result after => (InStep after ↔ ReloadLands script) ∧
        ∀ status, result = .ok status →
          status = .failed ∨ after = { config := new, loaded := new })
      { config := new, loaded := original } := by
  unfold reloadChangedSshdConfig reloadSshd ReloadLands Answers quiet
  rcases found : script .findExecReload with _ | _ | _ | _
  case threw | interrupted => simp [found, InStep, apart.symm]
  all_goals
    rcases reloads : script .reload with _ | tookEffect | ⟨tookEffect, _⟩ | tookEffect
    case completed => simp [found, reloads, InStep, SshdHost.load]
    case refused =>
      have rolledBack : Remote.Leads script (fun _ => True)
          (rollbackSshdConfigAfterReloadFailure original)
          (fun result after => (InStep after ↔ ReloadRollbackLands script tookEffect) ∧
            ∀ status, result = .ok status →
              status = .failed ∨ after = { config := new, loaded := new }) _ :=
        (reloadRollback_spec apart tookEffect).mono fun _ _ ⟨inStep, failed⟩ =>
          ⟨inStep, fun status ended => .inl (failed status ended)⟩
      cases tookEffect <;> simpa [found, reloads, SshdHost.load] using rolledBack
    all_goals cases tookEffect <;> simp [found, reloads, InStep, SshdHost.load, apart.symm]

/-! ### Effective configuration -/

theorem rollbackWrite_spec (original : Text) (left : Nat) (config : Text) :
    Remote.Leads script (fun _ => True) (writeSshdRollbackWithRetry original left)
      (fun _ after => after.loaded = original ∧
        (after.config = original ↔ config = original ∨ RollbackLands script left))
      { config := config, loaded := original } := by
  induction left generalizing config with
  | zero => simp [writeSshdRollbackWithRetry, RollbackLands]
  | succ left ih =>
    unfold writeSshdRollbackWithRetry RollbackLands writeFile
    have retried := ih config
    have rewritten := ih original
    rcases written : script (.rollbackWrite left) with _ | tookEffect | ⟨tookEffect, _⟩ | tookEffect
    case completed => simp [written, SshdHost.write]
    case interrupted => cases tookEffect <;> simp [written, SshdHost.write]
    all_goals
      cases tookEffect <;> simp [written, SshdHost.write]
      · simpa using retried
      · simpa using rewritten

theorem effectiveRollback_spec (original config : Text) :
    Remote.Leads script (fun _ => True) (rollbackSshdConfigAfterEffectiveMismatch original)
      (fun result after => (InStep after ↔ config = original ∨
          RollbackLands script SSHD_ROLLBACK_WRITE_ATTEMPTS) ∧
        ∀ status, result = .ok status → status = .failed)
      { config := config, loaded := original } := by
  unfold rollbackSshdConfigAfterEffectiveMismatch
  refine Remote.Leads.bind (rollbackWrite_spec original _ config) ?_ ?_
  · rintro exit after ⟨loaded, written⟩
    exact ⟨by rw [InStep, loaded, eq_comm, written], by simp⟩
  · rintro written between ⟨loaded, rewritten⟩
    have inStep : InStep between ↔ config = original ∨
        RollbackLands script SSHD_ROLLBACK_WRITE_ATTEMPTS := by
      rw [InStep, loaded, eq_comm, rewritten]
    unfold verifySshdConfigMatchesRollback readFile
    cases written with
    | false => simpa using inStep
    | true =>
      rcases verified : script .rollbackRead with _ | _ | _ | _ <;>
        simpa [verified, Except.map] using inStep

theorem mismatch_spec {host : SshdHost} :
    Remote.Leads script (fun _ => True) (findEffectiveSshdConfigMismatch daemon settings)
      (fun result after => after = host ∧
        ((∃ mismatch, result = .ok mismatch) ↔ Answers script .effectiveDirectory ∧
          (script .effectiveDirectory = .completed → Answers script .effectiveConfig)) ∧
        (result = .ok .match ↔ script .effectiveDirectory = .completed ∧
          script .effectiveConfig = .completed ∧ Contains daemon settings host.config)) host := by
  unfold findEffectiveSshdConfigMismatch Answers quiet Contains
  rcases created : script .effectiveDirectory with _ | _ | _ | _
  case completed =>
    rcases printed : script .effectiveConfig with _ | _ | _ | _
    case completed =>
      rcases outputs : daemon.effective host.config with _ | output
      · simp [created, printed, outputs, Except.map]
      · rcases found : findNonMatchingEffectiveSshdSetting daemon.toLowerCase output settings <;>
          simp [created, printed, outputs, Except.map, found]
    all_goals simp [created, printed, Except.map]
  all_goals simp [created]

/-- What an apply has to meet: whether it leaves the host in step, and what its success
says. -/
def Applied (daemon : Daemon) (settings : SshdSettings) (lands : Prop)
    (result : Except (Exit RemoteError) ModuleStatus) (after : SshdHost) : Prop :=
  (InStep after ↔ lands) ∧ ∀ status, result = .ok status →
    status = .failed ∨ InStep after ∧ Contains daemon settings after.config

theorem completedWrite_spec {original new : Text} (apart : new ≠ original) :
    Remote.Leads script (fun _ => True) (do
        match ← rejectNonMatchingEffectiveSshdConfig daemon true original settings with
        | some failure => pure failure
        | none => reloadChangedSshdConfig true original)
      (Applied daemon settings (CompletedWriteLands daemon settings script new))
      { config := new, loaded := original } := by
  unfold rejectNonMatchingEffectiveSshdConfig CompletedWriteLands
  simp only [Remote.leads_bind]
  refine mismatch_spec.mono ?_
  rintro result after ⟨same, answers, matching⟩
  subst same
  dsimp only at matching
  rcases result with exit | mismatch
  · have silent := mt answers.2 (by simp)
    rw [← and_assoc]
    simp [silent, Applied, InStep, apart.symm]
  · have answered := answers.1 ⟨mismatch, rfl⟩
    simp only [answered.1, true_and]
    rw [eq_true answered.2, true_and]
    simp only [Except.ok.injEq] at matching
    by_cases isMatch : mismatch = .match
    · rw [if_pos (matching.1 isMatch)]
      have live := (matching.1 isMatch).2.2
      simp only [isMatch, if_true, Remote.onValue_ok, Remote.leads_pure]
      refine (reload_spec apart).mono ?_
      rintro result after ⟨inStep, reloaded⟩
      refine ⟨inStep, ?_⟩
      intro status ended
      rcases reloaded status ended with failed | rfl
      · exact .inl failed
      · exact .inr ⟨rfl, live⟩
    · rw [if_neg (mt matching.2 isMatch)]
      simp only [isMatch, if_false, if_true, Remote.leads_bind, Remote.onValue_ok]
      refine (effectiveRollback_spec original new).mono ?_
      rintro result after ⟨inStep, failed⟩
      have lands : InStep after ↔ RollbackLands script SSHD_ROLLBACK_WRITE_ATTEMPTS := by
        rw [inStep, or_iff_right apart]
      cases result with
      | error exit => exact ⟨lands, fun status ended => (by cases ended)⟩
      | ok status =>
        simp only [Remote.onValue_ok, Remote.leads_pure]
        exact ⟨lands, fun other ended => .inl (failed other ended)⟩

/-! ### Write -/

theorem writeRollback_spec {original new : Text} (apart : new ≠ original) (written : Bool)
    {lands : Prop} (undoes : lands ↔ (written = true →
      script .readAfterFailedWrite = .completed ∧ (script .undoFailedWrite).takesEffect = true)) :
    Remote.Leads script (fun _ => True) (rollbackSshdConfigAfterWriteFailure original new)
      (Remote.onValue (fun _ => Applied daemon settings lands (.ok .failed))
        fun exit => Applied daemon settings lands (.error exit))
      (if written then { config := new, loaded := original }
        else { config := original, loaded := original }) := by
  rw [propext undoes]
  unfold rollbackSshdConfigAfterWriteFailure readFile writeFile Applied InStep
  rcases reread : script .readAfterFailedWrite with _ | _ | _ | _
  case completed =>
    rcases undone : script .undoFailedWrite with _ | tookEffect | ⟨tookEffect, _⟩ | tookEffect
    case completed =>
      cases written <;> simp [reread, undone, Except.map, SshdHost.write, apart.symm]
    all_goals
      cases written <;> cases tookEffect <;>
        simp [reread, undone, Except.map, SshdHost.write, apart.symm]
  all_goals cases written <;> simp [reread, Except.map, apart.symm]

theorem write_spec {original new : Text} (apart : new ≠ original) :
    Remote.Leads script (fun _ => True) (do match ← writeSshdConfigIfChanged true original new with
        | some failure => pure failure
        | none => match ← rejectNonMatchingEffectiveSshdConfig daemon true original settings with
          | some failure => pure failure
          | none => reloadChangedSshdConfig true original)
      (Applied daemon settings
        (script .rereadConfig = .completed → WriteLands daemon settings script new))
      { config := original, loaded := original } := by
  unfold writeSshdConfigIfChanged guardedWriteFile readFile writeFile WriteLands
  rcases reread : script .rereadConfig with _ | _ | _ | _
  case completed =>
    rcases written : script .writeConfig with _ | tookEffect | ⟨tookEffect, _⟩ | tookEffect
    case completed =>
      simpa [reread, written, Except.map, SshdHost.write] using completedWrite_spec apart
    case interrupted =>
      cases tookEffect <;>
        simp [reread, written, Except.map, SshdHost.write, Applied, InStep, apart.symm]
    all_goals
      simpa [reread, written, Except.map, SshdHost.write] using
        writeRollback_spec apart tookEffect Iff.rfl
  case interrupted => simp [reread, Except.map, Applied, InStep]
  all_goals
    have untouched := @writeRollback_spec daemon settings script original new apart false True
      (by simp)
    simpa [reread, Except.map] using untouched

/-! ### Apply -/

theorem unit_spec (host : SshdHost) :
    Remote.Leads script (fun _ => True) (preflightSshdReloadUnitIfChanged true)
      (fun result after => after = host ∧ (result = .ok none ↔ UnitFound script) ∧
        ∀ status, result = .ok (some status) → status = .failed) host := by
  unfold preflightSshdReloadUnitIfChanged resolveSshServiceUnit quiet UnitFound
  rcases sshd : script .findSshdUnit with _ | _ | _ | _
  case refused =>
    rcases ssh : script .findSshUnit with _ | _ | _ | _ <;> simp [sshd, ssh]
  all_goals simp [sshd]

theorem checkCandidate_spec (new : Text) (host : SshdHost) :
    Remote.Leads script (fun _ => True) (checkCandidate daemon new)
      (fun result after => after = host ∧
        (result = .ok true ↔ script .writeCandidate = .completed ∧
          script .candidateDirectory = .completed ∧ script .candidateSyntax = .completed ∧
          daemon.accepts new = true)) host := by
  unfold checkCandidate quiet
  rcases written : script .writeCandidate with _ | _ | _ | _
  case completed =>
    rcases created : script .candidateDirectory with _ | _ | _ | _
    case completed =>
      rcases checked : script .candidateSyntax with _ | _ | _ | _ <;>
        simp [written, created, checked]
    all_goals simp [written, created]
  all_goals simp [written]

theorem candidate_spec (new : Text) (host : SshdHost) :
    Remote.Leads script (fun _ => True) (validateProspectiveSshdConfig daemon new)
      (fun result after => after = host ∧ (result = .ok true ↔ CandidateValid daemon script new))
      host := by
  unfold validateProspectiveSshdConfig CandidateValid Answers
  rcases allocated : script .allocateCandidate with _ | _ | _ | _
  case completed =>
    simp only [Remote.leads_bind, quiet, Remote.leads_step, allocated, StepOutcome.report_completed,
      StepOutcome.apply_completed, Remote.onValue_ok, if_true, id, true_and]
    refine (checkCandidate_spec new host).ensuring ?_ ?_
    · rintro after ⟨same, valid⟩
      simp_all
    · rintro result between ⟨same, valid⟩ -
      rcases removed : script .removeCandidate with _ | _ | _ | _ <;> simp_all
  all_goals simp [allocated, quiet]

theorem didChange_iff {original : Text} :
    (buildSshdConfigContent daemon.toLowerCase original settings).didChange = true ↔
      (buildSshdConfigContent daemon.toLowerCase original settings).newContent ≠ original := by
  simp [buildSshdConfigContent]

/-- A failure before the write leaves the host in step. -/
theorem Applied.of_untouched {lands : Prop} (does : lands) {original : Text}
    {result : Except (Exit RemoteError) ModuleStatus}
    (failed : ∀ status, result = .ok status → status = .failed) :
    Applied daemon settings lands result { config := original, loaded := original } :=
  ⟨iff_of_true rfl does, fun status ended => .inl (failed status ended)⟩

/-- Without a change the apply only looks at the effective configuration. -/
theorem unchanged_spec {original : Text}
    (same : (buildSshdConfigContent daemon.toLowerCase original settings).didChange = false) :
    Remote.Leads script (fun _ => True) (applySshdConfigUnderLock daemon settings)
      (Applied daemon settings True) { config := original, loaded := original } := by
  unfold applySshdConfigUnderLock readFile
  rcases readable : script .readConfig with _ | _ | _ | _
  case completed =>
    simp only [Remote.leads_bind, Remote.leads_read, readable, StepOutcome.demanded_completed,
      Except.map, Remote.onValue_ok, same, true_and]
    split
    · simp [Applied, InStep]
    · simp only [preflightSshdReloadUnitIfChanged, validateIfChanged, writeSshdConfigIfChanged,
        rejectNonMatchingEffectiveSshdConfig, reloadChangedSshdConfig, Remote.leads_bind,
        Remote.leads_pure, Remote.onValue_ok, Bool.false_eq_true, if_false, if_true]
      refine mismatch_spec.mono ?_
      rintro result after ⟨unchanged, -, matching⟩
      subst unchanged
      cases result with
      | error exit => exact .of_untouched trivial fun status ended => (by cases ended)
      | ok mismatch =>
        by_cases isMatch : mismatch = .match
        · have live := (matching.1 (congrArg _ isMatch)).2.2
          simp only [isMatch, Applied, InStep, if_true, Remote.onValue_ok, Remote.leads_pure]
          exact ⟨by simp, fun status _ => .inr ⟨trivial, live⟩⟩
        · simp [isMatch, Applied, InStep]
  all_goals simp [readable, Except.map, Applied, InStep]

theorem changed_spec {original : Text}
    (changed : (buildSshdConfigContent daemon.toLowerCase original settings).didChange = true) :
    Remote.Leads script (fun _ => True) (applySshdConfigUnderLock daemon settings)
      (Applied daemon settings (ReachesWrite daemon settings script
            (buildSshdConfigContent daemon.toLowerCase original settings).newContent →
          WriteLands daemon settings script
            (buildSshdConfigContent daemon.toLowerCase original settings).newContent))
      { config := original, loaded := original } := by
  have apart := didChange_iff.1 changed
  unfold applySshdConfigUnderLock readFile ReachesWrite
  rcases readable : script .readConfig with _ | _ | _ | _
  case completed =>
    simp only [Remote.leads_bind, Remote.leads_read, readable, StepOutcome.demanded_completed,
      Except.map, Remote.onValue_ok, changed, true_and]
    split
    · next _ contradicts => simp [Applied, InStep, contradicts]
    · next consistent =>
      simp only [consistent, true_and, Remote.leads_bind]
      refine (unit_spec _).mono ?_
      rintro result after ⟨unchanged, found, failed⟩
      subst unchanged
      rcases result with exit | (_ | status)
      · refine .of_untouched (fun reaches => ?_) fun status ended => (by cases ended)
        exact absurd (found.2 reaches.1) (by simp)
      · have unitFound := found.1 rfl
        simp only [Remote.onValue_ok, Remote.leads_bind, eq_true unitFound, true_and,
          validateIfChanged, if_true]
        refine (candidate_spec _ _).mono ?_
        rintro result after ⟨unchanged, valid⟩
        subst unchanged
        rcases result with exit | _ | _
        · exact .of_untouched (fun reaches => absurd (valid.2 reaches.1) (by simp)) fun status ended =>
            (by cases ended)
        · refine Remote.leads_pure.2 (.of_untouched (fun reaches => ?_) ?_)
          · exact absurd (valid.2 reaches.1) (by simp)
          · simp
        · have isValid := valid.1 rfl
          simp only [Remote.onValue_ok, if_true, eq_true isValid, true_and]
          exact write_spec apart
      · refine Remote.leads_pure.2 (.of_untouched (fun reaches => ?_) ?_)
        · exact absurd (found.2 reaches.1) (by simp)
        · intro other ended
          cases ended
          exact failed status rfl
  all_goals simp [readable, Except.map, Applied, InStep]

theorem underLock_spec (original : Text) :
    Remote.Leads script (fun _ => True) (applySshdConfigUnderLock daemon settings)
      (Applied daemon settings
        ((buildSshdConfigContent daemon.toLowerCase original settings).didChange = true →
          ReachesWrite daemon settings script
            (buildSshdConfigContent daemon.toLowerCase original settings).newContent →
          WriteLands daemon settings script
            (buildSshdConfigContent daemon.toLowerCase original settings).newContent))
      { config := original, loaded := original } := by
  rcases changed : (buildSshdConfigContent daemon.toLowerCase original settings).didChange
  · simpa using unchanged_spec changed
  · simpa using changed_spec changed

/-- What an apply does to a host whose daemon is on the file -/
theorem apply_spec (original : Text) :
    Remote.Leads script (fun _ => True) (applySshdConfig daemon settings)
      (Applied daemon settings (Settles daemon settings script original))
      { config := original, loaded := original } := by
  unfold applySshdConfig withSshdCommitLease Settles
  rcases acquired : script .acquireLease with _ | _ | _ | _
  case completed =>
    simp only [Remote.leads_bind, quiet, Remote.leads_step, acquired, StepOutcome.report_completed,
      StepOutcome.apply_completed, Remote.onValue_ok, if_true, id, true_and, forall_const]
    refine (underLock_spec original).ensuring (fun after stopped => stopped) ?_
    rintro result between applied -
    rcases released : script .releaseLease with _ | _ | _ | _
    case interrupted => simpa [released, Applied] using applied.1
    all_goals simpa [released] using applied
  all_goals simp [acquired, quiet, Applied, InStep]

end Steps

/-! ### Runs -/

inductive InvocationKind where
  | check
  | apply

/-- One call of the module, with the outcomes of its remote steps -/
structure Invocation where
  kind : InvocationKind
  settings : SshdSettings
  script : ConfigScript

inductive Answer where
  | checked (result : CheckResult)
  | applied (status : ModuleStatus)
deriving DecidableEq

def invoke (daemon : Daemon) (host : SshdHost) (invocation : Invocation) :
    Except (Exit RemoteError) Answer × SshdHost :=
  match invocation.kind with
  | .check =>
      let ending := (checkSshdConfig daemon invocation.settings).run invocation.script host
      (ending.result.map .checked, ending.world)
  | .apply =>
      let ending := (applySshdConfig daemon invocation.settings).run invocation.script host
      (ending.result.map .applied, ending.world)

/-- The answer says that the settings are there. -/
def Answer.Converged (answer : Answer) : Prop :=
  answer = .checked .ok ∨ answer = .applied .ok ∨ answer = .applied .changed

/-- An apply settles; a check always does. -/
def Invocation.Settles (daemon : Daemon) (host : SshdHost) (invocation : Invocation) : Prop :=
  match invocation.kind with
  | .check => True
  | .apply => Sshd.Settles daemon invocation.settings invocation.script host.config

theorem check_spec (daemon : Daemon) (settings : SshdSettings) (script : ConfigScript)
    (host : SshdHost) : Remote.Leads script (fun _ => True) (checkSshdConfig daemon settings)
      (fun result after => after = host ∧ (result = .ok .ok →
        Contains daemon settings host.config)) host := by
  unfold checkSshdConfig readFile
  rcases readable : script .readConfig with _ | _ | _ | _
  case completed =>
    simp only [Remote.leads_bind, Remote.leads_read, readable, StepOutcome.demanded_completed,
      Except.map, Remote.onValue_ok, true_and]
    split
    · simp
    · split
      · simp only [Remote.leads_bind]
        refine mismatch_spec.mono ?_
        rintro result after ⟨unchanged, -, matching⟩
        cases result with
        | error exit => exact ⟨unchanged, fun ended => (by cases ended)⟩
        | ok mismatch =>
          simp only [Remote.onValue_ok, Remote.leads_pure]
          refine ⟨unchanged, fun ended => (matching.1 ?_).2.2⟩
          by_cases isMatch : mismatch = .match
          · rw [isMatch]
          · simp [isMatch] at ended
      · simp
  all_goals simp [readable, Except.map]

/-- An invocation leaves a host in step exactly where it settles. -/
theorem invoke_inStep_iff {daemon : Daemon} {host : SshdHost} (inStep : InStep host)
    (invocation : Invocation) :
    InStep (invoke daemon host invocation).2 ↔ invocation.Settles daemon host := by
  obtain ⟨kind, settings, script⟩ := invocation
  obtain ⟨config, loaded⟩ := host
  cases inStep
  cases kind with
  | check =>
    have unchanged := (check_spec daemon settings script { config := config, loaded := config }).2.1
    refine iff_of_true ?_ trivial
    simp only [invoke]
    rw [unchanged]
    rfl
  | apply => exact (apply_spec config).2.1

/-- What a converged answer on a host in step says is live. -/
theorem contains_of_converged {daemon : Daemon} {host : SshdHost} (inStep : InStep host)
    {invocation : Invocation} {answer : Answer}
    (answered : (invoke daemon host invocation).1 = .ok answer) (converged : answer.Converged) :
    Contains daemon invocation.settings (invoke daemon host invocation).2.loaded := by
  obtain ⟨kind, settings, script⟩ := invocation
  obtain ⟨config, loaded⟩ := host
  cases inStep
  cases kind with
  | check =>
    have checked := (check_spec daemon settings script { config := config, loaded := config }).2
    simp only [invoke] at answered ⊢
    rw [checked.1]
    refine checked.2 ?_
    cases result : ((checkSshdConfig daemon settings).run script
        { config := config, loaded := config }).result with
    | error exit => rw [result] at answered; cases answered
    | ok value =>
      rw [result] at answered
      cases answered
      rcases converged with same | same | same <;> cases same
      rfl
  | apply =>
    have applied := (@apply_spec daemon settings script config).2.2
    simp only [invoke] at answered ⊢
    cases result : ((applySshdConfig daemon settings).run script
        { config := config, loaded := config }).result with
    | error exit => rw [result] at answered; cases answered
    | ok status =>
      rw [result] at answered
      cases answered
      rcases applied status result with failed | ⟨live, contains⟩
      · rcases converged with same | same | same <;> cases same <;> cases failed
      · rw [live]
        exact contains

/-! ### A host -/

def rootLogin (value : String) : Text := text "PermitRootLogin " ++ text value ++ text "
"

def permissiveHost : SshdHost := { config := rootLogin "yes", loaded := rootLogin "yes" }

theorem permissiveHost_inStep : InStep permissiveHost := rfl

def strictSettings : SshdSettings := [(text "PermitRootLogin", text "no")]

def applyStrict (script : ConfigScript) : Invocation :=
  { kind := .apply, settings := strictSettings, script := script }

def laterCheck : Invocation :=
  { kind := .check, settings := strictSettings, script := fun _ => .completed }

/-! ### Runs that settle -/

/-- In runs of checks and applies that all settle, from a host in step, what a check or an
apply reports as converged is in the configuration the daemon loaded. -/
theorem converged_is_live (daemon : Daemon) {first last : SshdHost} {invocations : List Invocation}
    (inStep : InStep first)
    (run : Run (fun host invocation after => (invoke daemon host invocation).2 = after)
      (fun host invocation => invocation.Settles daemon host) first invocations last)
    (invocation : Invocation) (answer : Answer)
    (answered : (invoke daemon last invocation).1 = .ok answer) (converged : answer.Converged) :
    Contains daemon invocation.settings (invoke daemon last invocation).2.loaded := by
  refine contains_of_converged (run.invariant ?_ inStep) answered converged
  rintro host step after held settles rfl
  exact (invoke_inStep_iff held step).mpr settles

/-- Every step of the apply completes. -/
theorem strict_is_live : Contains plainDaemon strictSettings
    (invoke plainDaemon (invoke plainDaemon permissiveHost (applyStrict fun _ => .completed)).2
      laterCheck).2.loaded :=
  converged_is_live plainDaemon permissiveHost_inStep
    (.cons ((invoke_inStep_iff permissiveHost_inStep _).mp (by decide)) rfl .nil) laterCheck (.checked .ok)
    (by decide) (.inl rfl)

/-! ### A reload that never ran -/

/-- The call of the reload throws, and the command has not run. -/
def stalledReload : ConfigScript := fun key =>
  if key = .reload then .threw false .other else .completed

/-- The apply throws and leaves the new file behind; the next check is content with it. -/
theorem stalled_reload_unnoticed :
    ¬ ∀ (daemon : Daemon) (first last : SshdHost) (invocations : List Invocation), InStep first →
      Run (fun host invocation after => (invoke daemon host invocation).2 = after)
        (fun _ _ => True) first invocations last →
      ∀ invocation answer, (invoke daemon last invocation).1 = .ok answer → answer.Converged →
        Contains daemon invocation.settings (invoke daemon last invocation).2.loaded := by
  intro claim
  have live := claim plainDaemon permissiveHost
    (invoke plainDaemon permissiveHost (applyStrict stalledReload)).2 [applyStrict stalledReload]
    permissiveHost_inStep (.cons trivial rfl .nil) laterCheck (.checked .ok) (by decide) (.inl rfl)
  exact absurd live (by decide)

end Paratix.Sshd
