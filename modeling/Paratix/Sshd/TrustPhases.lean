/-
Module: Paratix.Sshd.TrustPhases
Purpose: The apply of ssh.trustedUserCa in its phases: calm, where a rollback may restore in any
  order, and turned, where it must start with the newest file.
Main exports: CaParameters, rollbackFiles_spec
-/
import Paratix.Sshd.CertificateFilesSound
import Paratix.Sshd.Config

namespace Paratix.Sshd

open Foundation Archive Orchestration

def TRUSTED_USER_CA_PATH : Text := text "/etc/ssh/trusted_user_ca_keys"

def CERTIFICATE_SSHD_CONFIG_PATH : Text := text "/etc/ssh/sshd_config"

inductive CertificateState where
  | absent
  | present
deriving DecidableEq

/-- What `certificatePaths`, `certificateState` and `normalizeCaKeys` let through. -/
structure CaParameters where
  content : Option Text
  principalsFile : Text
  revokedKeys : Option Text
  state : CertificateState
  distinct : ∀ path, revokedKeys = some path →
    path ≠ TRUSTED_USER_CA_PATH ∧ path ≠ CERTIFICATE_SSHD_CONFIG_PATH
  safe : ∀ path, revokedKeys = some path → text "/etc/ssh/" <+: path
  given : content.isSome = true ↔ state = .present

/-! ### Directives -/

def caSettings (parameters : CaParameters) : SshdSettings :=
  [(text "AuthorizedPrincipalsFile", parameters.principalsFile)] ++
    (match parameters.revokedKeys with
      | none => []
      | some path => [(text "RevokedKeys", path)]) ++
    [(text "TrustedUserCAKeys", TRUSTED_USER_CA_PATH)]

section Lowercase

/- `text.toLowerCase()` -/
variable (toLowerCase : Text → Text)

/-- The lines before the first `Match` that no setting is about, and all lines after it -/
def removeManagedLines (content : Text) (settings : SshdSettings) : Text :=
  let managed := settings.map fun setting => toLowerCase setting.1
  let lines := splitLines content
  let topLevel := lines.takeWhile fun line => !isMatchBlockLine toLowerCase line
  let kept := topLevel.filter fun line =>
    match parseSshdConfigLine line with
    | none => true
    | some parsed => toLowerCase parsed.directive ∉ managed
  joinLines (kept ++ lines.dropWhile fun line => !isMatchBlockLine toLowerCase line)

/-- Throws where a directive has a value of somebody else. -/
def buildCertificateConfig (content : Text) (settings : SshdSettings) (state : CertificateState) :
    Except Text Text :=
  match state with
  | .present => .ok (buildSshdConfigContent toLowerCase content settings).newContent
  | .absent =>
      match settings.find? fun setting =>
          (collectTopLevelSshdDirectiveValues toLowerCase content setting.1).any fun value =>
            value ≠ setting.2 with
      | some (key, _) => .error (text "Cannot remove foreign " ++ key)
      | none => .ok (removeManagedLines toLowerCase content settings)

/-- `collectEffectiveSshdDirectiveValues(output, directive).join(" ") || "<missing>"` -/
def effectiveValue (output directive : Text) : Text :=
  let actual := [' '].intercalate (collectEffectiveSshdDirectiveValues toLowerCase output directive)
  if actual = [] then text "<missing>" else actual

def assertCertificateEffectiveSettings (output : Text) : SshdSettings → Except Text Unit
  | [] => .ok ()
  | (directive, expected) :: rest =>
      let actual := effectiveValue toLowerCase output directive
      if actual = expected then assertCertificateEffectiveSettings output rest
      else
        .error (directive ++ text ": expected " ++ expected ++ text ", actual " ++ actual ++
          text "; check sshd Include order (first value wins)")

end Lowercase

/-! ### Preparation -/

structure PreparedCa where
  ca : CertificateFile
  config : CertificateFile
  /-- The content of `config` -/
  configContent : Text
  configChanged : Bool
  expected : SshdSettings
  revocation : Option CertificateFile

def liftExcept {α : Type} : Except Text α → CertificateRemote α
  | .ok value => pure value
  | .error error => Remote.throw error

def CertificateWorld.configContent (world : CertificateWorld) : Text :=
  match world.files CERTIFICATE_SSHD_CONFIG_PATH with
  | none => []
  | some file => file.content

section Host

variable (daemon : Daemon) (contentHash : Text → Text)

def prepareRevocation : Option Text → CertificateRemote (Option CertificateFile)
  | none => pure none
  | some path => do
      let original ← inspectPath contentHash .prepare path true
      pure (some { content := some [], original := original, path := path, preserve := true })

def prepareCa (parameters : CaParameters) : CertificateRemote PreparedCa := do
  let original ← inspectPath contentHash .prepare CERTIFICATE_SSHD_CONFIG_PATH false
  if original = none then Remote.throw (text "Active /etc/ssh/sshd_config is missing")
  else
    let active ← Remote.read commandFailed .readConfig CertificateWorld.configContent
    demand .scan
    let settings := caSettings parameters
    let content ← liftExcept
      (buildCertificateConfig daemon.toLowerCase active settings parameters.state)
    let caOriginal ← inspectPath contentHash .prepare TRUSTED_USER_CA_PATH false
    let revocation ← prepareRevocation contentHash parameters.revokedKeys
    pure {
      ca := {
        content := parameters.content
        original := caOriginal
        path := TRUSTED_USER_CA_PATH
        preserve := false }
      config := {
        content := some content
        original := original
        path := CERTIFICATE_SSHD_CONFIG_PATH
        preserve := false }
      configContent := content
      configChanged := content ≠ active
      expected := match parameters.state with
        | .present => settings
        | .absent => settings.map fun setting => (setting.1, text "none")
      revocation := revocation }

def caConverged (prepared : PreparedCa) (state : CertificateState) : Bool :=
  !prepared.configChanged && certificateFileMatches contentHash prepared.ca &&
    (state = .absent ||
      match prepared.revocation with
      | none => true
      | some revocation => certificateFileMatches contentHash revocation)

/-! ### Controls of sshd -/

/-- `transaction.validate` -/
def validateCertificateCandidate (content : Text) (settings : SshdSettings) :
    CertificateRemote Unit := do
  demand .tryCandidate
  if daemon.accepts content then
    match daemon.effective content with
    | none => Remote.throw (text "sshd -T candidate verification failed")
    | some output =>
        liftExcept (assertCertificateEffectiveSettings daemon.toLowerCase output settings)
  else Remote.throw (text "sshd -t candidate validation failed")

/-- `transaction.readEffective` -/
def readEffective (settings : SshdSettings) : CertificateRemote Unit := do
  let content ← Remote.read commandFailed .readEffective CertificateWorld.configContent
  match daemon.effective content with
  | none => Remote.throw (text "sshd -T verification failed")
  | some output =>
      liftExcept (assertCertificateEffectiveSettings daemon.toLowerCase output settings)

/-- `transaction.reload` -/
def reloadTransaction : CertificateRemote Unit := do
  demand .findReload
  Remote.require (text "sshd reload failed") .reload
    (CertificateWorld.load CERTIFICATE_SSHD_CONFIG_PATH)

/-- `transaction.restoreReload` -/
def restoreReload : CertificateRemote Unit := do
  demand .findReloadAgain
  Remote.require (text "sshd rollback reload failed") .reloadAgain
    (CertificateWorld.load CERTIFICATE_SSHD_CONFIG_PATH)

/-! ### Apply -/

inductive CaResult where
  | ok
  | changed
  /-- The temporary files were not removed. -/
  | cleanupFailed (failures : List RollbackFailure)
  /-- The apply failed, and so did these steps of the rollback. -/
  | rolledBack (error : Text) (failures : List RollbackFailure)
deriving DecidableEq

def rollbackCa (error : Text) (reloadAttempted : Bool) : CertificateRemote CaResult := do
  let failures ← rollbackFiles contentHash
  if reloadAttempted then
    match ← restoreReload.attempt with
    | .ok _ => pure (.rolledBack error failures)
    | .error restoreError =>
        pure (.rolledBack error
          (failures ++ [{ path := text "live sshd configuration", error := restoreError }]))
  else pure (.rolledBack error failures)

def writeRevocation : Option CertificateFile → CertificateRemote Unit
  | none => pure ()
  | some revocation => writeCertificateFile contentHash revocation

def prepareReferencedCaFiles (prepared : PreparedCa) (state : CertificateState) :
    CertificateRemote Unit :=
  match state with
  | .absent => pure ()
  | .present => do
      writeCertificateFile contentHash prepared.ca
      writeRevocation contentHash prepared.revocation

def writeConfigIfChanged (prepared : PreparedCa) : CertificateRemote Unit :=
  if prepared.configChanged then writeCertificateFile contentHash prepared.config else pure ()

/-- What `applyCa` tries before it asks for the reload -/
def publishCa (prepared : PreparedCa) (state : CertificateState) : CertificateRemote Unit := do
  validateCertificateCandidate daemon prepared.configContent prepared.expected
  prepareReferencedCaFiles contentHash prepared state
  writeConfigIfChanged contentHash prepared
  readEffective daemon prepared.expected

/-- What it tries from there on -/
def activateCa (prepared : PreparedCa) (state : CertificateState) : CertificateRemote Unit := do
  reloadTransaction
  match state with
  | .absent => removeCertificateFile contentHash prepared.ca
  | .present => pure ()

def finishCa : CertificateRemote CaResult := do
  let cleanup ← cleanupStaging
  pure (if cleanup = [] then .changed else .cleanupFailed cleanup)

def applyCa (prepared : PreparedCa) (state : CertificateState) : CertificateRemote CaResult := do
  match ← (publishCa daemon contentHash prepared state).attempt with
  | .error error => rollbackCa contentHash error false
  | .ok _ =>
      if prepared.configChanged ∨ state = .absent then
        match ← (activateCa contentHash prepared state).attempt with
        | .error error => rollbackCa contentHash error true
        | .ok _ => finishCa
      else finishCa

/-- The run of an apply; what it throws becomes a failure of the module. -/
def runCa (parameters : CaParameters) : CertificateRemote CaResult := do
  let prepared ← prepareCa daemon contentHash parameters
  if caConverged contentHash prepared parameters.state then
    validateCertificateCandidate daemon prepared.configContent prepared.expected
    readEffective daemon prepared.expected
    pure .ok
  else applyCa daemon contentHash prepared parameters.state

end Host

section Phases

variable (daemon : Daemon) (hash : Text → Text) (params : CaParameters)

/-- The files the module manages, each with the directive that names it -/
def managedFiles : List (Text × Text) :=
  (text "TrustedUserCAKeys", TRUSTED_USER_CA_PATH) ::
    (match params.revokedKeys with
      | none => []
      | some path => [(text "RevokedKeys", path)])

def Managed (path : Text) : Prop := ∃ directive, (directive, path) ∈ managedFiles params

/-- The directive of a managed file has its path as a value, in the effective settings. -/
def Names (content path : Text) : Prop :=
  ∃ output directive, daemon.effective content = some output ∧
    (directive, path) ∈ managedFiles params ∧
    path ∈ collectEffectiveSshdDirectiveValues daemon.toLowerCase output directive

/-- The configuration on the disk, and the one the daemon has loaded -/
def Live (files : Files) (loaded content : Text) : Prop :=
  content = loaded ∨ ∃ file, files CERTIFICATE_SSHD_CONFIG_PATH = some file ∧ file.content = content

/-- No live configuration names a managed file that is missing. -/
def Referenced (files : Files) (loaded : Text) : Prop :=
  ∀ content, Live files loaded content → ∀ path, Names daemon params content path →
    (files path).isSome = true

/-- A configuration that names only managed files that were there before -/
def NamesOld (before : Files) (content : Text) : Prop :=
  ∀ path, Names daemon params content path → (before path).isSome = true

/-- What the apply may write -/
def Candidate (before : Files) (content : Text) : Prop :=
  params.content = some content ∨ params.revokedKeys ≠ none ∧ content = [] ∨
    ∃ active, before CERTIFICATE_SSHD_CONFIG_PATH = some active ∧
      buildCertificateConfig daemon.toLowerCase active.content (caSettings params)
        params.state = .ok content

/-- The hash tells what the apply may write from what is there. -/
def Distinguishes (before : Files) : Prop :=
  ∀ path file content, before path = some file → Candidate daemon params before content →
    hash content = hash file.content → content = file.content

/-- Each file is as before, removed, or one that the apply wrote. -/
def Authored (before files : Files) : Prop :=
  ∀ path, files path = before path ∨ files path = none ∨
    ∃ content, Candidate daemon params before content ∧
      files path = some { content := content, metadata := REGULAR_MODE }

/-- Managed files are kept, and no live configuration names one that was not there before. -/
structure Calm (before files : Files) (loaded : Text) : Prop where
  kept : ∀ path, Managed params path → (before path).isSome = true →
    (files path).isSome = true
  old : ∀ content, Live files loaded content → NamesOld daemon params before content
  authored : Authored daemon params before files

/-- The newest snapshot is of a file that was there before, and it is calm once that file is
restored. -/
structure Turned (before : Files) (path : Text) (world : CertificateWorld) : Prop where
  newest : ∃ older entry, world.snapshots = older ++ [entry] ∧ entry.file.path = path ∧
    ∀ other ∈ older, other.file.path ≠ path
  existed : (before path).isSome = true
  authored : Authored daemon params before world.files
  calm : Calm daemon params before (Function.update world.files path (before path)) world.loaded
  referenced : Referenced daemon params world.files world.loaded

end Phases

variable {daemon : Daemon} {hash : Text → Text} {params : CaParameters}
  {script : CertificateScript} {before files : Files} {loaded : Text} {world : CertificateWorld}

/-! ### Managed files -/

theorem Managed.cases {path : Text} (managed : Managed params path) :
    path = TRUSTED_USER_CA_PATH ∨ params.revokedKeys = some path := by
  obtain ⟨directive, mem⟩ := managed
  unfold managedFiles at mem
  split at mem
  · simp only [List.mem_singleton, Prod.mk.injEq] at mem
    exact .inl mem.2
  · next given =>
    simp only [List.mem_cons, Prod.mk.injEq, List.not_mem_nil, or_false] at mem
    rcases mem with ⟨-, same⟩ | ⟨-, rfl⟩
    · exact .inl same
    · exact .inr given

theorem ca_ne_config : TRUSTED_USER_CA_PATH ≠ CERTIFICATE_SSHD_CONFIG_PATH := by
  decide +kernel

theorem Managed.ne_config {path : Text} (managed : Managed params path) :
    path ≠ CERTIFICATE_SSHD_CONFIG_PATH := by
  rcases managed.cases with rfl | given
  · exact ca_ne_config
  · exact (params.distinct path given).2

theorem Names.managed {content path : Text} (named : Names daemon params content path) :
    Managed params path := by
  obtain ⟨_, directive, _, mem, _⟩ := named
  exact ⟨directive, mem⟩

/-! ### Phases -/

theorem Calm.referenced (calm : Calm daemon params before files loaded) :
    Referenced daemon params files loaded :=
  fun content live path named => calm.kept path named.managed (calm.old content live path named)

/-- Where all files are as before, it is calm. -/
theorem Calm.of_before (referenced : Referenced daemon params before loaded) :
    Calm daemon params before before loaded :=
  ⟨fun _ _ there => there, referenced, fun _ => .inl rfl⟩

/-- Where all managed files were there before, keeping them is enough. -/
theorem Calm.of_all (all : ∀ path, Managed params path → (before path).isSome = true)
    (kept : ∀ path, Managed params path → (files path).isSome = true)
    (authored : Authored daemon params before files) : Calm daemon params before files loaded :=
  ⟨fun path managed _ => kept path managed, fun _ _ path named => all path named.managed, authored⟩

theorem Authored.restore (authored : Authored daemon params before files) (path : Text) :
    Authored daemon params before (Function.update files path (before path)) := by
  intro other
  by_cases same : other = path
  · subst same
    exact .inl (Function.update_self ..)
  · rw [Function.update_of_ne same]
    exact authored other

theorem Authored.remove (authored : Authored daemon params before files) (path : Text) :
    Authored daemon params before (Function.update files path none) := by
  intro other
  by_cases same : other = path
  · subst same
    exact .inr (.inl (Function.update_self ..))
  · rw [Function.update_of_ne same]
    exact authored other

theorem Authored.write (authored : Authored daemon params before files) (path : Text)
    {content : Text} (candidate : Candidate daemon params before content) :
    Authored daemon params before
      (Function.update files path (some { content := content, metadata := REGULAR_MODE })) := by
  intro other
  by_cases same : other = path
  · subst same
    exact .inr (.inr ⟨content, candidate, Function.update_self ..⟩)
  · rw [Function.update_of_ne same]
    exact authored other

/-- A file with the state it had before is the file before. -/
theorem Authored.eq_of_restored (authored : Authored daemon params before files)
    (distinguishes : Distinguishes daemon hash params before) {path : Text}
    (restored : Restored hash before files path) : files path = before path := by
  unfold Restored at restored
  rcases authored path with same | missing | ⟨content, candidate, written⟩
  · exact same
  · rw [missing] at restored ⊢
    exact (Option.map_eq_none_iff.1 restored.symm).symm
  · rw [written] at restored ⊢
    obtain ⟨file, there, sameState⟩ := Option.map_eq_some_iff.1 restored.symm
    injection sameState with sameHash sameMetadata
    have sameContent := distinguishes path file content there candidate sameHash.symm
    have sameFile : file = { content := content, metadata := REGULAR_MODE } := by
      cases file
      cases sameContent
      cases sameMetadata
      rfl
    rw [there, sameFile]

/-- To put back the original of any file keeps the calm. -/
theorem Calm.restore {first : Text} (referenced : Referenced daemon params before first)
    (calm : Calm daemon params before files loaded) (path : Text) :
    Calm daemon params before (Function.update files path (before path)) loaded where
  kept other managed there := by
    by_cases same : other = path
    · subst same
      rwa [Function.update_self]
    · rw [Function.update_of_ne same]
      exact calm.kept other managed there
  old content live := by
    rcases live with isLoaded | ⟨file, onDisk, isContent⟩
    · exact calm.old content (.inl isLoaded)
    · by_cases same : CERTIFICATE_SSHD_CONFIG_PATH = path
      · subst same
        rw [Function.update_self] at onDisk
        exact referenced content (.inr ⟨file, onDisk, isContent⟩)
      · rw [Function.update_of_ne same] at onDisk
        exact calm.old content (.inr ⟨file, onDisk, isContent⟩)
  authored := calm.authored.restore path

theorem Live.load {content : Text} (live : Live (world.load CERTIFICATE_SSHD_CONFIG_PATH).files
      (world.load CERTIFICATE_SSHD_CONFIG_PATH).loaded content) :
    Live world.files world.loaded content := by
  unfold CertificateWorld.load at live
  split at live
  · exact live
  · next file onDisk =>
    rcases live with rfl | live
    · exact .inr ⟨file, onDisk, rfl⟩
    · exact .inr live

@[simp] theorem load_files (path : Text) : (world.load path).files = world.files := by
  unfold CertificateWorld.load
  split <;> rfl

@[simp] theorem load_snapshots (path : Text) : (world.load path).snapshots = world.snapshots := by
  unfold CertificateWorld.load
  split <;> rfl

@[simp] theorem load_backups (path : Text) : (world.load path).backups = world.backups := by
  unfold CertificateWorld.load
  split <;> rfl

/-- A daemon that reads its configuration again keeps the calm. -/
theorem Calm.load (calm : Calm daemon params before world.files world.loaded) :
    Calm daemon params before (world.load CERTIFICATE_SSHD_CONFIG_PATH).files
      (world.load CERTIFICATE_SSHD_CONFIG_PATH).loaded := by
  refine ⟨?_, fun content live => calm.old content live.load, ?_⟩
  · rw [load_files]
    exact calm.kept
  · rw [load_files]
    exact calm.authored

theorem Referenced.load (referenced : Referenced daemon params world.files world.loaded) :
    Referenced daemon params (world.load CERTIFICATE_SSHD_CONFIG_PATH).files
      (world.load CERTIFICATE_SSHD_CONFIG_PATH).loaded := by
  intro content live path named
  rw [load_files]
  exact referenced content live.load path named

/-! ### Rollback -/

theorem cleanupPaths_spec {through : CertificateWorld → Prop} {retained : List Text}
    (paths : List Text) (held : through world) :
    Remote.Leads script through (cleanupPaths retained paths) (fun _ after => after = world)
      world := by
  induction paths with
  | nil => exact Remote.leads_pure.2 rfl
  | cons path rest ih =>
    unfold cleanupPaths demand
    split
    · exact ih
    · simp only [Remote.leads_bind, Remote.leads_attempt, Remote.leads_require,
        StepOutcome.apply_id]
      refine ⟨held, ?_⟩
      rcases script (.cleanup path) with _ | _ | _ | _
      case completed => exact ih
      case interrupted => rfl
      all_goals
        simp only [StepOutcome.demanded_refused, StepOutcome.demanded_threw,
          Remote.caught_raised, Remote.onValue_ok, Remote.leads_bind]
        refine ih.mono fun result after same => ?_
        cases result <;> simpa using same

theorem cleanupStaging_spec {through : CertificateWorld → Prop} (held : through world) :
    Remote.Leads script through cleanupStaging (fun _ after => after = world) world := by
  unfold cleanupStaging
  simp only [Remote.leads_bind, Remote.leads_inspect, Remote.onValue_ok]
  exact cleanupPaths_spec _ held

theorem removeParents_spec {through : CertificateWorld → Prop} (paths : List Text)
    (held : through world) :
    Remote.Leads script through (removeParents paths) (fun _ after => after = world) world := by
  induction paths with
  | nil => exact Remote.leads_pure.2 rfl
  | cons path rest ih =>
    unfold removeParents demand
    simp only [Remote.leads_bind, Remote.leads_attempt, Remote.leads_require, StepOutcome.apply_id]
    refine ⟨held, ?_⟩
    rcases script (.removeParents path) with _ | _ | _ | _
    case completed => exact ih
    case interrupted => rfl
    all_goals
      simp only [StepOutcome.demanded_refused, StepOutcome.demanded_threw,
        Remote.caught_raised, Remote.onValue_ok, Remote.leads_bind]
      refine ih.mono fun result after same => ?_
      cases result <;> simpa using same

/-- Restores without a failure leave every file as it was before. -/
theorem Restores.files_eq {entries : List Snapshot} {after : CertificateWorld}
    {result : Except (Exit Text) (List RollbackFailure)}
    (restores : Restores hash before entries world result after)
    (distinguishes : Distinguishes daemon hash params before)
    (authored : Authored daemon params before after.files)
    (all : ∀ entry ∈ world.snapshots, entry ∈ entries) (done : result = .ok []) :
    after.files = before := by
  funext path
  by_cases changed : ∃ entry ∈ after.snapshots, entry.file.path = path ∧ entry.touched = true
  · obtain ⟨entry, mem, rfl, isTouched⟩ := changed
    rw [restores.snapshots] at mem
    exact authored.eq_of_restored distinguishes (restores.done done entry (all entry mem) isTouched)
  · refine restores.tracked.untouched path fun entry mem atPath => ?_
    by_contra isTouched
    exact changed ⟨entry, mem, atPath, by simpa using isTouched⟩

/-- Restores from a calm world, and from a turned one in which the newest file is restored -/
theorem restoreSnapshots_keeps (observed : Observed script) {first : Text}
    (initial : Referenced daemon params before first)
    (distinguishes : Distinguishes daemon hash params before) (tracked : Tracked hash before world)
    (phase : Calm daemon params before world.files world.loaded ∨
      ∃ path, Turned daemon params before path world ∧ RestoreLands script path) :
    Remote.Leads script (fun world => Referenced daemon params world.files world.loaded)
      (restoreSnapshots hash world.snapshots.reverse)
      (fun result after => Calm daemon params before after.files after.loaded ∧
        Restores hash before world.snapshots.reverse world result after) world := by
  have closed : ∀ files loaded, Calm daemon params before files loaded → ∀ path,
      Calm daemon params before (Function.update files path (before path)) loaded :=
    fun _ _ calm path => calm.restore initial path
  have calmly : Calm daemon params before world.files world.loaded →
      Remote.Leads script (fun world => Referenced daemon params world.files world.loaded)
        (restoreSnapshots hash world.snapshots.reverse)
        (fun result after => Calm daemon params before after.files after.loaded ∧
          Restores hash before world.snapshots.reverse world result after) world :=
    fun calm => (restoreSnapshots_spec observed closed _ world tracked
      (fun _ => List.mem_reverse.1) calm).weaken fun _ => Calm.referenced
  rcases phase with calm | ⟨path, turned, lands⟩
  · exact calmly calm
  by_cases same : world.files path = before path
  · refine calmly ?_
    have calm := turned.calm
    rwa [← same, Function.update_eq_self] at calm
  obtain ⟨older, entry, enrolled, rfl, others⟩ := turned.newest
  have entryMem : entry ∈ world.snapshots := by simp [enrolled]
  have isTouched : entry.touched = true := by
    by_contra notTouched
    refine same (tracked.untouched _ fun other mem atPath => ?_)
    rw [enrolled, List.mem_append, List.mem_singleton] at mem
    rcases mem with old | rfl
    · exact absurd atPath (others other old)
    · simpa using notTouched
  have hasBackup : entry.backup = true := by
    rw [tracked.backup entry entryMem]
    exact turned.existed
  have differs := fun restored => same (turned.authored.eq_of_restored distinguishes restored)
  rw [enrolled, List.reverse_append, List.reverse_singleton, List.singleton_append]
  unfold restoreSnapshots
  rw [if_pos isTouched, Remote.leads_bind, Remote.leads_attempt]
  refine (restoreSnapshot_spec observed tracked entryMem isTouched turned.referenced
    turned.calm.referenced).mono ?_
  rintro result middle ⟨shape, done, restored⟩
  obtain rfl := restored lands hasBackup differs
  have going : ∀ paths, Remote.Leads script
      (fun world => Referenced daemon params world.files world.loaded)
      (restoreSnapshots hash older.reverse)
      (fun result after => Calm daemon params before after.files after.loaded ∧
        Restores hash before older.reverse
          { world.store entry.file.path (before entry.file.path) with retained := paths }
          result after)
      { world.store entry.file.path (before entry.file.path) with retained := paths } := by
    intro paths
    have storedTracked := tracked.restore entry.file.path
    have olderMem : ∀ other ∈ older.reverse, other ∈ world.snapshots := fun other mem => by
      rw [enrolled]
      exact List.mem_append_left _ (List.mem_reverse.1 mem)
    exact (restoreSnapshots_spec observed closed older.reverse
      { world.store entry.file.path (before entry.file.path) with retained := paths }
      ⟨storedTracked.original, storedTracked.backup, storedTracked.copied, storedTracked.left,
        storedTracked.untouched⟩ olderMem turned.calm).weaken fun _ => Calm.referenced
  rcases result with (error | _) | value
  · exact restoreRest_spec shape (.error error) (fun ended => (by cases ended)) going
  · exact ⟨turned.calm, .of_shape tracked shape (by simp)⟩
  · exact restoreRest_spec shape (.ok value) (fun _ => done rfl) going

theorem rollbackFiles_spec (observed : Observed script) {first : Text}
    (initial : Referenced daemon params before first)
    (distinguishes : Distinguishes daemon hash params before) (tracked : Tracked hash before world)
    (phase : Calm daemon params before world.files world.loaded ∨
      ∃ path, Turned daemon params before path world ∧ RestoreLands script path) :
    Remote.Leads script (fun world => Referenced daemon params world.files world.loaded)
      (rollbackFiles hash) (fun result after => Calm daemon params before after.files after.loaded ∧
        (result = .ok [] → after.files = before)) world := by
  unfold rollbackFiles
  rw [Remote.leads_bind, Remote.leads_inspect, Remote.onValue_ok]
  refine (restoreSnapshots_keeps observed initial distinguishes tracked phase).bind ?_ ?_
  · rintro exit after ⟨calm, -⟩
    exact ⟨calm, fun ended => (by cases ended)⟩
  rintro restoring after ⟨calm, restores⟩
  have restored : restoring = [] → after.files = before := fun none =>
    restores.files_eq distinguishes calm.authored (fun _ => List.mem_reverse.2) (by rw [none])
  refine (cleanupStaging_spec calm.referenced).bind ?_ ?_
  · rintro exit final rfl
    exact ⟨calm, fun ended => (by cases ended)⟩
  rintro cleaning final rfl
  rw [Remote.leads_bind, Remote.leads_inspect, Remote.onValue_ok]
  refine (removeParents_spec _ calm.referenced).bind ?_ ?_
  · rintro exit last rfl
    exact ⟨calm, fun ended => (by cases ended)⟩
  rintro removing last rfl
  refine Remote.leads_pure.2 ⟨calm, fun ended => restored ?_⟩
  injection ended with ended
  exact (List.append_eq_nil_iff.1 (List.append_eq_nil_iff.1 ended).1).1

end Paratix.Sshd
