/-
Module: Paratix.Sshd.TrustKept
Purpose: An apply of ssh.trustedUserCa never lets a live configuration name a missing file,
  where its rollback does not follow a reload that was reported as failed and can put back
  the file that it changed last.
Main exports: Prepares, trust_kept
-/
import Paratix.Sshd.TrustPhases

namespace Paratix.Sshd

open Foundation Archive

variable {daemon : Daemon} {hash : Text → Text} {params : CaParameters}
  {script : CertificateScript} {before : Files} {world : CertificateWorld}

/-! ### Preparation -/

/-- What `prepareCa` finds on the host and plans to write. -/
structure Prepares (daemon : Daemon) (hash : Text → Text) (params : CaParameters)
    (before : Files) (prepared : PreparedCa) : Prop where
  ca : prepared.ca = {
    content := params.content
    original := (before TRUSTED_USER_CA_PATH).map (StoredFile.state hash)
    path := TRUSTED_USER_CA_PATH
    preserve := false }
  config : prepared.config = {
    content := some prepared.configContent
    original := (before CERTIFICATE_SSHD_CONFIG_PATH).map (StoredFile.state hash)
    path := CERTIFICATE_SSHD_CONFIG_PATH
    preserve := false }
  built : ∃ active, before CERTIFICATE_SSHD_CONFIG_PATH = some active ∧
    buildCertificateConfig daemon.toLowerCase active.content (caSettings params)
      params.state = .ok prepared.configContent ∧
    (prepared.configChanged = false → prepared.configContent = active.content)
  expected : params.state = .absent →
    prepared.expected = (caSettings params).map fun setting => (setting.1, text "none")
  revocation : prepared.revocation = params.revokedKeys.map fun path => {
    content := some []
    original := (before path).map (StoredFile.state hash)
    path := path
    preserve := true }

theorem liftExcept_spec {α : Type} {through : CertificateWorld → Prop} (value : Except Text α) :
    Remote.Leads script through (liftExcept value)
      (fun result after => after = world ∧ ∀ found, result = .ok found → value = .ok found)
      world := by
  cases value with
  | ok found => exact Remote.leads_pure.2 ⟨rfl, fun _ same => congrArg Except.ok (Except.ok.inj same)⟩
  | error error => exact Remote.leads_throw.2 ⟨rfl, fun _ impossible => nomatch impossible⟩

theorem prepareRevocation_spec (observed : Observed script)
    (held : Referenced daemon params world.files world.loaded) (revokedKeys : Option Text) :
    Remote.Leads script (fun world => Referenced daemon params world.files world.loaded)
      (prepareRevocation hash revokedKeys)
      (fun result after => after = world ∧ ∀ revocation, result = .ok revocation →
        revocation = revokedKeys.map fun path => {
          content := some []
          original := (world.files path).map (StoredFile.state hash)
          path := path
          preserve := true }) world := by
  cases revokedKeys with
  | none =>
    exact Remote.leads_pure.2 ⟨rfl, fun revocation same => (Except.ok.inj same).symm⟩
  | some path =>
    unfold prepareRevocation
    refine (inspect_spec observed held).bind ?_ ?_
    · rintro exit after ⟨rfl, -, -⟩
      exact ⟨rfl, fun _ ended => nomatch ended⟩
    rintro original after ⟨rfl, seen, -⟩
    refine Remote.leads_pure.2 ⟨rfl, fun revocation same => ?_⟩
    rw [← Except.ok.inj same, seen original rfl]
    rfl

theorem prepareCa_spec (observed : Observed script)
    (held : Referenced daemon params world.files world.loaded) :
    Remote.Leads script (fun world => Referenced daemon params world.files world.loaded)
      (prepareCa daemon hash params)
      (fun result after => after = world ∧ ∀ prepared, result = .ok prepared →
        Prepares daemon hash params world.files prepared) world := by
  unfold prepareCa
  refine (inspect_spec observed held).bind ?_ ?_
  · rintro exit after ⟨rfl, -, -⟩
    exact ⟨rfl, fun _ ended => nomatch ended⟩
  rintro original after ⟨rfl, seenConfig, -⟩
  have isOriginal := seenConfig original rfl
  split
  · exact Remote.leads_throw.2 ⟨rfl, fun _ ended => nomatch ended⟩
  next present =>
  obtain ⟨active, onDisk⟩ : ∃ active, after.files CERTIFICATE_SSHD_CONFIG_PATH = some active := by
    rw [isOriginal, Option.map_eq_none_iff] at present
    exact Option.ne_none_iff_exists'.1 present
  have isActive : after.configContent = active.content := by
    unfold CertificateWorld.configContent
    rw [onDisk]
  rw [Remote.leads_bind, Remote.leads_read]
  refine ⟨held, ?_⟩
  rcases script .readConfig with _ | _ | _ | _
  case completed =>
    simp only [StepOutcome.demanded_completed, Except.map, Remote.onValue_ok]
    refine (demand_spec held).bind ?_ ?_
    · rintro exit final rfl
      exact ⟨rfl, fun _ ended => nomatch ended⟩
    rintro value final rfl
    refine (liftExcept_spec _).bind ?_ ?_
    · rintro exit last ⟨rfl, -⟩
      exact ⟨rfl, fun _ ended => nomatch ended⟩
    rintro content last ⟨rfl, building⟩
    have built := building content rfl
    refine (inspect_spec observed held).bind ?_ ?_
    · rintro exit after ⟨rfl, -, -⟩
      exact ⟨rfl, fun _ ended => nomatch ended⟩
    rintro caOriginal after ⟨rfl, seenCa, -⟩
    have isCaOriginal := seenCa caOriginal rfl
    refine (prepareRevocation_spec observed held params.revokedKeys).bind ?_ ?_
    · rintro exit after ⟨rfl, -⟩
      exact ⟨rfl, fun _ ended => nomatch ended⟩
    rintro revocation after ⟨rfl, seenRevocation⟩
    refine Remote.leads_pure.2 ⟨rfl, fun prepared same => ?_⟩
    obtain rfl := Except.ok.inj same
    rw [isActive] at built ⊢
    refine ⟨?_, ?_, ⟨active, onDisk, built, fun unchanged => ?_⟩, ?_, seenRevocation revocation rfl⟩
    · rw [isCaOriginal]
    · rw [isOriginal]
    · simpa using unchanged
    · intro absent
      rw [absent]
  all_goals exact ⟨rfl, fun _ ended => nomatch ended⟩

/-! ### Verification -/

/-- The effective settings of a configuration are the expected ones. -/
def Verified (daemon : Daemon) (content : Text) (settings : SshdSettings) : Prop :=
  ∃ output, daemon.effective content = some output ∧
    assertCertificateEffectiveSettings daemon.toLowerCase output settings = .ok ()

theorem validate_spec {through : CertificateWorld → Prop} (held : through world) (content : Text)
    (settings : SshdSettings) :
    Remote.Leads script through (validateCertificateCandidate daemon content settings)
      (fun result after => after = world ∧
        (result = .ok () → Verified daemon content settings)) world := by
  unfold validateCertificateCandidate demand
  rw [Remote.leads_bind, Remote.leads_require, StepOutcome.apply_id]
  refine ⟨held, ?_⟩
  rcases script .tryCandidate with _ | _ | _ | _
  case completed =>
    simp only [StepOutcome.demanded_completed, Remote.onValue_ok]
    split
    · split
      · exact Remote.leads_throw.2 ⟨rfl, fun ended => nomatch ended⟩
      · next output isEffective =>
        exact (liftExcept_spec _).mono fun result after ⟨same, holds⟩ =>
          ⟨same, fun ended => ⟨output, isEffective, holds () ended⟩⟩
    · exact Remote.leads_throw.2 ⟨rfl, fun ended => nomatch ended⟩
  all_goals exact ⟨rfl, fun ended => nomatch ended⟩

theorem readEffective_spec {through : CertificateWorld → Prop} (held : through world)
    (settings : SshdSettings) :
    Remote.Leads script through (readEffective daemon settings) (fun _ after => after = world)
      world := by
  unfold readEffective
  rw [Remote.leads_bind, Remote.leads_read]
  refine ⟨held, ?_⟩
  rcases script .readEffective with _ | _ | _ | _
  case completed =>
    simp only [StepOutcome.demanded_completed, Except.map, Remote.onValue_ok]
    split
    · exact Remote.leads_throw.2 rfl
    · exact (liftExcept_spec _).mono fun result after ⟨same, _⟩ => same
  all_goals rfl

theorem effectiveValue_of_verified {output : Text} {settings : SshdSettings}
    (verified : assertCertificateEffectiveSettings daemon.toLowerCase output settings = .ok ())
    {directive expected : Text} (mem : (directive, expected) ∈ settings) :
    effectiveValue daemon.toLowerCase output directive = expected := by
  induction settings with
  | nil => cases mem
  | cons setting rest ih =>
    unfold assertCertificateEffectiveSettings at verified
    dsimp only at verified
    split at verified
    · next matched =>
      rcases List.mem_cons.1 mem with rfl | restMem
      · exact matched
      · exact ih verified restMem
    · cases verified

theorem mem_intercalate {separator : Text} {words : List Text} {word : Text} (mem : word ∈ words)
    {char : Char} (inWord : char ∈ word) : char ∈ separator.intercalate words := by
  induction words with
  | nil => cases mem
  | cons first rest ih =>
    cases rest with
    | nil =>
      rw [List.mem_singleton.1 mem] at inWord
      rwa [List.intercalate_singleton]
    | cons second others =>
      rw [List.intercalate_cons_cons]
      rcases List.mem_cons.1 mem with rfl | restMem
      · simp [inWord]
      · exact List.mem_append_right _ (ih restMem)

theorem managedFiles_subset {directive path : Text}
    (mem : (directive, path) ∈ managedFiles params) :
    (directive, path) ∈ caSettings params := by
  unfold managedFiles at mem
  unfold caSettings
  rcases List.mem_cons.1 mem with isCa | rest
  · exact List.mem_append_right _ (List.mem_singleton.2 isCa)
  · exact List.mem_append_left _ (List.mem_append_right _ rest)

theorem Managed.slash {path : Text} (managed : Managed params path) : '/' ∈ path := by
  rcases managed.cases with rfl | given
  · decide +kernel
  · exact (params.safe path given).mem (by decide +kernel)

/-- A configuration whose managed directives are all `none` names no managed file. -/
theorem unnamed_of_verified {content : Text} (verified : Verified daemon content
      ((caSettings params).map fun setting => (setting.1, text "none"))) (path : Text) :
    ¬ Names daemon params content path := by
  rintro ⟨output, directive, isEffective, mem, named⟩
  obtain ⟨verifiedOutput, sameEffective, holds⟩ := verified
  rw [isEffective, Option.some.injEq] at sameEffective
  subst sameEffective
  have isNone := effectiveValue_of_verified holds
    (List.mem_map_of_mem (managedFiles_subset mem))
  have slash : '/' ∈ path := Managed.slash ⟨directive, mem⟩
  have inValue : '/' ∈ [' '].intercalate
      (collectEffectiveSshdDirectiveValues daemon.toLowerCase output directive) :=
    mem_intercalate named slash
  unfold effectiveValue at isNone
  dsimp only at isNone
  split at isNone
  · exact absurd isNone (by decide +kernel)
  · rw [isNone] at inValue
    exact absurd inValue (by decide +kernel)

/-! ### Publication -/

def Missing (params : CaParameters) (before : Files) : Prop :=
  ∃ path, Managed params path ∧ before path = none

def AllThere (params : CaParameters) (files : Files) : Prop :=
  ∀ path, Managed params path → (files path).isSome = true

theorem AllThere.referenced {files : Files} {loaded : Text} (all : AllThere params files) :
    Referenced daemon params files loaded :=
  fun _ _ path named => all path named.managed

theorem AllThere.update {files : Files} (all : AllThere params files) {path : Text}
    {file : Option StoredFile} (other : ¬ Managed params path) :
    AllThere params (Function.update files path file) := by
  intro managedPath managed
  have apart : managedPath ≠ path := fun same => other (same ▸ managed)
  rw [Function.update_of_ne apart]
  exact all managedPath managed

/-- A new file beside the configuration keeps the calm. -/
theorem Calm.write {files : Files} {loaded : Text}
    (calm : Calm daemon params before files loaded) {path content : Text}
    (other : path ≠ CERTIFICATE_SSHD_CONFIG_PATH)
    (candidate : Candidate daemon params before content) : Calm daemon params before
      (Function.update files path (some { content := content, metadata := REGULAR_MODE }))
      loaded where
  kept managedPath managed there := by
    by_cases same : managedPath = path
    · rw [same, Function.update_self]
      rfl
    · rw [Function.update_of_ne same]
      exact calm.kept managedPath managed there
  old liveContent live := by
    refine calm.old liveContent (live.imp_right ?_)
    rintro ⟨file, onDisk, isContent⟩
    rw [Function.update_of_ne other.symm] at onDisk
    exact ⟨file, onDisk, isContent⟩
  authored := calm.authored.write path candidate

/-- A new configuration that names no managed file keeps the calm. -/
theorem Calm.writeConfig {files : Files} {loaded content : Text}
    (calm : Calm daemon params before files loaded)
    (candidate : Candidate daemon params before content)
    (old : NamesOld daemon params before content) :
    Calm daemon params before (Function.update files CERTIFICATE_SSHD_CONFIG_PATH
      (some { content := content, metadata := REGULAR_MODE })) loaded where
  kept path managed there := by
    rw [Function.update_of_ne managed.ne_config]
    exact calm.kept path managed there
  old liveContent live := by
    rcases live with isLoaded | ⟨file, onDisk, rfl⟩
    · exact calm.old liveContent (.inl isLoaded)
    · rw [Function.update_self, Option.some.injEq] at onDisk
      rwa [← onDisk]
  authored := calm.authored.write _ candidate

theorem CertificateFile.published_eq {file : CertificateFile} {content : Text}
    (written : file.content = some content) :
    file.published = some { content := content, metadata := REGULAR_MODE } := by
  rw [CertificateFile.published, written]
  rfl

/-- A write of a managed file keeps the calm, and where it succeeds the file is there. -/
theorem writeManaged_spec (observed : Observed script) {file : CertificateFile} {content : Text}
    (fresh : Fresh hash before file world) (tracked : Tracked hash before world)
    (calm : Calm daemon params before world.files world.loaded)
    (other : file.path ≠ CERTIFICATE_SSHD_CONFIG_PATH) (written : file.content = some content)
    (candidate : Candidate daemon params before content) :
    Remote.Leads script (fun world => Referenced daemon params world.files world.loaded)
      (writeCertificateFile hash file) (fun result after => Tracked hash before after ∧
        Calm daemon params before after.files after.loaded ∧
        (after.snapshots = world.snapshots ∨
          ∃ entry, entry.file = file ∧ after.snapshots = world.snapshots ++ [entry]) ∧
        (result = .ok () → (after.files file.path).isSome = true ∧
          ∀ path, (world.files path).isSome = true → (after.files path).isSome = true)) world := by
  have isPublished := file.published_eq written
  have changed : Calm daemon params before
      (Function.update world.files file.path file.published) world.loaded := by
    rw [isPublished]
    exact calm.write other candidate
  refine ((writeCertificateFile_spec observed fresh tracked calm fun _ => changed).mono
    fun result after ⟨changes, done⟩ => ?_).weaken fun _ => Calm.referenced
  refine ⟨changes.tracked, ?_, changes.enrolled, fun ended => ?_⟩
  · rw [changes.loaded]
    rcases changes.files with same | ⟨-, updated⟩
    · rwa [same]
    · rwa [updated]
  · rcases done ended with ⟨isMatch, rfl⟩ | ⟨-, updated⟩
    · refine ⟨?_, fun _ there => there⟩
      have there : file.original ≠ none := by
        intro missing
        simp [certificateFileMatches, missing, written] at isMatch
      rw [fresh.original, Option.map_eq_none_iff.ne, ← fresh.file_eq tracked] at there
      exact Option.isSome_iff_ne_none.2 there
    · rw [updated, isPublished]
      refine ⟨by simp, fun path there => ?_⟩
      by_cases same : path = file.path
      · simp [same]
      · rwa [Function.update_of_ne same]

/-- The writes of the referenced files keep the calm, and after them the managed files are
there. -/
theorem prepareReferencedCaFiles_spec (observed : Observed script) {prepared : PreparedCa}
    (prepares : Prepares daemon hash params before prepared)
    (tracked : Tracked hash before world) (unbegun : world.snapshots = [])
    (calm : Calm daemon params before world.files world.loaded)
    (present : params.state = .present) :
    Remote.Leads script (fun world => Referenced daemon params world.files world.loaded)
      (prepareReferencedCaFiles hash prepared params.state)
      (fun result after => Tracked hash before after ∧
        Calm daemon params before after.files after.loaded ∧
        (∀ entry ∈ after.snapshots, entry.file.path ≠ CERTIFICATE_SSHD_CONFIG_PATH) ∧
        (result = .ok () → AllThere params after.files)) world := by
  obtain ⟨content, given⟩ := Option.isSome_iff_exists.1 (params.given.2 present)
  have freshCa : Fresh hash before prepared.ca world := ⟨by rw [prepares.ca], by simp [unbegun]⟩
  have caPath : prepared.ca.path = TRUSTED_USER_CA_PATH := by rw [prepares.ca]
  rw [present, prepareReferencedCaFiles]
  refine (writeManaged_spec observed freshCa tracked calm (by rw [caPath]; exact ca_ne_config)
    (by rw [prepares.ca]; exact given) (.inl given)).bind ?_ ?_
  · rintro exit after ⟨trackedAfter, calmAfter, enrolled, -⟩
    refine ⟨trackedAfter, calmAfter, ?_, fun ended => nomatch ended⟩
    rcases enrolled with same | ⟨entry, isCa, entered⟩
    · simp [same, unbegun]
    · simpa [entered, unbegun, isCa, caPath] using ca_ne_config
  rintro value middle ⟨trackedMiddle, calmMiddle, enrolled, done⟩
  have caThere := (done rfl).1
  rw [caPath] at caThere
  have caOnly : ∀ entry ∈ middle.snapshots, entry.file.path = TRUSTED_USER_CA_PATH := by
    rcases enrolled with same | ⟨entry, isCa, entered⟩
    · simp [same, unbegun]
    · simp [entered, unbegun, isCa, caPath]
  rcases revoked : params.revokedKeys with _ | path
  · have noRevocation : prepared.revocation = none := by rw [prepares.revocation, revoked]; rfl
    rw [noRevocation]
    refine Remote.leads_pure.2 ⟨trackedMiddle, calmMiddle, fun entry mem => ?_, fun _ => ?_⟩
    · rw [caOnly entry mem]
      exact ca_ne_config
    · intro managedPath managed
      rcases managed.cases with rfl | isRevoked
      · exact caThere
      · rw [revoked] at isRevoked
        cases isRevoked
  · have distinct := params.distinct path revoked
    generalize isRevocation : ({
      content := some []
      original := (before path).map (StoredFile.state hash)
      path := path
      preserve := true } : CertificateFile) = revocation
    have planned : prepared.revocation = some revocation := by
      rw [prepares.revocation, revoked, ← isRevocation]
      rfl
    have revocationPath : revocation.path = path := by rw [← isRevocation]
    have freshRevocation : Fresh hash before revocation middle := by
      refine ⟨by rw [← isRevocation], fun entry mem => ?_⟩
      rw [caOnly entry mem, revocationPath]
      exact distinct.1.symm
    have candidate : Candidate daemon params before [] := .inr (.inl ⟨by simp [revoked], rfl⟩)
    rw [planned, writeRevocation]
    refine (writeManaged_spec observed freshRevocation trackedMiddle calmMiddle
      (by rw [revocationPath]; exact distinct.2) (by rw [← isRevocation]) candidate).mono
      fun result after ⟨trackedAfter, calmAfter, enrolledAfter, doneAfter⟩ => ?_
    refine ⟨trackedAfter, calmAfter, fun entry mem => ?_, fun ended => ?_⟩
    · have oldOrNew : entry ∈ middle.snapshots ∨ entry.file = revocation := by
        rcases enrolledAfter with same | ⟨new, isNew, entered⟩
        · exact .inl (same ▸ mem)
        · rw [entered, List.mem_append, List.mem_singleton] at mem
          exact mem.imp_right fun (same : entry = new) => same ▸ isNew
      rcases oldOrNew with old | isNew
      · rw [caOnly entry old]
        exact ca_ne_config
      · rw [isNew, revocationPath]
        exact distinct.2
    · obtain ⟨revocationThere, keeps⟩ := doneAfter ended
      intro managedPath managed
      rcases managed.cases with rfl | isRevoked
      · exact keeps _ caThere
      · rw [revoked, Option.some.injEq] at isRevoked
        rwa [← isRevoked, ← revocationPath]

/-- The phase that the publication leaves: turned only by a new configuration that may name
files that were not there before. -/
def Published (daemon : Daemon) (params : CaParameters) (script : CertificateScript)
    (before : Files) (after : CertificateWorld) : Prop :=
  Calm daemon params before after.files after.loaded ∨
    params.state = .present ∧ Missing params before ∧
      (script (.publish CERTIFICATE_SSHD_CONFIG_PATH)).takesEffect = true ∧
      AllThere params after.files ∧
      Turned daemon params before CERTIFICATE_SSHD_CONFIG_PATH after

theorem Published.referenced {after : CertificateWorld}
    (published : Published daemon params script before after) :
    Referenced daemon params after.files after.loaded := by
  rcases published with calm | ⟨-, -, -, -, turned⟩
  · exact calm.referenced
  · exact turned.referenced

/-- What holds before the configuration is written -/
structure Ready (daemon : Daemon) (hash : Text → Text) (params : CaParameters)
    (before : Files) (prepared : PreparedCa) (world : CertificateWorld) : Prop where
  tracked : Tracked hash before world
  calm : Calm daemon params before world.files world.loaded
  notEnrolled : ∀ entry ∈ world.snapshots, entry.file.path ≠ CERTIFICATE_SSHD_CONFIG_PATH
  present : params.state = .present → AllThere params world.files
  absent : params.state = .absent → world.snapshots = [] ∧
    ∀ path, ¬ Names daemon params prepared.configContent path

theorem writeConfigIfChanged_spec (observed : Observed script) {prepared : PreparedCa}
    {first : Text} (initial : Referenced daemon params before first)
    (distinguishes : Distinguishes daemon hash params before)
    (prepares : Prepares daemon hash params before prepared)
    (ready : Ready daemon hash params before prepared world) :
    Remote.Leads script (fun world => Referenced daemon params world.files world.loaded)
      (writeConfigIfChanged hash prepared) (fun result after => Tracked hash before after ∧
        Published daemon params script before after ∧
        (params.state = .absent → ∀ entry ∈ after.snapshots,
          entry.file.path = CERTIFICATE_SSHD_CONFIG_PATH) ∧
        (result = .ok () → ∃ file, after.files CERTIFICATE_SSHD_CONFIG_PATH = some file ∧
          file.content = prepared.configContent)) world := by
  obtain ⟨active, onDisk, built, unchanged⟩ := prepares.built
  have candidate : Candidate daemon params before prepared.configContent :=
    .inr (.inr ⟨active, onDisk, built⟩)
  have configPath : prepared.config.path = CERTIFICATE_SSHD_CONFIG_PATH := by rw [prepares.config]
  have fresh : Fresh hash before prepared.config world :=
    ⟨by rw [prepares.config], fun entry mem => by
      rw [configPath]
      exact ready.notEnrolled entry mem⟩
  have written : prepared.config.content = some prepared.configContent := by rw [prepares.config]
  have isPublished := prepared.config.published_eq written
  have diskBefore : world.files CERTIFICATE_SSHD_CONFIG_PATH = some active := by
    have same := fresh.file_eq ready.tracked
    rwa [configPath, onDisk] at same
  -- The phase after the new configuration is on the disk
  have turns : ∀ after : CertificateWorld, after.loaded = world.loaded →
      (script (.publish CERTIFICATE_SSHD_CONFIG_PATH)).takesEffect = true →
      after.files = Function.update world.files CERTIFICATE_SSHD_CONFIG_PATH
        prepared.config.published →
      (after.snapshots = world.snapshots ∨ ∃ entry, entry.file = prepared.config ∧
        after.snapshots = world.snapshots ++ [entry]) →
      Tracked hash before after →
      Published daemon params script before after := by
    intro after sameLoaded took updated enrolled trackedAfter
    have authored : Authored daemon params before after.files := by
      rw [updated, isPublished]
      exact ready.calm.authored.write _ candidate
    cases state : params.state with
    | absent =>
      refine .inl ?_
      rw [updated, isPublished, sameLoaded]
      exact ready.calm.writeConfig candidate fun path named =>
        absurd named ((ready.absent state).2 path)
    | present =>
      have allThere : AllThere params after.files := by
        rw [updated]
        exact (ready.present state).update fun managed => managed.ne_config rfl
      rcases enrolled with same | ⟨entry, isConfig, entered⟩
      · refine .inl ?_
        have diskAfter := trackedAfter.untouched CERTIFICATE_SSHD_CONFIG_PATH
          fun entry mem atPath => absurd atPath (ready.notEnrolled entry (same ▸ mem))
        have sameFiles : after.files = world.files := by
          rw [onDisk, updated, Function.update_self] at diskAfter
          rw [updated, diskAfter, ← diskBefore, Function.update_eq_self]
        rw [sameFiles, sameLoaded]
        exact ready.calm
      by_cases missing : Missing params before
      · refine .inr ⟨state, missing, took, allThere, ?_⟩
        refine ⟨⟨world.snapshots, entry, entered, by rw [isConfig, configPath],
          ready.notEnrolled⟩, by rw [onDisk]; rfl, authored, ?_, allThere.referenced⟩
        rw [updated, Function.update_idem, sameLoaded]
        exact ready.calm.restore initial _
      · refine .inl (.of_all (fun path managed => ?_) allThere authored)
        exact Option.isSome_iff_ne_none.2 fun isNone => missing ⟨path, managed, isNone⟩
  have referencedNew : Referenced daemon params
      (Function.update world.files CERTIFICATE_SSHD_CONFIG_PATH prepared.config.published)
      world.loaded := by
    cases state : params.state with
    | absent =>
      rw [isPublished]
      exact (ready.calm.writeConfig candidate fun path named =>
        absurd named ((ready.absent state).2 path)).referenced
    | present =>
      exact ((ready.present state).update fun managed => managed.ne_config rfl).referenced
  unfold writeConfigIfChanged
  split
  · refine (writeCertificateFile_spec observed fresh ready.tracked ready.calm.referenced
      fun _ => configPath ▸ referencedNew).mono fun result after ⟨changes, done⟩ => ?_
    rw [configPath] at changes done
    refine ⟨changes.tracked, ?_, fun absent entry mem => ?_, fun ended => ?_⟩
    · rcases changes.files with same | ⟨took, updated⟩
      · refine .inl ?_
        rw [same, changes.loaded]
        exact ready.calm
      · exact turns after changes.loaded took (configPath ▸ updated) changes.enrolled
          changes.tracked
    · rcases changes.enrolled with same | ⟨new, isNew, entered⟩
      · rw [same, (ready.absent absent).1] at mem
        cases mem
      · rw [entered, (ready.absent absent).1, List.nil_append, List.mem_singleton] at mem
        rw [mem, isNew, configPath]
    · rcases done ended with ⟨isMatch, rfl⟩ | ⟨-, updated⟩
      · refine ⟨active, diskBefore, ?_⟩
        have original : prepared.config.original = some (active.state hash) := by
          rw [prepares.config, onDisk]
          rfl
        have preserve : prepared.config.preserve = false := by rw [prepares.config]
        simp only [certificateFileMatches, preserve, written, original, StoredFile.state,
          Bool.false_eq_true, false_and, if_false, decide_eq_true_eq, Option.some.injEq,
          FileState.mk.injEq] at isMatch
        exact (distinguishes _ active _ onDisk candidate isMatch.1.symm).symm
      · refine ⟨{ content := prepared.configContent, metadata := REGULAR_MODE }, ?_, rfl⟩
        rw [updated, isPublished, Function.update_self]
  · next notChanged =>
    refine Remote.leads_pure.2 ⟨ready.tracked, .inl ready.calm, fun absent entry mem => ?_,
      fun _ => ⟨active, diskBefore, ?_⟩⟩
    · rw [(ready.absent absent).1] at mem
      cases mem
    · exact (unchanged (by simpa using notChanged)).symm

/-- The end of the publication: where a removal may follow, the configuration on the disk
names no managed file. -/
structure PublishEnds (daemon : Daemon) (hash : Text → Text) (params : CaParameters)
    (script : CertificateScript) (before : Files) (result : Except (Exit Text) Unit)
    (after : CertificateWorld) : Prop where
  tracked : Tracked hash before after
  published : Published daemon params script before after
  enrolled : params.state = .absent →
    ∀ entry ∈ after.snapshots, entry.file.path = CERTIFICATE_SSHD_CONFIG_PATH
  unnamed : result = .ok () → params.state = .absent →
    ∃ file, after.files CERTIFICATE_SSHD_CONFIG_PATH = some file ∧
      ∀ path, ¬ Names daemon params file.content path

theorem publishCa_spec (observed : Observed script) {prepared : PreparedCa}
    (initial : Referenced daemon params world.files world.loaded)
    (distinguishes : Distinguishes daemon hash params world.files)
    (prepares : Prepares daemon hash params world.files prepared)
    (tracked : Tracked hash world.files world) (unbegun : world.snapshots = []) :
    Remote.Leads script (fun world => Referenced daemon params world.files world.loaded)
      (publishCa daemon hash prepared params.state)
      (PublishEnds daemon hash params script world.files) world := by
  have calm : Calm daemon params world.files world.files world.loaded := .of_before initial
  unfold publishCa
  refine (validate_spec initial _ _).bind ?_ ?_
  · rintro exit after ⟨rfl, -⟩
    exact ⟨tracked, .inl calm, by simp [unbegun], fun ended => nomatch ended⟩
  rintro value after ⟨rfl, verified⟩
  have unnamed : params.state = .absent →
      ∀ path, ¬ Names daemon params prepared.configContent path := fun absent =>
    unnamed_of_verified (prepares.expected absent ▸ verified rfl)
  have readies : Remote.Leads script
      (fun world => Referenced daemon params world.files world.loaded)
      (prepareReferencedCaFiles hash prepared params.state)
      (Remote.onValue (fun _ middle => Ready daemon hash params after.files prepared middle)
        fun exit middle => PublishEnds daemon hash params script after.files
          (.error exit) middle) after := by
    cases state : params.state with
    | absent =>
      exact Remote.leads_pure.2 ⟨tracked, calm, by simp [unbegun],
        fun present => by simp [state] at present, fun absent => ⟨unbegun, unnamed absent⟩⟩
    | present =>
      have writes := prepareReferencedCaFiles_spec observed prepares tracked unbegun calm state
      rw [state] at writes
      refine writes.mono fun result middle ⟨trackedMiddle, calmMiddle, notEnrolled, done⟩ => ?_
      cases result with
      | ok _ =>
        exact ⟨trackedMiddle, calmMiddle, notEnrolled, fun _ => done rfl,
          fun absent => by simp [state] at absent⟩
      | error exit =>
        exact ⟨trackedMiddle, .inl calmMiddle, fun absent => by simp [state] at absent,
          fun ended => nomatch ended⟩
  rw [Remote.leads_bind]
  refine readies.mono fun result middle ready => ?_
  cases result with
  | error exit => exact ready
  | ok _ =>
  refine (writeConfigIfChanged_spec observed initial distinguishes prepares ready).bind ?_ ?_
  · rintro exit final ⟨trackedFinal, published, enrolled, -⟩
    exact ⟨trackedFinal, published, enrolled, fun ended => nomatch ended⟩
  rintro value final ⟨trackedFinal, published, enrolled, onDisk⟩
  obtain ⟨file, isFile, isContent⟩ := onDisk rfl
  refine (readEffective_spec published.referenced _).mono fun result last same => ?_
  rw [same]
  exact ⟨trackedFinal, published, enrolled, fun _ absent =>
    ⟨file, isFile, isContent ▸ unnamed absent⟩⟩

/-! ### Activation -/

theorem Tracked.load (tracked : Tracked hash before world) (path : Text) :
    Tracked hash before (world.load path) := by
  refine ⟨?_, ?_, ?_, ?_, ?_⟩
  all_goals simp only [load_files, load_snapshots, load_backups]
  · exact tracked.original
  · exact tracked.backup
  · exact tracked.copied
  · exact tracked.left
  · exact tracked.untouched

/-- A daemon that is told to reload keeps what it has loaded, or reads its configuration. -/
theorem demandLoad_spec {through : CertificateWorld → Prop} (refusal : Text)
    (find key : CertificateStep) (held : through world)
    (loaded : through (world.load CERTIFICATE_SSHD_CONFIG_PATH)) : Remote.Leads script through
      (demand find >>= fun _ => Remote.require refusal key
        (CertificateWorld.load CERTIFICATE_SSHD_CONFIG_PATH))
      (fun result after => (after = world ∨ after = world.load CERTIFICATE_SSHD_CONFIG_PATH) ∧
        (result = .ok () → after = world.load CERTIFICATE_SSHD_CONFIG_PATH) ∧
        (∀ error, result = .error (.raised error) → (script key).FailsClean → after = world))
      world := by
  unfold demand
  rw [Remote.leads_bind, Remote.leads_require, StepOutcome.apply_id]
  refine ⟨held, ?_⟩
  rcases script find with _ | _ | _ | _
  case completed =>
    rw [StepOutcome.demanded_completed, Remote.onValue_ok, Remote.leads_require]
    cases took : (script key).takesEffect with
    | false =>
      rw [StepOutcome.apply_of_not_takesEffect took]
      refine ⟨held, .inl rfl, fun ended => ?_, fun _ _ _ => rfl⟩
      rcases outcome : script key <;> simp [outcome] at took ended
    | true =>
      rw [StepOutcome.apply_of_takesEffect took]
      refine ⟨loaded, .inr rfl, fun _ => rfl, fun error raised clean => ?_⟩
      exact absurd took (by simp [clean.not_takesEffect raised])
  all_goals exact ⟨.inl rfl, fun ended => (nomatch ended), fun _ _ _ => rfl⟩

/-- The steps a rollback depends on: no test for existence fails, the reload that follows a
configuration which may name new files takes no effect where it is reported as failed, and
the file that is changed last can be put back. -/
structure SafeSteps (params : CaParameters) (before : Files) (script : CertificateScript) :
    Prop where
  observed : Observed script
  reload : params.state = .present → Missing params before → (script .reload).FailsClean
  config : params.state = .present → Missing params before →
    (script (.publish CERTIFICATE_SSHD_CONFIG_PATH)).takesEffect = true →
      RestoreLands script CERTIFICATE_SSHD_CONFIG_PATH
  removal : params.state = .absent →
    ¬ (script (.remove TRUSTED_USER_CA_PATH)).FailsClean →
      RestoreLands script TRUSTED_USER_CA_PATH

/-- Where a rollback may begin -/
def RollsBack (daemon : Daemon) (params : CaParameters) (script : CertificateScript)
    (before : Files) (world : CertificateWorld) : Prop :=
  Calm daemon params before world.files world.loaded ∨
    ∃ path, Turned daemon params before path world ∧ RestoreLands script path

theorem Published.rollsBack (safe : SafeSteps params before script)
    (published : Published daemon params script before world) :
    RollsBack daemon params script before world :=
  published.imp_right fun ⟨present, missing, took, _, turned⟩ =>
    ⟨_, turned, safe.config present missing took⟩

/-- The removal of the CA file after the daemon has loaded a configuration that names no
managed file -/
theorem removeCa_spec (safe : SafeSteps params before script) {prepared : PreparedCa}
    {first : Text} (initial : Referenced daemon params before first)
    (prepares : Prepares daemon hash params before prepared) (tracked : Tracked hash before world)
    (calm : Calm daemon params before world.files world.loaded) (absent : params.state = .absent)
    (enrolled : ∀ entry ∈ world.snapshots, entry.file.path = CERTIFICATE_SSHD_CONFIG_PATH)
    (unnamed : ∀ content, Live world.files world.loaded content →
      ∀ path, ¬ Names daemon params content path) :
    Remote.Leads script (fun world => Referenced daemon params world.files world.loaded)
      (removeCertificateFile hash prepared.ca)
      (fun result after => Referenced daemon params after.files after.loaded ∧
        Tracked hash before after ∧
        (∀ error, result = .error (.raised error) →
          RollsBack daemon params script before after)) world := by
  have caPath : prepared.ca.path = TRUSTED_USER_CA_PATH := by rw [prepares.ca]
  have fresh : Fresh hash before prepared.ca world :=
    ⟨by rw [prepares.ca], fun entry mem => by
      rw [enrolled entry mem, caPath]
      exact ca_ne_config.symm⟩
  have caBefore : world.files TRUSTED_USER_CA_PATH = before TRUSTED_USER_CA_PATH := by
    have same := fresh.file_eq tracked
    rwa [caPath] at same
  have removed : Referenced daemon params
      (Function.update world.files prepared.ca.path none) world.loaded := by
    intro content live path named
    refine absurd named (unnamed content (live.imp_right ?_) path)
    rintro ⟨file, onDisk, isContent⟩
    rw [caPath, Function.update_of_ne ca_ne_config.symm] at onDisk
    exact ⟨file, onDisk, isContent⟩
  refine (removeCertificateFile_spec safe.observed fresh tracked calm.referenced removed).mono
    fun result after ⟨changes, clean⟩ => ?_
  rw [caPath] at changes clean removed
  refine ⟨?_, changes.tracked, fun error raised => ?_⟩
  · rw [changes.loaded]
    rcases changes.files with same | ⟨-, updated⟩
    · rw [same]
      exact calm.referenced
    · rw [updated, caPath]
      exact removed
  have stays : after.files = world.files → RollsBack daemon params script before after := by
    intro same
    refine .inl ?_
    rw [same, changes.loaded]
    exact calm
  by_cases failsClean : (script (.remove TRUSTED_USER_CA_PATH)).FailsClean
  · exact stays (clean error raised failsClean)
  rcases changes.files with same | ⟨-, updated⟩
  · exact stays same
  rw [caPath] at updated
  by_cases missing : before TRUSTED_USER_CA_PATH = none
  · rw [missing] at caBefore
    refine stays ?_
    rw [updated, ← caBefore, Function.update_eq_self]
  refine .inr ⟨TRUSTED_USER_CA_PATH, ?_, safe.removal absent failsClean⟩
  rcases changes.enrolled with same | ⟨entry, isCa, entered⟩
  · have untouched := changes.tracked.untouched TRUSTED_USER_CA_PATH fun entry mem atPath =>
      absurd (caPath ▸ atPath) (fresh.notEnrolled entry (same ▸ mem))
    rw [updated, Function.update_self] at untouched
    exact absurd untouched.symm missing
  refine ⟨⟨world.snapshots, entry, entered, by rw [isCa, caPath], fun other mem =>
    caPath ▸ fresh.notEnrolled other mem⟩, Option.isSome_iff_ne_none.2 missing, ?_, ?_, ?_⟩
  · rw [updated]
    exact calm.authored.remove _
  · rw [updated, Function.update_idem, changes.loaded]
    exact calm.restore initial _
  · rw [updated, changes.loaded]
    exact removed

theorem activateCa_spec (safe : SafeSteps params before script) {prepared : PreparedCa}
    {first : Text} (initial : Referenced daemon params before first)
    (prepares : Prepares daemon hash params before prepared)
    (publishEnds : PublishEnds daemon hash params script before (.ok ()) world) :
    Remote.Leads script (fun world => Referenced daemon params world.files world.loaded)
      (activateCa hash prepared params.state)
      (fun result after => Referenced daemon params after.files after.loaded ∧
        Tracked hash before after ∧
        (∀ error, result = .error (.raised error) →
          RollsBack daemon params script before after)) world := by
  have referenced := publishEnds.published.referenced
  have tracked := publishEnds.tracked
  unfold activateCa reloadTransaction
  refine (demandLoad_spec _ .findReload .reload referenced referenced.load).bind ?_ ?_
  · rintro exit after ⟨shape, -, clean⟩
    refine ⟨?_, ?_, fun error raised => ?_⟩
    · rcases shape with rfl | rfl
      · exact referenced
      · exact referenced.load
    · rcases shape with rfl | rfl
      · exact tracked
      · exact tracked.load _
    · rcases publishEnds.published with calm | ⟨present, missing, took, allThere, turned⟩
      · rcases shape with rfl | rfl
        · exact .inl calm
        · exact .inl calm.load
      · rw [clean error raised (safe.reload present missing)]
        exact .inr ⟨_, turned, safe.config present missing took⟩
  rintro value after ⟨-, done, -⟩
  obtain rfl := done rfl
  cases state : params.state with
  | present =>
    exact Remote.leads_pure.2 ⟨referenced.load, tracked.load _, fun _ ended => nomatch ended⟩
  | absent =>
    have calm : Calm daemon params before world.files world.loaded := by
      rcases publishEnds.published with calm | ⟨present, -⟩
      · exact calm
      · rw [state] at present
        cases present
    obtain ⟨file, onDisk, unnamed⟩ := publishEnds.unnamed rfl state
    have isLoaded : (world.load CERTIFICATE_SSHD_CONFIG_PATH).loaded = file.content := by
      unfold CertificateWorld.load
      rw [onDisk]
    refine removeCa_spec safe initial prepares (tracked.load _) calm.load state ?_ ?_
    · rw [load_snapshots]
      exact publishEnds.enrolled state
    · rw [load_files, isLoaded]
      rintro content (rfl | ⟨other, isOther, rfl⟩)
      · exact unnamed
      · rw [onDisk, Option.some.injEq] at isOther
        exact isOther ▸ unnamed

/-! ### Runs -/

/-- What a run of the apply ends with: the files are as before where it rolled back without
a failure. -/
def Undone (before : Files) (result : Except (Exit Text) CaResult) (after : CertificateWorld) :
    Prop :=
  ∀ error, result = .ok (.rolledBack error []) → after.files = before

theorem rollbackCa_spec (observed : Observed script) {first : Text}
    (initial : Referenced daemon params before first)
    (distinguishes : Distinguishes daemon hash params before) (tracked : Tracked hash before world)
    (rollsBack : RollsBack daemon params script before world) (error : Text)
    (reloadAttempted : Bool) :
    Remote.Leads script (fun world => Referenced daemon params world.files world.loaded)
      (rollbackCa hash error reloadAttempted) (Undone before) world := by
  unfold rollbackCa
  refine (rollbackFiles_spec observed initial distinguishes tracked rollsBack).bind ?_ ?_
  · exact fun exit after _ error ended => nomatch ended
  rintro failures after ⟨calm, restored⟩
  have undone : ∀ {final : CertificateWorld} {steps : List RollbackFailure} {value : CaResult},
      value = .rolledBack error steps → (steps = [] → failures = []) →
      final.files = after.files → Undone before (.ok value) final := by
    rintro final steps value rfl clean same other ended
    injection ended with ended
    injection ended with _ noSteps
    rw [same]
    exact restored (by rw [clean noSteps])
  split
  · unfold restoreReload
    rw [Remote.leads_bind, Remote.leads_attempt]
    refine (demandLoad_spec _ .findReloadAgain .reloadAgain calm.referenced
      calm.load.referenced).mono fun result final ⟨shape, _⟩ => ?_
    have sameFiles : final.files = after.files := by
      rcases shape with rfl | rfl
      · rfl
      · exact load_files _
    rcases result with (restoreError | _) | value
    · exact Remote.leads_pure.2 (undone rfl (fun noSteps => by simp at noSteps) sameFiles)
    · exact fun error ended => nomatch ended
    · exact Remote.leads_pure.2 (undone rfl id sameFiles)
  · exact Remote.leads_pure.2 (undone rfl id rfl)

theorem finishCa_spec {through : CertificateWorld → Prop} (held : through world) :
    Remote.Leads script through finishCa (Undone before) world := by
  unfold finishCa
  refine (cleanupStaging_spec held).bind (fun exit after _ error ended => nomatch ended) ?_
  intro cleanup after _
  refine Remote.leads_pure.2 fun error ended => ?_
  split at ended <;> cases ended

theorem applyCa_spec {prepared : PreparedCa} (safe : SafeSteps params world.files script)
    (initial : Referenced daemon params world.files world.loaded)
    (distinguishes : Distinguishes daemon hash params world.files)
    (prepares : Prepares daemon hash params world.files prepared)
    (tracked : Tracked hash world.files world) (unbegun : world.snapshots = []) :
    Remote.Leads script (fun world => Referenced daemon params world.files world.loaded)
      (applyCa daemon hash prepared params.state) (Undone world.files) world := by
  unfold applyCa
  rw [Remote.leads_bind, Remote.leads_attempt]
  refine (publishCa_spec safe.observed initial distinguishes prepares tracked unbegun).mono
    fun result middle publishEnds => ?_
  rcases result with (error | _) | value
  · exact rollbackCa_spec safe.observed initial distinguishes publishEnds.tracked
      (publishEnds.published.rollsBack safe) error false
  · exact fun error ended => nomatch ended
  simp only [Remote.caught_ok, Remote.onValue_ok]
  split
  · rw [Remote.leads_bind, Remote.leads_attempt]
    refine (activateCa_spec safe initial prepares publishEnds).mono
      fun result after ⟨referenced, trackedAfter, rollsBack⟩ => ?_
    rcases result with (error | _) | value
    · exact rollbackCa_spec safe.observed initial distinguishes trackedAfter
        (rollsBack error rfl) error true
    · exact fun error ended => nomatch ended
    · exact finishCa_spec referenced
  · exact finishCa_spec publishEnds.published.referenced

theorem runCa_spec (safe : SafeSteps params world.files script)
    (initial : Referenced daemon params world.files world.loaded)
    (distinguishes : Distinguishes daemon hash params world.files)
    (tracked : Tracked hash world.files world) (unbegun : world.snapshots = []) :
    Remote.Leads script (fun world => Referenced daemon params world.files world.loaded)
      (runCa daemon hash params) (Undone world.files) world := by
  unfold runCa
  refine (prepareCa_spec safe.observed initial).bind ?_ ?_
  · exact fun exit after _ error ended => nomatch ended
  rintro prepared after ⟨rfl, prepared_spec⟩
  have prepares := prepared_spec prepared rfl
  split
  · refine (validate_spec initial _ _).bind (fun exit final _ error ended => nomatch ended) ?_
    rintro value final ⟨rfl, -⟩
    refine (readEffective_spec initial _).bind (fun exit last _ error ended => nomatch ended) ?_
    exact fun value last _ => Remote.leads_pure.2 fun error ended => nomatch ended
  · exact applyCa_spec safe initial distinguishes prepares tracked unbegun

/-- The host before a run, with a transaction that has not begun -/
def CertificateWorld.start (files : Files) (loaded : Text) : CertificateWorld where
  files := files
  loaded := loaded
  backups := fun _ => none
  snapshots := []
  staging := []
  retained := []

/-! ### A host without a CA -/

def plainConfig : Text := text "Port 22
"

def plainFiles : Files := fun path =>
  if path = CERTIFICATE_SSHD_CONFIG_PATH then
    some { content := plainConfig, metadata := REGULAR_MODE }
  else none

def firstCa : CaParameters where
  content := some (text "ssh-ed25519 AAAA
")
  principalsFile := text "/etc/ssh/auth_principals/%u"
  revokedKeys := none
  state := .present
  distinct _ impossible := nomatch impossible
  safe _ impossible := nomatch impossible
  given := ⟨fun _ => rfl, fun _ => rfl⟩

theorem plainFiles_referenced : Referenced plainDaemon firstCa plainFiles plainConfig := by
  intro content live path named
  have isPlain : content = plainConfig := by
    rcases live with rfl | ⟨file, onDisk, rfl⟩
    · rfl
    · rw [plainFiles, if_pos rfl, Option.some.injEq] at onDisk
      rw [← onDisk]
  obtain ⟨output, directive, isEffective, mem, value⟩ := named
  obtain rfl : content = output := Option.some.inj isEffective
  obtain ⟨rfl, rfl⟩ : directive = text "TrustedUserCAKeys" ∧ path = TRUSTED_USER_CA_PATH := by
    simpa [managedFiles, firstCa] using mem
  rw [isPlain] at value
  exact absurd value (by decide +kernel)

/-- The effective configuration cannot be read, so the apply rolls back. -/
def unreadable : CertificateScript := fun key =>
  if key = .readEffective then .refused false else .completed

theorem unreadable_safe : SafeSteps firstCa plainFiles unreadable where
  observed occasion path tookEffect := by simp [unreadable]
  reload _ _ := trivial
  config _ _ _ := ⟨⟨rfl, rfl, rfl⟩, rfl⟩
  removal absent := nomatch absent

/-! ### Runs that keep the trust -/

/-- After every step of an apply and of its rollback, each managed file that the
configuration on the disk or the loaded one names is there, and a rollback that reports no
failure leaves the files as they were. -/
theorem trust_kept (daemon : Daemon) (hash : Text → Text) (params : CaParameters)
    (script : CertificateScript) (files : Files) (loaded : Text)
    (initial : Referenced daemon params files loaded)
    (distinguishes : Distinguishes daemon hash params files)
    (safe : SafeSteps params files script) :
    (∀ passed ∈ ((runCa daemon hash params).run script (.start files loaded)).seen,
      Referenced daemon params passed.files passed.loaded) ∧
    ∀ error, ((runCa daemon hash params).run script (.start files loaded)).result =
        .ok (.rolledBack error []) →
      ((runCa daemon hash params).run script (.start files loaded)).world.files =
        files := by
  have tracked : Tracked hash files (.start files loaded) :=
    ⟨fun _ mem => (nomatch mem), fun _ mem => (nomatch mem), fun _ mem => (nomatch mem),
      fun _ mem => (nomatch mem), fun _ _ => rfl⟩
  exact @runCa_spec daemon hash params script (.start files loaded) safe initial
    distinguishes tracked rfl

/-- The rollback removes the new files and restores the configuration. -/
theorem unreadable_trust_kept :
    (∀ passed ∈ ((runCa plainDaemon id firstCa).run unreadable
      (.start plainFiles plainConfig)).seen, Referenced plainDaemon firstCa passed.files
        passed.loaded) ∧
    ((runCa plainDaemon id firstCa).run unreadable (.start plainFiles plainConfig)).world.files =
      plainFiles := by
  have kept := trust_kept plainDaemon id firstCa unreadable plainFiles plainConfig
    plainFiles_referenced (fun _ _ _ _ _ same => same) unreadable_safe
  exact ⟨kept.1, kept.2 commandFailed (by decide +kernel)⟩

/-! ### A reload that happened although it failed -/

/-- The daemon reloads, and the command exits with an error. -/
def belatedReload : CertificateScript := fun key =>
  if key = .reload then .refused true else .completed

/-- The rollback deletes the CA file while the daemon runs with the configuration that names
it. -/
theorem belated_reload_untrusted :
    ¬ ∀ (daemon : Daemon) (hash : Text → Text) (params : CaParameters)
      (script : CertificateScript) (files : Files) (loaded : Text),
      Referenced daemon params files loaded →
      Distinguishes daemon hash params files →
      ∀ passed ∈ ((runCa daemon hash params).run script (.start files loaded)).seen,
        Referenced daemon params passed.files passed.loaded := by
  intro claim
  have kept := claim plainDaemon id firstCa belatedReload plainFiles plainConfig
    plainFiles_referenced fun _ _ _ _ _ same => same
  have dangling : ((runCa plainDaemon id firstCa).run belatedReload
      (.start plainFiles plainConfig)).seen.any (fun passed =>
        passed.files TRUSTED_USER_CA_PATH = none ∧ TRUSTED_USER_CA_PATH ∈
          collectEffectiveSshdDirectiveValues plainDaemon.toLowerCase passed.loaded
            (text "TrustedUserCAKeys")) = true := by
    decide +kernel
  obtain ⟨passed, mem, dangles⟩ := List.any_eq_true.mp dangling
  obtain ⟨missing, named⟩ := of_decide_eq_true dangles
  have there := kept passed mem passed.loaded (.inl rfl) TRUSTED_USER_CA_PATH
    ⟨passed.loaded, _, rfl, List.mem_cons_self, named⟩
  rw [missing] at there
  cases there

end Paratix.Sshd
