/-
Module: Paratix.Sshd.CertificateFilesSound
Purpose: The transaction over the files of certificate logins: what its operations do to the files,
  and what its snapshots say of the files before it.
Main exports: StoredFile, restoreSnapshot_spec
-/
import Mathlib.Logic.Function.Basic
import Paratix.Archive.Member
import Paratix.Foundation.Remote

namespace Paratix.Sshd

open Foundation Archive

/-! ### Files -/

structure StoredFile where
  content : Text
  /-- `stat -c '%a %u %g'` -/
  metadata : Text
deriving DecidableEq

structure FileState where
  hash : Text
  metadata : Text
deriving DecidableEq

/-- `none` where there is no file -/
abbrev CertificateFileState := Option FileState

structure CertificateFile where
  content : Option Text
  original : CertificateFileState
  path : Text
  preserve : Bool
deriving DecidableEq

def REGULAR_MODE : Text := text "644 0 0"

def WRITE_BITS : Nat := 0o022

def ROOT_READ_BIT : Nat := 0o400

def isOctalDigit (char : Char) : Bool := '0' ≤ char && char ≤ '7'

/-- `Number.parseInt(mode, 8)` -/
def octalValue (mode : Text) : Nat :=
  mode.foldl (fun value char => 8 * value + (char.toNat - '0'.toNat)) 0

def safeRootMetadata (metadata : Text) (rootReadable : Bool) : Bool :=
  let columns := metadata.splitOn ' '
  let mode := columns[0]?.getD []
  if (mode.length = 3 ∨ mode.length = 4) ∧ mode.all isOctalDigit ∧ columns[1]? = some ['0'] then
    let bits := octalValue mode
    (bits &&& WRITE_BITS) = 0 && (!rootReadable || (bits &&& ROOT_READ_BIT) ≠ 0)
  else false

def sameState (left right : CertificateFileState) : Bool := left = right

/-! ### Worlds and steps -/

structure Snapshot where
  /-- Whether there is a backup -/
  backup : Bool
  expected : CertificateFileState
  file : CertificateFile
  touched : Bool
deriving DecidableEq

/-- The host, and what the transaction remembers. -/
structure CertificateWorld where
  files : Text → Option StoredFile
  /-- The content of `sshd_config` when the running daemon last read it -/
  loaded : Text
  /-- The copies in the staging directories, by the path they are copies of -/
  backups : Text → Option StoredFile
  snapshots : List Snapshot
  /-- The paths that have a staging directory -/
  staging : List Text
  /-- The paths whose staging directory a failed restore keeps -/
  retained : List Text

inductive Occasion where
  | prepare
  | enroll
  | backup
  | unchanged
  | published
  | restore
  | restored
deriving DecidableEq

/-- The remote steps, each with the path it is about. Commands that only read, or write
to staged files only, and whose failures all throw are one step. -/
inductive CertificateStep where
  /-- The parents, and the test for a symbolic link -/
  | protect (occasion : Occasion) (path : Text)
  | exists (occasion : Occasion) (path : Text)
  /-- The test for a regular file, `stat` and the hash -/
  | describe (occasion : Occasion) (path : Text)
  | prepareParents (path : Text)
  | stage (path : Text)
  | backup (path : Text)
  | stageContent (path : Text)
  | publish (path : Text)
  | remove (path : Text)
  | undoCreated (path : Text)
  | undoChanged (path : Text)
  | cleanup (path : Text)
  | removeParents (path : Text)
  | readConfig
  /-- The scan of the file and what it includes, which may refuse -/
  | scan
  /-- The commands that stage, test and remove a candidate -/
  | tryCandidate
  | readEffective
  /-- The commands that find the unit and how to reload it -/
  | findReload
  | reload
  | findReloadAgain
  | reloadAgain
deriving DecidableEq

abbrev CertificateRemote (α : Type) := Remote CertificateStep CertificateWorld Text α

def commandFailed : Text := text "Command failed"

/-- A command that has to succeed and changes nothing that is looked at later -/
def demand (key : CertificateStep) : CertificateRemote Unit :=
  Remote.require commandFailed key id

def CertificateWorld.store (path : Text) (file : Option StoredFile) (world : CertificateWorld) :
    CertificateWorld :=
  { world with files := Function.update world.files path file }

def CertificateWorld.copy (path : Text) (world : CertificateWorld) : CertificateWorld :=
  { world with backups := Function.update world.backups path (world.files path) }

def touched (path : Text) (expected : CertificateFileState) (snapshot : Snapshot) : Snapshot :=
  if snapshot.file.path = path then { snapshot with expected := expected, touched := true }
  else snapshot

def CertificateWorld.touch (path : Text) (expected : CertificateFileState)
    (world : CertificateWorld) : CertificateWorld :=
  { world with snapshots := world.snapshots.map (touched path expected) }

/-- The daemon reads `sshd_config` again. -/
def CertificateWorld.load (path : Text) (world : CertificateWorld) : CertificateWorld :=
  match world.files path with
  | none => world
  | some file => { world with loaded := file.content }

section Hash

/- `createHash("sha256").update(content).digest("hex")` -/
variable (contentHash : Text → Text)

def StoredFile.state (file : StoredFile) : FileState :=
  { hash := contentHash file.content, metadata := file.metadata }

def certificateFileMatches (file : CertificateFile) : Bool :=
  if file.preserve ∧ file.original ≠ none then true
  else
    match file.content with
    | none => file.original = none
    | some content =>
        file.original = some { hash := contentHash content, metadata := REGULAR_MODE }

/-- A test for existence that exits with an error says that there is no file. -/
def inspectCertificateFile (occasion : Occasion) (path : Text) (preserve : Bool)
    (view : CertificateWorld → Option StoredFile) : CertificateRemote CertificateFileState := do
  demand (.protect occasion path)
  match ← Remote.query (.exists occasion path) view with
  | none => pure none
  | some _ =>
      match ← Remote.read commandFailed (.describe occasion path) view with
      | none => Remote.throw (text "File disappeared during preflight: " ++ path)
      | some file =>
          if preserve ∧ ¬ safeRootMetadata file.metadata true then
            Remote.throw (text "Revocation file must be root-owned, root-readable and not " ++
              text "group/other-writable: " ++ path)
          else pure (some (file.state contentHash))

def inspectPath (occasion : Occasion) (path : Text) (preserve : Bool) :
    CertificateRemote CertificateFileState :=
  inspectCertificateFile contentHash occasion path preserve fun world => world.files path

/-! ### Changes -/

/-- The verified copy that `snapshot` takes of a file that exists -/
def backupOriginal (file : CertificateFile) : CertificateRemote Unit :=
  if file.original = none then pure ()
  else do
    Remote.require commandFailed (.backup file.path) (CertificateWorld.copy file.path)
    let copied ← inspectCertificateFile contentHash .backup file.path false fun world =>
      world.backups file.path
    if sameState copied file.original then pure ()
    else Remote.throw (text "Backup verification failed: " ++ file.path)

/-- `snapshot` -/
def snapshotFile (file : CertificateFile) : CertificateRemote Unit := do
  let snapshots ← Remote.inspect CertificateWorld.snapshots
  if snapshots.any fun entry => entry.file.path = file.path then
    Remote.throw (text "File already enrolled in transaction: " ++ file.path)
  else
    let current ← inspectPath contentHash .enroll file.path file.preserve
    if sameState current file.original then
      demand (.prepareParents file.path)
      demand (.stage file.path)
      Remote.note fun world => { world with staging := world.staging ++ [file.path] }
      backupOriginal contentHash file
      Remote.note fun world => { world with
        snapshots := world.snapshots ++ [{
          backup := file.original ≠ none
          expected := file.original
          file := file
          touched := false }] }
    else Remote.throw (text "Concurrent modification: " ++ file.path)

def assertOriginalUnchanged (file : CertificateFile) : CertificateRemote Unit := do
  let current ← inspectPath contentHash .unchanged file.path false
  if sameState current file.original then pure ()
  else Remote.throw (text "Concurrent modification: " ++ file.path)

/-- Notes in the snapshot of the file what the command is to leave, and runs it. -/
def changeFile (key : CertificateStep) (path : Text) (new : Option StoredFile) :
    CertificateRemote Unit := do
  Remote.note (CertificateWorld.touch path (new.map (StoredFile.state contentHash)))
  Remote.require commandFailed key (CertificateWorld.store path new)

/-- `write` -/
def writeCertificateFile (file : CertificateFile) : CertificateRemote Unit :=
  if certificateFileMatches contentHash file then pure ()
  else do
    snapshotFile contentHash file
    match file.content with
    | none => Remote.throw (text "Missing staged content")
    | some content =>
        demand (.stageContent file.path)
        assertOriginalUnchanged contentHash file
        let published : StoredFile := { content := content, metadata := REGULAR_MODE }
        changeFile contentHash (.publish file.path) file.path (some published)
        let current ← inspectPath contentHash .published file.path false
        if sameState current (some (published.state contentHash)) then pure ()
        else Remote.throw (text "Published file verification failed: " ++ file.path)

/-- `remove` -/
def removeCertificateFile (file : CertificateFile) : CertificateRemote Unit :=
  if file.original = none then pure ()
  else do
    snapshotFile contentHash file
    assertOriginalUnchanged contentHash file
    changeFile contentHash (.remove file.path) file.path none

/-! ### Rollback -/

/-- The command of `restore` -/
def undoSnapshot (snapshot : Snapshot) : CertificateRemote Unit :=
  let path := snapshot.file.path
  if snapshot.backup then
    Remote.require commandFailed (.undoChanged path) fun world =>
      world.store path (world.backups path)
  else Remote.require commandFailed (.undoCreated path) (CertificateWorld.store path none)

/-- `restore` -/
def restoreSnapshot (snapshot : Snapshot) : CertificateRemote Unit := do
  let path := snapshot.file.path
  let current ← inspectPath contentHash .restore path false
  if sameState current snapshot.file.original then pure ()
  else if sameState current snapshot.expected then
    undoSnapshot snapshot
    let restored ← inspectPath contentHash .restored path false
    if sameState restored snapshot.file.original then pure ()
    else Remote.throw (text "Restored file content or metadata did not match snapshot")
  else
    Remote.throw (text "Concurrent modification prevents safe rollback; backup retained")

def retainFailedBackup (snapshot : Snapshot) : CertificateRemote Unit :=
  if snapshot.backup then
    Remote.note fun world => { world with retained := world.retained ++ [snapshot.file.path] }
  else pure ()

structure RollbackFailure where
  path : Text
  error : Text
deriving DecidableEq

/-- The snapshots are given in the order they are restored in. -/
def restoreSnapshots : List Snapshot → CertificateRemote (List RollbackFailure)
  | [] => pure []
  | snapshot :: rest =>
      if snapshot.touched then do
        match ← (restoreSnapshot contentHash snapshot).attempt with
        | .ok _ => restoreSnapshots rest
        | .error error =>
            retainFailedBackup snapshot
            let failures ← restoreSnapshots rest
            pure ({ path := snapshot.file.path, error := error } :: failures)
      else restoreSnapshots rest

end Hash

def cleanupPaths (retained : List Text) : List Text → CertificateRemote (List RollbackFailure)
  | [] => pure []
  | path :: rest =>
      if path ∈ retained then cleanupPaths retained rest
      else do
        match ← (demand (.cleanup path)).attempt with
        | .ok _ => cleanupPaths retained rest
        | .error error =>
            let failures ← cleanupPaths retained rest
            pure ({ path := path, error := error } :: failures)

/-- `cleanup` -/
def cleanupStaging : CertificateRemote (List RollbackFailure) := do
  let staging ← Remote.inspect CertificateWorld.staging
  let retained ← Remote.inspect CertificateWorld.retained
  cleanupPaths retained staging

/-- The parents that were created for the paths -/
def removeParents : List Text → CertificateRemote (List RollbackFailure)
  | [] => pure []
  | path :: rest => do
      match ← (demand (.removeParents path)).attempt with
      | .ok _ => removeParents rest
      | .error error =>
          let failures ← removeParents rest
          pure ({ path := path, error := error } :: failures)

/-- `rollback` -/
def rollbackFiles (contentHash : Text → Text) : CertificateRemote (List RollbackFailure) := do
  let snapshots ← Remote.inspect CertificateWorld.snapshots
  let restoring ← restoreSnapshots contentHash snapshots.reverse
  let cleaning ← cleanupStaging
  let staging ← Remote.inspect CertificateWorld.staging
  let removing ← removeParents staging.reverse
  pure (restoring ++ cleaning ++ removing)

abbrev CertificateScript := CertificateStep → StepOutcome Text

abbrev Files := Text → Option StoredFile

/-- No test for the existence of a file exits with an error, which would say that there
is no file. -/
def Observed (script : CertificateScript) : Prop :=
  ∀ occasion path tookEffect, script (.exists occasion path) ≠ .refused tookEffect

/-- The three steps of an inspection go through. -/
def Inspects (script : CertificateScript) (occasion : Occasion) (path : Text) : Prop :=
  script (.protect occasion path) = .completed ∧ script (.exists occasion path) = .completed ∧
    script (.describe occasion path) = .completed

/-- The restore of a changed file looks at it and moves the backup back. -/
def RestoreLands (script : CertificateScript) (path : Text) : Prop :=
  Inspects script .restore path ∧ (script (.undoChanged path)).takesEffect = true

/-- What the snapshots say of the files before the transaction. -/
structure Tracked (hash : Text → Text) (before : Files) (world : CertificateWorld) :
    Prop where
  original : ∀ entry ∈ world.snapshots,
    entry.file.original = (before entry.file.path).map (StoredFile.state hash)
  backup : ∀ entry ∈ world.snapshots, entry.backup = (before entry.file.path).isSome
  copied : ∀ entry ∈ world.snapshots, entry.backup = true →
    world.backups entry.file.path = before entry.file.path
  left : ∀ entry ∈ world.snapshots, entry.touched = true →
    world.files entry.file.path = before entry.file.path ∨
      (world.files entry.file.path).map (StoredFile.state hash) = entry.expected
  untouched : ∀ path, (∀ entry ∈ world.snapshots, entry.file.path = path →
    entry.touched = false) → world.files path = before path

section Operations

variable {hash : Text → Text} {script : CertificateScript}
  {holds : Files → Text → Prop} {world : CertificateWorld}

theorem demand_spec {key : CertificateStep} (held : holds world.files world.loaded) :
    Remote.Leads script (fun world => holds world.files world.loaded) (demand key)
      (fun _ after => after = world) world := by
  unfold demand
  simpa using held

theorem inspect_spec (observed : Observed script) {occasion : Occasion} {path : Text}
    {preserve : Bool} {view : CertificateWorld → Option StoredFile}
    (held : holds world.files world.loaded) :
    Remote.Leads script (fun world => holds world.files world.loaded)
      (inspectCertificateFile hash occasion path preserve view)
      (fun result after => after = world ∧
        (∀ state, result = .ok state →
          state = (view world).map (StoredFile.state hash)) ∧
        (Inspects script occasion path → preserve = false → ∃ state, result = .ok state))
      world := by
  unfold inspectCertificateFile demand Inspects
  simp only [Remote.leads_bind, Remote.leads_require, StepOutcome.apply_id, held, true_and]
  rcases safe : script (.protect occasion path) with _ | _ | _ | _
  case completed =>
    simp only [StepOutcome.demanded_completed, Remote.onValue_ok, Remote.leads_query, held, true_and]
    rcases tested : script (.exists occasion path) with _ | tookEffect | _ | _
    case refused => exact absurd tested (observed _ _ _)
    case completed =>
      rcases viewed : view world with _ | file
      · simp [Except.map]
      · rcases described : script (.describe occasion path) with _ | _ | _ | _
        case completed =>
          simp only [Remote.leads_bind, Remote.leads_read, described, viewed, held,
            StepOutcome.report_completed, StepOutcome.demanded_completed, Except.map,
            Remote.onValue_ok, if_true, true_and]
          split
          · next unsafeMode => simp [unsafeMode.1]
          · simp
        all_goals simp [described, Except.map, held]
    all_goals simp [Except.map]
  all_goals simp

/-! ### Snapshots -/

variable {before : Files}

/-- The file is not in the transaction yet, and its original state is the one before it. -/
structure Fresh (hash : Text → Text) (before : Files) (file : CertificateFile)
    (world : CertificateWorld) : Prop where
  original : file.original = (before file.path).map (StoredFile.state hash)
  notEnrolled : ∀ entry ∈ world.snapshots, entry.file.path ≠ file.path

def newSnapshot (file : CertificateFile) : Snapshot where
  backup := file.original ≠ none
  expected := file.original
  file := file
  touched := false

theorem Fresh.file_eq {file : CertificateFile} (fresh : Fresh hash before file world)
    (tracked : Tracked hash before world) : world.files file.path = before file.path :=
  tracked.untouched _ fun entry mem same => absurd same (fresh.notEnrolled entry mem)

/-- A copy for a file that is not enrolled leaves what the snapshots say. -/
theorem Tracked.copy {file : CertificateFile} (fresh : Fresh hash before file world)
    (tracked : Tracked hash before world) :
    Tracked hash before (world.copy file.path) where
  original := tracked.original
  backup := tracked.backup
  copied entry mem hasBackup := by
    change Function.update world.backups file.path (world.files file.path) entry.file.path = _
    rw [Function.update_of_ne (fresh.notEnrolled entry mem)]
    exact tracked.copied entry mem hasBackup
  left := tracked.left
  untouched := tracked.untouched

/-- The snapshot of a file that is backed up, where it exists, says the truth. -/
theorem Tracked.enroll {file : CertificateFile} (fresh : Fresh hash before file world)
    (tracked : Tracked hash before world)
    (copied : file.original = none ∨ world.backups file.path = before file.path) :
    Tracked hash before
      { world with snapshots := world.snapshots ++ [newSnapshot file] } where
  original entry mem := by
    rcases List.mem_append.1 mem with old | new
    · exact tracked.original entry old
    · rw [List.mem_singleton.1 new]
      exact fresh.original
  backup entry mem := by
    rcases List.mem_append.1 mem with old | new
    · exact tracked.backup entry old
    · rw [List.mem_singleton.1 new]
      rcases there : before file.path <;> simp [newSnapshot, fresh.original, there]
  copied entry mem hasBackup := by
    rcases List.mem_append.1 mem with old | new
    · exact tracked.copied entry old hasBackup
    · rw [List.mem_singleton.1 new] at hasBackup ⊢
      exact copied.resolve_left (by simpa [newSnapshot] using hasBackup)
  left entry mem touched := by
    rcases List.mem_append.1 mem with old | new
    · exact tracked.left entry old touched
    · rw [List.mem_singleton.1 new] at touched
      exact absurd touched (by simp [newSnapshot])
  untouched path unseen :=
    tracked.untouched path fun entry mem => unseen entry (List.mem_append_left _ mem)

theorem backupOriginal_spec (observed : Observed script) {file : CertificateFile}
    (held : holds world.files world.loaded) :
    Remote.Leads script (fun world => holds world.files world.loaded)
      (backupOriginal hash file)
      (fun result after => (after = world ∨ after = world.copy file.path) ∧
        (result = .ok () → file.original = none ∨ after = world.copy file.path)) world := by
  unfold backupOriginal
  split
  · next missing => simp [missing]
  · simp only [Remote.leads_bind, Remote.leads_require]
    refine ⟨?_, ?_⟩
    · unfold StepOutcome.apply
      split <;> exact held
    · rcases copied : script (.backup file.path) with _ | tookEffect | ⟨tookEffect, _⟩ | tookEffect
      case completed =>
        simp only [StepOutcome.demanded_completed, StepOutcome.apply_completed, Remote.onValue_ok]
        have copyHeld : holds (world.copy file.path).files (world.copy file.path).loaded := held
        refine (inspect_spec observed copyHeld).mono ?_
        rintro result after ⟨same, -, -⟩
        cases result with
        | error exit => simp [same]
        | ok state =>
          simp only [Remote.onValue_ok]
          split <;> simp [same]
      all_goals cases tookEffect <;> simp

theorem snapshotFile_spec (observed : Observed script) {file : CertificateFile}
    (fresh : Fresh hash before file world) (tracked : Tracked hash before world)
    (held : holds world.files world.loaded) :
    Remote.Leads script (fun world => holds world.files world.loaded)
      (snapshotFile hash file)
      (fun result after => after.files = world.files ∧ after.loaded = world.loaded ∧
        Tracked hash before after ∧
        (result = .ok () → after.snapshots = world.snapshots ++ [newSnapshot file]) ∧
        (result ≠ .ok () → after.snapshots = world.snapshots)) world := by
  have notEnrolled : (world.snapshots.any fun entry => entry.file.path = file.path) = false := by
    simpa using fresh.notEnrolled
  unfold snapshotFile
  simp only [Remote.leads_bind, Remote.leads_inspect, Remote.onValue_ok, notEnrolled,
    Bool.false_eq_true, if_false]
  refine (inspect_spec observed held).mono ?_
  rintro result after ⟨same, -⟩
  rw [same]
  cases result with
  | error exit => simpa using tracked
  | ok current =>
    simp only [Remote.onValue_ok]
    split
    · refine (demand_spec held).bind (by rintro exit after rfl; simpa using tracked) ?_
      rintro - between same
      rw [same]
      refine (demand_spec held).bind (by rintro exit after rfl; simpa using tracked) ?_
      rintro - between same
      rw [same]
      rw [Remote.leads_bind, Remote.leads_note, Remote.onValue_ok, Remote.leads_bind]
      -- From here on the staging directory is noted.
      have staged : Tracked hash before
          { world with staging := world.staging ++ [file.path] } :=
        ⟨tracked.original, tracked.backup, tracked.copied, tracked.left, tracked.untouched⟩
      have stagedFresh : Fresh hash before file
          { world with staging := world.staging ++ [file.path] } :=
        ⟨fresh.original, fresh.notEnrolled⟩
      have stagedHeld : holds { world with staging := world.staging ++ [file.path] }.files
          { world with staging := world.staging ++ [file.path] }.loaded := held
      refine (backupOriginal_spec observed stagedHeld).mono ?_
      rintro result after ⟨shape, done⟩
      have copiedTracked : Tracked hash before after := by
        rcases shape with rfl | rfl
        · exact staged
        · exact staged.copy stagedFresh
      have afterFresh : Fresh hash before file after := by
        rcases shape with rfl | rfl <;> exact ⟨fresh.original, fresh.notEnrolled⟩
      have sameFiles : after.files = world.files ∧ after.loaded = world.loaded ∧
          after.snapshots = world.snapshots := by
        rcases shape with rfl | rfl <;> exact ⟨rfl, rfl, rfl⟩
      cases result with
      | error exit => simpa [sameFiles] using copiedTracked
      | ok _ =>
        rw [Remote.onValue_ok, Remote.leads_note]
        have copied : file.original = none ∨ after.backups file.path = before file.path := by
          refine (done rfl).imp_right fun isCopy => ?_
          rw [isCopy]
          change Function.update _ _ _ _ = _
          rw [Function.update_self]
          exact fresh.file_eq tracked
        exact ⟨sameFiles.1, sameFiles.2.1, copiedTracked.enroll afterFresh copied,
          by simp [sameFiles, newSnapshot], by simp⟩
    · simpa using tracked

/-! ### Changes -/

@[simp] theorem touched_file (path : Text) (expected : CertificateFileState)
    (snapshot : Snapshot) : (touched path expected snapshot).file = snapshot.file := by
  unfold touched
  split <;> rfl

@[simp] theorem touched_backup (path : Text) (expected : CertificateFileState)
    (snapshot : Snapshot) : (touched path expected snapshot).backup = snapshot.backup := by
  unfold touched
  split <;> rfl

theorem touched_of_ne {path : Text} {expected : CertificateFileState} {snapshot : Snapshot}
    (other : snapshot.file.path ≠ path) : touched path expected snapshot = snapshot :=
  if_neg other

theorem Tracked.touch {path : Text} {expected : CertificateFileState}
    (tracked : Tracked hash before world) (unchanged : world.files path = before path) :
    Tracked hash before (world.touch path expected) := by
  constructor
  case original | backup | copied =>
    intro entry mem
    obtain ⟨old, oldMem, rfl⟩ := List.mem_map.1 mem
    simp only [touched_file, touched_backup]
    first
      | exact tracked.original old oldMem
      | exact tracked.backup old oldMem
      | exact tracked.copied old oldMem
  case left =>
    intro entry mem isTouched
    obtain ⟨old, oldMem, rfl⟩ := List.mem_map.1 mem
    rw [touched_file]
    by_cases same : old.file.path = path
    · exact .inl (same ▸ unchanged)
    · rw [touched_of_ne same] at isTouched ⊢
      exact tracked.left old oldMem isTouched
  case untouched =>
    intro other unseen
    by_cases same : other = path
    · exact same ▸ unchanged
    · refine tracked.untouched other fun entry mem atOther => ?_
      have unseenEntry := unseen (touched path expected entry) (List.mem_map_of_mem mem)
      rw [touched_file, touched_of_ne (atOther ▸ same)] at unseenEntry
      exact unseenEntry atOther

/-- A change to a touched file that leaves what its snapshot expects, or what was there
before -/
theorem Tracked.store {path : Text} {file : Option StoredFile}
    (tracked : Tracked hash before world)
    (enrolled : file = before path ∨ ∃ entry ∈ world.snapshots, entry.file.path = path ∧
      entry.touched = true)
    (expected : ∀ entry ∈ world.snapshots, entry.file.path = path → entry.touched = true →
      file = before path ∨ file.map (StoredFile.state hash) = entry.expected) :
    Tracked hash before (world.store path file) where
  original := tracked.original
  backup := tracked.backup
  copied := tracked.copied
  left entry mem isTouched := by
    by_cases same : entry.file.path = path
    · change Function.update world.files path file _ = _ ∨
        (Function.update world.files path file _).map _ = _
      rw [same, Function.update_self]
      exact expected entry mem same isTouched
    · change Function.update world.files path file _ = _ ∨
        (Function.update world.files path file _).map _ = _
      rw [Function.update_of_ne same]
      exact tracked.left entry mem isTouched
  untouched other unseen := by
    change Function.update world.files path file other = _
    by_cases same : other = path
    · subst same
      rw [Function.update_self]
      rcases enrolled with isBefore | ⟨entry, mem, atPath, isTouched⟩
      · exact isBefore
      · exact absurd isTouched (by simp [unseen entry mem atPath])
    · rw [Function.update_of_ne same]
      exact tracked.untouched other unseen

theorem assertOriginalUnchanged_spec (observed : Observed script) {file : CertificateFile}
    (held : holds world.files world.loaded) :
    Remote.Leads script (fun world => holds world.files world.loaded)
      (assertOriginalUnchanged hash file) (fun _ after => after = world) world := by
  unfold assertOriginalUnchanged
  refine (inspect_spec observed held).bind (fun exit after ⟨same, _⟩ => same) ?_
  rintro current after ⟨rfl, -⟩
  split <;> simp

/-- What a change of one file leaves: the snapshots are right, and the file is as it was or
as it is to be. -/
structure Changes (hash : Text → Text) (before : Files) (tookEffect : Bool)
    (file : CertificateFile) (new : Option StoredFile) (world after : CertificateWorld) :
    Prop where
  loaded : after.loaded = world.loaded
  tracked : Tracked hash before after
  files : after.files = world.files ∨
    tookEffect = true ∧ after.files = Function.update world.files file.path new
  enrolled : after.snapshots = world.snapshots ∨
    ∃ entry, entry.file = file ∧ after.snapshots = world.snapshots ++ [entry]

/-- A change that has not begun -/
theorem Changes.of_enrolled {tookEffect : Bool} {file : CertificateFile} {new : Option StoredFile}
    {after : CertificateWorld} (tracked : Tracked hash before after)
    (sameFiles : after.files = world.files) (sameLoaded : after.loaded = world.loaded)
    (enrolled : after.snapshots = world.snapshots ∨
      ∃ entry, entry.file = file ∧ after.snapshots = world.snapshots ++ [entry]) :
    Changes hash before tookEffect file new world after :=
  ⟨sameLoaded, tracked, .inl sameFiles, enrolled⟩

/-- The command of a change, after the snapshot of its file was taken and touched -/
theorem changeFile_spec {key : CertificateStep} {file : CertificateFile} {new : Option StoredFile}
    {middle : CertificateWorld} (fresh : Fresh hash before file world)
    (tracked : Tracked hash before middle) (sameFiles : middle.files = world.files)
    (sameLoaded : middle.loaded = world.loaded)
    (enrolled : middle.snapshots = world.snapshots ++ [newSnapshot file])
    (unchanged : world.files file.path = before file.path) (held : holds world.files world.loaded)
    (changed : holds (Function.update world.files file.path new) world.loaded) :
    Remote.Leads script (fun world => holds world.files world.loaded)
      (changeFile hash key file.path new) (fun result after =>
        Changes hash before (script key).takesEffect file new world after ∧
          (result = .ok () → after.files = Function.update world.files file.path new) ∧
          (∀ error, result = .error (.raised error) → (script key).FailsClean →
            after.files = world.files)) middle := by
  unfold changeFile
  generalize expectedState : new.map (StoredFile.state hash) = expected
  have touchedTracked : Tracked hash before (middle.touch file.path expected) :=
    tracked.touch (sameFiles ▸ unchanged)
  have others : world.snapshots.map (touched file.path expected) = world.snapshots := by
    conv_rhs => rw [← List.map_id world.snapshots]
    exact List.map_congr_left fun entry mem => touched_of_ne (fresh.notEnrolled entry mem)
  have touchedEnrolled : (middle.touch file.path expected).snapshots =
      world.snapshots ++ [touched file.path expected (newSnapshot file)] := by
    change middle.snapshots.map _ = _
    rw [enrolled, List.map_append, others]
    rfl
  have isTouched : touched file.path expected (newSnapshot file) =
      { newSnapshot file with expected := expected, touched := true } := if_pos rfl
  have enrolledAfter : ∃ entry, entry.file = file ∧
      (middle.touch file.path expected).snapshots = world.snapshots ++ [entry] :=
    ⟨_, touched_file .., touchedEnrolled⟩
  have storedTracked : Tracked hash before
      ((middle.touch file.path expected).store file.path new) := by
    refine touchedTracked.store (.inr ⟨touched file.path expected (newSnapshot file), ?_,
      congrArg CertificateFile.path (touched_file ..), by rw [isTouched]⟩) ?_
    · rw [touchedEnrolled]
      exact List.mem_append_right _ (List.mem_singleton_self _)
    · intro entry mem atPath _
      rw [touchedEnrolled] at mem
      rcases List.mem_append.1 mem with old | isNew
      · exact absurd atPath (fresh.notEnrolled entry old)
      · rw [List.mem_singleton.1 isNew, isTouched]
        exact .inr expectedState
  have storedFiles : ((middle.touch file.path expected).store file.path new).files =
      Function.update world.files file.path new := by
    change Function.update middle.files _ _ = _
    rw [sameFiles]
  rw [Remote.leads_bind, Remote.leads_note, Remote.onValue_ok, Remote.leads_require]
  have heldMiddle : holds (middle.touch file.path expected).files
      (middle.touch file.path expected).loaded := by
    change holds middle.files middle.loaded
    rwa [sameFiles, sameLoaded]
  have heldStored : holds ((middle.touch file.path expected).store file.path new).files
      ((middle.touch file.path expected).store file.path new).loaded := by
    rw [storedFiles]
    exact sameLoaded ▸ changed
  cases took : (script key).takesEffect with
  | false =>
    rw [StepOutcome.apply_of_not_takesEffect took]
    refine ⟨heldMiddle, .of_enrolled touchedTracked sameFiles sameLoaded (.inr enrolledAfter), ?_,
      fun _ _ _ => sameFiles⟩
    rcases outcome : script key <;> simp [outcome] at took ⊢
  | true =>
    rw [StepOutcome.apply_of_takesEffect took]
    refine ⟨heldStored, ⟨sameLoaded, storedTracked, .inr ⟨rfl, storedFiles⟩, .inr enrolledAfter⟩,
      fun _ => storedFiles, fun error raised clean => ?_⟩
    exact absurd took (by simp [clean.not_takesEffect raised])

theorem removeCertificateFile_spec (observed : Observed script) {file : CertificateFile}
    (fresh : Fresh hash before file world) (tracked : Tracked hash before world)
    (held : holds world.files world.loaded)
    (changed : holds (Function.update world.files file.path none) world.loaded) :
    Remote.Leads script (fun world => holds world.files world.loaded)
      (removeCertificateFile hash file) (fun result after =>
        Changes hash before (script (.remove file.path)).takesEffect file none world after ∧
          (∀ error, result = .error (.raised error) → (script (.remove file.path)).FailsClean →
            after.files = world.files)) world := by
  unfold removeCertificateFile
  split
  · exact Remote.leads_pure.2 ⟨.of_enrolled tracked rfl rfl (.inl rfl), fun _ _ _ => rfl⟩
  · refine (snapshotFile_spec observed fresh tracked held).bind ?_ ?_
    · rintro exit after ⟨sameFiles, sameLoaded, trackedAfter, -, notEnrolled⟩
      exact ⟨.of_enrolled trackedAfter sameFiles sameLoaded (.inl (notEnrolled (by simp))),
        fun _ _ _ => sameFiles⟩
    · rintro value middle ⟨sameFiles, sameLoaded, trackedMiddle, enrolled, -⟩
      have entered := enrolled rfl
      have middleHeld : holds middle.files middle.loaded := by rwa [sameFiles, sameLoaded]
      refine (assertOriginalUnchanged_spec observed middleHeld).bind ?_ ?_
      · rintro exit after rfl
        exact ⟨.of_enrolled trackedMiddle sameFiles sameLoaded (.inr ⟨_, rfl, entered⟩),
          fun _ _ _ => sameFiles⟩
      · rintro - after rfl
        exact (changeFile_spec fresh trackedMiddle sameFiles sameLoaded entered
          (fresh.file_eq tracked) held changed).mono fun _ _ changes => ⟨changes.1, changes.2.2⟩

/-- What a write publishes -/
def CertificateFile.published (file : CertificateFile) : Option StoredFile :=
  file.content.map fun content => { content := content, metadata := REGULAR_MODE }

theorem writeCertificateFile_spec (observed : Observed script) {file : CertificateFile}
    (fresh : Fresh hash before file world) (tracked : Tracked hash before world)
    (held : holds world.files world.loaded) (changed : file.content ≠ none →
      holds (Function.update world.files file.path file.published) world.loaded) :
    Remote.Leads script (fun world => holds world.files world.loaded)
      (writeCertificateFile hash file) (fun result after =>
        Changes hash before (script (.publish file.path)).takesEffect file file.published
          world after ∧
        (result = .ok () → certificateFileMatches hash file = true ∧ after = world ∨
          file.content ≠ none ∧
            after.files = Function.update world.files file.path file.published)) world := by
  unfold writeCertificateFile
  split
  · next isMatch =>
      exact Remote.leads_pure.2 ⟨.of_enrolled tracked rfl rfl (.inl rfl),
        fun _ => .inl ⟨isMatch, rfl⟩⟩
  · refine (snapshotFile_spec observed fresh tracked held).bind ?_ ?_
    · rintro exit after ⟨sameFiles, sameLoaded, trackedAfter, -, notEnrolled⟩
      exact ⟨.of_enrolled trackedAfter sameFiles sameLoaded (.inl (notEnrolled (by simp))),
        fun ended => (by cases ended)⟩
    · rintro value middle ⟨sameFiles, sameLoaded, trackedMiddle, enrolled, -⟩
      have entered := enrolled rfl
      have middleHeld : holds middle.files middle.loaded := by rwa [sameFiles, sameLoaded]
      have begun : Changes hash before (script (.publish file.path)).takesEffect file
          file.published world middle :=
        .of_enrolled trackedMiddle sameFiles sameLoaded (.inr ⟨_, rfl, entered⟩)
      rcases written : file.content with _ | content
      · exact Remote.leads_throw.2 ⟨begun, fun ended => (by cases ended)⟩
      · have isPublished : file.published = some { content := content, metadata := REGULAR_MODE } := by
          rw [CertificateFile.published, written]
          rfl
        have changedHeld := changed (by simp [written])
        refine (demand_spec middleHeld).bind ?_ ?_
        · rintro exit after rfl
          exact ⟨begun, fun ended => (by cases ended)⟩
        rintro value after rfl
        refine (assertOriginalUnchanged_spec observed middleHeld).bind ?_ ?_
        · rintro exit after rfl
          exact ⟨begun, fun ended => (by cases ended)⟩
        rintro value after rfl
        dsimp only
        rw [← isPublished]
        refine (changeFile_spec fresh trackedMiddle sameFiles sameLoaded entered
          (fresh.file_eq tracked) held changedHeld).bind ?_ ?_
        · rintro exit after ⟨changes, -⟩
          exact ⟨changes, fun ended => (by cases ended)⟩
        rintro value after ⟨changes, done, -⟩
        have stored := done rfl
        have afterHeld : holds after.files after.loaded := by
          rw [stored, changes.loaded]
          exact changedHeld
        refine (inspect_spec observed afterHeld).bind ?_ ?_
        · rintro exit final ⟨rfl, -⟩
          exact ⟨changes, fun ended => (by cases ended)⟩
        rintro current final ⟨rfl, -⟩
        split
        · exact Remote.leads_pure.2 ⟨changes, fun _ => .inr ⟨by simp, stored⟩⟩
        · exact Remote.leads_throw.2 ⟨changes, fun ended => (by cases ended)⟩

/-! ### Rollback -/

theorem undoSnapshot_spec {snapshot : Snapshot} (tracked : Tracked hash before world)
    (mem : snapshot ∈ world.snapshots) (held : holds world.files world.loaded)
    (restored : holds (Function.update world.files snapshot.file.path
      (before snapshot.file.path)) world.loaded) :
    Remote.Leads script (fun world => holds world.files world.loaded) (undoSnapshot snapshot)
      (fun result after =>
        (after = world ∨ after = world.store snapshot.file.path (before snapshot.file.path)) ∧
        (result = .ok () → after = world.store snapshot.file.path (before snapshot.file.path)) ∧
        (snapshot.backup = true →
          (script (.undoChanged snapshot.file.path)).takesEffect = true →
          after = world.store snapshot.file.path (before snapshot.file.path))) world := by
  have undone : (if snapshot.backup = true then world.backups snapshot.file.path else none) =
      before snapshot.file.path := by
    split
    · next hasBackup => exact tracked.copied snapshot mem hasBackup
    · next noBackup =>
      rw [tracked.backup snapshot mem, Bool.not_eq_true, Option.isSome_eq_false_iff,
        Option.isNone_iff_eq_none] at noBackup
      exact noBackup.symm
  unfold undoSnapshot
  split
  · next hasBackup =>
    rw [if_pos hasBackup] at undone
    rw [Remote.leads_require]
    cases took : (script (.undoChanged snapshot.file.path)).takesEffect with
    | false =>
      rw [StepOutcome.apply_of_not_takesEffect took]
      refine ⟨held, .inl rfl, ?_, fun _ impossible => (by cases impossible)⟩
      rcases outcome : script (.undoChanged snapshot.file.path) <;> simp [outcome] at took ⊢
    | true =>
      rw [StepOutcome.apply_of_takesEffect took, undone]
      exact ⟨restored, .inr rfl, fun _ => rfl, fun _ _ => rfl⟩
  · next noBackup =>
    rw [if_neg noBackup] at undone
    rw [← undone] at restored ⊢
    rw [Remote.leads_require]
    cases took : (script (.undoCreated snapshot.file.path)).takesEffect with
    | false =>
      rw [StepOutcome.apply_of_not_takesEffect took]
      refine ⟨held, .inl rfl, ?_, fun hasBackup => absurd hasBackup noBackup⟩
      rcases outcome : script (.undoCreated snapshot.file.path) <;> simp [outcome] at took ⊢
    | true =>
      rw [StepOutcome.apply_of_takesEffect took]
      exact ⟨restored, .inr rfl, fun _ => rfl, fun hasBackup => absurd hasBackup noBackup⟩

/-- The restore of one snapshot: the file is as it was or as it is now, as it was where the
restore says so, and as it was where the steps of the restore go through. -/
theorem restoreSnapshot_spec (observed : Observed script) {snapshot : Snapshot}
    (tracked : Tracked hash before world) (mem : snapshot ∈ world.snapshots)
    (isTouched : snapshot.touched = true) (held : holds world.files world.loaded)
    (restored : holds (Function.update world.files snapshot.file.path
      (before snapshot.file.path)) world.loaded) :
    Remote.Leads script (fun world => holds world.files world.loaded)
      (restoreSnapshot hash snapshot) (fun result after =>
        (after = world ∨ after = world.store snapshot.file.path (before snapshot.file.path)) ∧
        (result = .ok () → (after.files snapshot.file.path).map (StoredFile.state hash) =
          (before snapshot.file.path).map (StoredFile.state hash)) ∧
        (RestoreLands script snapshot.file.path → snapshot.backup = true →
          (world.files snapshot.file.path).map (StoredFile.state hash) ≠
            (before snapshot.file.path).map (StoredFile.state hash) →
          after = world.store snapshot.file.path (before snapshot.file.path))) world := by
  have original := tracked.original snapshot mem
  unfold restoreSnapshot
  refine (inspect_spec observed held).bind ?_ ?_
  · rintro exit after ⟨rfl, -, inspected⟩
    refine ⟨.inl rfl, fun ended => (by cases ended), fun lands => ?_⟩
    obtain ⟨state, ended⟩ := inspected lands.1 rfl
    cases ended
  rintro current middle ⟨rfl, seen, -⟩
  have isCurrent := seen current rfl
  unfold sameState
  rw [original, isCurrent]
  split
  · next same =>
    have sameStates := of_decide_eq_true same
    exact Remote.leads_pure.2 ⟨.inl rfl, fun _ => sameStates,
      fun _ _ differs => absurd sameStates differs⟩
  · next differs =>
    split
    · refine (undoSnapshot_spec tracked mem held restored).bind ?_ ?_
      · rintro exit after ⟨shape, -, lands⟩
        exact ⟨shape, fun ended => (by cases ended),
          fun landed hasBackup _ => lands hasBackup landed.2⟩
      rintro value after ⟨shape, done, lands⟩
      have afterHeld : holds after.files after.loaded := by
        rcases shape with rfl | rfl
        · exact held
        · exact restored
      refine (inspect_spec observed afterHeld).bind ?_ ?_
      · rintro exit final ⟨rfl, -, -⟩
        exact ⟨shape, fun ended => (by cases ended),
          fun landed hasBackup _ => lands hasBackup landed.2⟩
      rintro restoredState final ⟨rfl, seenAfter, -⟩
      have isRestored := seenAfter restoredState rfl
      split
      · next same =>
        refine Remote.leads_pure.2 ⟨shape, fun _ => ?_,
          fun landed hasBackup _ => lands hasBackup landed.2⟩
        rw [← isRestored]
        exact of_decide_eq_true same
      · exact Remote.leads_throw.2 ⟨shape, fun ended => (by cases ended),
          fun landed hasBackup _ => lands hasBackup landed.2⟩
    · next unexpected =>
      refine Remote.leads_throw.2 ⟨.inl rfl, fun ended => (by cases ended), fun _ _ changed => ?_⟩
      rcases tracked.left snapshot mem isTouched with unchanged | expected
      · exact absurd (by rw [unchanged]) changed
      · exact absurd (decide_eq_true expected) unexpected

/-- The file has the state it had before. -/
def Restored (hash : Text → Text) (before files : Files) (path : Text) : Prop :=
  (files path).map (StoredFile.state hash) =
    (before path).map (StoredFile.state hash)

theorem Restored.store {files : Files} {path other : Text}
    (restored : Restored hash before files path) :
    Restored hash before (Function.update files other (before other)) path := by
  by_cases same : path = other
  · rw [same, Restored, Function.update_self]
  · rw [Restored, Function.update_of_ne same]
    exact restored

theorem Tracked.restore (tracked : Tracked hash before world) (path : Text) :
    Tracked hash before (world.store path (before path)) :=
  tracked.store (.inl rfl) fun _ _ _ _ => .inl rfl

/-- What restores leave: the snapshots as they are, no file that is less restored, and where
none of them failed the touched files restored. -/
structure Restores (hash : Text → Text) (before : Files) (entries : List Snapshot)
    (world : CertificateWorld)
    (result : Except (Exit Text) (List RollbackFailure)) (after : CertificateWorld) : Prop where
  loaded : after.loaded = world.loaded
  snapshots : after.snapshots = world.snapshots
  tracked : Tracked hash before after
  keeps : ∀ path, Restored hash before world.files path →
    Restored hash before after.files path
  done : result = .ok [] → ∀ entry ∈ entries, entry.touched = true →
    Restored hash before after.files entry.file.path

theorem Restores.of_shape {entries : List Snapshot} {path : Text} {after : CertificateWorld}
    {result : Except (Exit Text) (List RollbackFailure)}
    (tracked : Tracked hash before world)
    (shape : after = world ∨ after = world.store path (before path)) (failed : result ≠ .ok []) :
    Restores hash before entries world result after := by
  rcases shape with rfl | rfl
  · exact ⟨rfl, rfl, tracked, fun _ restored => restored, fun ended => absurd ended failed⟩
  · exact ⟨rfl, rfl, tracked.restore path, fun _ restored => restored.store,
      fun ended => absurd ended failed⟩

/-- Restores after a first one -/
theorem Restores.cons {entry : Snapshot} {entries : List Snapshot} {middle after : CertificateWorld}
    {result rest : Except (Exit Text) (List RollbackFailure)}
    (shape : middle = world ∨ middle = world.store entry.file.path (before entry.file.path))
    (restores : Restores hash before entries middle rest after)
    (done : result = .ok [] → rest = .ok [] ∧ Restored hash before middle.files entry.file.path) :
    Restores hash before (entry :: entries) world result after where
  loaded := by
    rw [restores.loaded]
    rcases shape with rfl | rfl <;> rfl
  snapshots := by
    rw [restores.snapshots]
    rcases shape with rfl | rfl <;> rfl
  tracked := restores.tracked
  keeps path restored := by
    refine restores.keeps path ?_
    rcases shape with rfl | rfl
    · exact restored
    · exact restored.store
  done ended other mem isTouched := by
    obtain ⟨restDone, first⟩ := done ended
    rcases List.mem_cons.1 mem with rfl | otherMem
    · exact restores.keeps _ first
    · exact restores.done restDone other otherMem isTouched

/-- What the rollback does with the remaining snapshots once the first is restored, or its
restore has failed -/
theorem restoreRest_spec {through : CertificateWorld → Prop} {entry : Snapshot}
    {entries : List Snapshot} {middle : CertificateWorld} {post : CertificateWorld → Prop}
    (shape : middle = world ∨ middle = world.store entry.file.path (before entry.file.path))
    (first : Except Text Unit)
    (restored : first = .ok () → Restored hash before middle.files entry.file.path)
    (retained : ∀ paths, Remote.Leads script through (restoreSnapshots hash entries)
      (fun result after => post after ∧
        Restores hash before entries { middle with retained := paths } result after)
      { middle with retained := paths }) :
    Remote.Leads script through (match first with
        | .ok _ => restoreSnapshots hash entries
        | .error error => do
            retainFailedBackup entry
            let failures ← restoreSnapshots hash entries
            pure ({ path := entry.file.path, error := error } :: failures))
      (fun result after => post after ∧
        Restores hash before (entry :: entries) world result after) middle := by
  have forget : ∀ {paths : List Text} {result : Except (Exit Text) (List RollbackFailure)}
      {after : CertificateWorld},
      Restores hash before entries { middle with retained := paths } result after →
        Restores hash before entries middle result after :=
    fun restores => ⟨restores.loaded, restores.snapshots, restores.tracked, restores.keeps,
      restores.done⟩
  cases first with
  | ok value =>
    refine (retained middle.retained).mono fun result after ⟨calm, restores⟩ =>
      ⟨calm, .cons shape (forget restores) fun ended => ⟨ended, restored rfl⟩⟩
  | error error =>
    have failing : ∀ paths, Remote.Leads script through
        (do
          let failures ← restoreSnapshots hash entries
          pure ({ path := entry.file.path, error := error } :: failures))
        (fun result after => post after ∧
          Restores hash before (entry :: entries) world result after)
        { middle with retained := paths } := by
      intro paths
      refine (retained paths).bind ?_ ?_
      · exact fun exit after ⟨calm, restores⟩ =>
          ⟨calm, .cons shape (forget restores) fun ended => (by cases ended)⟩
      · exact fun failures after ⟨calm, restores⟩ => Remote.leads_pure.2
          ⟨calm, .cons shape (forget restores) fun ended => (by cases ended)⟩
    dsimp only
    rw [Remote.leads_bind, retainFailedBackup]
    split
    · rw [Remote.leads_note, Remote.onValue_ok]
      exact failing _
    · rw [Remote.leads_pure, Remote.onValue_ok]
      exact failing middle.retained

/-- What holds of the files and of what the daemon has loaded holds through the restores,
where putting back the original of any file keeps it. -/
theorem restoreSnapshots_spec (observed : Observed script)
    (closed : ∀ files loaded, holds files loaded → ∀ path,
      holds (Function.update files path (before path)) loaded)
    (entries : List Snapshot) (world : CertificateWorld) (tracked : Tracked hash before world)
    (mem : ∀ entry ∈ entries, entry ∈ world.snapshots) (held : holds world.files world.loaded) :
    Remote.Leads script (fun world => holds world.files world.loaded)
      (restoreSnapshots hash entries) (fun result after => holds after.files after.loaded ∧
        Restores hash before entries world result after) world := by
  induction entries generalizing world with
  | nil =>
    exact Remote.leads_pure.2 ⟨held, rfl, rfl, tracked, fun _ restored => restored,
      fun _ _ impossible => (by cases impossible)⟩
  | cons entry rest ih =>
    have entryMem := mem entry List.mem_cons_self
    have restMem : ∀ other ∈ rest, other ∈ world.snapshots := fun other otherMem =>
      mem other (List.mem_cons_of_mem _ otherMem)
    unfold restoreSnapshots
    split
    · next isTouched =>
      have restored := closed _ _ held entry.file.path
      rw [Remote.leads_bind, Remote.leads_attempt]
      refine (restoreSnapshot_spec observed tracked entryMem isTouched held restored).mono
        fun result middle ⟨shape, done, _⟩ => ?_
      have middleHeld : holds middle.files middle.loaded := by
        rcases shape with rfl | rfl
        · exact held
        · exact restored
      have middleTracked : Tracked hash before middle := by
        rcases shape with rfl | rfl
        · exact tracked
        · exact tracked.restore _
      have middleMem : ∀ other ∈ rest, other ∈ middle.snapshots := by
        rcases shape with rfl | rfl <;> exact restMem
      have going : ∀ paths, Remote.Leads script (fun world => holds world.files world.loaded)
          (restoreSnapshots hash rest)
          (fun result after => holds after.files after.loaded ∧
            Restores hash before rest { middle with retained := paths } result after)
          { middle with retained := paths } := fun paths =>
        ih { middle with retained := paths }
          ⟨middleTracked.original, middleTracked.backup, middleTracked.copied,
            middleTracked.left, middleTracked.untouched⟩ middleMem middleHeld
      rcases result with (error | _) | value
      · exact restoreRest_spec shape (.error error) (fun ended => (by cases ended)) going
      · exact ⟨middleHeld, .of_shape tracked shape (by simp)⟩
      · exact restoreRest_spec shape (.ok value) (fun _ => done rfl) going
    · next untouched =>
      refine (ih world tracked restMem held).mono
        fun result after ⟨heldAfter, restores⟩ => ⟨heldAfter, restores.loaded,
          restores.snapshots, restores.tracked, restores.keeps, ?_⟩
      intro ended other otherMem isTouched
      rcases List.mem_cons.1 otherMem with rfl | otherMem
      · exact absurd isTouched untouched
      · exact restores.done ended other otherMem isTouched

end Operations

end Paratix.Sshd
