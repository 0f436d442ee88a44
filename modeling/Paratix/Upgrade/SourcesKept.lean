/-
Module: Paratix.Upgrade.SourcesKept
Purpose: What a Debian release upgrade leaves of the apt sources, file by file and over
  the whole critical section.
Main exports: visit, sources_kept_iff
-/
import Paratix.Foundation.Columns
import Paratix.Upgrade.DebianUpgrade

namespace Paratix.Upgrade

open Foundation Archive

section Visit

variable (decode : List UInt8 → Text) (current target : Text)

/-! ### One file -/

/-- What rewriting makes of the captured content -/
def updatedContent (path : Text) (file : SourcesFile) : Text :=
  rewriteAptSourcesContent current (capturedContent decode file) path target

def ReadOutcome.isCompleted : ReadOutcome → Bool
  | .completed => true
  | .failed _ _ | .threw _ => false

def StatOutcome.isCompleted : StatOutcome → Bool
  | .completed => true
  | .failed | .threw _ => false

/-- Whether there is a mode to write, be it the default one -/
def StatOutcome.answers : StatOutcome → Bool
  | .completed | .failed => true
  | .threw _ => false

/-- The steps before the write went well, and rewriting changes what was captured. -/
def reachesWrite (path : Text) (file : SourcesFile) (script : FileScript) : Bool :=
  script.read.isCompleted && script.stat.answers && script.reread.isCompleted &&
    updatedContent decode current target path file ≠ capturedContent decode file

/-- The mode that is written -/
def usedMode (file : SourcesFile) : StatOutcome → Text
  | .completed => normalizeSourcesFileMode (trim (statOutput file.mode))
  | .failed | .threw _ => APT_SOURCES_DEFAULT_MODE

/-- What a write leaves of its file -/
def WriteOutcome.leaves (written file : SourcesFile) : WriteOutcome → SourcesFile
  | .succeeded => written
  | .refused => file
  | .failed _ _ left | .threw _ left => left

/-- Whether the snapshot stays registered -/
def WriteOutcome.registers : WriteOutcome → Bool
  | .succeeded | .failed _ _ _ => true
  | .refused | .threw _ _ => false

/-- What a visit leaves at a path, and its snapshot -/
def visit (path : Text) (script : FileScript) (entry : Option SourcesEntry) :
    Option SourcesEntry × Option SourcesSnapshot :=
  match entry with
  | some (.file file) =>
      if reachesWrite decode current target path file script then
        let mode := usedMode file script.stat
        let written :=
          writtenFile (updatedContent decode current target path file) mode
        (some (.file (script.write.leaves written file)),
          if script.write.registers then
            some { mode := mode
                   originalContent := capturedContent decode file
                   remotePath := path }
          else none)
      else (entry, none)
  | _ => (entry, none)

/-- The state after a visit -/
def visitState (path : Text) (script : FileScript) (state : UpgradeState) : UpgradeState :=
  let (entry, snapshot) :=
    visit decode current target path script (state.files path)
  { files := Function.update state.files path entry
    snapshots := state.snapshots ++ snapshot.toList }

variable {decode current target} {path : Text} {script : FileScript}
  {state : UpgradeState}

theorem visitState_eq_self
    (kept : visit decode current target path script (state.files path) =
      (state.files path, none)) :
    visitState decode current target path script state = state := by
  rw [visitState, kept]
  simp only [Function.update_eq_self, Option.toList_none, List.append_nil]

theorem written_state {content : Text} {snapshot : SourcesSnapshot} {outcome : WriteOutcome}
    {file : SourcesFile} (isFile : state.files snapshot.remotePath = some (.file file)) :
    (writeSourcesFileWithRegisteredSnapshot content snapshot outcome state).1 =
      { files := Function.update state.files snapshot.remotePath
          (some (.file (outcome.leaves (writtenFile content snapshot.mode) file)))
        snapshots := state.snapshots ++ if outcome.registers then [snapshot] else [] } := by
  cases outcome with
  | succeeded => rfl
  | refused =>
    have same : Function.update state.files snapshot.remotePath (some (.file file)) =
        state.files := by
      rw [← isFile, Function.update_eq_self]
    rw [WriteOutcome.leaves, same, WriteOutcome.registers, if_neg Bool.false_ne_true,
      List.append_nil]
    rfl
  | failed code stderr left => rfl
  | threw error left =>
    rw [WriteOutcome.registers, if_neg Bool.false_ne_true, List.append_nil]
    rfl

theorem readSourcesFileNoFollow_some {files : SourcesFiles} {outcome : ReadOutcome} {content : Text}
    (isRead : readSourcesFileNoFollow decode files path outcome = .ok (some content)) :
    outcome.isCompleted = true ∧
      ∃ file, files path = some (.file file) ∧ content = capturedContent decode file := by
  unfold readSourcesFileNoFollow at isRead
  dsimp only at isRead
  split at isRead
  · cases isRead
  · split at isRead
    · cases isRead
    · split at isRead
      · cases isRead
      · cases isRead
  · refine ⟨rfl, ?_⟩
    split at isRead
    next file isFile =>
      cases isRead
      exact ⟨file, isFile, rfl⟩
    · cases isRead
    · split at isRead
      · cases isRead
      · split at isRead
        · cases isRead
        · cases isRead

theorem readSourcesFileNoFollow_file {files : SourcesFiles} {file : SourcesFile}
    (isFile : files path = some (.file file)) :
    readSourcesFileNoFollow decode files path .completed =
      .ok (some (capturedContent decode file)) := by
  simp only [readSourcesFileNoFollow, isFile]

/-- A read that gave no content did not complete on a file. -/
theorem incomplete_of_noContent {files : SourcesFiles} {outcome : ReadOutcome} {file : SourcesFile}
    (isFile : files path = some (.file file))
    (noContent : ∀ content, readSourcesFileNoFollow decode files path outcome ≠ .ok (some content)) :
    outcome.isCompleted = false := by
  cases outcome with
  | completed => exact absurd (readSourcesFileNoFollow_file isFile) (noContent _)
  | failed code stderr => rfl
  | threw error => rfl

theorem readSourcesFileMode_ok {file : SourcesFile} {outcome : StatOutcome} {mode : Text}
    {files : SourcesFiles} (isFile : files path = some (.file file))
    (isMode : readSourcesFileMode files path outcome = .ok mode) :
    outcome.answers = true ∧ mode = usedMode file outcome := by
  cases outcome with
  | threw error => cases isMode
  | failed =>
    cases isMode
    exact ⟨rfl, rfl⟩
  | completed =>
    simp only [readSourcesFileMode, isFile, Except.ok.injEq] at isMode
    exact ⟨rfl, isMode.symm⟩

theorem readSourcesFileMode_error {error : ThrownError} {outcome : StatOutcome}
    {files : SourcesFiles} (isError : readSourcesFileMode files path outcome = .error error) :
    outcome.answers = false := by
  cases outcome with
  | threw error => rfl
  | failed => cases isError
  | completed =>
    unfold readSourcesFileMode at isError
    dsimp only at isError
    split at isError
    · cases isError
    · cases isError
    · cases isError

theorem visitState_of_unreached {file : SourcesFile}
    (isFile : state.files path = some (.file file))
    (unreached : reachesWrite decode current target path file script = false) :
    visitState decode current target path script state = state := by
  refine visitState_eq_self ?_
  simp only [isFile, visit, unreached, Bool.false_eq_true, if_false]

/-- What rewriting a file that was read does. -/
theorem rewriteSourcesFile_state {file : SourcesFile} (isFile : state.files path = some (.file file))
    (isRead : script.read.isCompleted = true) :
    (rewriteSourcesFile decode current target (capturedContent decode file) path
      script state).1 = visitState decode current target path script state := by
  have kept := @visitState_of_unreached decode current target path script state file
    isFile
  unfold rewriteSourcesFile
  dsimp only
  split
  next same =>
    rw [kept]
    simp only [reachesWrite, updatedContent, same, ne_eq, not_true, decide_false, Bool.and_false]
  next changes =>
    split
    next error isError =>
      rw [kept]
      simp only [reachesWrite, readSourcesFileMode_error isError, Bool.and_false, Bool.false_and]
    next mode isMode =>
      obtain ⟨answers, rfl⟩ := readSourcesFileMode_ok isFile isMode
      have unreached (noContent : ∀ content,
          readSourcesFileNoFollow decode state.files path script.reread ≠ .ok (some content)) :
          reachesWrite decode current target path file script = false := by
        simp only [reachesWrite, incomplete_of_noContent isFile noContent, Bool.and_false,
          Bool.false_and]
      split
      next error isError => rw [kept (unreached (isError ▸ nofun))]
      next isNone => rw [kept (unreached (isNone ▸ nofun))]
      next content isContent =>
        obtain ⟨isReread, other, isOther, rfl⟩ := readSourcesFileNoFollow_some isContent
        rw [isFile] at isOther
        cases isOther
        simp only [ne_eq, not_true, if_false]
        have reaches :
            reachesWrite decode current target path file script = true := by
          simp only [reachesWrite, isRead, answers, isReread, Bool.true_and, decide_eq_true_eq]
          exact changes
        rw [written_state isFile, visitState, isFile]
        simp only [visit, reaches, if_true]
        cases script.write.registers with
        | true => rfl
        | false => rfl

theorem snapshotSourcesFileSafely_state :
    (snapshotSourcesFileSafely decode current target path script state).1 =
      visitState decode current target path script state := by
  change (snapshotSourcesFile decode current target path script state).1 = _
  have kept (noContent : ∀ content,
      readSourcesFileNoFollow decode state.files path script.read ≠ .ok (some content)) :
      state = visitState decode current target path script state := by
    cases isEntry : state.files path with
    | none => exact (visitState_eq_self (isEntry ▸ rfl)).symm
    | some entry =>
      cases entry with
      | symlink => exact (visitState_eq_self (isEntry ▸ rfl)).symm
      | file file =>
        refine (visitState_of_unreached isEntry ?_).symm
        simp only [reachesWrite, incomplete_of_noContent isEntry noContent, Bool.false_and]
  unfold snapshotSourcesFile
  split
  next error isError => exact kept (isError ▸ nofun)
  next isNone => exact kept (isNone ▸ nofun)
  next content isContent =>
    obtain ⟨isRead, file, isFile, rfl⟩ := readSourcesFileNoFollow_some isContent
    exact rewriteSourcesFile_state isFile isRead

/-! ### Locality -/

section Locality

variable {other : UpgradeState} (sameEntry : state.files path = other.files path)
include sameEntry

theorem readSourcesFileNoFollow_congr (outcome : ReadOutcome) :
    readSourcesFileNoFollow decode state.files path outcome =
      readSourcesFileNoFollow decode other.files path outcome := by
  simp only [readSourcesFileNoFollow, sameEntry]

/-- Whether a visit fails depends on its own file only. -/
theorem snapshotSourcesFileSafely_result_congr :
    (snapshotSourcesFileSafely decode current target path script state).2 =
      (snapshotSourcesFileSafely decode current target path script other).2 := by
  have sameMode : readSourcesFileMode state.files path script.stat =
      readSourcesFileMode other.files path script.stat := by
    simp only [readSourcesFileMode, sameEntry]
  have sameWrite (content : Text) (snapshot : SourcesSnapshot) :
      (writeSourcesFileWithRegisteredSnapshot content snapshot script.write state).2 =
        (writeSourcesFileWithRegisteredSnapshot content snapshot script.write other).2 := by
    cases script.write with
    | succeeded => rfl
    | refused => rfl
    | failed code stderr left => rfl
    | threw error left => rfl
  have sameRewrite (content : Text) :
      (rewriteSourcesFile decode current target content path script state).2 =
        (rewriteSourcesFile decode current target content path script other).2 := by
    unfold rewriteSourcesFile
    rw [sameMode, readSourcesFileNoFollow_congr sameEntry]
    dsimp only
    split
    · rfl
    · split
      · rfl
      · split
        · rfl
        · rfl
        · split
          · rfl
          · exact sameWrite _ _
  change skipVanished (snapshotSourcesFile decode current target path script state).2
    = skipVanished (snapshotSourcesFile decode current target path script other).2
  congr 1
  unfold snapshotSourcesFile
  rw [readSourcesFileNoFollow_congr sameEntry]
  split
  · rfl
  · rfl
  · exact sameRewrite _

end Locality

end Visit

/-! ### All files -/

section All

variable (decode : List UInt8 → Text) (current target : Text)
  (scripts : Text → FileScript)

/-- The visit of the path ends the rewriting. -/
def aborts (files : SourcesFiles) (path : Text) : Bool :=
  match (snapshotSourcesFileSafely decode current target path (scripts path)
      { files := files, snapshots := [] }).2 with
  | .ok () => false
  | .error _ => true

/-- The paths up to the first one that ends the rewriting -/
def visitedPaths (files : SourcesFiles) : List Text → List Text
  | [] => []
  | path :: rest =>
      path :: if aborts decode current target scripts files path then []
        else visitedPaths files rest

/-- The visits of a list of paths -/
def visitAll : List Text → UpgradeState → UpgradeState × Except ThrownError Unit
  | [], state => (state, .ok ())
  | path :: rest, state =>
      match snapshotSourcesFileSafely decode current target path (scripts path)
          state with
      | (after, .error error) => (after, .error error)
      | (after, .ok ()) => visitAll rest after

/-- The state after the visits of different paths -/
def visitedState (visited : List Text) (state : UpgradeState) : UpgradeState where
  files path :=
    if path ∈ visited then
      (visit decode current target path (scripts path) (state.files path)).1
    else state.files path
  snapshots := state.snapshots ++ visited.filterMap fun path =>
    (visit decode current target path (scripts path) (state.files path)).2

variable {decode current target scripts}

theorem aborts_eq {state : UpgradeState} {files : SourcesFiles} {path : Text}
    (sameEntry : state.files path = files path) :
    aborts decode current target scripts files path =
      match (snapshotSourcesFileSafely decode current target path (scripts path)
        state).2 with
      | .ok () => false
      | .error _ => true := by
  rw [aborts, @snapshotSourcesFileSafely_result_congr decode current target path
    (scripts path) state { files := files, snapshots := [] } sameEntry]

theorem mem_of_mem_visitedPaths {files : SourcesFiles} {path : Text} {paths : List Text}
    (mem : path ∈ visitedPaths decode current target scripts files paths) :
    path ∈ paths := by
  induction paths with
  | nil => cases mem
  | cons first rest ih =>
    rw [visitedPaths] at mem
    rcases List.mem_cons.1 mem with rfl | isLater
    · exact List.mem_cons_self
    · split at isLater
      · cases isLater
      · exact List.mem_cons_of_mem _ (ih isLater)

theorem nodup_visitedPaths {files : SourcesFiles} {paths : List Text} (nodup : paths.Nodup) :
    (visitedPaths decode current target scripts files paths).Nodup := by
  induction paths with
  | nil => exact .nil
  | cons first rest ih =>
    rw [List.nodup_cons] at nodup
    rw [visitedPaths, List.nodup_cons]
    split
    · exact ⟨List.not_mem_nil, .nil⟩
    · exact ⟨fun mem => nodup.1 (mem_of_mem_visitedPaths mem), ih nodup.2⟩

theorem visitedPaths_congr {files other : SourcesFiles} {paths : List Text}
    (same : ∀ path ∈ paths, files path = other path) :
    visitedPaths decode current target scripts files paths =
      visitedPaths decode current target scripts other paths := by
  induction paths with
  | nil => rfl
  | cons first rest ih =>
    rw [List.forall_mem_cons] at same
    rw [visitedPaths, visitedPaths, ih same.2]
    have sameFirst := @aborts_eq decode current target scripts
      { files := files, snapshots := [] } other first same.1
    rw [sameFirst]
    rfl

theorem visitedState_cons {path : Text} {rest : List Text} {state : UpgradeState}
    (notLater : path ∉ rest) :
    visitedState decode current target scripts rest
        (visitState decode current target path (scripts path) state) =
      visitedState decode current target scripts (path :: rest) state := by
  have unchanged (other : Text) (later : other ∈ rest) :
      (visitState decode current target path (scripts path) state).files other =
        state.files other :=
    Function.update_of_ne (ne_of_mem_of_not_mem later notLater) _ _
  unfold visitedState
  congr 1
  · funext other
    by_cases later : other ∈ rest
    · rw [if_pos later, if_pos (List.mem_cons_of_mem _ later), unchanged other later]
    · rw [if_neg later]
      by_cases own : other = path
      · subst own
        rw [if_pos List.mem_cons_self]
        exact Function.update_self ..
      · rw [if_neg (by rw [List.mem_cons, not_or]; exact ⟨own, later⟩)]
        exact Function.update_of_ne own _ _
  · rw [visitState, List.append_assoc]
    congr 1
    have sameRest : (rest.filterMap fun other =>
        (visit decode current target other (scripts other)
          ((visitState decode current target path (scripts path) state).files
            other)).2) =
        rest.filterMap fun other =>
          (visit decode current target other (scripts other)
            (state.files other)).2 :=
      List.filterMap_congr fun other later => by rw [unchanged other later]
    rw [List.filterMap_cons]
    unfold visitState at sameRest
    dsimp only at sameRest ⊢
    rw [sameRest]
    split
    next isNone => rw [isNone, Option.toList_none, List.nil_append]
    next snapshot isSnapshot =>
      rw [isSnapshot, Option.toList_some]
      rfl

theorem visitAll_state {paths : List Text} (nodup : paths.Nodup) :
    ∀ state, (visitAll decode current target scripts paths state).1 =
      visitedState decode current target scripts
        (visitedPaths decode current target scripts state.files paths) state := by
  induction paths with
  | nil =>
    intro state
    simp only [visitAll, visitedPaths, visitedState, List.not_mem_nil, if_false,
      List.filterMap_nil, List.append_nil]
  | cons path rest ih =>
    intro state
    obtain ⟨notLater, nodupRest⟩ := List.nodup_cons.1 nodup
    have own := @snapshotSourcesFileSafely_state decode current target path
      (scripts path) state
    have ends := @aborts_eq decode current target scripts state state.files path rfl
    rw [visitAll, visitedPaths, ends]
    split
    next after error isAfter =>
      rw [isAfter] at own ⊢
      rw [if_pos rfl, ← visitedState_cons List.not_mem_nil, own]
      simp only [visitedState, List.not_mem_nil, if_false, List.filterMap_nil, List.append_nil]
    next after isAfter =>
      rw [isAfter] at own ⊢
      dsimp only at own ⊢
      rw [if_neg Bool.false_ne_true, ih nodupRest, own]
      have samePaths : visitedPaths decode current target scripts
          (visitState decode current target path (scripts path) state).files rest =
            visitedPaths decode current target scripts state.files rest :=
        visitedPaths_congr fun other later =>
          Function.update_of_ne (ne_of_mem_of_not_mem later notLater) _ _
      rw [samePaths, visitedState_cons fun mem => notLater (mem_of_mem_visitedPaths mem)]

/-- Where no visit failed, every path was visited. -/
theorem visitedPaths_of_ok {paths : List Text} :
    ∀ {state : UpgradeState}, paths.Nodup →
      (visitAll decode current target scripts paths state).2 = .ok () →
      visitedPaths decode current target scripts state.files paths = paths := by
  induction paths with
  | nil => exact fun _ _ => rfl
  | cons path rest ih =>
    intro state nodup succeeded
    obtain ⟨notLater, nodupRest⟩ := List.nodup_cons.1 nodup
    have own := @snapshotSourcesFileSafely_state decode current target path
      (scripts path) state
    have ends := @aborts_eq decode current target scripts state state.files path rfl
    rw [visitAll] at succeeded
    rw [visitedPaths, ends]
    split at succeeded
    · cases succeeded
    next after isAfter =>
      rw [isAfter] at own ⊢
      dsimp only at own ⊢
      have later := ih nodupRest succeeded
      have samePaths : visitedPaths decode current target scripts after.files rest =
          visitedPaths decode current target scripts state.files rest := by
        rw [own]
        exact visitedPaths_congr fun other isLater =>
          Function.update_of_ne (ne_of_mem_of_not_mem isLater notLater) _ _
      rw [if_neg Bool.false_ne_true, ← samePaths, later]

end All

/-! ### Rollback -/

/-- What a rollback leaves at a path, of the file of the snapshot or of what is there. -/
theorem restored_filterMap {snapshotOf : Text → Option SourcesSnapshot}
    (ownPath : ∀ path snapshot, snapshotOf path = some snapshot → snapshot.remotePath = path)
    {visited : List Text} (nodup : visited.Nodup) :
    ∀ files path, restoreSourcesSnapshots files (visited.filterMap snapshotOf) path =
      match if path ∈ visited then snapshotOf path else none with
      | some snapshot => some (.file (writtenFile snapshot.originalContent snapshot.mode))
      | none => files path := by
  induction visited with
  | nil => exact fun _ _ => rfl
  | cons first rest ih =>
    intro files path
    obtain ⟨notLater, nodupRest⟩ := List.nodup_cons.1 nodup
    rw [List.filterMap_cons]
    by_cases own : path = first
    · subst own
      rw [if_pos List.mem_cons_self]
      cases isSnapshot : snapshotOf path with
      | none =>
        dsimp only
        rw [ih nodupRest, if_neg notLater]
      | some snapshot =>
        have restored := ih nodupRest
          (writeSourcesFileNoFollow snapshot.originalContent snapshot.mode snapshot.remotePath
            .succeeded files).1 path
        rw [if_neg notLater] at restored
        refine restored.trans ?_
        rw [← ownPath path snapshot isSnapshot]
        exact Function.update_self ..
    · have sameMember : (path ∈ first :: rest) = (path ∈ rest) :=
        propext (List.mem_cons.trans (or_iff_right own))
      simp only [sameMember]
      split
      · exact ih nodupRest files path
      next snapshot isSnapshot =>
        have restored := ih nodupRest
          (writeSourcesFileNoFollow snapshot.originalContent snapshot.mode snapshot.remotePath
            .succeeded files).1 path
        refine restored.trans ?_
        have unchanged : (writeSourcesFileNoFollow snapshot.originalContent snapshot.mode
            snapshot.remotePath .succeeded files).1 path = files path := by
          rw [← ownPath first snapshot isSnapshot] at own
          exact Function.update_of_ne own _ _
        rw [unchanged]

section Restored

variable {decode : List UInt8 → Text} {current target : Text}
  {scripts : Text → FileScript}

theorem visit_snapshot_path {path : Text} {script : FileScript} {entry : Option SourcesEntry}
    {snapshot : SourcesSnapshot}
    (isSnapshot : (visit decode current target path script entry).2 =
      some snapshot) : snapshot.remotePath = path := by
  unfold visit at isSnapshot
  split at isSnapshot
  · split at isSnapshot
    · dsimp only at isSnapshot
      split at isSnapshot
      · cases isSnapshot
        rfl
      · cases isSnapshot
    · cases isSnapshot
  · cases isSnapshot

/-- What the rollback of the visits leaves at a path -/
theorem restored_visited {visited : List Text} (nodup : visited.Nodup) (files : SourcesFiles)
    (path : Text) :
    let after := visitedState decode current target scripts visited
      { files := files, snapshots := [] }
    restoreSourcesSnapshots after.files after.snapshots path =
      if path ∈ visited then
        let (entry, snapshot) :=
          visit decode current target path (scripts path) (files path)
        match snapshot with
        | some snapshot => some (.file (writtenFile snapshot.originalContent snapshot.mode))
        | none => entry
      else files path := by
  intro after
  have restored := restored_filterMap
    (fun path _ isSnapshot => @visit_snapshot_path decode current target path
      (scripts path) (files path) _ isSnapshot) nodup after.files path
  have sameSnapshots : after.snapshots = visited.filterMap fun path =>
      (visit decode current target path (scripts path) (files path)).2 :=
    List.nil_append _
  rw [sameSnapshots, restored]
  by_cases mem : path ∈ visited
  · rw [if_pos mem, if_pos mem]
    have sameEntry : after.files path =
        (visit decode current target path (scripts path) (files path)).1 :=
      if_pos mem
    rw [sameEntry]
  · rw [if_neg mem, if_neg mem]
    exact if_neg mem

end Restored

/-! ### Modes -/

theorem trim_statOutput (mode : Nat) : trim (statOutput mode) = Nat.toDigits 8 mode := by
  have isWord : IsWord (Nat.toDigits 8 mode) := by
    refine ⟨Nat.toDigits_ne_nil, fun char mem => isJsSpace_of_isDigit ?_⟩
    exact Nat.isDigit_of_mem_toDigits (by decide) (by decide) mem
  exact trim_word_append isWord (List.forall_mem_singleton.2 rfl)

/-- The written mode is the one of the file, unless `stat` failed on another mode than the
default one. -/
theorem octalMode_usedMode {file : SourcesFile} {outcome : StatOutcome}
    (answers : outcome.answers = true) :
    octalMode (usedMode file outcome) = file.mode ↔
      outcome.isCompleted = true ∨ file.mode = 0o644 := by
  cases outcome with
  | threw error => cases answers
  | completed =>
    have nonempty : Nat.toDigits 8 file.mode ≠ [] := Nat.toDigits_ne_nil
    have same : octalMode (usedMode file .completed) = file.mode := by
      rw [usedMode, trim_statOutput, octalMode_normalize nonempty, octalMode,
        Nat.ofDigitChars_toDigits (by decide) (by decide)]
    exact ⟨fun _ => .inl rfl, fun _ => same⟩
  | failed =>
    have default : octalMode (usedMode file .failed) = 0o644 := by
      rw [usedMode]
      decide
    rw [default]
    constructor
    · exact fun isDefault => .inr isDefault.symm
    · rintro (completed | isDefault)
      · cases completed
      · exact isDefault.symm

/-! ### The law -/

section Law

variable (decode : List UInt8 → Text)

/-- The sources files among the enumerated paths -/
def EnumerationOutcome.paths : EnumerationOutcome → List Text
  | .listed listing => listing.1.filter isAcceptableSourcesPath
  | .failed | .threw _ => []

/-- The paths that the rewriting would visit -/
def attemptedPaths (script : UpgradeScript) : List Text :=
  match script.sourcesListExists with
  | .error _ => []
  | .ok false => script.enumeration.paths
  | .ok true => APT_SOURCES_LIST :: script.enumeration.paths

/-- A sources file that the enumeration listed -/
def Enumerated (script : UpgradeScript) (path : Text) : Prop :=
  path ∈ script.enumeration.paths

/-- What a completed upgrade makes of a file -/
def upgradedFile (current target path : Text) (file : SourcesFile) : SourcesFile where
  content := utf8Bytes
    (rewriteAptSourcesContent current (decode file.content) path target)
  mode := file.mode

/-- What is claimed of the end of the critical section -/
structure SourcesKept (target : Text) (script : UpgradeScript) (files : SourcesFiles)
    (ended : UpgradeEnd) : Prop where
  restored : ended.aptSucceeded = false → ended.files = files
  upgraded : ended.aptSucceeded = true → ∀ current,
    script.codename = .ok (.ok current) → ∀ path, Enumerated script path →
      ∀ file, files path = some (.file file) →
        ended.files path =
          some (.file (upgradedFile decode current target path file))

/-- The write of the file is rolled back to what was there, or it left that. -/
def RollsBack (file : SourcesFile) (script : FileScript) : Prop :=
  match script.write with
  | .refused => True
  | .threw _ left => left = file
  | .succeeded | .failed _ _ _ =>
      utf8Bytes (capturedContent decode file) = file.content ∧
        (script.stat.isCompleted = true ∨ file.mode = 0o644)

/-- The steps on the file leave what a completed upgrade makes of it. -/
def Upgrades (current target path : Text) (file : SourcesFile)
    (script : FileScript) : Prop :=
  let wanted := upgradedFile decode current target path file
  if reachesWrite decode current target path file script = true then
    match script.write with
    | .succeeded =>
        utf8Bytes (updatedContent decode current target path file) =
            wanted.content ∧ (script.stat.isCompleted = true ∨ file.mode = 0o644)
    | .refused => file = wanted
    | .failed _ _ left | .threw _ left => left = wanted
  else file = wanted

/-- Every step of the critical section keeps what is claimed: the files of an upgrade that does
not complete are rolled back, those of a completed one are rewritten. -/
structure StepsKeepSources (current target : Text) (script : UpgradeScript)
    (files : SourcesFiles) (aptSucceeded : Bool) : Prop where
  rollsBack : aptSucceeded = false →
    ∀ path ∈ visitedPaths decode current target script.files files
        (attemptedPaths script),
      ∀ file, files path = some (.file file) →
        reachesWrite decode current target path file (script.files path) = true →
          RollsBack decode file (script.files path)
  upgrades : aptSucceeded = true → ∀ path, Enumerated script path →
    ∀ file, files path = some (.file file) →
      Upgrades decode current target path file (script.files path)

variable {decode} {current target : Text} {script : UpgradeScript}

/-! What the rewriting visits -/

theorem snapshotEnumeratedSourcesFiles_eq (scripts : Text → FileScript) (paths : List Text) :
    ∀ state, snapshotEnumeratedSourcesFiles decode current target scripts paths
        state =
      visitAll decode current target scripts
        (paths.filter isAcceptableSourcesPath) state := by
  induction paths with
  | nil => exact fun _ => rfl
  | cons path rest ih =>
    intro state
    rw [snapshotEnumeratedSourcesFiles, snapshotEnumeratedSourcesFile]
    cases acceptable : isAcceptableSourcesPath path with
    | false =>
      rw [List.filter_cons_of_neg (by rw [acceptable]; exact Bool.false_ne_true), Bool.not_false,
        Bool.or_true, if_pos rfl]
      exact ih state
    | true =>
      have nonempty : path ≠ [] := fun empty => by
        subst empty
        revert acceptable
        decide
      rw [List.filter_cons_of_pos acceptable, visitAll, Bool.not_true, Bool.or_false,
        if_neg (by rw [decide_eq_true_eq]; exact nonempty)]
      rcases snapshotSourcesFileSafely decode current target path (scripts path)
        state with ⟨after, error | done⟩
      · rfl
      · exact ih after

theorem enumerateSourcesFiles_listed {listing : Listing}
    (isListed : script.enumeration = .listed listing) (state : UpgradeState) :
    enumerateSourcesFiles decode current target script state =
      visitAll decode current target script.files
        (listing.1.filter isAcceptableSourcesPath) state := by
  have split : listing.stdout.splitOn '\x00' = listing.1 ++ [[]] := by
    have whole := splitOn_fileText_append listing.2.2 []
    rw [List.append_nil, List.splitOn_nil] at whole
    exact whole
  rw [enumerateSourcesFiles, isListed]
  dsimp only
  rw [split]
  split
  next noOutput =>
    rw [noOutput, List.splitOn_nil] at split
    have noPaths : listing.1 = [] := by
      have lengths := congrArg List.length split
      rw [List.length_append] at lengths
      exact List.eq_nil_of_length_eq_zero (Nat.succ.inj lengths.symm)
    rw [noPaths]
    rfl
  · rw [snapshotEnumeratedSourcesFiles_eq, List.filter_append]
    have noName : [([] : Text)].filter isAcceptableSourcesPath = [] := by decide
    rw [noName, List.append_nil]

/-- The enumeration makes the visits of its paths, and succeeds only if they all do. -/
theorem enumerateSourcesFiles_visits (state : UpgradeState) :
    (enumerateSourcesFiles decode current target script state).1 =
        (visitAll decode current target script.files script.enumeration.paths
          state).1 ∧
      ((enumerateSourcesFiles decode current target script state).2 = .ok () →
        (visitAll decode current target script.files script.enumeration.paths
          state).2 = .ok ()) := by
  cases isEnumerated : script.enumeration with
  | listed listing =>
    rw [enumerateSourcesFiles_listed isEnumerated]
    exact ⟨rfl, id⟩
  | failed =>
    rw [enumerateSourcesFiles, isEnumerated]
    exact ⟨rfl, nofun⟩
  | threw error =>
    rw [enumerateSourcesFiles, isEnumerated]
    exact ⟨rfl, nofun⟩

theorem nodup_attemptedPaths (script : UpgradeScript) : (attemptedPaths script).Nodup := by
  have nodup : script.enumeration.paths.Nodup := by
    cases script.enumeration with
    | listed listing => exact listing.2.1.filter _
    | failed => exact .nil
    | threw error => exact .nil
  have unlisted : APT_SOURCES_LIST ∉ script.enumeration.paths := by
    cases script.enumeration with
    | listed listing =>
      intro mem
      have acceptable := (List.mem_filter.1 mem).2
      rw [sourcesList_unacceptable] at acceptable
      cases acceptable
    | failed => exact List.not_mem_nil
    | threw error => exact List.not_mem_nil
  unfold attemptedPaths
  split
  · exact .nil
  · exact nodup
  · exact List.nodup_cons.2 ⟨unlisted, nodup⟩

/-- The rewriting makes the visits of the attempted paths, and succeeds only if they all do. -/
theorem replaceCodenameInSourcesList_visits (state : UpgradeState) :
    (replaceCodenameInSourcesList decode current target script state).1 =
        (visitAll decode current target script.files (attemptedPaths script)
          state).1 ∧
      ((replaceCodenameInSourcesList decode current target script state).2 =
          .ok () →
        (visitAll decode current target script.files (attemptedPaths script)
            state).2 = .ok () ∧
          ∀ path, Enumerated script path → path ∈ attemptedPaths script) := by
  have enumerates := @enumerateSourcesFiles_visits decode current target script
  unfold replaceCodenameInSourcesList attemptedPaths
  cases script.sourcesListExists with
  | error error => exact ⟨rfl, nofun⟩
  | ok sourcesListExists =>
    cases sourcesListExists with
    | false =>
      obtain ⟨sameState, succeeds⟩ := enumerates state
      exact ⟨sameState, fun succeeded => ⟨succeeds succeeded, fun path mem => mem⟩⟩
    | true =>
      dsimp only
      rw [visitAll]
      obtain ⟨after, result⟩ := snapshotSourcesFileSafely decode current target
        APT_SOURCES_LIST (script.files APT_SOURCES_LIST) state
      cases result with
      | error error => exact ⟨rfl, nofun⟩
      | ok _ =>
        obtain ⟨sameState, succeeds⟩ := enumerates after
        exact ⟨sameState, fun succeeded => ⟨succeeds succeeded, fun path mem =>
          List.mem_cons_of_mem _ mem⟩⟩

/-! What one visit keeps -/

variable {files : SourcesFiles} {path : Text} {file : SourcesFile}

/-- A visited file is as it was after the rollback exactly if its steps roll back. -/
theorem rolledBack_iff (isFile : files path = some (.file file)) :
    (let (entry, snapshot) :=
        visit decode current target path (script.files path) (files path)
     match snapshot with
     | some snapshot => some (.file (writtenFile snapshot.originalContent snapshot.mode))
     | none => entry) = files path ↔
      (reachesWrite decode current target path file (script.files path) = true →
        RollsBack decode file (script.files path)) := by
  rw [isFile]
  simp only [visit]
  cases reaches : reachesWrite decode current target path file
      (script.files path) with
  | false =>
    rw [if_neg Bool.false_ne_true]
    exact ⟨fun _ => nofun, fun _ => rfl⟩
  | true =>
    have answers : (script.files path).stat.answers = true := by
      simp only [reachesWrite, Bool.and_eq_true] at reaches
      exact reaches.1.1.2
    have sameFile : writtenFile (capturedContent decode file)
        (usedMode file (script.files path).stat) = file ↔
          utf8Bytes (capturedContent decode file) = file.content ∧
            ((script.files path).stat.isCompleted = true ∨ file.mode = 0o644) := by
      rw [← octalMode_usedMode answers]
      cases file
      rw [writtenFile, SourcesFile.mk.injEq]
    rw [if_pos rfl, RollsBack]
    cases (script.files path).write with
    | refused => exact ⟨fun _ _ => trivial, fun _ => rfl⟩
    | threw error left =>
      simp only [WriteOutcome.leaves, WriteOutcome.registers, Bool.false_eq_true, if_false,
        Option.some.injEq, SourcesEntry.file.injEq, true_implies]
    | succeeded =>
      simp only [WriteOutcome.registers, if_true, Option.some.injEq, SourcesEntry.file.injEq,
        true_implies]
      exact sameFile
    | failed code stderr left =>
      simp only [WriteOutcome.registers, if_true, Option.some.injEq, SourcesEntry.file.injEq,
        true_implies]
      exact sameFile

/-- A visited file is what a completed upgrade makes of it exactly if its steps leave that. -/
theorem upgraded_iff (isFile : files path = some (.file file)) :
    (visit decode current target path (script.files path) (files path)).1 =
        some (.file (upgradedFile decode current target path file)) ↔
      Upgrades decode current target path file (script.files path) := by
  rw [isFile]
  simp only [visit, Upgrades]
  cases reaches : reachesWrite decode current target path file
      (script.files path) with
  | false => simp only [Bool.false_eq_true, if_false, Option.some.injEq, SourcesEntry.file.injEq]
  | true =>
    have answers : (script.files path).stat.answers = true := by
      simp only [reachesWrite, Bool.and_eq_true] at reaches
      exact reaches.1.1.2
    simp only [if_true, Option.some.injEq, SourcesEntry.file.injEq]
    cases (script.files path).write with
    | refused => rfl
    | threw error left => rfl
    | failed code stderr left => rfl
    | succeeded =>
      simp only [WriteOutcome.leaves]
      rw [← octalMode_usedMode answers, upgradedFile, writtenFile, SourcesFile.mk.injEq]

/-! The critical section -/

theorem visit_of_noFile (noFile : ∀ file, files path ≠ some (.file file)) (script : FileScript) :
    visit decode current target path script (files path) = (files path, none) := by
  cases isEntry : files path with
  | none => rfl
  | some entry =>
    cases entry with
    | symlink => rfl
    | file file => exact absurd isEntry (noFile file)

/-- The rollback after the visits restores everything exactly if every visited file's steps roll
back. -/
theorem restored_iff {visited : List Text} (nodup : visited.Nodup) :
    restoreSourcesSnapshots
          (visitedState decode current target script.files visited
            { files := files, snapshots := [] }).files
          (visitedState decode current target script.files visited
            { files := files, snapshots := [] }).snapshots = files ↔
      ∀ path ∈ visited, ∀ file, files path = some (.file file) →
        reachesWrite decode current target path file (script.files path) = true →
          RollsBack decode file (script.files path) := by
  have restored := @restored_visited decode current target script.files visited nodup
    files
  dsimp only at restored
  constructor
  · intro same path mem file isFile
    rw [← rolledBack_iff isFile]
    have own := restored path
    rw [same, if_pos mem] at own
    exact own.symm
  · intro rollBack
    funext path
    rw [restored path]
    by_cases mem : path ∈ visited
    · rw [if_pos mem]
      by_cases isFile : ∃ file, files path = some (.file file)
      · obtain ⟨file, isFile⟩ := isFile
        exact (rolledBack_iff isFile).2 (rollBack path mem file isFile)
      · rw [visit_of_noFile (not_exists.1 isFile)]
    · rw [if_neg mem]

/-- The end of a section that rolls back, and its files -/
theorem sourcesKept_of_rollback {visited : List Text} {ended : UpgradeEnd}
    (isVisited : visited =
      visitedPaths decode current target script.files files
        (attemptedPaths script))
    (failed : ended.aptSucceeded = false)
    (rolledBack : ended.files =
      restoreSourcesSnapshots
        (visitedState decode current target script.files visited
          { files := files, snapshots := [] }).files
        (visitedState decode current target script.files visited
          { files := files, snapshots := [] }).snapshots) :
    SourcesKept decode target script files ended ↔
      StepsKeepSources decode current target script files ended.aptSucceeded := by
  have nodup : visited.Nodup := by
    rw [isVisited]
    exact nodup_visitedPaths (nodup_attemptedPaths script)
  have kept := @restored_iff decode current target script files visited nodup
  rw [← rolledBack, isVisited] at kept
  rw [failed]
  constructor
  · intro sourcesKept
    exact ⟨fun _ => kept.1 (sourcesKept.restored failed), nofun⟩
  · intro stepsKeep
    refine ⟨fun _ => kept.2 (stepsKeep.rollsBack rfl), fun succeeded => ?_⟩
    rw [failed] at succeeded
    cases succeeded

/-- The end of a section that completes -/
theorem sourcesKept_of_completed {visited : List Text} {ended : UpgradeEnd}
    (isCodename : script.codename = .ok (.ok current))
    (listed : ∀ path, Enumerated script path → path ∈ visited)
    (succeeded : ended.aptSucceeded = true)
    (isFiles : ended.files =
      (visitedState decode current target script.files visited
        { files := files, snapshots := [] }).files) :
    SourcesKept decode target script files ended ↔
      StepsKeepSources decode current target script files ended.aptSucceeded := by
  have left {path : Text} (enumerated : Enumerated script path) : ended.files path =
      (visit decode current target path (script.files path) (files path)).1 := by
    rw [isFiles]
    exact if_pos (listed path enumerated)
  rw [succeeded]
  constructor
  · intro sourcesKept
    refine ⟨nofun, fun _ path enumerated file isFile => ?_⟩
    rw [← upgraded_iff isFile, ← left enumerated]
    exact sourcesKept.upgraded succeeded current isCodename path enumerated file isFile
  · intro stepsKeep
    refine ⟨fun failed => ?_, fun _ other isOther path enumerated file isFile => ?_⟩
    · rw [succeeded] at failed
      cases failed
    · rw [isCodename] at isOther
      cases isOther
      rw [left enumerated, upgraded_iff isFile]
      exact stepsKeep.upgrades rfl path enumerated file isFile

end Law

/-! ### A write that throws after it changed its file -/

/-- The text of ASCII bytes -/
def asciiDecode (bytes : List UInt8) : Text := bytes.map fun byte => Char.ofNat byte.toNat

def bookwormSources : SourcesFile where
  content := utf8Bytes (text "deb http://deb.debian.org/debian bookworm main\n")
  mode := 0o644

def trixieSources : SourcesFile where
  content := utf8Bytes (text "deb http://deb.debian.org/debian trixie main\n")
  mode := 0o644

def onlySourcesList : SourcesFiles := fun path =>
  if path = APT_SOURCES_LIST then some (.file bookwormSources) else none

/-- The connection is lost after the new content was written. -/
def lostConnection : UpgradeScript where
  codename := .ok (.ok (text "bookworm"))
  sourcesListExists := .ok true
  enumeration := .listed ⟨[], .nil, nofun⟩
  files _ :=
    { read := .completed
      stat := .completed
      reread := .completed
      write := .threw { code := none, message := text "SSH connection closed" } trixieSources }
  update := .succeeded
  configure := .succeeded
  fullUpgrade := .succeeded
  autoremove := .succeeded
  refresh := .succeeded
  rebootMeta := .ok ()

end Paratix.Upgrade
