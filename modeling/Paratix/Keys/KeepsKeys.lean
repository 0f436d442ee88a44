/-
Module: Paratix.Keys.KeepsKeys
Purpose: What apply does to the lines of `authorized_keys`, and for which files it
  keeps every key.
Main exports: Account.writable, keeps_every_key_iff
-/
import Paratix.Keys.AuthorizedKeys

namespace Paratix.Keys

open Foundation Archive

variable {params : Parameters} {account : Account} {user primaryGroup : Text}

/-! ### The security state -/

theorem trim_statText {attributes : Attributes} {kind : Text}
    (starts : ∀ head, attributes.mode.head? = some head → isJsSpace head = false)
    (modeNonempty : attributes.mode ≠ []) (kindNonempty : kind ≠ [])
    (ends : ∀ last, kind.getLast? = some last → isJsSpace last = false) :
    trim (statText attributes kind) = statText attributes kind := by
  obtain ⟨head, rest, isMode⟩ := List.exists_cons_of_ne_nil modeNonempty
  refine trim_eq_self (fun other isHead => starts other ?_) fun last isLast => ends last ?_
  · rw [statText, isMode, List.cons_append, List.head?_cons] at isHead
    rw [isMode, List.head?_cons, isHead]
  · have split : statText attributes kind =
        (attributes.mode ++ ' ' :: (attributes.owner ++ ' ' :: (attributes.group ++ [' ']))) ++
          kind := by
      simp only [statText, List.append_assoc, List.cons_append, List.nil_append]
    rwa [split, List.getLast?_append_of_ne_nil _ kindNonempty] at isLast

theorem trim_expectedDirectoryState :
    trim (expectedDirectoryState user primaryGroup) = expectedDirectoryState user primaryGroup := by
  refine trim_statText ?_ (List.cons_ne_nil _ _) (List.cons_ne_nil _ _) ?_
  · rintro _ ⟨⟩
    rfl
  · rintro _ ⟨⟩
    rfl

theorem trim_expectedKeysState :
    trim (expectedKeysState user primaryGroup) = expectedKeysState user primaryGroup := by
  refine trim_statText ?_ (List.cons_ne_nil _ _) (List.cons_ne_nil _ _) ?_
  · rintro _ ⟨⟩
    rfl
  · rintro _ ⟨⟩
    rfl

/-- What apply leaves is accepted, if there is something in the file. -/
theorem securityStateIsValid_of_written {content : Buffer} (nonempty : content ≠ [])
    (isDirectory : account.sshDirectory = .directory (ownedDirectory user primaryGroup)
      (.file (ownedFile user primaryGroup) content)) :
    authorizedKeysSecurityStateIsValid user primaryGroup account = true := by
  have directoryState := @trim_expectedDirectoryState user primaryGroup
  have keysState := @trim_expectedKeysState user primaryGroup
  unfold authorizedKeysSecurityStateIsValid
  rw [isDirectory]
  simp only [fileKind, if_neg nonempty, Bool.and_eq_true, decide_eq_true_eq]
  exact ⟨directoryState, keysState⟩

theorem keys_of_securityStateIsValid
    (valid : authorizedKeysSecurityStateIsValid user primaryGroup account = true) :
    account.sshDirectory.exists = true ∧ account.keys.exists = true := by
  unfold authorizedKeysSecurityStateIsValid at valid
  unfold Account.keys
  cases isDirectory : account.sshDirectory with
  | missing => simp [isDirectory] at valid
  | special => simp [isDirectory] at valid
  | symlink reaches keys => simp [isDirectory] at valid
  | directory attributes keys =>
    rw [isDirectory] at valid
    refine ⟨rfl, ?_⟩
    cases keys with
    | missing => simp at valid
    | symlink reaches => simp at valid
    | special fileAttributes kind => rfl
    | file fileAttributes content => rfl

/-- Check answers ok for a key that is there, in files with the right state. -/
theorem check_present_ok (isPresent : params.state = .present)
    (safe : isSafeAuthorizedKeysHome account.home = true)
    (valid : authorizedKeysSecurityStateIsValid params.user
      (resolvePrimaryGroup account params.user) account = true)
    (found : account.keys.grepLine (utf8Bytes params.key) = true) :
    checkAuthorizedKeys params account = .ok := by
  obtain ⟨directoryExists, keysExist⟩ := keys_of_securityStateIsValid valid
  simp [checkAuthorizedKeys, resolveHome, safe, directoryExists, keysExist, valid, found,
    isPresent, finalizeAuthorizedKeysCheck]

/-! ### Convergence -/

theorem converged_present (isPresent : params.state = .present)
    (converged : authorizedKeysApplyIsConverged params primaryGroup account = true) :
    account.keys.grepLine (utf8Bytes params.key) = true ∧
      authorizedKeysSecurityStateIsValid params.user primaryGroup account = true := by
  unfold authorizedKeysApplyIsConverged at converged
  rw [isPresent] at converged
  cases found : account.keys.grepLine (utf8Bytes params.key) with
  | false =>
    cases there : account.keys.exists <;> simp [there, found] at converged
  | true =>
    cases there : account.keys.exists with
    | false => simp [there] at converged
    | true => simpa [there, found, finalizeAuthorizedKeysCheck] using converged

theorem converged_absent (isAbsent : params.state = .absent)
    (converged : authorizedKeysApplyIsConverged params primaryGroup account = true) :
    account.keys.exists = false ∨ account.keys.grepLine (utf8Bytes params.key) = false := by
  unfold authorizedKeysApplyIsConverged at converged
  rw [isAbsent] at converged
  cases there : account.keys.exists with
  | false => exact .inl rfl
  | true =>
    cases found : account.keys.grepLine (utf8Bytes params.key) with
    | false => exact .inr rfl
    | true => simp [there, found] at converged

/-! ### Present -/

/-- Apply can write: the directories and the file are missing or what they should be. -/
def SshDirectory.writable : SshDirectory → Bool
  | .missing => true
  | .directory _ .missing => true
  | .directory _ (.file ..) => true
  | _ => false

def Account.writable (account : Account) : Bool :=
  isSafeAuthorizedKeysHome account.home && account.sshDirectory.writable

/-- The content after the key was added. -/
def presentContent (key content : Buffer) : Buffer :=
  if grepLine key content then content else content ++ printLine key

theorem presentContent_ne_nil (key content : Buffer) : presentContent key content ≠ [] := by
  unfold presentContent
  split
  next found =>
    rintro rfl
    cases found
  · exact List.append_ne_nil_of_right_ne_nil _ (List.concat_ne_nil _ _)

/-- The home directory of the account before, with a file that has this content. -/
structure Written (before after : Account) (content : Buffer) : Prop where
  home : after.home = before.home
  primaryGroup : after.primaryGroup = before.primaryGroup
  file : ∃ directoryAttributes attributes,
    after.sshDirectory = .directory directoryAttributes (.file attributes content)

theorem Written.content_eq {before after : Account} {content : Buffer}
    (written : Written before after content)
    (safe : isSafeAuthorizedKeysHome before.home = true) : after.content = content := by
  obtain ⟨directoryAttributes, attributes, isDirectory⟩ := written.file
  rw [Account.content, resolveHome, written.home, if_pos safe, Account.keys, isDirectory]

/-- What the guards of the first script let through. -/
theorem prepare_writable (writable : account.sshDirectory.writable = true) :
    ensureSshDirectoryAndAuthorizedKeysAreNotSymlinks params primaryGroup account = ({ account with
            sshDirectory := .directory (ownedDirectory params.user primaryGroup) account.keys },
          none) ∧
      (account.keys = .missing ∨ ∃ attributes content, account.keys = .file attributes content) := by
  unfold ensureSshDirectoryAndAuthorizedKeysAreNotSymlinks prepareScript Account.keys
  cases isDirectory : account.sshDirectory with
  | missing => exact ⟨rfl, .inl rfl⟩
  | special => simp [isDirectory, SshDirectory.writable] at writable
  | symlink reaches keys => simp [isDirectory, SshDirectory.writable] at writable
  | directory attributes keys =>
    cases keys with
    | missing => exact ⟨rfl, .inl rfl⟩
    | symlink reaches => simp [isDirectory, SshDirectory.writable] at writable
    | special fileAttributes kind => simp [isDirectory, SshDirectory.writable] at writable
    | file fileAttributes content => exact ⟨rfl, .inr ⟨_, _, rfl⟩⟩

/-- The staged file replaces a missing one or a regular one. -/
theorem replace_writes {temporary : Buffer} {keys : KeysEntry}
    (isDirectory : account.sshDirectory = .directory (ownedDirectory user primaryGroup) keys)
    (writable : account.sshDirectory.writable = true) :
    replaceScript user primaryGroup temporary account = ({ account with
          sshDirectory := .directory (ownedDirectory user primaryGroup)
            (.file (ownedFile user primaryGroup) temporary) },
        if temporary = [] then some (text "authorized_keys metadata changed during replace")
        else none) := by
  have kinds : statText (ownedFile user primaryGroup) (text "regular empty file") ≠
      expectedKeysState user primaryGroup := by
    simp only [expectedKeysState, statText, ne_eq, List.append_cancel_left_eq, List.cons.injEq,
      true_and]
    decide
  have verified : (statText (ownedFile user primaryGroup) (fileKind temporary) ≠
      expectedKeysState user primaryGroup) = (temporary = []) := by
    rw [eq_iff_iff, fileKind]
    split
    next empty => exact iff_of_true kinds empty
    next nonempty => exact iff_of_false (not_not_intro rfl) nonempty
  unfold replaceScript
  rw [isDirectory] at writable ⊢
  cases keys with
  | missing => simp only [expectedDirectoryState, ne_eq, not_true_eq_false, if_false, verified]
  | file fileAttributes content =>
    simp only [expectedDirectoryState, ne_eq, not_true_eq_false, if_false, verified]
  | symlink reaches => cases writable
  | special fileAttributes kind => cases writable

theorem stage_present (isPresent : params.state = .present)
    (safe : isSafeAuthorizedKeysHome account.home = true)
    (entry : account.keys = .missing ∨ ∃ attributes content, account.keys = .file attributes content) :
    stageAuthorizedKeysContent params account =
      .ok (presentContent (utf8Bytes params.key) account.content) := by
  unfold stageAuthorizedKeysContent stageScript Account.content resolveHome
  rw [if_pos safe, isPresent]
  rcases entry with missing | ⟨attributes, content, isFile⟩
  · rw [missing]
    rfl
  · rw [isFile]
    rfl

/-- Where it can write, apply adds the key and leaves what check accepts. -/
theorem apply_present (isPresent : params.state = .present) (writable : account.writable = true) :
    ∃ after result, applyAuthorizedKeys params account = (after, result) ∧
      result.succeeded = true ∧
      Written account after (presentContent (utf8Bytes params.key) account.content) ∧
      authorizedKeysSecurityStateIsValid params.user
        (resolvePrimaryGroup after params.user) after = true := by
  obtain ⟨safe, directoryWritable⟩ := Bool.and_eq_true_iff.1 writable
  let primaryGroup := resolvePrimaryGroup account params.user
  let prepared : Account :=
    { account with
      sshDirectory := .directory (ownedDirectory params.user primaryGroup) account.keys }
  obtain ⟨prepares, entry⟩ := @prepare_writable params account primaryGroup directoryWritable
  have applied : applyAuthorizedKeys params account =
      rewriteAuthorizedKeysWhenNeeded params primaryGroup prepared := by
    unfold applyAuthorizedKeys resolveHome
    simp only [if_pos safe, isPresent, prepares, primaryGroup]
    rfl
  have preparedWritable : prepared.sshDirectory.writable = true := by
    rcases entry with missing | ⟨attributes, content, isFile⟩
    · simp [prepared, missing, SshDirectory.writable]
    · simp [prepared, isFile, SshDirectory.writable]
  have sameContent : prepared.content = account.content := rfl
  have staged := @stage_present params prepared isPresent safe entry
  rw [applied, rewriteAuthorizedKeysWhenNeeded]
  split
  next converged =>
    -- nothing is written: the key is a line of the file
    obtain ⟨found, valid⟩ := converged_present isPresent converged
    refine ⟨prepared, .ok, rfl, rfl, ⟨rfl, rfl, ?_⟩, valid⟩
    rcases entry with missing | ⟨attributes, content, isFile⟩
    · have none_ : prepared.keys = .missing := missing
      rw [none_] at found
      cases found
    · have isContent : account.content = content := by
        rw [Account.content, resolveHome, if_pos safe, isFile]
      have isLine : grepLine (utf8Bytes params.key) content = true := by
        have own : prepared.keys = .file attributes content := isFile
        rw [own] at found
        exact found
      refine ⟨ownedDirectory params.user primaryGroup, attributes, ?_⟩
      rw [presentContent, isContent, if_pos isLine, ← isFile]
  · rw [rewriteAuthorizedKeys, staged]
    have nonempty := presentContent_ne_nil (utf8Bytes params.key) account.content
    simp only [replaceAuthorizedKeysAtomically, replace_writes rfl preparedWritable, sameContent,
      if_neg nonempty]
    exact ⟨_, .changed, rfl, rfl, ⟨rfl, rfl, _, _, rfl⟩,
      securityStateIsValid_of_written nonempty rfl⟩

/-- Elsewhere apply fails. -/
theorem apply_present_blocked (isPresent : params.state = .present)
    (blocked : account.writable = false) :
    (applyAuthorizedKeys params account).2.succeeded = false := by
  unfold applyAuthorizedKeys resolveHome
  rw [isPresent]
  by_cases safe : isSafeAuthorizedKeysHome account.home = true
  · rw [Account.writable, safe, Bool.true_and] at blocked
    rw [if_pos safe]
    simp only [ensureSshDirectoryAndAuthorizedKeysAreNotSymlinks, prepareScript]
    cases isDirectory : account.sshDirectory with
    | missing => simp [isDirectory, SshDirectory.writable] at blocked
    | special => rfl
    | symlink reaches keys => rfl
    | directory attributes keys =>
      cases keys with
      | missing => simp [isDirectory, SshDirectory.writable] at blocked
      | symlink reaches => rfl
      | file fileAttributes content => simp [isDirectory, SshDirectory.writable] at blocked
      | special fileAttributes kind =>
        simp [KeysEntry.isSymlink, rewriteAuthorizedKeysWhenNeeded, isPresent,
          authorizedKeysApplyIsConverged, Account.keys, KeysEntry.exists, KeysEntry.grepLine,
          rewriteAuthorizedKeys, stageAuthorizedKeysContent, stageScript, Except.mapError,
          failedCommand, ModuleResult.succeeded]
  · rw [if_neg safe]
    rfl

theorem apply_present_succeeded {after : Account} {result : ModuleResult}
    (isPresent : params.state = .present)
    (applied : applyAuthorizedKeys params account = (after, result))
    (succeeded : result.succeeded = true) : account.writable = true ∧
      Written account after (presentContent (utf8Bytes params.key) account.content) ∧
      authorizedKeysSecurityStateIsValid params.user
        (resolvePrimaryGroup after params.user) after = true := by
  cases writable : account.writable with
  | false =>
    have fails := apply_present_blocked isPresent writable
    rw [applied, succeeded] at fails
    cases fails
  | true =>
    obtain ⟨written, _, same, _, isWritten, valid⟩ := apply_present isPresent writable
    rw [applied] at same
    cases same
    exact ⟨rfl, isWritten, valid⟩

/-! ### Absent -/

theorem fileLines_grepOtherLines (key content : Buffer) :
    fileLines NEWLINE (grepOtherLines key content) = (fileLines NEWLINE content).filter (· ≠ key) :=
  fileLines_fileText fun _ mem => oneLine_of_mem_fileLines (List.mem_filter.1 mem).1

theorem lines_of_file {attributes : Attributes} {content : Buffer}
    (safe : isSafeAuthorizedKeysHome account.home = true)
    (isFile : account.keys = .file attributes content) :
    account.lines = fileLines NEWLINE content := by
  rw [Account.lines, Account.content, resolveHome, if_pos safe, isFile]

theorem lines_of_noFile (noFile : ∀ attributes content, account.keys ≠ .file attributes content) :
    account.lines = [] := by
  have empty : account.content = [] := by
    unfold Account.content
    split
    next isFile => exact absurd isFile (noFile _ _)
    · rfl
  rw [Account.lines, empty]
  rfl

theorem rewriteWhenNeeded_account
    (needed : ¬authorizedKeysApplyIsConverged params primaryGroup account = true) :
    (rewriteAuthorizedKeysWhenNeeded params primaryGroup account).1 =
      (rewriteAuthorizedKeys params primaryGroup account).1 := by
  rw [rewriteAuthorizedKeysWhenNeeded, if_neg needed]
  rcases rewriteAuthorizedKeys params primaryGroup account with ⟨rewritten, _ | failure⟩
  · rfl
  · rfl

theorem replace_account (temporary : Buffer) :
    (replaceAuthorizedKeysAtomically params primaryGroup temporary account).1 =
      (replaceScript params.user primaryGroup temporary account).1 := by
  rw [replaceAuthorizedKeysAtomically]
  rcases replaceScript params.user primaryGroup temporary account with ⟨replaced, _ | stderr⟩
  · rfl
  · rfl

theorem apply_absent_missing (isAbsent : params.state = .absent)
    (missing : absentAuthorizedKeysPathNeedsGuard account = false) :
    applyAuthorizedKeys params account = (account, .ok) := by
  unfold applyAuthorizedKeys
  rw [isAbsent]
  cases resolveHome account with
  | none => rfl
  | some home => simp [missing]

/-- What apply does after the guard for a missing path -/
theorem apply_absent_needed (isAbsent : params.state = .absent)
    (safe : isSafeAuthorizedKeysHome account.home = true)
    (needed : absentAuthorizedKeysPathNeedsGuard account = true) :
    applyAuthorizedKeys params account =
      match ensureSshDirectoryAndAuthorizedKeysAreNotSymlinks params
          (resolvePrimaryGroup account params.user) account with
      | (prepared, some failure) => (prepared, failure)
      | (prepared, none) => rewriteAuthorizedKeysWhenNeeded params
          (resolvePrimaryGroup account params.user) prepared := by
  unfold applyAuthorizedKeys
  rw [resolveHome, if_pos safe, isAbsent, needed]
  rfl

/-- Apply takes the key out of a regular file, also where it then fails. -/
theorem apply_absent_file {directoryAttributes attributes : Attributes} {content : Buffer}
    (isAbsent : params.state = .absent) (safe : isSafeAuthorizedKeysHome account.home = true)
    (isDirectory : account.sshDirectory = .directory directoryAttributes (.file attributes content)) :
    (applyAuthorizedKeys params account).1.lines =
      account.lines.filter (· ≠ utf8Bytes params.key) := by
  let primaryGroup := resolvePrimaryGroup account params.user
  have isFile : account.keys = .file attributes content := by rw [Account.keys, isDirectory]
  have writable : account.sshDirectory.writable = true := by rw [isDirectory]; rfl
  let prepared : Account :=
    { account with
      sshDirectory := .directory (ownedDirectory params.user primaryGroup) account.keys }
  have prepares := (@prepare_writable params account primaryGroup writable).1
  have needed : absentAuthorizedKeysPathNeedsGuard account = true := by
    rw [absentAuthorizedKeysPathNeedsGuard, isFile]
    rfl
  have applied : applyAuthorizedKeys params account =
      rewriteAuthorizedKeysWhenNeeded params primaryGroup prepared := by
    rw [apply_absent_needed isAbsent safe needed, prepares]
  have preparedWritable : prepared.sshDirectory.writable = true := by
    simp [prepared, isFile, SshDirectory.writable]
  have ownFile : prepared.keys = .file attributes content := isFile
  rw [applied, lines_of_file safe isFile]
  by_cases converged : authorizedKeysApplyIsConverged params primaryGroup prepared = true
  · have preparedLines : prepared.lines = fileLines NEWLINE content := lines_of_file safe ownFile
    have noLine : utf8Bytes params.key ∉ fileLines NEWLINE content := by
      rcases converged_absent isAbsent converged with missing | notFound
      · rw [ownFile] at missing
        cases missing
      · rw [ownFile] at notFound
        exact of_decide_eq_false notFound
    rw [rewriteAuthorizedKeysWhenNeeded, if_pos converged, preparedLines, eq_comm,
      List.filter_eq_self]
    exact fun line mem => decide_eq_true fun same => noLine (same ▸ mem)
  · have staged : stageAuthorizedKeysContent params prepared =
        .ok (grepOtherLines (utf8Bytes params.key) content) := by
      rw [stageAuthorizedKeysContent, ownFile, stageScript, isAbsent]
      rfl
    rw [rewriteWhenNeeded_account converged, rewriteAuthorizedKeys, staged,
      ← fileLines_grepOtherLines]
    change (replaceAuthorizedKeysAtomically _ _ _ _).1.lines = _
    rw [replace_account, replace_writes rfl preparedWritable]
    exact lines_of_file safe rfl

theorem rewriteWhenNeeded_special {attributes : Attributes} {kind : Text}
    (isSpecial : account.keys = .special attributes kind) :
    (rewriteAuthorizedKeysWhenNeeded params primaryGroup account).1 = account := by
  by_cases converged : authorizedKeysApplyIsConverged params primaryGroup account = true
  · rw [rewriteAuthorizedKeysWhenNeeded, if_pos converged]
  · rw [rewriteWhenNeeded_account converged, rewriteAuthorizedKeys, stageAuthorizedKeysContent,
      isSpecial]
    rfl

/-- A successful apply takes the key out of the file. -/
theorem apply_absent_lines (isAbsent : params.state = .absent)
    (succeeded : (applyAuthorizedKeys params account).2.succeeded = true) :
    (applyAuthorizedKeys params account).1.lines =
      account.lines.filter (· ≠ utf8Bytes params.key) := by
  by_cases safe : isSafeAuthorizedKeysHome account.home = true
  · cases needed : absentAuthorizedKeysPathNeedsGuard account with
    | false =>
      have noFile (attributes : Attributes) (content : Buffer) :
          account.keys ≠ .file attributes content := fun isFile => by
        rw [absentAuthorizedKeysPathNeedsGuard, isFile] at needed
        cases needed
      rw [apply_absent_missing isAbsent needed, lines_of_noFile noFile]
      rfl
    | true =>
      have applied := apply_absent_needed isAbsent safe needed
      cases isDirectory : account.sshDirectory with
      | missing => simp [absentAuthorizedKeysPathNeedsGuard, Account.keys, isDirectory,
          KeysEntry.exists, KeysEntry.isSymlink] at needed
      | special => simp [absentAuthorizedKeysPathNeedsGuard, Account.keys, isDirectory,
          KeysEntry.exists, KeysEntry.isSymlink] at needed
      | symlink reaches keys =>
        rw [applied, ensureSshDirectoryAndAuthorizedKeysAreNotSymlinks, prepareScript,
          isDirectory] at succeeded
        cases succeeded
      | directory directoryAttributes keys =>
        have ownKeys : account.keys = keys := by rw [Account.keys, isDirectory]
        cases keys with
        | file attributes content => exact apply_absent_file isAbsent safe isDirectory
        | missing =>
          rw [absentAuthorizedKeysPathNeedsGuard, ownKeys] at needed
          cases needed
        | symlink reaches =>
          rw [applied, ensureSshDirectoryAndAuthorizedKeysAreNotSymlinks, prepareScript,
            isDirectory] at succeeded
          cases succeeded
        | special attributes kind =>
          rw [applied, ensureSshDirectoryAndAuthorizedKeysAreNotSymlinks, prepareScript,
            isDirectory]
          change (rewriteAuthorizedKeysWhenNeeded _ _ _).1.lines = _
          have noFile {other : Account} (same : other.keys = .special attributes kind) :
              other.lines = [] := lines_of_noFile fun _ _ isFile => by
            rw [same] at isFile
            cases isFile
          rw [rewriteWhenNeeded_special rfl, noFile rfl, noFile ownKeys]
          rfl
  · have noLines : account.lines = [] := by
      rw [Account.lines, Account.content, resolveHome, if_neg safe]
      rfl
    have applied : applyAuthorizedKeys params account = (account, .ok) := by
      unfold applyAuthorizedKeys
      rw [resolveHome, if_neg safe, isAbsent]
    rw [applied, noLines]
    rfl

/-! ### Every key -/

/-- What an operator expects of adding a key and of taking it out. -/
structure KeepsEveryKey (key user : Text) (account : Account) : Prop where
  /-- Adding the key leaves the lines before and the key, and check agrees. -/
  present : ∀ after result,
    applyAuthorizedKeys { key := key, state := .present, user := user } account = (after, result) →
    result.succeeded = true →
      after.lines = (if utf8Bytes key ∈ account.lines then account.lines
        else account.lines ++ [utf8Bytes key]) ∧
      checkAuthorizedKeys { key := key, state := .present, user := user } after = .ok
  /-- Taking the key out leaves the other lines. -/
  absent : ∀ after result,
    applyAuthorizedKeys { key := key, state := .absent, user := user } account = (after, result) →
    result.succeeded = true → after.lines = account.lines.filter (· ≠ utf8Bytes key)
  /-- Adding a new key and taking it out restores the lines. -/
  restored : ∀ between result after other,
    utf8Bytes key ∉ account.lines →
    applyAuthorizedKeys { key := key, state := .present, user := user } account =
      (between, result) → result.succeeded = true →
    applyAuthorizedKeys { key := key, state := .absent, user := user } between = (after, other) →
      after.lines = account.lines

theorem newline_notMem_utf8Bytes {value : Text} (oneLine : '\n' ∉ value) :
    NEWLINE ∉ utf8Bytes value := by
  intro mem
  obtain ⟨char, inValue, inBytes⟩ := List.mem_flatMap.1 mem
  have isNewline : char.toNat = NEWLINE.toNat := (ascii_of_mem_utf8EncodeChar (by decide) inBytes).1
  have isChar : char = '\n' := Char.toNat_inj.1 isNewline
  exact oneLine (isChar ▸ inValue)

section Lines

variable {key content : Buffer}

theorem lines_present_found (found : key ∈ fileLines NEWLINE content) :
    fileLines NEWLINE (presentContent key content) = fileLines NEWLINE content := by
  have isLine : grepLine key content = true := decide_eq_true found
  rw [presentContent, if_pos isLine]

theorem presentContent_of_new (new : key ∉ fileLines NEWLINE content) :
    presentContent key content = content ++ (key ++ [NEWLINE]) := by
  have noLine : ¬grepLine key content = true := by
    rw [grepLine, decide_eq_true_eq]
    exact new
  rw [presentContent, if_neg noLine, printLine]

/-- A terminated file gains the key as its last line. -/
theorem lines_present_terminated (oneLine : NEWLINE ∉ key)
    (terminated : Terminated NEWLINE content) (new : key ∉ fileLines NEWLINE content) :
    fileLines NEWLINE (presentContent key content) = fileLines NEWLINE content ++ [key] := by
  rw [presentContent_of_new new, fileLines_append_line terminated oneLine]

/-- In an unterminated file the key is glued to the last line. -/
theorem lines_present_glued (oneLine : NEWLINE ∉ key)
    (unterminated : ¬Terminated NEWLINE content) (new : key ∉ fileLines NEWLINE content) :
    (fileLines NEWLINE (presentContent key content)).length =
      (fileLines NEWLINE content).length := by
  obtain ⟨front, last, _, before, after⟩ := fileLines_append_glued unterminated oneLine
  rw [presentContent_of_new new, before, after, List.length_append, List.length_append]
  rfl

end Lines

/-- The keys are kept exactly where the last line of the file is terminated, the key is
there already, or a guard keeps apply from writing. -/
theorem keeps_every_key_iff {key : Text} (accepted : assertAuthorizedKeyValue key = .ok ())
    (user : Text) (account : Account) :
    KeepsEveryKey key user account ↔
      account.writable = false ∨ utf8Bytes key ∈ account.lines ∨
        Terminated NEWLINE account.content := by
  let adding : Parameters := { key := key, state := .present, user := user }
  let removing : Parameters := { key := key, state := .absent, user := user }
  obtain ⟨_, noBreak⟩ := oneLine_of_accepted accepted
  have oneLine : NEWLINE ∉ utf8Bytes key := newline_notMem_utf8Bytes noBreak
  constructor
  · intro keeps
    by_contra! fails
    obtain ⟨writable, new, unterminated⟩ := fails
    rw [ne_eq, Bool.not_eq_false] at writable
    obtain ⟨after, result, applied, succeeded, written, _⟩ :=
      @apply_present adding account rfl writable
    have safe := (Bool.and_eq_true_iff.1 writable).1
    have linesAfter := (keeps.present after result applied succeeded).1
    rw [if_neg new, Account.lines, written.content_eq safe] at linesAfter
    have lengths := lines_present_glued oneLine unterminated new
    rw [linesAfter, List.length_append] at lengths
    exact Nat.succ_ne_self _ lengths
  · intro condition
    have terminated (writable : account.writable = true) (new : utf8Bytes key ∉ account.lines) :
        Terminated NEWLINE account.content := by
      rcases condition with blocked | found | terminated
      · rw [blocked] at writable
        cases writable
      · exact absurd found new
      · exact terminated
    refine ⟨fun after result applied succeeded => ?_, fun after result applied succeeded => ?_,
      fun between result after other new applied succeeded removed => ?_⟩
    · obtain ⟨writable, written, valid⟩ :=
        @apply_present_succeeded adding _ _ _ rfl applied succeeded
      have safe := (Bool.and_eq_true_iff.1 writable).1
      have afterLines : after.lines =
          fileLines NEWLINE (presentContent (utf8Bytes key) account.content) := by
        rw [Account.lines, written.content_eq safe]
      have isExtended : after.lines = if utf8Bytes key ∈ account.lines then account.lines
          else account.lines ++ [utf8Bytes key] := by
        rw [afterLines]
        split
        next found => exact lines_present_found found
        next new =>
          exact lines_present_terminated oneLine (terminated writable new) new
      have inFile : utf8Bytes key ∈ after.lines := by
        rw [isExtended]
        split
        next found => exact found
        · exact List.mem_append_right _ (List.mem_singleton_self _)
      have found : after.keys.grepLine (utf8Bytes key) = true := by
        obtain ⟨_, _, isDirectory⟩ := written.file
        rw [afterLines] at inFile
        rw [Account.keys, isDirectory]
        exact decide_eq_true inFile
      exact ⟨isExtended, check_present_ok rfl (written.home ▸ safe) valid found⟩
    · have lines := @apply_absent_lines removing account rfl
      rw [applied] at lines
      exact lines succeeded
    · obtain ⟨writable, written, _⟩ :=
        @apply_present_succeeded adding _ _ _ rfl applied succeeded
      have safe := (Bool.and_eq_true_iff.1 writable).1
      have betweenLines : between.lines = account.lines ++ [utf8Bytes key] := by
        rw [Account.lines, written.content_eq safe]
        exact lines_present_terminated oneLine (terminated writable new) new
      obtain ⟨_, _, isDirectory⟩ := written.file
      have lines := @apply_absent_file removing between _ _ _ rfl (written.home ▸ safe)
        isDirectory
      rw [removed, betweenLines] at lines
      rw [lines, List.filter_append, List.filter_eq_self.2]
      · simp [removing]
      · exact fun line mem => decide_eq_true fun same => new (same ▸ mem)

/-- `ssh-ed25519` and the bytes from 0 to 31 -/
def serverKey : Text :=
  text "ssh-ed25519 AAAAC3NzaC1lZDI1NTE5AAAAIAABAgMEBQYHCAkKCwwNDg8QERITFBUWFxgZGhscHR4f"

/-- The account of `admin` with this `authorized_keys` -/
def adminAccount (content : Text) : Account where
  home := text "/home/admin"
  primaryGroup := some (text "admin\n")
  sshDirectory := .directory (ownedDirectory (text "admin") (text "admin"))
    (.file (ownedFile (text "admin") (text "admin")) (utf8Bytes content))

/-- A line of another key -/
def operatorLine : Text := text "ssh-rsa AAAAB3NzaC1yc2E operator"

theorem keeps_every_key_terminated :
    KeepsEveryKey serverKey (text "admin") (adminAccount (operatorLine ++ ['\n'])) :=
  (keeps_every_key_iff (by decide +kernel) (text "admin")
    (adminAccount (operatorLine ++ ['\n']))).2
    (.inr (.inr (by decide +kernel)))

/-- A file whose last line has no newline loses that line, and check misses the new one. -/
theorem unterminated_line_fused :
    assertAuthorizedKeyValue serverKey = .ok () ∧
      ¬∀ (key user : Text) (account : Account), assertAuthorizedKeyValue key = .ok () →
        KeepsEveryKey key user account := by
  have accepted : assertAuthorizedKeyValue serverKey = .ok () := by decide +kernel
  refine ⟨accepted, fun keeps => ?_⟩
  let adding : Parameters := { key := serverKey, state := .present, user := text "admin" }
  let account := adminAccount operatorLine
  have checked := ((keeps serverKey (text "admin") account accepted).present
    (applyAuthorizedKeys adding account).1 (applyAuthorizedKeys adding account).2 rfl
    (by decide +kernel)).2
  have missed : checkAuthorizedKeys adding (applyAuthorizedKeys adding account).1 = .needsApply := by
    decide +kernel
  rw [missed] at checked
  cases checked

end Paratix.Keys
