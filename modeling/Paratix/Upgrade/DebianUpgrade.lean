/-
Module: Paratix.Upgrade.DebianUpgrade
Purpose: The texts of apt sources, and the critical section of a Debian release upgrade over them.
Main exports: rewriteAptSourcesContent, runDebianUpgradeCriticalSection
-/
import Paratix.Archive.Member
import Paratix.Foundation.LinePattern
import Paratix.Foundation.Separator
import Paratix.Foundation.Words
import Mathlib.Logic.Function.Basic
import Paratix.Foundation.Lines
import Paratix.Foundation.Utf8

namespace Paratix.Upgrade

open Foundation Archive

/-! ### Suites -/

def RELEASE_DERIVED_SUITE_SUFFIXES : List Text :=
  [text "-updates", text "-security", text "-backports"]

/-- The release before a supported target -/
def DEBIAN_SUPPORTED_PREDECESSORS : List (Text × Text) :=
  [(text "bookworm", text "bullseye"), (text "bullseye", text "buster"),
    (text "buster", text "stretch"), (text "trixie", text "bookworm")]

def isSupportedDebianUpgradePath (currentCodename targetCodename : Text) : Bool :=
  DEBIAN_SUPPORTED_PREDECESSORS.lookup targetCodename = some currentCodename

def rewriteReleaseSuite (suite currentCodename targetCodename : Text) : Text :=
  if suite = currentCodename then targetCodename
  else
    match RELEASE_DERIVED_SUITE_SUFFIXES.find? fun suffix => suite = currentCodename ++ suffix with
    | some suffix => targetCodename ++ suffix
    | none => suite

/-! ### One-line sources -/

def isBlank (char : Char) : Bool := char = ' ' || char = '\t'

/-- A character of `[^ \t\r\n]` -/
def isFieldCharacter (char : Char) : Bool := !isBlank char && char ≠ '\r' && char ≠ '\n'

/-- At least one character of the class, as many as there are -/
def spanSome (isMember : Char → Bool) (value : Text) : Option (Text × Text) :=
  match value.takeWhile isMember with
  | [] => none
  | matched => some (matched, value.dropWhile isMember)

/-- `\[[^\]\r\n]*\][ \t]+` -/
def matchOptions (value : Text) : Option (Text × Text) :=
  match value with
  | '[' :: rest =>
      let isInside (char : Char) : Bool := char ≠ ']' && char ≠ '\r' && char ≠ '\n'
      match rest.dropWhile isInside with
      | ']' :: afterOptions =>
          (spanSome isBlank afterOptions).map fun (blanks, after) =>
            ('[' :: (rest.takeWhile isInside ++ ']' :: blanks), after)
      | _ => none
  | _ => none

/-- The text before the suite, the suite and what follows -/
def matchUriAndSuite (value : Text) : Option (Text × Text × Text) :=
  match spanSome isFieldCharacter value with
  | none => none
  | some (uri, afterUri) =>
      match spanSome isBlank afterUri with
      | none => none
      | some (blanks, afterBlanks) =>
          (spanSome isFieldCharacter afterBlanks).map fun (suite, after) =>
            (uri ++ blanks, suite, after)

/-- `deb` or `deb-src` with the blanks behind it -/
def matchKeyword (value : Text) : Option (Text × Text) :=
  let after (keyword : Text) : Option (Text × Text) :=
    if keyword.isPrefixOf value then
      (spanSome isBlank (value.drop keyword.length)).map fun (blanks, rest) =>
        (keyword ++ blanks, rest)
    else none
  (after (text "deb")).or (after (text "deb-src"))

/-- `APT_LIST_SUITE_PATTERN` at the start of a line: the options are tried first. -/
def matchAptListSuite (value : Text) : Option (Text × Text × Text) :=
  let indent := value.takeWhile isBlank
  match matchKeyword (value.dropWhile isBlank) with
  | none => none
  | some (keyword, afterKeyword) =>
      let withOptions : Option (Text × Text × Text) := match matchOptions afterKeyword with
        | none => none
        | some (options, afterOptions) =>
            (matchUriAndSuite afterOptions).map fun (front, suite, after) =>
              (options ++ front, suite, after)
      (withOptions.or (matchUriAndSuite afterKeyword)).map fun (front, suite, after) =>
        (indent ++ keyword ++ front, suite, after)

/-! ### deb822 sources -/

/-- Case folding, as far as the patterns of this module tell characters apart. -/
def foldCharacter (char : Char) : Char :=
  if char = 'É' then 'é'
  else if char = Char.ofNat 0x17f then 's'
  else if char = Char.ofNat 0x212a then 'k'
  else char.toLower

/-- `value.replaceAll(/\S+/gv, rewrite)`; the word read so far is in reverse. -/
def rewriteWordsFrom (rewrite : Text → Text) : Text → Text → Text
  | word, [] => if word = [] then [] else rewrite word.reverse
  | word, char :: rest =>
      if isJsSpace char then
        (if word = [] then [] else rewrite word.reverse) ++ char :: rewriteWordsFrom rewrite [] rest
      else rewriteWordsFrom rewrite (char :: word) rest

def rewriteWords (rewrite : Text → Text) (value : Text) : Text := rewriteWordsFrom rewrite [] value

def SUITES_FIELD : Text := text "Suites:"

/-- `DEB822_SUITES_LINE_PATTERN` at the start of a line: the suites and what follows -/
def matchSuitesLine (value : Text) : Option (Text × Text) :=
  let field := value.take SUITES_FIELD.length
  if field.map foldCharacter = SUITES_FIELD.map foldCharacter then
    let isInLine (char : Char) : Bool := char ≠ '\r' && char ≠ '\n'
    let rest := value.drop SUITES_FIELD.length
    some (rest.takeWhile isInLine, rest.dropWhile isInLine)
  else none

/-! ### Rewriting -/

/-- `value.replaceAll` of a pattern that starts with `^`: the pattern answers the replacement, the
last character of the match and what follows it. -/
def replaceLineStarts (pattern : Text → Option (Text × Option Char × Text)) :
    Nat → Bool → Text → Text
  | 0, _, value => value
  | fuel + 1, atStart, value =>
      match if atStart then pattern value else none with
      | some (replacement, last, after) =>
          replacement ++ replaceLineStarts pattern fuel (last.any isLineTerminator) after
      | none =>
          match value with
          | [] => []
          | char :: rest => char :: replaceLineStarts pattern fuel (isLineTerminator char) rest

def replaceAllLineStarts (pattern : Text → Option (Text × Option Char × Text)) (value : Text) :
    Text :=
  replaceLineStarts pattern (value.length + 1) true value

def rewriteAptSourcesContent (currentCodename originalContent remotePath targetCodename : Text) :
    Text :=
  let rewriteSuite (suite : Text) : Text :=
    rewriteReleaseSuite suite currentCodename targetCodename
  if text ".sources" <:+ remotePath then
    replaceAllLineStarts
      (fun value => (matchSuitesLine value).map fun (suites, after) =>
        (SUITES_FIELD ++ rewriteWords rewriteSuite suites,
          (text ":" ++ suites).getLast?, after))
      originalContent
  else
    replaceAllLineStarts
      (fun value => (matchAptListSuite value).map fun (front, suite, after) =>
        (front ++ rewriteSuite suite, suite.getLast?, after))
      originalContent

/-! ### Paths -/

def APT_SOURCES_LIST : Text := text "/etc/apt/sources.list"

def APT_SOURCES_LIST_DIRECTORY : Text := text "/etc/apt/sources.list.d/"

/-- The segments of a path that `posix.normalize` leaves -/
def normalizeSegments (allowAboveRoot : Bool) (segments : List Text) : List Text :=
  segments.foldl
    (fun kept segment =>
      if segment = [] ∨ segment = ['.'] then kept
      else if segment = ['.', '.'] then
        match kept.getLast? with
        | none => if allowAboveRoot then [['.', '.']] else []
        | some last => if last = ['.', '.'] then kept ++ [['.', '.']] else kept.dropLast
      else kept ++ [segment])
    []

/-- `posix.normalize` -/
def posixNormalize (path : Text) : Text :=
  if path = [] then ['.']
  else
    let isAbsolute : Bool := path.head? = some '/'
    let trailing := path.getLast? = some '/'
    let normalized := joinPath (normalizeSegments (!isAbsolute) (splitPath path))
    if normalized = [] then
      if isAbsolute then ['/'] else if trailing then text "./" else ['.']
    else
      (if isAbsolute then ['/'] else []) ++ normalized ++ (if trailing then ['/'] else [])

def isAcceptableSourcesPath (filePath : Text) : Bool :=
  if filePath.any fun char => char.toNat < 0x20 || char.toNat = 0x7f then false
  else if filePath.getLast? = some '/' then false
  else
    let normalizedPath := posixNormalize filePath
    if normalizedPath.length ≤ APT_SOURCES_LIST_DIRECTORY.length then false
    else APT_SOURCES_LIST_DIRECTORY.isPrefixOf normalizedPath

theorem sourcesList_unacceptable : isAcceptableSourcesPath APT_SOURCES_LIST = false := by
  decide +kernel

/-! ### Errors and modes -/

/-- An error that was thrown. -/
structure ThrownError where
  code : Option Text
  message : Text
deriving DecidableEq

/-- The alternatives of `VANISHED_SOURCES_FILE_PATTERN` -/
def VANISHED_SOURCES_FILE_PATTERN : List Text :=
  [text "no such file", text "enoent", text "cannot stat", text "cannot open",
    text "datei oder verzeichnis nicht gefunden", text "fichier ou repertoire",
    text "fichier ou répertoire"]

def mentionsVanishedFile (message : Text) : Bool :=
  VANISHED_SOURCES_FILE_PATTERN.any fun alternative =>
    (cutFirst alternative (message.map foldCharacter)).isSome

def isVanishedSourcesFileError (error : ThrownError) : Bool :=
  error.code = some (text "ENOENT") || mentionsVanishedFile error.message

def wrapMissingSourcesFileError (error : ThrownError) : ThrownError :=
  if error.code = some (text "ENOENT") then error
  else if mentionsVanishedFile error.message = false then error
  else { error with code := some (text "ENOENT") }

def APT_SOURCES_DEFAULT_MODE : Text := text "0644"

def OCTAL_MODE_LENGTH_WITHOUT_LEADING_ZERO : Nat := 3

def normalizeSourcesFileMode (raw : Text) : Text :=
  if raw = [] then APT_SOURCES_DEFAULT_MODE
  else if raw.length = OCTAL_MODE_LENGTH_WITHOUT_LEADING_ZERO then '0' :: raw
  else raw

/-- `int(mode, 8)` of the writer -/
def octalMode (mode : Text) : Nat := Nat.ofDigitChars 8 mode 0

theorem octalMode_normalize {raw : Text} (nonempty : raw ≠ []) :
    octalMode (normalizeSourcesFileMode raw) = octalMode raw := by
  unfold normalizeSourcesFileMode
  rw [if_neg nonempty]
  split
  · rw [octalMode, Nat.ofDigitChars_cons]
    rfl
  · rfl

/-- What `stat -c '%a'` prints -/
def statOutput (mode : Nat) : Text := Nat.toDigits 8 mode ++ ['\n']

/-! ### Files -/

structure SourcesFile where
  content : List UInt8
  mode : Nat
deriving DecidableEq

inductive SourcesEntry where
  | file (file : SourcesFile)
  | symlink
deriving DecidableEq

/-- What stands at each path -/
abbrev SourcesFiles := Text → Option SourcesEntry

/-! ### Captured output -/

def DEFAULT_MAX_OUTPUT_BYTES : Nat := 1048576

def CAPTURE_TRUNCATION_MARKER : Text := text "\n[output truncated]"

def fitUtf8Prefix : Nat → Text → Text
  | _, [] => []
  | maxBytes, char :: rest =>
      if maxBytes < (String.utf8EncodeChar char).length then []
      else char :: fitUtf8Prefix (maxBytes - (String.utf8EncodeChar char).length) rest

/-- What a captured stream keeps of its text -/
def capturedOutput (output : Text) : Text :=
  if (utf8Bytes output).length ≤ DEFAULT_MAX_OUTPUT_BYTES then output
  else fitUtf8Prefix DEFAULT_MAX_OUTPUT_BYTES output ++ CAPTURE_TRUNCATION_MARKER

/-! ### Outcomes of remote steps -/

def SOURCES_FILE_SYMLINK_EXIT_CODE : Nat := 200

def SOURCES_FILE_WRITE_SYMLINK_EXIT_CODE : Nat := 201

def SOURCES_FILE_WRITE_CHMOD_EXIT_CODE : Nat := 202

/-- An exit code that reports a failure -/
abbrev FailureCode := { code : Nat // code ≠ 0 }

/-- A failure of the writer that does not mean that it refused a symbolic link -/
abbrev WriteFailureCode :=
  { code : Nat // code ≠ 0 ∧ code ≠ SOURCES_FILE_WRITE_SYMLINK_EXIT_CODE }

inductive ReadOutcome where
  | completed
  | failed (code : FailureCode) (stderr : Text)
  | threw (error : ThrownError)

inductive StatOutcome where
  | completed
  | failed
  | threw (error : ThrownError)

/-- A write that does not succeed may leave anything in its file. -/
inductive WriteOutcome where
  | succeeded
  | refused
  | failed (code : WriteFailureCode) (stderr : Text) (left : SourcesFile)
  | threw (error : ThrownError) (left : SourcesFile)

/-- The steps on one file; a file is visited at most once. -/
structure FileScript where
  read : ReadOutcome
  stat : StatOutcome
  reread : ReadOutcome
  write : WriteOutcome

/-- The paths that `find -print0` lists: each one once. -/
abbrev Listing := { paths : List Text // paths.Nodup ∧ ∀ path ∈ paths, '\x00' ∉ path }

inductive EnumerationOutcome where
  | listed (listing : Listing)
  | failed
  | threw (error : ThrownError)

inductive CommandOutcome where
  | succeeded
  | failed
  | threw (error : ThrownError)

structure UpgradeScript where
  /-- `readDebianCurrentCodename`: it throws, fails or answers. -/
  codename : Except ThrownError (Except Text Text)
  sourcesListExists : Except ThrownError Bool
  enumeration : EnumerationOutcome
  files : Text → FileScript
  update : CommandOutcome
  configure : CommandOutcome
  fullUpgrade : CommandOutcome
  autoremove : CommandOutcome
  /-- `apt-get update` after a rollback -/
  refresh : CommandOutcome
  /-- Whether `buildRebootMeta` answers entries -/
  rebootMeta : Except Text Unit

/-! ### Reading -/

section Read

variable (decode : List UInt8 → Text)

/-- What the exec of a read of the file captures -/
def capturedContent (file : SourcesFile) : Text := capturedOutput (decode file.content)

def readSourcesFileNoFollow (files : SourcesFiles) (remotePath : Text) (outcome : ReadOutcome) :
    Except ThrownError (Option Text) :=
  let exitedWith (code : Nat) (stderr : Text) : Except ThrownError (Option Text) :=
    if code = SOURCES_FILE_SYMLINK_EXIT_CODE then .ok none
    else
      let decorated := wrapMissingSourcesFileError {
        code := none
        message := text "reading " ++ remotePath ++ text " failed (exit code " ++
          Nat.toDigits 10 code ++ text "): " ++ stderr }
      if isVanishedSourcesFileError decorated then .ok none else .error decorated
  match outcome with
  | .threw error => .error error
  | .failed code stderr => exitedWith code stderr
  | .completed =>
      match files remotePath with
      | some (.file file) => .ok (some (capturedContent decode file))
      | some .symlink => exitedWith SOURCES_FILE_SYMLINK_EXIT_CODE []
      | none =>
          exitedWith 1
            (text "dd: failed to open '" ++ remotePath ++ text "': No such file or directory")

end Read

def readSourcesFileMode (files : SourcesFiles) (path : Text) (outcome : StatOutcome) :
    Except ThrownError Text :=
  match outcome with
  | .threw error => .error error
  | .failed => .ok APT_SOURCES_DEFAULT_MODE
  | .completed =>
      match files path with
      | some (.file file) => .ok (normalizeSourcesFileMode (trim (statOutput file.mode)))
      | some .symlink => .ok (normalizeSourcesFileMode (trim (statOutput 0o777)))
      | none => .ok APT_SOURCES_DEFAULT_MODE

/-! ### Writing -/

structure SourcesSnapshot where
  mode : Text
  originalContent : Text
  remotePath : Text
deriving DecidableEq

inductive WriteError where
  /-- `SourcesWriteCommandError` -/
  | command (message : Text) (mayHaveMutated : Bool)
  | thrown (error : ThrownError)

def WriteError.toThrown : WriteError → ThrownError
  | .command message _ => { code := none, message := message }
  | .thrown error => error

/-- What the writer leaves when it succeeds -/
def writtenFile (content mode : Text) : SourcesFile :=
  { content := utf8Bytes content, mode := octalMode mode }

def orNoStderr (stderr : Text) : Text :=
  if trim stderr = [] then text "no stderr" else trim stderr

def writeSourcesFileNoFollow (content mode remotePath : Text) (outcome : WriteOutcome)
    (files : SourcesFiles) : SourcesFiles × Option WriteError :=
  let after (file : SourcesFile) : SourcesFiles :=
    Function.update files remotePath (some (.file file))
  match outcome with
  | .succeeded => (after (writtenFile content mode), none)
  | .refused =>
      (files, some (.command (text "writing " ++ remotePath ++
        text " refused: path is a symbolic link (NOFOLLOW guard)") false))
  | .failed code stderr left =>
      let message :=
        if code.1 = SOURCES_FILE_WRITE_CHMOD_EXIT_CODE then
          text "writing " ++ remotePath ++ text " succeeded but chmod to " ++ mode ++
            text " failed: " ++ orNoStderr stderr
        else
          text "writing " ++ remotePath ++ text " failed (exit code " ++ Nat.toDigits 10 code.1 ++
            text "): " ++ orNoStderr stderr
      (after left, some (.command message true))
  | .threw error left => (after left, some (.thrown error))

structure UpgradeState where
  files : SourcesFiles
  snapshots : List SourcesSnapshot

/-- The snapshot is taken back unless the write is known to be one that may have mutated. -/
def writeSourcesFileWithRegisteredSnapshot (content : Text) (snapshot : SourcesSnapshot)
    (outcome : WriteOutcome) (state : UpgradeState) : UpgradeState × Except ThrownError Unit :=
  let (files, error) :=
    writeSourcesFileNoFollow content snapshot.mode snapshot.remotePath outcome state.files
  let registered := state.snapshots ++ [snapshot]
  match error with
  | none => ({ files := files, snapshots := registered }, .ok ())
  | some (.command message true) =>
      ({ files := files, snapshots := registered },
        .error (WriteError.command message true).toThrown)
  | some error => ({ files := files, snapshots := state.snapshots }, .error error.toThrown)

/-! ### One file -/

section Rewrite

variable (decode : List UInt8 → Text) (currentCodename targetCodename : Text)

def concurrentModification (remotePath : Text) : ThrownError where
  code := none
  message := text "Concurrent modification detected on " ++ remotePath ++
    text ": file content changed between read and write. Aborting to prevent data loss."

def rewriteSourcesFile (originalContent remotePath : Text) (script : FileScript)
    (state : UpgradeState) : UpgradeState × Except ThrownError Unit :=
  let updatedContent :=
    rewriteAptSourcesContent currentCodename originalContent remotePath targetCodename
  if updatedContent = originalContent then (state, .ok ())
  else
    match readSourcesFileMode state.files remotePath script.stat with
    | .error error => (state, .error error)
    | .ok mode =>
        match readSourcesFileNoFollow decode state.files remotePath script.reread with
        | .error error => (state, .error error)
        | .ok none => (state, .ok ())
        | .ok (some currentContent) =>
            if currentContent ≠ originalContent then
              (state, .error (concurrentModification remotePath))
            else
              writeSourcesFileWithRegisteredSnapshot updatedContent
                { mode := mode, originalContent := originalContent, remotePath := remotePath }
                script.write state

/-- The `try` block of `snapshotSourcesFileSafely` -/
def snapshotSourcesFile (remotePath : Text) (script : FileScript) (state : UpgradeState) :
    UpgradeState × Except ThrownError Unit :=
  match readSourcesFileNoFollow decode state.files remotePath script.read with
  | .error error => (state, .error error)
  | .ok none => (state, .ok ())
  | .ok (some originalContent) =>
      rewriteSourcesFile decode currentCodename targetCodename originalContent remotePath script
        state

/-- Its `catch` block: a vanished file is skipped. -/
def skipVanished : Except ThrownError Unit → Except ThrownError Unit
  | .ok () => .ok ()
  | .error error =>
      let decorated := wrapMissingSourcesFileError error
      if isVanishedSourcesFileError decorated then .ok () else .error decorated

def snapshotSourcesFileSafely (remotePath : Text) (script : FileScript) (state : UpgradeState) :
    UpgradeState × Except ThrownError Unit :=
  let (after, result) :=
    snapshotSourcesFile decode currentCodename targetCodename remotePath script state
  (after, skipVanished result)

def snapshotEnumeratedSourcesFile (filePath : Text) (script : FileScript) (state : UpgradeState) :
    UpgradeState × Except ThrownError Unit :=
  if filePath = [] || !isAcceptableSourcesPath filePath then (state, .ok ())
  else snapshotSourcesFileSafely decode currentCodename targetCodename filePath script state

/-! ### All files -/

def snapshotEnumeratedSourcesFiles (scripts : Text → FileScript) :
    List Text → UpgradeState → UpgradeState × Except ThrownError Unit
  | [], state => (state, .ok ())
  | filePath :: rest, state =>
      match snapshotEnumeratedSourcesFile decode currentCodename targetCodename filePath
          (scripts filePath) state with
      | (after, .error error) => (after, .error error)
      | (after, .ok ()) => snapshotEnumeratedSourcesFiles scripts rest after

def enumerationFailed : ThrownError where
  code := none
  message := text "[releaseUpgrade.upgrade] failed to enumerate /etc/apt/sources.list.d"

/-- `find -print0` ends each path with a NUL. -/
def Listing.stdout (listing : Listing) : Text := fileText '\x00' listing.1

def enumerateSourcesFiles (script : UpgradeScript) (state : UpgradeState) :
    UpgradeState × Except ThrownError Unit :=
  match script.enumeration with
  | .threw error => (state, .error error)
  | .failed => (state, .error enumerationFailed)
  | .listed listing =>
      if listing.stdout = [] then (state, .ok ())
      else
        snapshotEnumeratedSourcesFiles decode currentCodename targetCodename script.files
          (listing.stdout.splitOn '\x00') state

def replaceCodenameInSourcesList (script : UpgradeScript) (state : UpgradeState) :
    UpgradeState × Except ThrownError Unit :=
  match script.sourcesListExists with
  | .error error => (state, .error error)
  | .ok false => enumerateSourcesFiles decode currentCodename targetCodename script state
  | .ok true =>
      match snapshotSourcesFileSafely decode currentCodename targetCodename APT_SOURCES_LIST
          (script.files APT_SOURCES_LIST) state with
      | (after, .error error) => (after, .error error)
      | (after, .ok ()) => enumerateSourcesFiles decode currentCodename targetCodename script after

end Rewrite

/-! ### Rollback and pipeline -/

/-- The rollback, each write of which succeeds. -/
def restoreSourcesSnapshots (files : SourcesFiles) (snapshots : List SourcesSnapshot) :
    SourcesFiles :=
  snapshots.foldl
    (fun files snapshot =>
      (writeSourcesFileNoFollow snapshot.originalContent snapshot.mode snapshot.remotePath
        .succeeded files).1)
    files

inductive UpgradeResult where
  | ok
  | changed
  | failed (message : Text)
  | threw (error : ThrownError)
deriving DecidableEq

/-- How the critical section ends, and whether all four apt steps succeeded. -/
structure UpgradeEnd where
  files : SourcesFiles
  aptSucceeded : Bool
  result : UpgradeResult

def runReleaseUpgradeCommand (failureMessage : Text) (outcome : CommandOutcome) :
    Except ThrownError (Option Text) :=
  match outcome with
  | .succeeded => .ok none
  | .failed => .ok (some failureMessage)
  | .threw error => .error error

/-- The first failure of the four steps -/
def runDebianUpgradePipeline (script : UpgradeScript) : Except ThrownError (Option Text) :=
  let andThen (first next : Except ThrownError (Option Text)) : Except ThrownError (Option Text) :=
    match first with
    | .ok none => next
    | other => other
  andThen
    (runReleaseUpgradeCommand (text "[releaseUpgrade.upgrade] apt-get update failed") script.update)
    (andThen
      (runReleaseUpgradeCommand (text "[releaseUpgrade.upgrade] dpkg --configure -a failed")
        script.configure)
      (andThen
        (runReleaseUpgradeCommand (text "[releaseUpgrade.upgrade] apt-get full-upgrade failed")
          script.fullUpgrade)
        (runReleaseUpgradeCommand (text "[releaseUpgrade.upgrade] apt-get autoremove failed")
          script.autoremove)))

def handleDebianPipelineFailure (pipelineFailure : Text) (script : UpgradeScript)
    (state : UpgradeState) : UpgradeEnd where
  files := restoreSourcesSnapshots state.files state.snapshots
  aptSucceeded := false
  result :=
    match script.refresh with
    | .succeeded => .failed pipelineFailure
    | .failed =>
        .failed (pipelineFailure ++
          text "\nrollback succeeded but [releaseUpgrade.upgrade] apt-get update on restored sources failed")
    | .threw error => .threw error

def runDebianAptPipelineAfterSourcesRewrite (script : UpgradeScript) (state : UpgradeState) :
    UpgradeEnd :=
  match runDebianUpgradePipeline script with
  | .error error =>
      handleDebianPipelineFailure
        (text "[releaseUpgrade.upgrade] apt pipeline failed: " ++ error.message) script state
  | .ok (some pipelineFailure) => handleDebianPipelineFailure pipelineFailure script state
  | .ok none =>
      { files := state.files
        aptSucceeded := true
        result :=
          match script.rebootMeta with
          | .ok () => .changed
          | .error message => .failed message }

def failAfterSourcesRewriteError (error : ThrownError) (state : UpgradeState) : UpgradeEnd where
  files := restoreSourcesSnapshots state.files state.snapshots
  aptSucceeded := false
  result := .failed (text "[releaseUpgrade.upgrade] sources rewrite failed: " ++ error.message)

def runDebianUpgradeCriticalSection (decode : List UInt8 → Text) (targetCodename : Text)
    (script : UpgradeScript) (files : SourcesFiles) : UpgradeEnd :=
  match script.codename with
  | .error error => { files := files, aptSucceeded := false, result := .threw error }
  | .ok (.error message) => { files := files, aptSucceeded := false, result := .failed message }
  | .ok (.ok currentCodename) =>
      if currentCodename = targetCodename then
        { files := files, aptSucceeded := false, result := .ok }
      else if isSupportedDebianUpgradePath currentCodename targetCodename = false then
        { files := files
          aptSucceeded := false
          result := .failed (text "[releaseUpgrade.upgrade] unsupported Debian release upgrade path: " ++
            currentCodename ++ text " -> " ++ targetCodename) }
      else
        match replaceCodenameInSourcesList decode currentCodename targetCodename script
            { files := files, snapshots := [] } with
        | (state, .error error) => failAfterSourcesRewriteError error state
        | (state, .ok ()) => runDebianAptPipelineAfterSourcesRewrite script state

end Paratix.Upgrade
