/-
Module: Paratix.Mount.FstabExact
Purpose: Mount option texts and the entries of `/etc/fstab`; when setting and removing an entry
  touches no other line, and how long the file gets over any number of runs.
Main exports: removePersistedMountIfPresent, fstabEdits_exact_iff
-/
import Mathlib.Algebra.Group.Nat.Defs
import Paratix.Foundation.LinePattern
import Paratix.Foundation.Settings
import Paratix.Foundation.Words
import Paratix.Foundation.LineEdit
import Paratix.Foundation.Lines

namespace Paratix.Mount

open Foundation

abbrev Text := List Char

/- `text.toLowerCase()` -/
variable (toLowerCase : Text → Text)

/-! ### Tokens -/

/-- `[kmgtp]` under the flags `i` and `v`, where the Kelvin sign folds to `k` -/
def isSizeUnit (char : Char) : Bool :=
  char ∈ "kmgtpKMGTP".toList || char.toNat = 0x212a

/-- A letter that stands in a pattern with `?` -/
def dropOptional (letters text : Text) : Text :=
  match text with
  | [] => []
  | head :: rest => if head ∈ letters then rest else text

def SIZE_UNITS : List Text :=
  ["".toList, "k".toList, "m".toList, "g".toList, "t".toList, "p".toList]

/-- `/^(?<amount>\d+)(?<unit>[kmgtp]?)i?b?$/iv` and the number of bytes it names -/
def normalizeSizeValue (value : Text) : Option Text :=
  let amount := value.takeWhile Char.isDigit
  let afterAmount := value.dropWhile Char.isDigit
  let unit := (afterAmount.take 1).takeWhile isSizeUnit
  let afterUnit := afterAmount.drop unit.length
  if amount = [] ∨ dropOptional "bB".toList (dropOptional "iI".toList afterUnit) ≠ [] then none
  else
    (SIZE_UNITS.idxOf? (toLowerCase unit)).map fun exponent =>
      decimal (Nat.ofDigitChars 10 amount 0 * 1024 ^ exponent)

def normalizeOption (option : Text) : Text :=
  let separatorIndex := option.idxOf '='
  if separatorIndex = option.length then toLowerCase option
  else
    let key := toLowerCase (option.take separatorIndex)
    let value := option.drop (separatorIndex + 1)
    let normalizedSize := if key = "size".toList then normalizeSizeValue toLowerCase value else none
    key ++ '=' :: normalizedSize.getD value

def optionTokens (options : Text) : List Text :=
  (((options.splitOn ',').map trim).filter fun option => !option.isEmpty).map
    (normalizeOption toLowerCase)

/-! ### Per-mount flags -/

inductive VfsFlagDimension where
  | access
  | suid
  | dev
  | exec
  | atime
  | nodiratime
  | nosymfollow
deriving DecidableEq, Repr

/-- The dimensions in canonical order. -/
def VFS_FLAG_DIMENSIONS : List VfsFlagDimension :=
  [.access, .suid, .dev, .exec, .atime, .nodiratime, .nosymfollow]

abbrev VfsFlagState := List (VfsFlagDimension × Text)

/-- Every other option is ignored by the bind comparison. -/
def VFS_FLAG_TOKENS : List (Text × (VfsFlagDimension × Text)) :=
  [("dev".toList, .dev, "dev".toList),
   ("diratime".toList, .nodiratime, "diratime".toList),
   ("exec".toList, .exec, "exec".toList),
   ("noatime".toList, .atime, "noatime".toList),
   ("nodev".toList, .dev, "nodev".toList),
   ("nodiratime".toList, .nodiratime, "nodiratime".toList),
   ("noexec".toList, .exec, "noexec".toList),
   ("norelatime".toList, .atime, "strictatime".toList),
   ("nosuid".toList, .suid, "nosuid".toList),
   ("nosymfollow".toList, .nosymfollow, "nosymfollow".toList),
   ("relatime".toList, .atime, "relatime".toList),
   ("ro".toList, .access, "ro".toList),
   ("rw".toList, .access, "rw".toList),
   ("strictatime".toList, .atime, "strictatime".toList),
   ("suid".toList, .suid, "suid".toList),
   ("symfollow".toList, .nosymfollow, "symfollow".toList)]

/-- `VFS_FLAG_TOKENS.get(option)` -/
def vfsFlagOf (option : Text) : Option (VfsFlagDimension × Text) := VFS_FLAG_TOKENS.lookup option

/-- Later tokens override earlier ones in the same dimension; dimensions that no token
names stay absent. -/
def explicitVfsFlags (opts : Text) : VfsFlagState :=
  recorded vfsFlagOf (optionTokens toLowerCase opts)

/-- `live.has(setToken) ? setToken : unsetToken` -/
def pick (live : List Text) (setToken unsetToken : Text) : Text :=
  if live.contains setToken then setToken else unsetToken

/-- The atime state that the live options show; `strictatime` shows as neither. -/
def liveAtime (live : List Text) : Text :=
  if live.contains "noatime".toList then "noatime".toList
  else if live.contains "relatime".toList then "relatime".toList
  else "strictatime".toList

/-- The flags that findmnt's VFS-OPTIONS column shows. -/
def liveVfsFlags (vfsOptions : Text) : VfsFlagState :=
  let live := optionTokens toLowerCase vfsOptions
  [(.access, pick live "ro".toList "rw".toList),
   (.atime, liveAtime live),
   (.dev, pick live "nodev".toList "dev".toList),
   (.exec, pick live "noexec".toList "exec".toList),
   (.nodiratime, pick live "nodiratime".toList "diratime".toList),
   (.nosymfollow, pick live "nosymfollow".toList "symfollow".toList),
   (.suid, pick live "nosuid".toList "suid".toList)]

def bindVfsFlagsMatch (liveVfsOptions desiredOpts : Text) : Bool :=
  let live := liveVfsFlags toLowerCase liveVfsOptions
  (explicitVfsFlags toLowerCase desiredOpts).all fun flag => live.lookup flag.1 == some flag.2

/-! ### The flags of the remounts -/

/-- The token of one dimension; `symfollow` is left out where it holds already. -/
def renderVfsFlag (target current : VfsFlagState) (dimension : VfsFlagDimension) : List Text :=
  match target.lookup dimension with
  | none => []
  | some flag =>
      if flag = "symfollow".toList ∧ current.lookup dimension = some "symfollow".toList then []
      else [flag]

def renderVfsFlagState (target current : VfsFlagState) : Text :=
  [','].intercalate (VFS_FLAG_DIMENSIONS.flatMap (renderVfsFlag target current))

def overrideVfsFlags (base overrides : VfsFlagState) : VfsFlagState :=
  overrides.foldl (fun result flag => mapSet result flag.1 flag.2) base

def renderBindRemountVfsFlags (liveVfsOptions desiredOpts : Text) : Text :=
  let live := liveVfsFlags toLowerCase liveVfsOptions
  renderVfsFlagState (overrideVfsFlags live (explicitVfsFlags toLowerCase desiredOpts)) live

def renderBindRollbackVfsFlags (previousVfsOptions appliedOpts : Text) : Text :=
  let previous := liveVfsFlags toLowerCase previousVfsOptions
  renderVfsFlagState previous
    (overrideVfsFlags previous (explicitVfsFlags toLowerCase appliedOpts))

/-! ### Entries -/

structure MountEntry where
  src : Text
  path : Text
  fstype : Text
  opts : Text
deriving DecidableEq, Repr

/-- The error of a field that is not accepted. -/
def validateFstabField (caller fieldName value : Text) : Except Text Unit :=
  if value = [] then
    .error (caller ++ ": ".toList ++ fieldName ++ " fstab field must not be empty".toList)
  else if fieldName = "src".toList ∧ value.head? = some '-' then
    .error (caller ++ ": ".toList ++ fieldName ++ " fstab field must not start with '-'".toList)
  else if value.any isJsSpace then
    .error (caller ++ ": ".toList ++ fieldName ++
      " fstab field must not contain whitespace".toList)
  else .ok ()

/-- The segments that `posix.normalize` keeps of an absolute path. -/
def normalizedSegments (segments : List Text) : List Text :=
  segments.foldl (fun kept segment =>
    if segment = [] ∨ segment = ['.'] then kept
    else if segment = ['.', '.'] then kept.dropLast
    else kept ++ [segment]) []

/-- `posix.normalize(path)` of an absolute path -/
def normalizeAbsolute (path : Text) : Text :=
  let kept := normalizedSegments (path.splitOn '/')
  if kept = [] then ['/']
  else kept.flatMap ('/' :: ·) ++ if path.getLast? = some '/' then ['/'] else []

/-- What `validateMountPath` lets through. -/
def isMountPath (path : Text) : Bool :=
  path ≠ [] && !path.any isJsSpace && path.head? = some '/' && path = normalizeAbsolute path &&
    path ≠ ['/']

def MOUNT_PRESENT : Text := "mount.present".toList

/-- `mount.present` takes the entry. -/
def Accepted (entry : MountEntry) : Prop :=
  isMountPath entry.path = true ∧
    validateFstabField MOUNT_PRESENT "src".toList entry.src = .ok () ∧
    validateFstabField MOUNT_PRESENT "fstype".toList entry.fstype = .ok () ∧
    validateFstabField MOUNT_PRESENT "opts".toList entry.opts = .ok ()

def buildFstabLine (entry : MountEntry) : Text :=
  entry.src ++ ' ' :: entry.path ++ ' ' :: entry.fstype ++ ' ' :: entry.opts ++ " 0 0".toList

/-! ### Lines of the file -/

/-- Blank lines and comments have no fields. -/
def isFstabEntry (fieldIndex : Nat) (path line : Text) : Bool :=
  let trimmed := trim line
  if trimmed = [] ∨ trimmed.head? = some '#' then false
  else (splitSpaces trimmed)[fieldIndex]? = some path

def isBlankLine (line : Text) : Bool := (trim line).isEmpty

/-- `${lines.join("\n")}\n` -/
def joinFstab (lines : List Text) : Text := ['\n'].intercalate lines ++ ['\n']

def findEntryAt (fieldIndex : Nat) (fstabContent path : Text) : Option Text :=
  ((fstabContent.splitOn '\n').find? (isFstabEntry fieldIndex path)).map trim

def upsertEntryAt (fieldIndex : Nat) (fstabContent path newLine : Text) : Text :=
  joinFstab (upsertLine (isFstabEntry fieldIndex path) isBlankLine newLine
    (fstabContent.splitOn '\n'))

def removeEntryAt (fieldIndex : Nat) (fstabContent path : Text) : Text :=
  joinFstab ((fstabContent.splitOn '\n').filter fun line => !isFstabEntry fieldIndex path line)

/-- What is written for an entry that must be there; `none` leaves the file alone. -/
def ensureEntryAt (fieldIndex : Nat) (fstabContent path desiredLine : Text) : Option Text :=
  if findEntryAt fieldIndex fstabContent path = some desiredLine then none
  else some (upsertEntryAt fieldIndex fstabContent path desiredLine)

/-- What is written for an entry that must not be there; `none` leaves the file alone. -/
def removeEntryIfPresentAt (fieldIndex : Nat) (fstabContent path : Text) : Option Text :=
  if findEntryAt fieldIndex fstabContent path = none then none
  else some (removeEntryAt fieldIndex fstabContent path)

/-! ### Mounts are found by their second field -/

def findFstabEntry (fstabContent path : Text) : Option Text := findEntryAt 1 fstabContent path

def upsertFstabEntry (fstabContent path newLine : Text) : Text :=
  upsertEntryAt 1 fstabContent path newLine

def removeFstabEntry (fstabContent path : Text) : Text := removeEntryAt 1 fstabContent path

def ensureFstabEntry (fstabContent path desiredLine : Text) : Option Text :=
  ensureEntryAt 1 fstabContent path desiredLine

def removePersistedMountIfPresent (fstabContent path : Text) : Option Text :=
  removeEntryIfPresentAt 1 fstabContent path

/-! ### Swap files are found by their first field -/

namespace Swap

def findFstabEntry (fstabContent path : Text) : Option Text := findEntryAt 0 fstabContent path

def upsertFstabEntry (fstabContent path newLine : Text) : Text :=
  upsertEntryAt 0 fstabContent path newLine

def removeFstabEntry (fstabContent path : Text) : Text := removeEntryAt 0 fstabContent path

/-- No desired line asks for the entry's removal. -/
def ensureSwapFstabState (fstabContent path : Text) (desiredLine : Option Text) : Option Text :=
  match desiredLine with
  | none => removeEntryIfPresentAt 0 fstabContent path
  | some desiredLine => ensureEntryAt 0 fstabContent path desiredLine

/-- What `validateSwapFilePath` lets through. -/
def isSwapPath (path : Text) : Bool :=
  path ≠ [] && !path.any isJsSpace && path.head? = some '/' && path ≠ ['/'] &&
    path = normalizeAbsolute path

/-- `String(priority)` -/
def priorityText (priority : Int) : Text :=
  if priority < 0 then '-' :: decimal priority.natAbs else decimal priority.natAbs

def swapOptions : Option Int → Text
  | none => "sw".toList
  | some priority => "sw,pri=".toList ++ priorityText priority

def buildSwapFstabLine (path : Text) (priority : Option Int) : Text :=
  path ++ " none swap ".toList ++ swapOptions priority ++ " 0 0".toList

end Swap

/-! ### What the edits promise -/

/-- The lines of the file. -/
def fstabLines (content : Text) : List Text := fileLines '\n' content

inductive FstabEdit where
  | present
  | absent
deriving DecidableEq, Repr

/-- The file after one run that wants the entry or wants it gone. -/
def runEdit (index : Nat) (path line content : Text) : FstabEdit → Text
  | .present => (ensureEntryAt index content path line).getD content
  | .absent => (removeEntryIfPresentAt index content path).getD content

def runEdits (index : Nat) (path line content : Text) (edits : List FstabEdit) : Text :=
  edits.foldl (runEdit index path line) content

/-- `after` is `before` with the entry added or put in the place of an old entry. -/
def KeepsOthers (index : Nat) (path line : Text) (before after : List Text) : Prop :=
  ∃ front new back, trim new = line ∧ after = front ++ new :: back ∧
    (before = front ++ back ∨
      ∃ old, isFstabEntry index path old = true ∧ before = front ++ old :: back)

/-- The entry is found and every other line is where it was. -/
def PresentExact (index : Nat) (path line content : Text) : Prop :=
  findEntryAt index (runEdit index path line content .present) path = some line ∧
    KeepsOthers index path line (fstabLines content)
      (fstabLines (runEdit index path line content .present))

/-- No entry is found and exactly the other lines are left. -/
def AbsentExact (index : Nat) (path line content : Text) : Prop :=
  findEntryAt index (runEdit index path line content .absent) path = none ∧
    fstabLines (runEdit index path line content .absent) =
      entryFree (isFstabEntry index path) (fstabLines content)

/-- No sequence of runs leaves more lines than one run does. -/
def NeverLonger (index : Nat) (path line content : Text) : Prop :=
  ∀ edits, (fstabLines (runEdits index path line content edits)).length ≤
    max (fstabLines (runEdit index path line content .present)).length
      (fstabLines (runEdit index path line content .absent)).length

/-- The last line of the file is blank. -/
def EndsBlank (content : Text) : Prop :=
  ∃ last, (fstabLines content).getLast? = some last ∧ isBlankLine last = true

/-! ### The file as lines -/

section Lines

variable {index : Nat} {path : Text}

theorem isFstabEntry_nil : isFstabEntry index path [] = false := rfl

theorem isBlankLine_nil : isBlankLine [] = true := rfl

/-- A file that is written has at least one line. -/
def atLeastOne : List Text → List Text
  | [] => [[]]
  | line :: lines => line :: lines

theorem joinFstab_eq (lines : List Text) :
    joinFstab lines = fileText '\n' (atLeastOne lines) := by
  cases lines with
  | nil => rfl
  | cons line lines => exact intercalate_newline (List.cons_ne_nil _ _)

theorem oneLine_atLeastOne {lines : List Text} (oneLine : ∀ line ∈ lines, '\n' ∉ line) :
    ∀ line ∈ atLeastOne lines, '\n' ∉ line := by
  cases lines with
  | nil => exact List.forall_mem_singleton.2 List.not_mem_nil
  | cons line lines => exact oneLine

theorem fstabLines_joinFstab {lines : List Text} (oneLine : ∀ line ∈ lines, '\n' ∉ line) :
    fstabLines (joinFstab lines) = atLeastOne lines := by
  rw [fstabLines, joinFstab_eq, fileLines_fileText (oneLine_atLeastOne oneLine)]

theorem segments_cases (content : Text) :
    (Terminated '\n' content ∧ content.splitOn '\n' = fstabLines content ++ [[]]) ∨
      (¬Terminated '\n' content ∧ content.splitOn '\n' = fstabLines content) :=
  splitOn_cases '\n' content

theorem find?_segments (content : Text) : (content.splitOn '\n').find? (isFstabEntry index path) =
      (fstabLines content).find? (isFstabEntry index path) := by
  rcases segments_cases content with ⟨_, segments⟩ | ⟨_, segments⟩
  · rw [segments, List.find?_append, List.find?_cons, isFstabEntry_nil, List.find?_nil,
      Option.or_none]
  · rw [segments]

theorem findEntryAt_eq (content : Text) : findEntryAt index content path =
      ((fstabLines content).find? (isFstabEntry index path)).map trim := by
  rw [findEntryAt, find?_segments]

theorem find?_atLeastOne (lines : List Text) : (atLeastOne lines).find? (isFstabEntry index path) =
      lines.find? (isFstabEntry index path) := by
  cases lines with
  | nil => rfl
  | cons line lines => rfl

theorem core_atLeastOne (lines : List Text) :
    core (isFstabEntry index path) isBlankLine (atLeastOne lines) =
      core (isFstabEntry index path) isBlankLine lines := by
  cases lines with
  | nil => rfl
  | cons line lines => rfl

theorem core_segments (content : Text) :
    core (isFstabEntry index path) isBlankLine (content.splitOn '\n') =
      core (isFstabEntry index path) isBlankLine (fstabLines content) := by
  rcases segments_cases content with ⟨_, segments⟩ | ⟨_, segments⟩
  · rw [segments, core_append_blank isBlankLine_nil]
  · rw [segments]

theorem oneLine_segments (content : Text) : ∀ line ∈ content.splitOn '\n', '\n' ∉ line :=
  fun _ mem => separator_notMem_of_mem_splitOn mem

/-- A found entry is no comment. -/
theorem notComment_of_isFstabEntry {line : Text} (entry : isFstabEntry index path line = true) :
    trim line ≠ [] ∧ (trim line).head? ≠ some '#' := by
  rw [isFstabEntry] at entry
  split at entry
  · cases entry
  · next fields => exact not_or.1 fields

end Lines

/-! ### Lines that are entries -/

/-- A line as it is built for the path: trimmed and with the path in its field. -/
structure LineFor (index : Nat) (path line : Text) : Prop where
  trimmed : trim line = line
  nonempty : line ≠ []
  oneLine : '\n' ∉ line
  field : (splitSpaces line)[index]? = some path

section Edits

variable {index : Nat} {path line : Text}

theorem LineFor.entry_eq (built : LineFor index path line) :
    isFstabEntry index path line = !decide (line.head? = some '#') := by
  rw [isFstabEntry, built.trimmed, built.field]
  by_cases comment : line.head? = some '#'
  · simp [comment]
  · simp [comment, built.nonempty]

theorem LineFor.isEntry (built : LineFor index path line)
    (noComment : line.head? ≠ some '#') : isFstabEntry index path line = true := by
  rw [built.entry_eq, decide_eq_false noComment]
  rfl

theorem LineFor.isComment (built : LineFor index path line)
    (comment : line.head? = some '#') : isFstabEntry index path line = false := by
  rw [built.entry_eq, decide_eq_true comment]
  rfl

theorem LineFor.notBlank (built : LineFor index path line) :
    isBlankLine line = false := by
  rw [isBlankLine, built.trimmed, List.isEmpty_eq_false_iff]
  exact built.nonempty

theorem oneLine_upsertLine (built : LineFor index path line) (content : Text) :
    ∀ other ∈ upsertLine (isFstabEntry index path) isBlankLine line
      (content.splitOn '\n'), '\n' ∉ other := by
  intro other member
  have segment := oneLine_segments content
  rw [upsertLine] at member
  split at member
  · rcases List.mem_append.1 member with kept | isNew
    · exact segment other ((List.rdropWhile_prefix _ _).subset kept)
    · rw [List.mem_singleton.1 isNew]
      exact built.oneLine
  · rcases List.mem_or_eq_of_mem_set member with kept | rfl
    · exact segment other kept
    · exact built.oneLine

theorem oneLine_entryFree (content : Text) :
    ∀ other ∈ entryFree (isFstabEntry index path) (content.splitOn '\n'), '\n' ∉ other :=
  fun other mem => oneLine_segments content other (List.mem_of_mem_filter mem)

theorem atLeastOne_of_ne_nil {lines : List Text} (nonempty : lines ≠ []) :
    atLeastOne lines = lines := by
  cases lines with
  | nil => exact absurd rfl nonempty
  | cons line lines => rfl

theorem upsertLine_ne_nil (content : Text) :
    upsertLine (isFstabEntry index path) isBlankLine line (content.splitOn '\n') ≠ [] := by
  rw [upsertLine]
  split
  · exact List.append_ne_nil_of_right_ne_nil _ (List.cons_ne_nil _ _)
  · intro empty
    rw [List.set_eq_nil_iff] at empty
    exact List.splitOn_ne_nil _ _ empty

theorem fstabLines_upsertEntryAt (built : LineFor index path line) (content : Text) :
    fstabLines (upsertEntryAt index content path line) =
      upsertLine (isFstabEntry index path) isBlankLine line (content.splitOn '\n') := by
  rw [upsertEntryAt, fstabLines_joinFstab (oneLine_upsertLine built content),
    atLeastOne_of_ne_nil (upsertLine_ne_nil content)]

theorem fstabLines_removeEntryAt (content : Text) : fstabLines (removeEntryAt index content path) =
      atLeastOne (entryFree (isFstabEntry index path) (content.splitOn '\n')) :=
  fstabLines_joinFstab (oneLine_entryFree content)

/-! ### One run -/

theorem runEdit_present_found {content : Text}
    (found : findEntryAt index content path = some line) :
    runEdit index path line content .present = content := by
  rw [runEdit, ensureEntryAt, if_pos found]
  rfl

theorem runEdit_present_missing {content : Text}
    (missing : findEntryAt index content path ≠ some line) :
    runEdit index path line content .present =
      upsertEntryAt index content path line := by
  rw [runEdit, ensureEntryAt, if_neg missing]
  rfl

theorem runEdit_absent_missing {content : Text} (missing : findEntryAt index content path = none) :
    runEdit index path line content .absent = content := by
  rw [runEdit, removeEntryIfPresentAt, if_pos missing]
  rfl

theorem runEdit_absent_found {content : Text} (found : findEntryAt index content path ≠ none) :
    runEdit index path line content .absent = removeEntryAt index content path := by
  rw [runEdit, removeEntryIfPresentAt, if_neg found]
  rfl

theorem find?_eq_none_of_missing {content : Text}
    (missing : findEntryAt index content path = none) :
    (content.splitOn '\n').find? (isFstabEntry index path) = none := by
  rw [findEntryAt, Option.map_eq_none_iff] at missing
  exact missing

theorem noEntry_of_missing {content : Text} (missing : findEntryAt index content path = none) :
    (fstabLines content).find? (isFstabEntry index path) = none := by
  rw [← find?_segments]
  exact find?_eq_none_of_missing missing

theorem findEntryAt_upsertEntryAt (built : LineFor index path line)
    (noComment : line.head? ≠ some '#') (content : Text) :
    findEntryAt index (upsertEntryAt index content path line) path = some line := by
  rw [findEntryAt_eq, fstabLines_upsertEntryAt built,
    find?_upsertLine (built.isEntry noComment), Option.map_some, built.trimmed]

theorem findEntryAt_removeEntryAt (content : Text) :
    findEntryAt index (removeEntryAt index content path) path = none := by
  rw [findEntryAt_eq, fstabLines_removeEntryAt, find?_atLeastOne, find?_entryFree]
  rfl

/-- What is found is a line of an entry, never a comment. -/
theorem findEntryAt_ne_comment {content : Text} (comment : line.head? = some '#') :
    findEntryAt index content path ≠ some line := by
  intro found
  rw [findEntryAt, Option.map_eq_some_iff] at found
  obtain ⟨entry, isEntry, rfl⟩ := found
  exact (notComment_of_isFstabEntry (List.find?_some isEntry)).2 comment

/-! ### Exact edits -/

theorem exists_split_of_findEntryAt {content found : Text}
    (isFound : findEntryAt index content path = some found) :
    ∃ front old back, fstabLines content = front ++ old :: back ∧ trim old = found ∧
      (∀ other ∈ front, isFstabEntry index path other = false) ∧
      isFstabEntry index path old = true := by
  rw [findEntryAt_eq, Option.map_eq_some_iff] at isFound
  obtain ⟨old, isOld, isTrimmed⟩ := isFound
  obtain ⟨front, back, lines, before, entry⟩ := exists_split_of_find?_eq_some isOld
  exact ⟨front, old, back, lines, isTrimmed, before, entry⟩

theorem ne_nil_of_isFstabEntry {other : Text} (entry : isFstabEntry index path other = true) :
    other ≠ [] := by
  rintro rfl
  exact Bool.false_ne_true entry

theorem upsertLine_missing {content : Text} (missing : findEntryAt index content path = none) :
    upsertLine (isFstabEntry index path) isBlankLine line (content.splitOn '\n') =
      (fstabLines content).rdropWhile isBlankLine ++ [line] := by
  rw [upsertLine_absent (find?_eq_none_of_missing missing)]
  rcases segments_cases content with ⟨_, segments⟩ | ⟨_, segments⟩
  · rw [segments, List.rdropWhile_concat_pos _ _ _ isBlankLine_nil]
  · rw [segments]

theorem rdropWhile_eq_self_iff (content : Text) :
    (fstabLines content).rdropWhile isBlankLine = fstabLines content ↔ ¬EndsBlank content := by
  rw [List.rdropWhile_eq_self_iff, EndsBlank]
  constructor
  · rintro notBlank ⟨last, isLast, isBlank⟩
    have nonempty := List.ne_nil_of_mem (List.mem_of_getLast? isLast)
    rw [List.getLast?_eq_some_getLast nonempty, Option.some.injEq] at isLast
    apply notBlank nonempty
    rw [isLast]
    exact isBlank
  · intro notBlank nonempty isBlank
    exact notBlank ⟨_, List.getLast?_eq_some_getLast nonempty, isBlank⟩

theorem count_nil_middle {front back : List Text} {middle : Text} (nonempty : middle ≠ []) :
    (front ++ middle :: back).count [] = (front ++ back).count [] := by
  rw [List.count_append, List.count_append, List.count_cons_of_ne nonempty]

/-- Edits of one entry neither add nor remove an empty line. -/
theorem KeepsOthers.count_nil (lineNonempty : line ≠ []) {before after : List Text}
    (keeps : KeepsOthers index path line before after) :
    after.count [] = before.count [] := by
  obtain ⟨front, new, back, isTrimmed, rfl, rfl | ⟨old, entry, rfl⟩⟩ := keeps
  · apply count_nil_middle
    rintro rfl
    exact lineNonempty isTrimmed.symm
  · rw [count_nil_middle (ne_nil_of_isFstabEntry entry), count_nil_middle]
    rintro rfl
    exact lineNonempty isTrimmed.symm

theorem KeepsOthers.length {before after : List Text}
    (missing : before.find? (isFstabEntry index path) = none)
    (keeps : KeepsOthers index path line before after) :
    after.length = before.length + 1 := by
  obtain ⟨front, new, back, _, rfl, rfl | ⟨old, entry, rfl⟩⟩ := keeps
  · rw [List.length_append, List.length_cons, List.length_append, Nat.add_assoc]
  · have member : old ∈ front ++ old :: back := List.mem_append_right _ List.mem_cons_self
    exact absurd entry (List.find?_eq_none.1 missing old member)

/-- Setting an entry is exact if the entry is no comment, an entry it replaces stands in a
file without a final newline, and a file that lacks the entry ends with no blank line. -/
theorem presentExact_iff (built : LineFor index path line) (content : Text) :
    PresentExact index path line content ↔
      line.head? ≠ some '#' ∧
        (findEntryAt index content path = none → ¬EndsBlank content) ∧
        ∀ old, findEntryAt index content path = some old → old ≠ line →
          ¬Terminated '\n' content := by
  constructor
  · rintro ⟨found, keeps⟩
    have noComment : line.head? ≠ some '#' := fun comment => findEntryAt_ne_comment comment found
    refine ⟨noComment, ?_, ?_⟩
    · intro missing
      have other : findEntryAt index content path ≠ some line := by
        rw [missing]
        exact (Option.some_ne_none _).symm
      rw [runEdit_present_missing other, fstabLines_upsertEntryAt built,
        upsertLine_missing missing] at keeps
      rw [← rdropWhile_eq_self_iff]
      have noEntry := noEntry_of_missing missing
      have sameLength := keeps.length noEntry
      rw [List.length_append, List.length_singleton, Nat.add_right_cancel_iff] at sameLength
      exact (List.rdropWhile_prefix _ _).eq_of_length sameLength
    · intro old isOld different terminated
      have other : findEntryAt index content path ≠ some line := by
        rw [isOld, ne_eq, Option.some.injEq]
        exact different
      rw [runEdit_present_missing other, fstabLines_upsertEntryAt built] at keeps
      obtain ⟨front, entry, back, lines, _, before, isEntry⟩ := exists_split_of_findEntryAt isOld
      have segments : content.splitOn '\n' = front ++ entry :: (back ++ [[]]) := by
        rcases segments_cases content with ⟨_, segments⟩ | ⟨unterminated, _⟩
        · rw [segments, lines, List.append_assoc, List.cons_append]
        · exact absurd terminated unterminated
      have count := keeps.count_nil built.nonempty
      rw [segments, upsertLine_present before isEntry, lines, count_nil_middle built.nonempty,
        count_nil_middle (ne_nil_of_isFstabEntry isEntry), ← List.append_assoc,
        List.count_append, List.count_singleton_self] at count
      omega
  · rintro ⟨noComment, notBlank, unterminated⟩
    cases isFound : findEntryAt index content path with
    | none =>
      have missing : findEntryAt index content path ≠ some line := by
        rw [isFound]
        exact (Option.some_ne_none _).symm
      rw [PresentExact, runEdit_present_missing missing, fstabLines_upsertEntryAt built,
        upsertLine_missing isFound, (rdropWhile_eq_self_iff content).2 (notBlank isFound)]
      refine ⟨findEntryAt_upsertEntryAt built noComment content, ?_⟩
      exact ⟨fstabLines content, line, [], built.trimmed, rfl, .inl (List.append_nil _).symm⟩
    | some old =>
      obtain ⟨front, entry, back, lines, isTrimmed, before, isEntry⟩ :=
        exists_split_of_findEntryAt isFound
      by_cases same : old = line
      · rw [same] at isFound isTrimmed
        rw [PresentExact, runEdit_present_found isFound]
        exact ⟨isFound, front, entry, back, isTrimmed, lines, .inr ⟨entry, isEntry, lines⟩⟩
      · have missing : findEntryAt index content path ≠ some line := by
          rw [isFound, ne_eq, Option.some.injEq]
          exact same
        have segments : content.splitOn '\n' = fstabLines content := by
          rcases segments_cases content with ⟨terminated, _⟩ | ⟨_, segments⟩
          · exact absurd terminated (unterminated old isFound same)
          · exact segments
        rw [PresentExact, runEdit_present_missing missing, fstabLines_upsertEntryAt built,
          segments, lines, upsertLine_present before isEntry]
        refine ⟨findEntryAt_upsertEntryAt built noComment content, ?_⟩
        exact ⟨front, line, back, built.trimmed, rfl, .inr ⟨entry, isEntry, rfl⟩⟩

/-- Removing an entry is exact if there is none, or if the file lacks the final newline and
holds another line. -/
theorem absentExact_iff (line content : Text) : AbsentExact index path line content ↔
      ∀ old, findEntryAt index content path = some old → ¬Terminated '\n' content ∧
          ∃ other ∈ fstabLines content, isFstabEntry index path other = false := by
  cases isFound : findEntryAt index content path with
  | none =>
    have noEntry := noEntry_of_missing isFound
    have exactly : AbsentExact index path line content := by
      rw [AbsentExact, runEdit_absent_missing isFound, entryFree_of_absent noEntry]
      exact ⟨isFound, rfl⟩
    exact iff_of_true exactly fun old isOld => absurd isOld.symm (Option.some_ne_none old)
  | some old =>
    have present : findEntryAt index content path ≠ none := by
      rw [isFound]
      exact Option.some_ne_none old
    rw [AbsentExact, runEdit_absent_found present, fstabLines_removeEntryAt]
    constructor
    · rintro ⟨_, keeps⟩ _ _
      rcases segments_cases content with ⟨_, segments⟩ | ⟨unterminated, segments⟩
      · have oneMore : entryFree (isFstabEntry index path) (content.splitOn '\n') =
            entryFree (isFstabEntry index path) (fstabLines content) ++ [[]] := by
          rw [segments, entryFree, List.filter_append]
          rfl
        rw [oneMore, atLeastOne_of_ne_nil (List.append_ne_nil_of_right_ne_nil _
          (List.cons_ne_nil _ _))] at keeps
        have lengths := congrArg List.length keeps
        rw [List.length_append, List.length_singleton] at lengths
        omega
      · refine ⟨unterminated, ?_⟩
        rw [segments] at keeps
        by_contra onlyEntries
        have empty : entryFree (isFstabEntry index path) (fstabLines content) = [] := by
          rw [entryFree, List.filter_eq_nil_iff]
          intro other member isOther
          exact onlyEntries ⟨other, member, by simpa using isOther⟩
        rw [empty] at keeps
        exact List.cons_ne_nil _ _ keeps
    · intro condition
      obtain ⟨unterminated, other, member, noEntry⟩ := condition old rfl
      refine ⟨findEntryAt_removeEntryAt content, ?_⟩
      rcases segments_cases content with ⟨terminated, _⟩ | ⟨_, segments⟩
      · exact absurd terminated unterminated
      · rw [segments]
        apply atLeastOne_of_ne_nil
        have kept : other ∈ entryFree (isFstabEntry index path) (fstabLines content) := by
          rw [entryFree, List.mem_filter, noEntry]
          exact ⟨member, rfl⟩
        exact List.ne_nil_of_mem kept

/-! ### Any number of runs -/

/-- The lines that every run leaves as they are. -/
def fstabCore (index : Nat) (path content : Text) : List Text :=
  core (isFstabEntry index path) isBlankLine (fstabLines content)

/-- What one run leaves: the core, no more than `most` lines, and the entry as it is
wanted or not at all. -/
structure Settled (index : Nat) (path line : Text) (kept : List Text) (most : Nat)
    (content : Text) : Prop where
  core_eq : fstabCore index path content = kept
  few : (fstabLines content).length ≤ most
  entry : findEntryAt index content path = none ∨
    findEntryAt index content path = some line

theorem fstabCore_upsertEntryAt (built : LineFor index path line)
    (noComment : line.head? ≠ some '#') (content : Text) :
    fstabCore index path (upsertEntryAt index content path line) =
      fstabCore index path content := by
  rw [fstabCore, fstabLines_upsertEntryAt built, core_upsertLine (built.isEntry noComment),
    core_segments, fstabCore]

theorem fstabCore_removeEntryAt (content : Text) :
    fstabCore index path (removeEntryAt index content path) =
      fstabCore index path content := by
  rw [fstabCore, fstabLines_removeEntryAt, core_atLeastOne, core_entryFree, core_segments,
    fstabCore]

theorem fstabCore_missing {content : Text} (missing : findEntryAt index content path = none) :
    fstabCore index path content = (fstabLines content).rdropWhile isBlankLine := by
  have noEntry := noEntry_of_missing missing
  rw [fstabCore, core, entryFree_of_absent noEntry]

theorem length_entryFree_lt {content found : Text}
    (isFound : findEntryAt index content path = some found) :
    (entryFree (isFstabEntry index path) (fstabLines content)).length <
      (fstabLines content).length := by
  obtain ⟨front, old, back, lines, _, _, entry⟩ := exists_split_of_findEntryAt isFound
  apply List.length_filter_lt_length_iff_exists.2
  refine ⟨old, ?_, by rw [entry]; exact Bool.false_ne_true⟩
  rw [lines]
  exact List.mem_append_right _ List.mem_cons_self

/-- The entry is one line more than the core. -/
theorem length_core_lt {content found : Text}
    (isFound : findEntryAt index content path = some found) :
    (fstabCore index path content).length < (fstabLines content).length :=
  Nat.lt_of_le_of_lt (List.rdropWhile_prefix _ _).length_le (length_entryFree_lt isFound)

theorem length_upsert_missing (built : LineFor index path line) {content : Text}
    (missing : findEntryAt index content path = none) :
    (fstabLines (upsertEntryAt index content path line)).length =
      (fstabCore index path content).length + 1 := by
  rw [fstabLines_upsertEntryAt built, upsertLine_missing missing, fstabCore_missing missing,
    List.length_append, List.length_singleton]

/-- A removal leaves no more lines, and not fewer than one. -/
theorem length_removeEntryAt_le {content found : Text}
    (isFound : findEntryAt index content path = some found) :
    (fstabLines (removeEntryAt index content path)).length ≤
      (fstabLines content).length := by
  have fewer := length_entryFree_lt isFound
  have atLeast (lines : List Text) : (atLeastOne lines).length ≤ max 1 lines.length := by
    cases lines with
    | nil => exact Nat.le_max_left ..
    | cons line lines => exact Nat.le_max_right ..
  have segments : (entryFree (isFstabEntry index path) (content.splitOn '\n')).length ≤
      (entryFree (isFstabEntry index path) (fstabLines content)).length + 1 := by
    rcases segments_cases content with ⟨_, segments⟩ | ⟨_, segments⟩
    · rw [segments, entryFree, List.filter_append, List.length_append]
      exact Nat.add_le_add_left (List.length_filter_le _ [[]]) _
    · rw [segments]
      exact Nat.le_succ _
  rw [fstabLines_removeEntryAt]
  have bound := atLeast (entryFree (isFstabEntry index path) (content.splitOn '\n'))
  omega

/-- A settled file stays settled. -/
theorem Settled.step (built : LineFor index path line)
    (noComment : line.head? ≠ some '#') {kept : List Text} {most : Nat} {content : Text}
    (room : kept.length + 1 ≤ most) (settled : Settled index path line kept most content)
    (edit : FstabEdit) :
    Settled index path line kept most (runEdit index path line content edit) := by
  cases edit with
  | present =>
    rcases settled.entry with missing | isFound
    · have other : findEntryAt index content path ≠ some line := by
        rw [missing]
        exact (Option.some_ne_none _).symm
      rw [runEdit_present_missing other]
      refine ⟨(fstabCore_upsertEntryAt built noComment content).trans settled.core_eq, ?_,
        .inr (findEntryAt_upsertEntryAt built noComment content)⟩
      rw [length_upsert_missing built missing, settled.core_eq]
      exact room
    · rw [runEdit_present_found isFound]
      exact settled
  | absent =>
    rcases settled.entry with missing | isFound
    · rw [runEdit_absent_missing missing]
      exact settled
    · have present : findEntryAt index content path ≠ none := by
        rw [isFound]
        exact Option.some_ne_none line
      rw [runEdit_absent_found present]
      exact ⟨(fstabCore_removeEntryAt content).trans settled.core_eq,
        (length_removeEntryAt_le isFound).trans settled.few,
        .inl (findEntryAt_removeEntryAt content)⟩

theorem Settled.run (built : LineFor index path line)
    (noComment : line.head? ≠ some '#') {kept : List Text} {most : Nat} {content : Text}
    (room : kept.length + 1 ≤ most) (settled : Settled index path line kept most content)
    (edits : List FstabEdit) :
    Settled index path line kept most (runEdits index path line content edits) := by
  induction edits generalizing content with
  | nil => exact settled
  | cons edit edits ih =>
    exact ih (settled.step built noComment room edit)

/-- Whatever the file was, one run settles it. -/
theorem settled_runEdit (built : LineFor index path line)
    (noComment : line.head? ≠ some '#') (content : Text) (edit : FstabEdit) :
    Settled index path line (fstabCore index path content)
      (fstabLines (runEdit index path line content edit)).length
      (runEdit index path line content edit) := by
  cases edit with
  | present =>
    by_cases isFound : findEntryAt index content path = some line
    · rw [runEdit_present_found isFound]
      exact ⟨rfl, Nat.le_refl _, .inr isFound⟩
    · rw [runEdit_present_missing isFound]
      exact ⟨fstabCore_upsertEntryAt built noComment content, Nat.le_refl _,
        .inr (findEntryAt_upsertEntryAt built noComment content)⟩
  | absent =>
    by_cases missing : findEntryAt index content path = none
    · rw [runEdit_absent_missing missing]
      exact ⟨rfl, Nat.le_refl _, .inl missing⟩
    · rw [runEdit_absent_found missing]
      exact ⟨fstabCore_removeEntryAt content, Nat.le_refl _,
        .inl (findEntryAt_removeEntryAt content)⟩

/-- The file that has the entry has a line more than the core. -/
theorem length_core_lt_present (built : LineFor index path line)
    (noComment : line.head? ≠ some '#') (content : Text) : (fstabCore index path content).length <
      (fstabLines (runEdit index path line content .present)).length := by
  have settled := settled_runEdit built noComment content .present
  rw [← settled.core_eq]
  apply @length_core_lt _ _ _ line
  by_cases isFound : findEntryAt index content path = some line
  · rw [runEdit_present_found isFound]
    exact isFound
  · rw [runEdit_present_missing isFound]
    exact findEntryAt_upsertEntryAt built noComment content

theorem Settled.mono {kept : List Text} {few most : Nat} {content : Text}
    (settled : Settled index path line kept few content) (fewer : few ≤ most) :
    Settled index path line kept most content :=
  { settled with few := settled.few.trans fewer }

/-! ### An entry that reads as a comment -/

/-- The entry is appended and not found. -/
theorem comment_step (built : LineFor index path line) (comment : line.head? = some '#')
    {content : Text} (missing : findEntryAt index content path = none) :
    findEntryAt index (runEdit index path line content .present) path = none ∧
      (fstabCore index path (runEdit index path line content .present)).length =
        (fstabCore index path content).length + 1 := by
  have noEntry := noEntry_of_missing missing
  have kept := find?_eq_none_of_subset noEntry (List.rdropWhile_prefix isBlankLine _).subset
  have still : ((fstabLines content).rdropWhile isBlankLine ++ [line]).find?
      (isFstabEntry index path) = none := by
    rw [List.find?_append, kept, List.find?_cons, built.isComment comment]
    rfl
  rw [runEdit_present_missing (findEntryAt_ne_comment comment)]
  constructor
  · rw [findEntryAt_eq, fstabLines_upsertEntryAt built, upsertLine_missing missing, still]
    rfl
  · rw [fstabCore_missing missing, fstabCore, fstabLines_upsertEntryAt built,
      upsertLine_missing missing, core, entryFree_of_absent still, List.rdropWhile_concat_neg,
      List.length_append, List.length_singleton]
    rw [built.notBlank]
    exact Bool.false_ne_true

/-- Every run appends the entry once more. -/
theorem comment_grows (built : LineFor index path line) (comment : line.head? = some '#')
    {content : Text} (missing : findEntryAt index content path = none) (runs : Nat) :
    findEntryAt index
        (runEdits index path line content (List.replicate runs .present)) path = none ∧
      (fstabCore index path
        (runEdits index path line content (List.replicate runs .present))).length =
          (fstabCore index path content).length + runs := by
  induction runs generalizing content with
  | zero => exact ⟨missing, rfl⟩
  | succ runs ih =>
    obtain ⟨stillMissing, oneMore⟩ := comment_step built comment missing
    obtain ⟨notFound, longer⟩ := ih stillMissing
    refine ⟨notFound, longer.trans ?_⟩
    rw [oneMore]
    omega

theorem findEntryAt_runEdit_absent (content : Text) :
    findEntryAt index (runEdit index path line content .absent) path = none := by
  by_cases missing : findEntryAt index content path = none
  · rw [runEdit_absent_missing missing]
    exact missing
  · rw [runEdit_absent_found missing]
    exact findEntryAt_removeEntryAt content

/-- A file that holds an entry does not get shorter when the entry is set. -/
theorem length_le_present (built : LineFor index path line) {content found : Text}
    (isFound : findEntryAt index content path = some found) : (fstabLines content).length ≤
      (fstabLines (runEdit index path line content .present)).length := by
  by_cases asWanted : findEntryAt index content path = some line
  · rw [runEdit_present_found asWanted]
  · rw [findEntryAt, Option.map_eq_some_iff] at isFound
    obtain ⟨old, isOld, _⟩ := isFound
    rw [runEdit_present_missing asWanted, fstabLines_upsertEntryAt built, length_upsertLine isOld]
    rcases segments_cases content with ⟨_, segments⟩ | ⟨_, segments⟩
    · rw [segments, List.length_append]
      exact Nat.le_add_right ..
    · rw [segments]

/-- The file stays short unless the entry reads as a comment. -/
theorem neverLonger_iff (built : LineFor index path line) (content : Text) :
    NeverLonger index path line content ↔ line.head? ≠ some '#' := by
  constructor
  · intro neverLonger comment
    have missing := @findEntryAt_runEdit_absent index path line content
    have longer := fun runs => (comment_grows built comment missing runs).2
    have bounded := fun runs => neverLonger (.absent :: List.replicate runs .present)
    have core_le (content : Text) :
        (fstabCore index path content).length ≤ (fstabLines content).length :=
      (List.rdropWhile_prefix _ _).length_le.trans (List.length_filter_le _ _)
    specialize longer ((max (fstabLines (runEdit index path line content .present)).length
      (fstabLines (runEdit index path line content .absent)).length) + 1)
    specialize bounded ((max (fstabLines (runEdit index path line content .present)).length
      (fstabLines (runEdit index path line content .absent)).length) + 1)
    rw [runEdits, List.foldl_cons, ← runEdits] at bounded
    have tooLong := (core_le _).trans bounded
    omega
  · intro noComment edits
    have room := length_core_lt_present built noComment content
    cases edits with
    | nil =>
      cases isFound : findEntryAt index content path with
      | none =>
        rw [runEdit_absent_missing isFound]
        exact Nat.le_max_right ..
      | some old => exact (length_le_present built isFound).trans (Nat.le_max_left ..)
    | cons edit edits =>
      have first := settled_runEdit built noComment content edit
      have most : (fstabLines (runEdit index path line content edit)).length ≤
          max (fstabLines (runEdit index path line content .present)).length
            (fstabLines (runEdit index path line content .absent)).length := by
        cases edit with
        | present => exact Nat.le_max_left ..
        | absent => exact Nat.le_max_right ..
      exact ((first.mono most).run built noComment (room.trans_le (Nat.le_max_left ..)) edits).few

end Edits

/-! ### Lines of words -/

theorem lineFor_joinWords {index : Nat} {path : Text} {words : List Text}
    (areWords : ∀ word ∈ words, IsWord word) (field : words[index]? = some path) :
    LineFor index path (joinWords words) := by
  have nonempty : words ≠ [] := by
    rintro rfl
    cases field
  refine ⟨trim_joinWords areWords, ?_, newline_notMem_joinWords areWords, ?_⟩
  · obtain ⟨word, rest, rfl⟩ := List.exists_cons_of_ne_nil nonempty
    have isWord := areWords word List.mem_cons_self
    cases rest with
    | nil => exact isWord.1
    | cons next rest => exact List.append_ne_nil_of_left_ne_nil isWord.1 _
  · rw [splitSpaces_joinWords nonempty areWords]
    exact field

theorem isWord_of_noSpace {word : Text} (nonempty : word ≠ [])
    (noSpace : word.any isJsSpace = false) :
    IsWord word := by
  rw [List.any_eq_false] at noSpace
  exact ⟨nonempty, fun char mem => Bool.eq_false_iff.2 (noSpace char mem)⟩

theorem isWord_of_validateFstabField {caller fieldName value : Text}
    (valid : validateFstabField caller fieldName value = .ok ()) : IsWord value := by
  rw [validateFstabField] at valid
  split at valid
  · cases valid
  · next nonempty =>
    split at valid
    · cases valid
    · split at valid
      · cases valid
      · next noSpace => exact isWord_of_noSpace nonempty (Bool.eq_false_iff.2 noSpace)

theorem isWord_of_isMountPath {path : Text} (isPath : isMountPath path = true) : IsWord path := by
  simp only [isMountPath, Bool.and_eq_true, decide_eq_true_eq, Bool.not_eq_true'] at isPath
  exact isWord_of_noSpace isPath.1.1.1.1 isPath.1.1.1.2

theorem buildFstabLine_eq (entry : MountEntry) : buildFstabLine entry =
      joinWords [entry.src, entry.path, entry.fstype, entry.opts, ['0'], ['0']] := by
  rw [buildFstabLine]
  simp only [joinWords, List.append_assoc, List.cons_append]
  rfl

theorem lineFor_buildFstabLine {entry : MountEntry} (accepted : Accepted entry) :
    LineFor 1 entry.path (buildFstabLine entry) := by
  obtain ⟨path, src, fstype, opts⟩ := accepted
  rw [buildFstabLine_eq]
  apply lineFor_joinWords _ rfl
  simp only [List.forall_mem_cons]
  exact ⟨isWord_of_validateFstabField src, isWord_of_isMountPath path,
    isWord_of_validateFstabField fstype, isWord_of_validateFstabField opts, by decide, by decide,
    List.forall_mem_nil _⟩

theorem head?_buildFstabLine {entry : MountEntry} (accepted : Accepted entry) :
    (buildFstabLine entry).head? = entry.src.head? := by
  have nonempty := (isWord_of_validateFstabField accepted.2.1).1
  rw [buildFstabLine, List.append_assoc, List.append_assoc, List.append_assoc,
    List.head?_append_of_ne_nil _ nonempty]

/-! ### Mount entries and swap files -/

/-- When a run that sets a mount entry, a run that removes it and any number of runs leave
the rest of the file alone. -/
theorem fstabEdits_exact_iff {entry : MountEntry} (accepted : Accepted entry) (content : Text) :
    (PresentExact 1 entry.path (buildFstabLine entry) content ↔
      entry.src.head? ≠ some '#' ∧
        (findFstabEntry content entry.path = none → ¬EndsBlank content) ∧
        ∀ old, findFstabEntry content entry.path = some old → old ≠ buildFstabLine entry →
          ¬Terminated '\n' content) ∧
    (AbsentExact 1 entry.path (buildFstabLine entry) content ↔
      ∀ old, findFstabEntry content entry.path = some old →
        ¬Terminated '\n' content ∧
          ∃ other ∈ fstabLines content, isFstabEntry 1 entry.path other = false) ∧
    (NeverLonger 1 entry.path (buildFstabLine entry) content ↔ entry.src.head? ≠ some '#') := by
  have built := lineFor_buildFstabLine accepted
  rw [← head?_buildFstabLine accepted]
  exact ⟨presentExact_iff built content, absentExact_iff _ content, neverLonger_iff built content⟩

/-- A `proc` line and a `tmpfs` line for `/mnt/a`. -/
def twoMounts : Text :=
  "proc /proc proc defaults 0 0\ntmpfs /mnt/a tmpfs defaults 0 0\n".toList

def tmpfsEntry : MountEntry where
  src := "tmpfs".toList
  path := "/mnt/a".toList
  fstype := "tmpfs".toList
  opts := "defaults".toList

theorem accepted_tmpfsEntry : Accepted tmpfsEntry := ⟨by decide +kernel, rfl, rfl, rfl⟩

theorem found_twoMounts :
    findFstabEntry twoMounts tmpfsEntry.path = some (buildFstabLine tmpfsEntry) := by
  decide +kernel

/-- With the final newline the removal is not exact; the entry itself stays as it is. -/
theorem twoMounts_edits :
    PresentExact 1 tmpfsEntry.path (buildFstabLine tmpfsEntry) twoMounts ∧
      ¬AbsentExact 1 tmpfsEntry.path (buildFstabLine tmpfsEntry) twoMounts := by
  obtain ⟨present, absent, _⟩ := fstabEdits_exact_iff accepted_tmpfsEntry twoMounts
  rw [present, absent, found_twoMounts]
  constructor
  · refine ⟨by decide, fun missing => absurd missing (Option.some_ne_none _), ?_⟩
    intro old isOld different
    exact absurd (Option.some.inj isOld).symm different
  · intro exactly
    exact (exactly _ rfl).1 (by decide +kernel)

/-- The removal leaves a blank line behind in a file with one final newline. -/
theorem removal_leaves_blank_line :
    ¬∀ (entry : MountEntry) (content : Text), Accepted entry →
      PresentExact 1 entry.path (buildFstabLine entry) content ∧
        AbsentExact 1 entry.path (buildFstabLine entry) content ∧
        NeverLonger 1 entry.path (buildFstabLine entry) content := by
  intro exactly
  have kept := (exactly tmpfsEntry twoMounts accepted_tmpfsEntry).2.1
  rw [absentExact_iff] at kept
  exact (kept _ found_twoMounts).1 (by decide +kernel)

/-! ### Swap files -/

namespace Swap

theorem isWord_swapOptions (priority : Option Int) : IsWord (swapOptions priority) := by
  cases priority with
  | none => decide
  | some priority =>
    have starts : IsWord "sw,pri=".toList := by decide
    have digits : ∀ char ∈ decimal priority.natAbs, isJsSpace char = false := fun _ mem =>
      isJsSpace_of_isDigit (isDigit_of_mem_decimal mem)
    refine ⟨List.append_ne_nil_of_left_ne_nil starts.1 _, List.forall_mem_append.2 ⟨starts.2, ?_⟩⟩
    rw [priorityText]
    split
    · exact List.forall_mem_cons.2 ⟨by decide, digits⟩
    · exact digits

/-- One run brings the entry of a swap file to what is desired, a further run writes nothing, and
no number of runs leaves more lines than one run does. -/
theorem ensureSwapFstabState_converges {path : Text} (isPath : isSwapPath path = true)
    (priority : Option Int) (content : Text) :
    (∀ desired, desired = none ∨ desired = some (buildSwapFstabLine path priority) →
      ∀ after, (ensureSwapFstabState content path desired).getD content = after →
        findFstabEntry after path = desired ∧
          ensureSwapFstabState after path desired = none) ∧
    NeverLonger 0 path (buildSwapFstabLine path priority) content := by
  simp only [isSwapPath, Bool.and_eq_true, decide_eq_true_eq, Bool.not_eq_true'] at isPath
  obtain ⟨⟨⟨⟨nonempty, noSpace⟩, isAbsolute⟩, _⟩, _⟩ := isPath
  have lineEq : buildSwapFstabLine path priority =
      joinWords [path, "none".toList, "swap".toList, swapOptions priority, ['0'], ['0']] := by
    simp [buildSwapFstabLine, joinWords]
  have built : LineFor 0 path (buildSwapFstabLine path priority) := by
    rw [lineEq]
    apply lineFor_joinWords _ rfl
    simp only [List.forall_mem_cons]
    exact ⟨isWord_of_noSpace nonempty noSpace, by decide, by decide, isWord_swapOptions priority,
      by decide, by decide, List.forall_mem_nil _⟩
  have noComment : (buildSwapFstabLine path priority).head? ≠ some '#' := by
    rw [buildSwapFstabLine, List.append_assoc, List.append_assoc,
      List.head?_append_of_ne_nil _ nonempty, isAbsolute]
    decide
  refine ⟨?_, (neverLonger_iff built content).2 noComment⟩
  rintro desired (rfl | rfl) _ rfl
  · have absent := @findEntryAt_runEdit_absent 0 path (buildSwapFstabLine path priority) content
    exact ⟨absent, if_pos absent⟩
  · have present : findEntryAt 0 ((ensureEntryAt 0 content path
        (buildSwapFstabLine path priority)).getD content) path =
        some (buildSwapFstabLine path priority) := by
      rw [ensureEntryAt]
      split
      · assumption
      · exact findEntryAt_upsertEntryAt built noComment content
    exact ⟨present, if_pos present⟩

theorem ensureSwapFstabState_converges_twoMounts :
    NeverLonger 0 "/swap".toList (buildSwapFstabLine "/swap".toList (some 5)) twoMounts :=
  (ensureSwapFstabState_converges (by decide +kernel) _ _).2

end Swap

end Paratix.Mount
