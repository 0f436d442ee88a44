/-
Module: Paratix.Compose.Checks
Purpose: The apply of `compose.systemd`; the checks of `compose.up` and `compose.down`, and when
  their ok is sound.
Main exports: applyComposeSystemd, compose_checks_sound_iff
-/
import Paratix.Files.Metadata
import Paratix.Foundation.Remote
import Paratix.Foundation.Lines
import Paratix.Foundation.UnitFile
import Paratix.Orchestration.Environment
import Paratix.Foundation.Json
import Paratix.Foundation.Utf8
import Paratix.Masking.Secrets

namespace Paratix.Compose

open Foundation Archive Files Masking Orchestration

/-! ### The generated unit -/

inductive ComposeRuntime where
  | docker
  | podman
deriving DecidableEq

def ComposeRuntime.name : ComposeRuntime → Text
  | docker => text "docker"
  | podman => text "podman"

/-- C0 control characters and DEL -/
def isControlCharacter (char : Char) : Bool := char.toNat ≤ 31 || char.toNat = 127

def sanitizeUnitValue (value : Text) : Text :=
  (value.filter fun char => !isControlCharacter char).flatMap doublePercent

def generateSystemdUnit (projectDirectory name : Text) (detached : Bool)
    (runtime : ComposeRuntime) : Text :=
  let safeName := sanitizeUnitValue name
  let safeDirectory := sanitizeUnitValue projectDirectory
  let composeUpCommand := text "/usr/bin/env " ++ runtime.name ++
    (if detached then text " compose up -d --remove-orphans"
    else text " compose up --remove-orphans")
  let dependencies := match runtime with
    | .docker =>
        [text "After=network-online.target docker.service", text "Requires=docker.service"]
    | .podman => [text "After=network-online.target"]
  let lines :=
    [text "[Unit]", text "Description=Compose stack: " ++ safeName,
      text "Wants=network-online.target"] ++ dependencies ++
    [[], text "[Service]", text "Type=oneshot", text "RemainAfterExit=yes",
      text "WorkingDirectory=" ++ safeDirectory, text "ExecStart=" ++ composeUpCommand,
      text "ExecStop=/usr/bin/env " ++ runtime.name ++ text " compose down",
      text "TimeoutStartSec=0", text "StandardOutput=journal", text "StandardError=journal",
      [], text "[Install]", text "WantedBy=multi-user.target", []]
  ['\n'].intercalate lines

def validateGeneratedSystemdUnitContent (content : Text) : Bool :=
  trim content ≠ [] && decide (text "[Unit]" <:+: content) &&
    decide (text "[Service]" <:+: content)

/-- A generated unit is never refused. -/
theorem validate_generateSystemdUnit (projectDirectory name : Text) (detached : Bool)
    (runtime : ComposeRuntime) : validateGeneratedSystemdUnitContent
      (generateSystemdUnit projectDirectory name detached runtime) = true := by
  have isUnit : text "[Unit]" <:+: generateSystemdUnit projectDirectory name detached runtime :=
    infix_intercalate _ (by simp)
  have isService : text "[Service]" <:+:
      generateSystemdUnit projectDirectory name detached runtime :=
    infix_intercalate _ (by simp)
  have notBlank : trim (generateSystemdUnit projectDirectory name detached runtime) ≠ [] := by
    intro blank
    obtain ⟨before, behind, whole, blankBefore, blankBehind⟩ :=
      exists_trim (generateSystemdUnit projectDirectory name detached runtime)
    have bracket : '[' ∈ generateSystemdUnit projectDirectory name detached runtime :=
      isUnit.subset (by decide)
    rw [whole, blank, List.nil_append, List.mem_append] at bracket
    rcases bracket with inBefore | inBehind
    · exact absurd (blankBefore _ inBefore) (by decide)
    · exact absurd (blankBehind _ inBehind) (by decide)
  rw [validateGeneratedSystemdUnitContent, decide_eq_true isUnit, decide_eq_true isService]
  simp [notBlank]

/-- An absolute path without control characters -/
def validateComposeProjectDirectory (projectDirectory : Text) : Bool :=
  projectDirectory.head? = some '/' && !projectDirectory.any isControlCharacter

/-! ### Hosts and steps -/

/-- What stands at the unit path. A mask is the link to `/dev/null`; another link shows the
content behind it unless it dangles. -/
inductive UnitPath where
  | missing
  | regular (content : Text) (mode : FileMode) (owner : Owner)
  | mask
  | link (target : Text) (behind : Option Text)
deriving DecidableEq

/-- The host; a runtime mask is a link below `/run`, which a unit file hides. -/
structure ComposeHost where
  unit : UnitPath
  runtimeMask : Bool
  hasPodman : Bool
  hasDocker : Bool
deriving DecidableEq

/-- What does not change: the content that is read back from the content of a file, whether the
connection is one of root, the owner of the unit directory and of links in it. -/
structure ComposeMachine where
  captured : Text → Text
  asRoot : Bool
  directoryOwner : Owner
  linkOwner : Owner

/-- The remote steps. Each is taken at most once. -/
inductive ComposeStep where
  | testPodman
  | testDocker
  | testExists
  | testSymlink
  | readUnit
  | statMode
  | statOwner
  | isEnabled
  | unmask
  | testSymlinkAgain
  | writeUnit
  | verifyUnit
  | mktemp
  | shellWrite
  | removeTemporary
  | verifyAgain
  | chown
  | reload
  | restoreUnit
  | restoreOwner
  | removeUnit
  | maskAgain
  | reloadAgain
deriving DecidableEq

/-- Messages are left out. -/
abbrev ComposeRemote (α : Type) := Remote ComposeStep ComposeHost Unit α

def rootOwner : Owner where
  user := text "root"
  group := text "root"
  validUser := by decide
  validGroup := by decide

/-- `[ -e path ]` -/
def UnitPath.exists : UnitPath → Bool
  | missing => false
  | regular .. => true
  | mask => true
  | link _ behind => behind.isSome

def UnitPath.isLink : UnitPath → Bool
  | missing => false
  | regular .. => false
  | mask => true
  | link .. => true

/-- Whether `systemctl is-enabled` says masked. -/
def ComposeHost.isMasked (host : ComposeHost) : Bool :=
  match host.unit with
  | .missing => host.runtimeMask
  | .regular .. => false
  | .mask => true
  | .link .. => false

def ComposeHost.put (unit : UnitPath) (host : ComposeHost) : ComposeHost :=
  { host with unit := unit }

/-- `systemctl unmask` -/
def ComposeHost.unmask (host : ComposeHost) : ComposeHost :=
  if host.unit = .mask then host.put .missing else host

/-- `systemctl mask` refuses to replace a file or another link. -/
def ComposeHost.mask (host : ComposeHost) : Option ComposeHost :=
  match host.unit with
  | .regular .. => none
  | .missing => some (host.put .mask)
  | .mask => some (host.put .mask)
  | .link .. => none

/-- `rm -f` -/
def ComposeHost.remove (host : ComposeHost) : ComposeHost := host.put .missing

/-- The guarded `chown` refuses links. -/
def ComposeHost.chown (owner : Owner) (host : ComposeHost) : Option ComposeHost :=
  match host.unit with
  | .regular content mode _ => some (host.put (.regular content mode.chowned owner))
  | .missing => none
  | .mask => none
  | .link .. => none

section Machine

variable (machine : ComposeMachine)

/-- `ssh.writeFile` refuses links. As root the file is a new one of root; otherwise it gets the
owner of the file that it replaces, or of the directory, after its mode. -/
def ComposeHost.write (content : Text) (mode : FileMode) (host : ComposeHost) :
    Option ComposeHost :=
  let written := if machine.asRoot then mode else mode.chowned
  match host.unit with
  | .missing =>
      some (host.put (.regular content written
        (if machine.asRoot then rootOwner else machine.directoryOwner)))
  | .regular _ _ owner =>
      some (host.put (.regular content written (if machine.asRoot then rootOwner else owner)))
  | .mask => none
  | .link .. => none

/-- `base64 -d`, `chmod`, `chown root:root` and `mv -T` in one command -/
def ComposeHost.shellWrite (content : Text) (mode : FileMode) (host : ComposeHost) :
    Option ComposeHost :=
  if host.unit.isLink then none
  else some (host.put (.regular content mode.chowned rootOwner))

/-- `cat` -/
def UnitPath.read : UnitPath → Option Text
  | missing => none
  | regular content _ _ => some (machine.captured content)
  | mask => some []
  | link _ behind => behind.map machine.captured

/-- `stat` does not follow links. -/
def UnitPath.mode : UnitPath → Option FileMode
  | missing => none
  | regular _ mode _ => some mode
  | mask => some 0x1FF
  | link .. => some 0x1FF

def UnitPath.owner : UnitPath → Option Owner
  | missing => none
  | regular _ _ owner => some owner
  | mask => some machine.linkOwner
  | link .. => some machine.linkOwner

def readFile (step : ComposeStep) : ComposeRemote Text :=
  Remote.readWhere () step fun host => host.unit.read machine

/-- `ssh.writeFile`, which throws for an invalid mode -/
def writeFile (step : ComposeStep) (content mode : Text) : ComposeRemote Unit :=
  if validateMode mode then
    Remote.requireWhere () step (ComposeHost.write machine content (FileMode.ofOctal mode))
  else Remote.throw ()

/-- The command that is rendered for the specification, which has to be one -/
def chownUnit (step : ComposeStep) (ownerSpec : Text) : ComposeRemote Bool :=
  if assertValidChownOwnershipSpec ownerSpec then
    Remote.stepWhere step fun host => (Owner.ofSpec ownerSpec).bind fun owner => host.chown owner
  else Remote.throw ()

/-! ### Snapshot -/

inductive ComposeSystemdUnitFileSnapshot where
  | captured (content mode owner : Text)
  | absent
deriving DecidableEq

structure ComposeSystemdTargetSnapshot where
  masked : Bool
  unitFile : ComposeSystemdUnitFileSnapshot
deriving DecidableEq

/-- Mode and owner of the unit; `none` where a command fails. -/
def snapshotMetadata (content : Text) : ComposeRemote (Option ComposeSystemdUnitFileSnapshot) := do
  match ← Remote.query .statMode fun host => host.unit.mode with
  | none => pure none
  | some mode => do
      match ← Remote.query .statOwner fun host => host.unit.owner machine with
      | none => pure none
      | some owner =>
          pure (some (.captured content (trim (mode.octal ++ ['\n']))
            (trim (owner.spec ++ ['\n']))))

def snapshotComposeSystemdUnitFile : ComposeRemote (Option ComposeSystemdUnitFileSnapshot) := do
  if !(← Remote.tests .testExists fun host => host.unit.exists) then pure (some .absent)
  else if ← Remote.tests .testSymlink fun host => host.unit.isLink then pure (some .absent)
  else do
    let content ← readFile machine .readUnit
    snapshotMetadata machine content

/-- A command that fails does not say masked. -/
def snapshotComposeSystemdMaskState : ComposeRemote Bool :=
  Remote.tests .isEnabled ComposeHost.isMasked

def snapshotComposeSystemdTarget : ComposeRemote (Option ComposeSystemdTargetSnapshot) := do
  match ← snapshotComposeSystemdUnitFile machine with
  | none => pure none
  | some unitFile => do
      let masked ← snapshotComposeSystemdMaskState
      pure (some { masked := masked, unitFile := unitFile })

/-! ### Write -/

inductive UnitVerification where
  | empty
  | matching
  | unexpected
deriving DecidableEq

def verifyNonEmptySystemdUnit (step : ComposeStep) (content : Text) :
    ComposeRemote UnitVerification := do
  let writtenContent ← readFile machine step
  pure (if trim writtenContent = [] then .empty
    else if trim writtenContent = trim content then .matching
    else .unexpected)

def SYSTEMD_UNIT_MODE : Text := text "0644"

/-- Whether the unit was written and reads back. -/
def rewriteComposeSystemdUnitViaShell (content : Text) : ComposeRemote Bool := do
  if !(← Remote.step .mktemp id) then pure false
  else if !(← Remote.stepWhere .shellWrite
      (ComposeHost.shellWrite content (FileMode.ofOctal SYSTEMD_UNIT_MODE))) then do
    let _ ← Remote.step .removeTemporary id
    pure false
  else do
    let fallbackVerification ← verifyNonEmptySystemdUnit machine .verifyAgain content
    pure (decide (fallbackVerification = .matching))

/-- The atomic write, and the shell where it does not read back. -/
def writeAndVerify (content : Text) : ComposeRemote Bool := do
  match ← (writeFile machine .writeUnit content SYSTEMD_UNIT_MODE).attempt with
  | .error _ => pure false
  | .ok _ => do
      let writeVerification ← verifyNonEmptySystemdUnit machine .verifyUnit content
      if writeVerification ≠ .matching then rewriteComposeSystemdUnitViaShell machine content
      else pure true

/-- Whether the unit was written. -/
def writeComposeSystemdUnitFile (content : Text) : ComposeRemote Bool := do
  if ← Remote.tests .testSymlinkAgain fun host => host.unit.isLink then pure false
  else writeAndVerify machine content

/-! ### Rollback -/

/-- Whether the unit path was restored; what `writeFile` throws goes on. -/
def restoreComposeSystemdUnitFileSnapshot :
    ComposeSystemdUnitFileSnapshot → ComposeRemote Bool
  | .captured content mode owner => do
      writeFile machine .restoreUnit content mode
      chownUnit .restoreOwner owner
  | .absent => Remote.step .removeUnit ComposeHost.remove

def restoreComposeSystemdMaskSnapshot (masked : Bool) : ComposeRemote Bool :=
  if masked then Remote.stepWhere .maskAgain ComposeHost.mask else pure true

def restoreTarget (snapshot : ComposeSystemdTargetSnapshot) : ComposeRemote Unit := do
  if ← restoreComposeSystemdUnitFileSnapshot machine snapshot.unitFile then
    if ← restoreComposeSystemdMaskSnapshot snapshot.masked then
      let _ ← Remote.step .reloadAgain id

/-- The original failure in any case; the rollback only adds to its message. -/
def rollbackComposeSystemdTargetAfterFailure (snapshot : ComposeSystemdTargetSnapshot) :
    ComposeRemote ModuleStatus := do
  let _ ← (restoreTarget machine snapshot).attempt
  pure .failed

/-! ### Apply -/

/-- Unit, owner and reload, with the rollback behind each -/
def writeAndReload (content : Text) (snapshot : ComposeSystemdTargetSnapshot) :
    ComposeRemote ModuleStatus := do
  if !(← writeComposeSystemdUnitFile machine content) then
    rollbackComposeSystemdTargetAfterFailure machine snapshot
  else if !(← chownUnit .chown (text "root:root")) then
    rollbackComposeSystemdTargetAfterFailure machine snapshot
  else if ← Remote.step .reload id then pure .changed
  else rollbackComposeSystemdTargetAfterFailure machine snapshot

def applyComposeSystemdUnit (content : Text) : ComposeRemote ModuleStatus := do
  match ← snapshotComposeSystemdTarget machine with
  | none => pure .failed
  | some snapshot => do
      if !(← Remote.step .unmask ComposeHost.unmask) then pure .failed
      else writeAndReload machine content snapshot

def detectRuntime : ComposeRemote (Option ComposeRuntime) := do
  if ← Remote.tests .testPodman ComposeHost.hasPodman then pure (some .podman)
  else if ← Remote.tests .testDocker ComposeHost.hasDocker then pure (some .docker)
  else pure none

def getRuntime : Option ComposeRuntime → ComposeRemote (Option ComposeRuntime)
  | some explicit => pure (some explicit)
  | none => detectRuntime

structure ComposeSystemdOptions where
  detached : Bool
  serviceName : Text
  projectDirectory : Text
  runtime : Option ComposeRuntime

def applyComposeSystemd (options : ComposeSystemdOptions) : ComposeRemote ModuleStatus := do
  match ← getRuntime options.runtime with
  | none => pure .failed
  | some runtime => do
      let content := generateSystemdUnit options.projectDirectory options.serviceName
        options.detached runtime
      if !validateComposeProjectDirectory options.projectDirectory then pure .failed
      else if !validateGeneratedSystemdUnitContent content then pure .failed
      else applyComposeSystemdUnit machine content

end Machine

/-! ### The checks -/

structure ExecResult where
  code : Nat
  stdout : Text
  stderr : Text
deriving DecidableEq

def COMPOSE_PS_JSON_MAX_BYTES : Nat := 1048576

/-- The `State` of an entry, or the empty text. -/
def stateOf : Json → CodeUnits
  | .object members =>
      match members.lookup (codeUnits "State") with
      | some (.string state) => state
      | _ => []
  | _ => []

/-- The states of the entries; none for a text that is too long or not read. -/
def parseContainerStates (stdout : Text) : List CodeUnits :=
  if (utf8Bytes stdout).length > COMPOSE_PS_JSON_MAX_BYTES then []
  else if stdout.head? = some '[' then
    match parseJson stdout with
    | some (.array entries) => entries.map stateOf
    | _ => []
  else
    match ((stdout.splitOn '\n').filter fun line => trim line ≠ []).mapM parseJson with
    | some entries => entries.map stateOf
    | none => []

/-- The character that an expression which ignores case compares. -/
def foldCase (char : Char) : Char :=
  if char.toNat = 0x17F then 's' else if char.toNat = 0x212A then 'k' else char.toLower

def COMPOSE_ABSENT_PROJECT_PATTERNS : List Text :=
  [text "no configuration file provided", text "no such file or directory",
    text "no such project", text "can't find a suitable configuration file", text "not found"]

def isComposeAbsentProject (result : ExecResult) : Bool :=
  let combined := (result.stdout ++ '\n' :: result.stderr).map foldCase
  COMPOSE_ABSENT_PROJECT_PATTERNS.any fun pattern => decide (pattern <:+: combined)

/-- Whether volumes are assumed to exist, by the results of `config` and of `volume ls`. -/
def composeProjectVolumesExist (config volumes : ExecResult) : Bool :=
  if config.code ≠ 0 || (parseJson config.stdout).isNone then true
  else volumes.code ≠ 0 || trim volumes.stdout ≠ []

def checkComposeDownNoContainers (volumes : Bool) (config volumeList : ExecResult) :
    CheckResult :=
  if !volumes then .ok
  else if composeProjectVolumesExist config volumeList then .needsApply
  else .ok

/-- The check by the runtime that was found and the result of `compose ps`. -/
def composeUpCheck (runtime : Option ComposeRuntime) (ps : ExecResult) : CheckResult :=
  if runtime.isNone || ps.code ≠ 0 then .needsApply
  else
    let stdout := trim ps.stdout
    if stdout = [] then .needsApply
    else
      let states := parseContainerStates stdout
      if states = [] then .needsApply
      else if states.all fun state => state = codeUnits "running" then .ok
      else .needsApply

def composeDownCheck (volumes : Bool) (runtime : Option ComposeRuntime)
    (ps config volumeList : ExecResult) : CheckResult :=
  if runtime.isNone then .needsApply
  else if ps.code ≠ 0 then if isComposeAbsentProject ps then .ok else .needsApply
  else
    let stdout := trim ps.stdout
    if stdout = [] then checkComposeDownNoContainers volumes config volumeList
    else if parseContainerStates stdout = [] ∧ stdout = text "[]" then
      checkComposeDownNoContainers volumes config volumeList
    else .needsApply

/-! ### Projects and their listing -/

inductive ContainerState where
  | created
  | running
  | exited
deriving DecidableEq

def ContainerState.name : ContainerState → CodeUnits
  | created => codeUnits "created"
  | running => codeUnits "running"
  | exited => codeUnits "exited"

/-- The services of a project, each with the state of its container if it has one. -/
structure Project where
  services : List (Text × Option ContainerState)
  distinct : (services.map Prod.fst).Nodup

/-- The entries of the services that are named, of all where none is named. -/
def Project.requested (project : Project) (named : List Text) :
    List (Text × Option ContainerState) :=
  project.services.filter fun entry => named = [] ∨ entry.1 ∈ named

/-- A container that has exited is stopped; whether one that was only created counts as stopped
depends on the version. -/
def isListed (listsCreated : Bool) : ContainerState → Bool
  | .created => listsCreated
  | .running => true
  | .exited => false

def Project.listed (project : Project) (listsCreated : Bool) (named : List Text) :
    List ContainerState :=
  ((project.requested named).filterMap Prod.snd).filter (isListed listsCreated)

/-- A line is the JSON text of an object with this state. -/
def IsEntryLine (line : Text) (state : ContainerState) : Prop :=
  line.head? = some '\x7b' ∧ line.getLast? = some '\x7d' ∧ '\n' ∉ line ∧
    ∃ entry, parseJson line = some entry ∧ stateOf entry = state.name

/-- Containers in these states, printed as an array or as an object on each line -/
inductive PrintsStates (states : List ContainerState) : Text → Prop where
  | array {json : Text} {entries : List Json} (starts : json.head? = some '[')
      (ends : json.getLast? = some ']') (reads : parseJson json = some (.array entries))
      (describes : entries.map stateOf = states.map ContainerState.name) :
      PrintsStates states (json ++ ['\n'])
  | lines {lines : List Text} (entries : List.Forall₂ IsEntryLine lines states) :
      PrintsStates states (fileText '\n' lines)

/-- `compose ps --format json`: where it succeeds, the named services exist and their
containers that are not stopped are printed in some order. -/
def PsAnswers (project : Project) (listsCreated : Bool) (named : List Text)
    (result : ExecResult) : Prop :=
  result.code = 0 → (∀ service ∈ named, service ∈ project.services.map Prod.fst) ∧
    ∃ states, states.Perm (project.listed listsCreated named) ∧ PrintsStates states result.stdout

/-! ### What is read of a listing -/

theorem mapM_parse_entries {lines : List Text} {states : List ContainerState}
    (entries : List.Forall₂ IsEntryLine lines states) : ∃ parsed,
      lines.mapM parseJson = some parsed ∧
        parsed.map stateOf = states.map ContainerState.name := by
  induction entries with
  | nil => exact ⟨[], rfl, rfl⟩
  | cons isEntry _ ih =>
    obtain ⟨_, _, _, entry, reads, isState⟩ := isEntry
    obtain ⟨parsed, areParsed, areStates⟩ := ih
    refine ⟨entry :: parsed, ?_, ?_⟩
    · rw [List.mapM_cons, reads, areParsed]
      rfl
    · rw [List.map_cons, List.map_cons, isState, areStates]

theorem isEntryLine_of_mem {lines : List Text} {states : List ContainerState}
    (entries : List.Forall₂ IsEntryLine lines states) {line : Text} (mem : line ∈ lines) :
    ∃ state, IsEntryLine line state := by
  induction entries with
  | nil => cases mem
  | @cons first state _ _ isEntry _ ih =>
    rcases List.mem_cons.1 mem with rfl | inRest
    · exact ⟨state, isEntry⟩
    · exact ih inRest

theorem trim_bracketed {line : Text} {first last : Char} (starts : line.head? = some first)
    (ends : line.getLast? = some last) (kept : isJsSpace first = false ∧ isJsSpace last = false) :
    trim line = line := by
  refine trim_eq_self (fun head isHead => ?_) fun final isFinal => ?_
  · rw [← Option.some.inj (starts.symm.trans isHead)]
    exact kept.1
  · rw [← Option.some.inj (ends.symm.trans isFinal)]
    exact kept.2

theorem IsEntryLine.trim_ne_nil {line : Text} {state : ContainerState}
    (isEntry : IsEntryLine line state) : trim line ≠ [] := by
  obtain ⟨starts, ends, _⟩ := isEntry
  rw [trim_bracketed starts ends (by decide)]
  rintro rfl
  cases starts

/-- Lines with entries, once trimmed, are split into these lines again. -/
theorem splitOn_trim_fileText {lines : List Text} {states : List ContainerState}
    (entries : List.Forall₂ IsEntryLine lines states) (nonempty : lines ≠ []) :
    (trim (fileText '\n' lines)).head? = some '\x7b' ∧
      (trim (fileText '\n' lines)).splitOn '\n' = lines := by
  have each : ∀ line ∈ lines, ∃ state, IsEntryLine line state :=
    fun line mem => isEntryLine_of_mem entries mem
  rcases List.eq_nil_or_concat lines with rfl | ⟨front, last, rfl⟩
  · exact absurd rfl nonempty
  · rw [List.concat_eq_append] at each ⊢
    obtain ⟨_, lastStarts, lastEnds, lastWhole, _⟩ := each last (by simp)
    have whole : ∀ line ∈ front, '\n' ∉ line := by
      intro line mem
      obtain ⟨_, _, _, isWhole, _⟩ := each line (List.mem_append_left _ mem)
      exact isWhole
    have starts : (fileText '\n' front ++ last).head? = some '\x7b' := by
      cases front with
      | nil => exact lastStarts
      | cons first front =>
        obtain ⟨_, firstStarts, _⟩ := each first (by simp)
        rw [fileText_cons, List.append_assoc,
          List.head?_append_of_ne_nil _ (by rintro rfl; cases firstStarts), firstStarts]
    have ends : (fileText '\n' front ++ last).getLast? = some '\x7d' := by
      rw [List.getLast?_append_of_ne_nil _ (by rintro rfl; cases lastStarts), lastEnds]
    have trimmed : trim (fileText '\n' (front ++ [last])) = fileText '\n' front ++ last := by
      have isText : fileText '\n' (front ++ [last]) = (fileText '\n' front ++ last) ++ ['\n'] := by
        simp [fileText]
      rw [isText, trim_append_blank _ (forall_mem_of_all (by decide)),
        trim_bracketed starts ends (by decide)]
    rw [trimmed, splitOn_fileText_append whole, List.splitOn_eq_singleton lastWhole]
    exact ⟨starts, rfl⟩

/-- Unless it is too long, what is printed of containers is read as their states; it is blank
or empty brackets only without any. -/
theorem parseContainerStates_printed {states : List ContainerState} {stdout : Text}
    (prints : PrintsStates states stdout) : parseContainerStates (trim stdout) =
        (if (utf8Bytes (trim stdout)).length > COMPOSE_PS_JSON_MAX_BYTES then []
        else states.map ContainerState.name) ∧
      (trim stdout = [] ∨ trim stdout = text "[]" → states = []) := by
  unfold parseContainerStates
  cases prints with
  | @array json entries starts ends reads describes =>
    rw [trim_append_blank _ (forall_mem_of_all (by decide)), trim_bracketed starts ends (by decide)]
    constructor
    · split
      · rfl
      · rw [reads]
        exact describes
    · rintro (rfl | rfl)
      · cases starts
      · have empty : parseJson (text "[]") = some (.array []) := by rfl
        rw [empty] at reads
        cases reads
        exact List.map_eq_nil_iff.1 describes.symm
  | @lines lines entries =>
    by_cases nonempty : lines = []
    · subst nonempty
      cases entries
      refine ⟨?_, fun _ => rfl⟩
      split
      · rfl
      · rfl
    · obtain ⟨starts, split⟩ := splitOn_trim_fileText entries nonempty
      obtain ⟨parsed, areParsed, areStates⟩ := mapM_parse_entries entries
      have kept : (lines.filter fun line => decide (trim line ≠ [])) = lines := by
        refine List.filter_eq_self.2 fun line mem => ?_
        obtain ⟨_, isEntry⟩ := isEntryLine_of_mem entries mem
        simpa using isEntry.trim_ne_nil
      have noBracket : (trim (fileText '\n' lines)).head? ≠ some '[' := by
        rw [starts]
        decide
      constructor
      · rw [if_neg noBracket, split, kept, areParsed]
        dsimp only
        rw [areStates]
      · rintro (blank | brackets)
        · rw [blank] at starts
          cases starts
        · rw [brackets] at noBracket
          exact absurd rfl noBracket

/-! ### Soundness -/

section Soundness

variable (project : Project) (listsCreated : Bool) (named : List Text)
  (runtime : Option ComposeRuntime)

/-- Every service that is named, every service where none is, has a container that runs. -/
def UpHolds : Prop :=
  (∀ service ∈ named, service ∈ project.services.map Prod.fst) ∧
    ∀ entry ∈ project.requested named, entry.2 = some .running

def DownHolds : Prop := ∀ entry ∈ project.services, entry.2 = none

/-- Each requested service has a container that the listing shows; or else the check was not
answered, or the listing is empty, too long, or shows a container that does not run. -/
def UpSoundWhen (ps : ExecResult) : Prop :=
  (∀ entry ∈ project.requested named, ∃ state, entry.2 = some state ∧ isListed listsCreated state) ∨
    runtime = none ∨ ps.code ≠ 0 ∨
    COMPOSE_PS_JSON_MAX_BYTES < (utf8Bytes (trim ps.stdout)).length ∨
    project.listed listsCreated named = [] ∨
    ∃ state ∈ project.listed listsCreated named, state ≠ .running

/-- Without an answer there is no container or no sign of an absent project; with one, the
listing would show every container, shows one, prints none in another way, or volumes are left. -/
def DownSoundWhen (volumes : Bool) (ps config volumeList : ExecResult) : Prop :=
  runtime = none ∨
    ps.code ≠ 0 ∧ (isComposeAbsentProject ps = false ∨ DownHolds project) ∨
    ps.code = 0 ∧
      ((∀ entry ∈ project.services, ∀ state, entry.2 = some state → isListed listsCreated state) ∨
        project.listed listsCreated [] ≠ [] ∨
        trim ps.stdout ≠ [] ∧ trim ps.stdout ≠ text "[]" ∨
        volumes = true ∧ composeProjectVolumesExist config volumeList = true)

end Soundness

variable {project : Project} {listsCreated : Bool} {named : List Text}
  {runtime : Option ComposeRuntime} {ps : ExecResult}

theorem running_iff {state : ContainerState} :
    state.name = codeUnits "running" ↔ state = .running := by
  cases state with
  | created => exact iff_of_false (by decide) (by decide)
  | running => exact iff_of_true rfl rfl
  | exited => exact iff_of_false (by decide) (by decide)

/-- The check of `compose.up` answers ok exactly for a listing with containers that all run. -/
theorem composeUpCheck_ok_iff (answers : PsAnswers project listsCreated named ps) :
    composeUpCheck runtime ps = .ok ↔ runtime ≠ none ∧ ps.code = 0 ∧
      (utf8Bytes (trim ps.stdout)).length ≤ COMPOSE_PS_JSON_MAX_BYTES ∧
      project.listed listsCreated named ≠ [] ∧
      ∀ state ∈ project.listed listsCreated named, state = .running := by
  unfold composeUpCheck
  cases runtime with
  | none => simp
  | some runtime =>
    by_cases answered : ps.code = 0
    · obtain ⟨_, states, perm, prints⟩ := answers answered
      obtain ⟨read, empty⟩ := parseContainerStates_printed prints
      have noneListed : states = [] ↔ project.listed listsCreated named = [] :=
        ⟨fun none => (none ▸ perm).nil_eq.symm, fun none => (none ▸ perm).eq_nil⟩
      have allRunning : ((states.map ContainerState.name).all
          fun state => state = codeUnits "running") = true ↔
          ∀ state ∈ project.listed listsCreated named, state = .running := by
        simp only [List.all_map, List.all_eq_true, Function.comp_apply, decide_eq_true_eq,
          running_iff, perm.mem_iff]
      have asked : ¬(((some runtime : Option ComposeRuntime).isNone || ps.code ≠ 0) = true) := by
        simp [answered]
      rw [if_neg asked]
      dsimp only
      rw [read]
      by_cases fits : (utf8Bytes (trim ps.stdout)).length ≤ COMPOSE_PS_JSON_MAX_BYTES
      · have someListed : project.listed listsCreated named ≠ [] ↔ states ≠ [] :=
          not_congr noneListed.symm
        rw [if_neg (Nat.not_lt.2 fits), someListed]
        by_cases none : states = []
        · simp [none]
        · have notBlank : trim ps.stdout ≠ [] := fun blank => none (empty (.inl blank))
          rw [if_neg notBlank, if_neg (mt List.map_eq_nil_iff.1 none)]
          split
          · next all => simpa [answered, fits, none] using allRunning.1 all
          · next some =>
            rw [allRunning] at some
            simp [some]
      · simp [Nat.not_le.1 fits, fits]
    · simp [answered]

theorem composeDownCheck_ok_iff (answers : PsAnswers project listsCreated [] ps)
    (volumes : Bool) (config volumeList : ExecResult) :
    composeDownCheck volumes runtime ps config volumeList = .ok ↔ runtime ≠ none ∧
      (ps.code ≠ 0 ∧ isComposeAbsentProject ps = true ∨
        ps.code = 0 ∧ project.listed listsCreated [] = [] ∧
          (trim ps.stdout = [] ∨ trim ps.stdout = text "[]") ∧
          (volumes = true → composeProjectVolumesExist config volumeList = false)) := by
  have noContainers : checkComposeDownNoContainers volumes config volumeList = .ok ↔
      (volumes = true → composeProjectVolumesExist config volumeList = false) := by
    unfold checkComposeDownNoContainers
    cases volumes with
    | false => simp
    | true => cases composeProjectVolumesExist config volumeList with
      | true => simp
      | false => simp
  unfold composeDownCheck
  cases runtime with
  | none => simp
  | some runtime =>
    by_cases answered : ps.code = 0
    · obtain ⟨_, states, perm, prints⟩ := answers answered
      obtain ⟨read, empty⟩ := parseContainerStates_printed prints
      have noneListed : trim ps.stdout = [] ∨ trim ps.stdout = text "[]" →
          project.listed listsCreated [] = [] := fun blank =>
        ((empty blank) ▸ perm).nil_eq.symm
      rw [if_neg (by simp), if_neg (by simp [answered])]
      dsimp only
      by_cases blank : trim ps.stdout = []
      · rw [if_pos blank, noContainers]
        simp [answered, blank, noneListed (.inl blank)]
      · rw [if_neg blank]
        by_cases brackets : trim ps.stdout = text "[]"
        · have unread : parseContainerStates (trim ps.stdout) = [] := by
            rw [read, empty (.inr brackets)]
            simp
          rw [if_pos ⟨unread, brackets⟩, noContainers]
          simp [answered, brackets, noneListed (.inr brackets)]
        · rw [if_neg (fun both => brackets both.2)]
          simp [answered, blank, brackets]
    · rw [if_neg (by simp), if_pos answered]
      cases isComposeAbsentProject ps with
      | true => simp [answered]
      | false => simp [answered]

theorem mem_listed {state : ContainerState} : state ∈ project.listed listsCreated named ↔
    ∃ entry ∈ project.requested named, entry.2 = some state ∧ isListed listsCreated state := by
  simp only [Project.listed, List.mem_filter, List.mem_filterMap]
  constructor
  · rintro ⟨⟨entry, mem, isState⟩, listed⟩
    exact ⟨entry, mem, isState, listed⟩
  · rintro ⟨entry, mem, isState, listed⟩
    exact ⟨⟨entry, mem, isState⟩, listed⟩

theorem requested_all : project.requested [] = project.services := by
  simp [Project.requested]

theorem upHolds_iff (exist : ∀ service ∈ named, service ∈ project.services.map Prod.fst)
    (run : ∀ state ∈ project.listed listsCreated named, state = .running) :
    UpHolds project named ↔ ∀ entry ∈ project.requested named,
      ∃ state, entry.2 = some state ∧ isListed listsCreated state := by
  constructor
  · rintro ⟨-, areRunning⟩ entry mem
    exact ⟨.running, areRunning entry mem, rfl⟩
  · refine fun areListed => ⟨exist, fun entry mem => ?_⟩
    obtain ⟨state, isState, listed⟩ := areListed entry mem
    rw [isState, run state (mem_listed.2 ⟨entry, mem, isState, listed⟩)]

theorem downHolds_iff (unlisted : project.listed listsCreated [] = []) :
    DownHolds project ↔ ∀ entry ∈ project.services, ∀ state, entry.2 = some state →
      isListed listsCreated state := by
  constructor
  · intro holds entry mem state isState
    rw [holds entry mem] at isState
    cases isState
  · refine fun areListed entry mem => Option.eq_none_iff_forall_ne_some.2 fun state isState => ?_
    have listed : state ∈ project.listed listsCreated [] :=
      mem_listed.2 ⟨entry, requested_all ▸ mem, isState, areListed entry mem state isState⟩
    rw [unlisted] at listed
    cases listed

/-- The answers ok of both checks are sound exactly under their conditions: `compose ps` does
not show stopped containers, and a failure is taken for an absent project. -/
theorem compose_checks_sound_iff {psDown : ExecResult} (volumes : Bool)
    (config volumeList : ExecResult) (answers : PsAnswers project listsCreated named ps)
    (downAnswers : PsAnswers project listsCreated [] psDown) :
    ((composeUpCheck runtime ps = .ok → UpHolds project named) ↔
        UpSoundWhen project listsCreated named runtime ps) ∧
      ((composeDownCheck volumes runtime psDown config volumeList = .ok → DownHolds project) ↔
        DownSoundWhen project listsCreated runtime volumes psDown config volumeList) := by
  constructor
  · rw [composeUpCheck_ok_iff answers, UpSoundWhen]
    have someOther : (¬∀ state ∈ project.listed listsCreated named, state = .running) ↔
        ∃ state ∈ project.listed listsCreated named, state ≠ .running := by
      push Not
      rfl
    have soundWhen (answered : ps.code = 0) := @upHolds_iff _ listsCreated _ (answers answered).1
    rw [← someOther, ← Nat.not_le]
    tauto
  · rw [composeDownCheck_ok_iff downAnswers, DownSoundWhen]
    have soundWhen := @downHolds_iff project listsCreated
    simp only [Ne, ← Bool.not_eq_true]
    tauto

def runningLine : Text := text "\x7b\"State\":\"running\"\x7d"

theorem isEntryLine_running : IsEntryLine runningLine .running :=
  ⟨rfl, rfl, by decide, .object [(codeUnits "State", .string (codeUnits "running"))],
    by rfl, by decide⟩

/-- A project of two services, with the second one's container in this state. -/
def webAndWorker (worker : Option ContainerState) : Project where
  services := [(text "web", some .running), (text "worker", worker)]
  distinct := (by decide : [text "web", text "worker"].Nodup)

theorem running_pair_sound : UpHolds (webAndWorker (some .running)) [] := by
  have answers : PsAnswers (webAndWorker (some .running)) false []
      ⟨0, runningLine ++ '\n' :: runningLine ++ ['\n'], []⟩ := fun _ =>
    ⟨nofun, [.running, .running], .refl _,
      .lines (.cons isEntryLine_running (.cons isEntryLine_running .nil))⟩
  have downAnswers : PsAnswers (webAndWorker (some .running)) false [] ⟨1, [], []⟩ := nofun
  refine (@compose_checks_sound_iff _ _ _ (some .docker) _ _ true ⟨1, [], []⟩ ⟨1, [], []⟩ answers
    downAnswers).1.2 (.inl ?_) ?_
  · decide
  · decide +kernel

/-- A service that has stopped is not in the listing of the one that runs; a project whose
containers have all stopped has an empty listing. -/
theorem stopped_containers_ok : ¬∀ (project : Project) (listsCreated : Bool) (named : List Text)
    (runtime : Option ComposeRuntime) (ps psDown : ExecResult) (volumes : Bool)
    (config volumeList : ExecResult), PsAnswers project listsCreated named ps →
      PsAnswers project listsCreated [] psDown →
      (composeUpCheck runtime ps = .ok → UpHolds project named) ∧
        (composeDownCheck volumes runtime psDown config volumeList = .ok → DownHolds project) := by
  intro sound
  have answers : PsAnswers (webAndWorker (some .exited)) false [] ⟨0, runningLine ++ ['\n'], []⟩ :=
    fun _ => ⟨nofun, [.running], .refl _, .lines (.cons isEntryLine_running .nil)⟩
  have both := (sound (webAndWorker (some .exited)) false [] (some .docker) _ _ false
    ⟨0, [], []⟩ ⟨0, [], []⟩ answers answers).1 (by decide +kernel)
  exact absurd both.2 (by decide)

end Paratix.Compose
