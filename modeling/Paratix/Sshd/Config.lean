/-
Module: Paratix.Sshd.Config
Purpose: The lines of sshd_config, and the check and the apply of sshd.config as remote steps.
Main exports: buildSshdConfigContent, checkSshdConfig
-/
import Paratix.Archive.Member
import Paratix.Foundation.LinePattern
import Paratix.Foundation.Words
import Paratix.Foundation.Remote
import Paratix.Orchestration.Environment

namespace Paratix.Sshd

open Foundation Archive Orchestration

/-- `Object.entries` of the requested settings -/
abbrev SshdSettings := List (Text × Text)

structure SshdDirective where
  directive : Text
  value : Text
deriving DecidableEq

/-! ### Lines -/

/-- `content.split(/\r?\n/v)` -/
def splitLines : Text → List Text
  | [] => [[]]
  | '\r' :: '\n' :: rest => [] :: splitLines rest
  | '\n' :: rest => [] :: splitLines rest
  | char :: rest =>
      match splitLines rest with
      | [] => [[char]]
      | line :: lines => (char :: line) :: lines

def parseSshdConfigLine (rawLine : Text) : Option SshdDirective :=
  let stripped := rawLine.dropWhile isJsSpace
  if stripped = [] ∨ stripped.head? = some '#' then none
  else
    let directive := stripped.takeWhile fun char => !isJsSpace char
    let value := trim (stripped.dropWhile fun char => !isJsSpace char)
    -- Without white space there is no value either.
    if value = [] then none else some { directive := directive, value := value }

def SECURITY_RELEVANT_DIRECTIVES : List Text :=
  [text "allowgroups", text "allowusers", text "authenticationmethods",
    text "challengeresponseauthentication", text "denygroups", text "denyusers",
    text "kbdinteractiveauthentication", text "passwordauthentication",
    text "permitemptypasswords", text "permitrootlogin", text "pubkeyauthentication"]

section Lowercase

/- `text.toLowerCase()` -/
variable (toLowerCase : Text → Text)

def isMatchBlockLine (rawLine : Text) : Bool :=
  match parseSshdConfigLine rawLine with
  | none => false
  | some parsed => toLowerCase parsed.directive = text "match"

/-- The value of a line, where its directive is the expected one -/
def directiveValue (expectedKeyLower rawLine : Text) : Option Text :=
  match parseSshdConfigLine rawLine with
  | none => none
  | some parsed =>
      if toLowerCase parsed.directive = expectedKeyLower then some parsed.value else none

/-! ### Reading -/

def directiveContradictsValue (rawLine expectedKeyLower desiredValue : Text) : Bool :=
  match directiveValue toLowerCase expectedKeyLower rawLine with
  | none => false
  | some value => value ≠ desiredValue

/-- The lines from the first `Match` block on; lines of `Match` itself are not looked at. -/
def hasContradictingMatchBlockOverride (content key desiredValue : Text) : Bool :=
  let expectedKeyLower := toLowerCase key
  if expectedKeyLower ∉ SECURITY_RELEVANT_DIRECTIVES then false
  else
    ((splitLines content).dropWhile fun line => !isMatchBlockLine toLowerCase line).any fun line =>
      !isMatchBlockLine toLowerCase line &&
        directiveContradictsValue toLowerCase line expectedKeyLower desiredValue

def findContradictingSshdMatchBlockOverride (content : Text) : SshdSettings → Option Text
  | [] => none
  | (key, value) :: rest =>
      if hasContradictingMatchBlockOverride toLowerCase content key (trim value) then some key
      else findContradictingSshdMatchBlockOverride content rest

def collectTopLevelSshdDirectiveValues (content key : Text) : List Text :=
  ((splitLines content).takeWhile fun line => !isMatchBlockLine toLowerCase line).filterMap
    (directiveValue toLowerCase (toLowerCase key))

def collectEffectiveSshdDirectiveValues (content key : Text) : List Text :=
  (splitLines content).filterMap (directiveValue toLowerCase (toLowerCase key))

def findNonMatchingEffectiveSshdSetting (effectiveConfig : Text) : SshdSettings → Option Text
  | [] => none
  | (key, value) :: rest =>
      let desiredValue := trim value
      let values := collectEffectiveSshdDirectiveValues toLowerCase effectiveConfig key
      if values = [] then some key
      else if values.any fun currentValue => currentValue ≠ desiredValue then some key
      else findNonMatchingEffectiveSshdSetting effectiveConfig rest

def sshdSettingMatchesEverywhere (content key value : Text) : Bool :=
  let desiredValue := trim value
  let values := collectTopLevelSshdDirectiveValues toLowerCase content key
  if values = [] then false
  else if values.any fun currentValue => currentValue ≠ desiredValue then false
  else !hasContradictingMatchBlockOverride toLowerCase content key desiredValue

/-! ### Rewriting -/

def rewriteMatchingDirectiveLine (rawLine expectedKeyLower replacement : Text) : Option Text :=
  match directiveValue toLowerCase expectedKeyLower rawLine with
  | none => none
  | some _ => some (rawLine.takeWhile isJsSpace ++ replacement)

structure TopLevelRewrite where
  didReplace : Bool
  /-- The index of the first `Match` block; `none` stands for -1. -/
  firstMatchIndex : Option Nat
  rewritten : List Text
deriving DecidableEq

def rewriteTopLevelLines (expectedKeyLower replacement : Text) : List Text → TopLevelRewrite
  | [] => { didReplace := false, firstMatchIndex := none, rewritten := [] }
  | rawLine :: lines =>
      if isMatchBlockLine toLowerCase rawLine then
        { didReplace := false, firstMatchIndex := some 0, rewritten := rawLine :: lines }
      else
        let rest := rewriteTopLevelLines expectedKeyLower replacement lines
        let firstMatchIndex := rest.firstMatchIndex.map (· + 1)
        match rewriteMatchingDirectiveLine toLowerCase rawLine expectedKeyLower replacement with
        | none =>
            { didReplace := rest.didReplace
              firstMatchIndex := firstMatchIndex
              rewritten := rawLine :: rest.rewritten }
        | some replaced =>
            { didReplace := true
              firstMatchIndex := firstMatchIndex
              rewritten := replaced :: rest.rewritten }

def applySshdSettingToContent (content key value : Text) : Text :=
  let newDirectiveLine := key ++ text " " ++ value
  let result :=
    rewriteTopLevelLines toLowerCase (toLowerCase key) newDirectiveLine (splitLines content)
  if result.didReplace then joinLines result.rewritten
  else
    match result.firstMatchIndex with
    | some index => joinLines (result.rewritten.insertIdx index newDirectiveLine)
    | none =>
        if content.getLast? = some '\n' then content ++ newDirectiveLine ++ ['\n']
        else content ++ ['\n'] ++ newDirectiveLine ++ ['\n']

structure SshdConfigContent where
  didChange : Bool
  newContent : Text
deriving DecidableEq

def buildSshdConfigContent (originalConfig : Text) (settings : SshdSettings) :
    SshdConfigContent :=
  let newContent := settings.foldl (fun content setting =>
    applySshdSettingToContent toLowerCase content setting.1 setting.2) originalConfig
  { didChange := newContent ≠ originalConfig, newContent := newContent }

end Lowercase

/-! ### The host -/

structure SshdHost where
  /-- `/etc/ssh/sshd_config` -/
  config : Text
  /-- The content of the file when the running daemon last read it -/
  loaded : Text
deriving DecidableEq

/-- What the programs of the host make of the content of the file. -/
structure Daemon where
  /-- `text.toLowerCase()` -/
  toLowerCase : Text → Text
  /-- Whether `sshd -t` accepts the content -/
  accepts : Text → Bool
  /-- What `sshd -T` prints for the content, where its exit code is zero -/
  effective : Text → Option Text

/-- `sshd -T` prints the file. -/
def plainDaemon : Daemon where
  toLowerCase content := content.map Char.toLower
  accepts _ := true
  effective := some

inductive RemoteError where
  | disconnected
  | other
deriving DecidableEq

/-- The remote steps of sshd.config. Each is taken at most once. -/
inductive ConfigStep where
  | acquireLease
  | releaseLease
  | readConfig
  | findSshdUnit
  | findSshUnit
  | allocateCandidate
  | writeCandidate
  | candidateDirectory
  | candidateSyntax
  | removeCandidate
  | rereadConfig
  | writeConfig
  | readAfterFailedWrite
  | undoFailedWrite
  | effectiveDirectory
  | effectiveConfig
  /-- With the number of attempts that are left after it -/
  | rollbackWrite (left : Nat)
  | rollbackRead
  | findExecReload
  | reload
  | undoFailedReload
  | findExecReloadAgain
  | reloadAgain
deriving DecidableEq

abbrev SshdRemote (α : Type) := Remote ConfigStep SshdHost RemoteError α

def SshdHost.write (content : Text) (host : SshdHost) : SshdHost := { host with config := content }

/-- The daemon reads the file again. -/
def SshdHost.load (host : SshdHost) : SshdHost := { host with loaded := host.config }

/-- A command that changes neither the file nor the daemon. -/
def quiet (key : ConfigStep) : SshdRemote Bool := Remote.step key id

def readFile (key : ConfigStep) : SshdRemote Text := Remote.read .other key SshdHost.config

def writeFile (key : ConfigStep) (content : Text) : SshdRemote Unit :=
  Remote.require .other key (SshdHost.write content)

/-! ### Reload -/

/-- Only whether there is a unit matters; its name is left out. -/
def resolveSshServiceUnit : SshdRemote Unit := do
  let sshdExists ← quiet .findSshdUnit
  if sshdExists then pure ()
  else
    let sshExists ← quiet .findSshUnit
    if sshExists then pure () else Remote.throw .other

def preflightSshdReloadUnitIfChanged (didChange : Bool) : SshdRemote (Option ModuleStatus) :=
  if didChange then do
    match ← resolveSshServiceUnit.attempt with
    | .ok _ => pure none
    | .error _ => pure (some .failed)
  else pure none

/-- With or without `ExecReload=`, the daemon reads the file again. -/
def reloadSshd : SshdRemote ModuleStatus := do
  let _hasExecReload ← quiet .findExecReload
  let reloaded ← Remote.step .reload SshdHost.load
  pure (if reloaded then .changed else .failed)

def runPostRollbackReloadOrSurfaceManualRestart : SshdRemote ModuleStatus := do
  let hasExecReload ← quiet .findExecReloadAgain
  if hasExecReload then
    let _restored ← Remote.step .reloadAgain SshdHost.load
    pure .failed
  else pure .failed

def rollbackSshdConfigAfterReloadFailure (originalConfig : Text) : SshdRemote ModuleStatus := do
  match ← (writeFile .undoFailedReload originalConfig).attempt with
  | .error _ => pure .failed
  | .ok _ => runPostRollbackReloadOrSurfaceManualRestart

def reloadChangedSshdConfig (didChange : Bool) (originalConfig : Text) :
    SshdRemote ModuleStatus :=
  if didChange then do
    let reloadResult ← reloadSshd
    if reloadResult ≠ .failed then pure reloadResult
    else rollbackSshdConfigAfterReloadFailure originalConfig
  else pure .ok

/-! ### Effective configuration -/

inductive EffectiveSshdConfigMismatch where
  | privilegeSeparationFailure
  /-- The exit code of `sshd -T` is not zero: a permission error or a mismatch, which
  differ in the message only. -/
  | unreadable
  | mismatch (directive : Text)
  | «match»
deriving DecidableEq

def SSHD_ROLLBACK_WRITE_ATTEMPTS : Nat := 3

def writeSshdRollbackWithRetry (originalConfig : Text) : Nat → SshdRemote Bool
  | 0 => pure false
  | left + 1 => do
      match ← (writeFile (.rollbackWrite left) originalConfig).attempt with
      | .ok _ => pure true
      | .error _ => writeSshdRollbackWithRetry originalConfig left

def verifySshdConfigMatchesRollback (originalConfig : Text) : SshdRemote Bool := do
  match ← (readFile .rollbackRead).attempt with
  | .ok current => pure (current = originalConfig)
  | .error _ => pure false

def rollbackSshdConfigAfterEffectiveMismatch (originalConfig : Text) :
    SshdRemote ModuleStatus := do
  let written ← writeSshdRollbackWithRetry originalConfig SSHD_ROLLBACK_WRITE_ATTEMPTS
  if written then
    let _verified ← verifySshdConfigMatchesRollback originalConfig
    pure .failed
  else pure .failed

section Daemon

variable (daemon : Daemon)

def findEffectiveSshdConfigMismatch (settings : SshdSettings) :
    SshdRemote EffectiveSshdConfigMismatch := do
  let created ← quiet .effectiveDirectory
  if created then
    match ← Remote.query .effectiveConfig fun host => daemon.effective host.config with
    | none => pure .unreadable
    | some output =>
        match findNonMatchingEffectiveSshdSetting daemon.toLowerCase output settings with
        | none => pure .match
        | some directive => pure (.mismatch directive)
  else pure .privilegeSeparationFailure

def rejectNonMatchingEffectiveSshdConfig (didChange : Bool) (originalConfig : Text)
    (settings : SshdSettings) : SshdRemote (Option ModuleStatus) := do
  let mismatch ← findEffectiveSshdConfigMismatch daemon settings
  if mismatch = .match then pure none
  else if didChange then
    let rolledBack ← rollbackSshdConfigAfterEffectiveMismatch originalConfig
    pure (some rolledBack)
  else pure (some .failed)

/-! ### Apply -/

/-- What `validateProspectiveSshdConfig` tries before it removes the candidate -/
def checkCandidate (content : Text) : SshdRemote Bool := do
  match ← (Remote.require .other .writeCandidate id).attempt with
  | .error _ => pure false
  | .ok _ =>
      let created ← quiet .candidateDirectory
      if created then
        let completed ← quiet .candidateSyntax
        pure (completed && daemon.accepts content)
      else pure false

def validateProspectiveSshdConfig (content : Text) : SshdRemote Bool := do
  let allocated ← quiet .allocateCandidate
  if allocated then (checkCandidate daemon content).ensuring (quiet .removeCandidate)
  else pure false

def validateIfChanged (didChange : Bool) (content : Text) : SshdRemote Bool :=
  if didChange then validateProspectiveSshdConfig daemon content else pure true

/-- `guardedWriteFile` -/
def guardedWriteFile (originalContent newContent : Text) : SshdRemote Unit := do
  let currentContent ← readFile .rereadConfig
  if currentContent = originalContent then writeFile .writeConfig newContent
  else Remote.throw .other

def rollbackSshdConfigAfterWriteFailure (originalConfig newContent : Text) :
    SshdRemote Unit := do
  match ← (readFile .readAfterFailedWrite).attempt with
  | .error _ => pure ()
  | .ok currentConfig =>
      if currentConfig = newContent then
        let _undone ← (writeFile .undoFailedWrite originalConfig).attempt
        pure ()
      else pure ()

def writeSshdConfigIfChanged (didChange : Bool) (originalConfig newContent : Text) :
    SshdRemote (Option ModuleStatus) :=
  if didChange then do
    match ← (guardedWriteFile originalConfig newContent).attempt with
    | .ok _ => pure none
    | .error _ =>
        rollbackSshdConfigAfterWriteFailure originalConfig newContent
        pure (some .failed)
  else pure none

def applySshdConfigUnderLock (settings : SshdSettings) : SshdRemote ModuleStatus := do
  let originalConfig ← readFile .readConfig
  let built := buildSshdConfigContent daemon.toLowerCase originalConfig settings
  match findContradictingSshdMatchBlockOverride daemon.toLowerCase built.newContent settings with
  | some _ => pure .failed
  | none =>
    match ← preflightSshdReloadUnitIfChanged built.didChange with
    | some failure => pure failure
    | none =>
      let valid ← validateIfChanged daemon built.didChange built.newContent
      if valid then
        match ← writeSshdConfigIfChanged built.didChange originalConfig built.newContent with
        | some failure => pure failure
        | none =>
          match ← rejectNonMatchingEffectiveSshdConfig daemon built.didChange originalConfig
              settings with
          | some failure => pure failure
          | none => reloadChangedSshdConfig built.didChange originalConfig
      else pure .failed

/-- A lease that cannot be had is a failure; its release is quiet. -/
def withSshdCommitLease (critical : SshdRemote ModuleStatus) : SshdRemote ModuleStatus := do
  let acquired ← quiet .acquireLease
  if acquired then critical.ensuring (quiet .releaseLease).attempt else pure .failed

def applySshdConfig (settings : SshdSettings) : SshdRemote ModuleStatus :=
  withSshdCommitLease (applySshdConfigUnderLock daemon settings)

/-! ### Check -/

def checkSshdConfig (settings : SshdSettings) : SshdRemote CheckResult := do
  let content ← readFile .readConfig
  match findContradictingSshdMatchBlockOverride daemon.toLowerCase content settings with
  | some _ => pure .needsApply
  | none =>
    if settings.all fun setting =>
        sshdSettingMatchesEverywhere daemon.toLowerCase content setting.1 setting.2 then
      let effectiveMismatch ← findEffectiveSshdConfigMismatch daemon settings
      pure (if effectiveMismatch = .match then .ok else .needsApply)
    else pure .needsApply

end Daemon

end Paratix.Sshd
