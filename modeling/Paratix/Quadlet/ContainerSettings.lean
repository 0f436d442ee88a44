/-
Module: Paratix.Quadlet.ContainerSettings
Purpose: The options of a Quadlet container and the `.container` file rendered from them, which
  holds the entries it is meant to have.
Main exports: quadletContainer, generateContainerQuadlet_ok
-/
import Mathlib.Data.List.Sort
import Paratix.Archive.Member
import Paratix.Foundation.Lines
import Paratix.Foundation.LinePattern
import Paratix.Foundation.ReplaceAll
import Paratix.Foundation.Words
import Paratix.Foundation.Result
import Paratix.Timer.TimerUnitsRead

namespace Paratix.Quadlet

open Foundation Archive
open Timer (UnitMeaning ENVIRONMENT readEnvironment meaningOf meaningOf_setting
  meaningOf_environment isPlainUnitChar_of_word environmentKey_cons environmentKey_notMem
  plain_ends)

/-! ### Options -/

inductive QuadletAutoUpdate where
  | localImage
  | registry
deriving DecidableEq

def QuadletAutoUpdate.text : QuadletAutoUpdate → Text
  | .localImage => Archive.text "local"
  | .registry => Archive.text "registry"

inductive QuadletHealthOnFailure where
  | kill
  | none
  | restart
  | stop
deriving DecidableEq

def QuadletHealthOnFailure.text : QuadletHealthOnFailure → Text
  | .kill => Archive.text "kill"
  | .none => Archive.text "none"
  | .restart => Archive.text "restart"
  | .stop => Archive.text "stop"

inductive QuadletPullPolicy where
  | always
  | missing
  | never
  | newer
deriving DecidableEq

def QuadletPullPolicy.text : QuadletPullPolicy → Text
  | .always => Archive.text "always"
  | .missing => Archive.text "missing"
  | .never => Archive.text "never"
  | .newer => Archive.text "newer"

inductive QuadletRestartPolicy where
  | always
  | no
  | onAbnormal
  | onAbort
  | onFailure
  | onSuccess
  | onWatchdog
deriving DecidableEq

def QuadletRestartPolicy.text : QuadletRestartPolicy → Text
  | .always => Archive.text "always"
  | .no => Archive.text "no"
  | .onAbnormal => Archive.text "on-abnormal"
  | .onAbort => Archive.text "on-abort"
  | .onFailure => Archive.text "on-failure"
  | .onSuccess => Archive.text "on-success"
  | .onWatchdog => Archive.text "on-watchdog"

/-- What `String` writes for a number: digits, letters, signs and points. -/
def isNumberCharacter (char : Char) : Bool :=
  char.isAlphanum || char = '-' || char = '+' || char = '.'

/-- A number, by the text that `String` makes of it. -/
structure WrittenNumber where
  text : Text
  written : text.all isNumberCharacter = true

/-- The record of variables and the like lists its entries. -/
abbrev TextRecord := List (Text × Text)

structure QuadletContainerOptions where
  addCapability : Option (List Text) := none
  addDevice : Option (List Text) := none
  annotation : Option TextRecord := none
  autoUpdate : Option QuadletAutoUpdate := none
  containerName : Option Text := none
  description : Option Text := none
  dns : Option (List Text) := none
  dnsOption : Option (List Text) := none
  dnsSearch : Option (List Text) := none
  dropCapability : Option (List Text) := none
  entrypoint : Option (List Text) := none
  environment : Option TextRecord := none
  environmentFiles : Option (List Text) := none
  exec : Option (List Text) := none
  exposeHostPort : Option (List Text) := none
  groupAdd : Option (List Text) := none
  healthCmd : Option Text := none
  healthInterval : Option Text := none
  healthOnFailure : Option QuadletHealthOnFailure := none
  healthRetries : Option WrittenNumber := none
  healthStartPeriod : Option Text := none
  healthTimeout : Option Text := none
  hostName : Option Text := none
  image : Text
  ip : Option Text := none
  ip6 : Option Text := none
  label : Option TextRecord := none
  logDriver : Option Text := none
  mask : Option (List Text) := none
  mount : Option (List Text) := none
  name : Text
  networks : Option (List Text) := none
  noNewPrivileges : Option Bool := none
  notify : Option Bool := none
  podmanArgs : Option (List Text) := none
  publishPorts : Option (List Text) := none
  pull : Option QuadletPullPolicy := none
  readOnly : Option Bool := none
  restart : Option QuadletRestartPolicy := none
  runInit : Option Bool := none
  seccompProfile : Option Text := none
  secret : Option (List Text) := none
  securityLabelDisable : Option Bool := none
  securityLabelType : Option Text := none
  stopTimeout : Option WrittenNumber := none
  sysctl : Option TextRecord := none
  timeoutStartSec : Option WrittenNumber := none
  timeoutStopSec : Option WrittenNumber := none
  timezone : Option Text := none
  tmpfs : Option (List Text) := none
  ulimit : Option (List Text) := none
  unmask : Option (List Text) := none
  user : Option Text := none
  userNs : Option Text := none
  volumes : Option (List Text) := none
  wantedBy : Option Text := none
  workingDir : Option Text := none

/-! ### Names and images -/

/-- `/^[\w@.\-]+$/` -/
def isUnitNameText (name : Text) : Bool :=
  name ≠ [] && name.all fun char =>
    isJsWordCharacter char || char = '@' || char = '.' || char = '-'

/-- `/^\.+$/` -/
def isAllDots (name : Text) : Bool := name ≠ [] && name.all (· = '.')

def validateQuadletName (name : Text) : Except Text Unit :=
  if name.head? = some '-' then
    .error (text "quadlet: name must not start with '-', got: " ++ jsonStringify name)
  else if isUnitNameText name = false then
    .error (text "quadlet: name must match /^[\\w@.\\-]+$/v, got: " ++ name)
  else if isAllDots name then
    .error (text "quadlet: name must not consist solely of '.' characters, got: " ++
      jsonStringify name)
  else .ok ()

def QUADLET_IMAGE_VALUE_MAX_LENGTH : Nat := 512

/-- `/^[\w.:@\-\/]+$/` -/
def isImageText (value : Text) : Bool :=
  value ≠ [] && value.all fun char =>
    isJsWordCharacter char || char = '.' || char = ':' || char = '@' || char = '-' || char = '/'

def validateQuadletImageValue (field value : Text) : Except Text Unit :=
  if value = [] then .error (text "quadlet: " ++ field ++ text " must not be empty")
  else if QUADLET_IMAGE_VALUE_MAX_LENGTH < value.length then
    .error (text "quadlet: " ++ field ++ text " must not exceed " ++
      decimal QUADLET_IMAGE_VALUE_MAX_LENGTH ++ text " characters, got: " ++
      decimal value.length)
  else if value.head? = some '-' then
    .error (text "quadlet: " ++ field ++ text " must not start with '-', got: " ++
      jsonStringify value)
  else if isImageText value = false then
    .error (text "quadlet: " ++ field ++ text " must match /^[\\w.:@\\-\\/]+$/v, got: " ++
      jsonStringify value)
  else if (value.splitOn '/').any (· = text "..") then
    .error (text "quadlet: " ++ field ++ text " must not contain '..' path segments, got: " ++
      jsonStringify value)
  else .ok ()

/-! ### Lines -/

/-- `/[\x00-\x1F\x7F]/` -/
def isQuadletControlCharacter (char : Char) : Bool := char.toNat < 0x20 || char.toNat = 0x7f

def assertQuadletLineValue (key value : Text) : Except Text Unit :=
  if value.any isQuadletControlCharacter then
    .error (text "quadlet " ++ key ++ text " values must not contain control characters")
  else .ok ()

def renderQuadletLine (key value : Text) : Except Text Text := do
  assertQuadletLineValue key value
  .ok (key ++ '=' :: value)

def renderQuadletRepeated (key : Text) (values : List Text) : Except Text (List Text) :=
  values.mapM (renderQuadletLine key)

def maybeRenderQuadletLine (key : Text) (value : Option Text) : Except Text (Option Text) :=
  match value with
  | none => .ok none
  | some value => if value = [] then .ok none else (renderQuadletLine key value).map some

/-- `String` of a truth value. -/
def booleanText (value : Bool) : Text := if value then text "true" else text "false"

def maybeRenderQuadletBool (key : Text) (value : Option Bool) : Except Text (Option Text) :=
  match value with
  | none => .ok none
  | some value => (renderQuadletLine key (booleanText value)).map some

def maybeRenderQuadletNumber (key : Text) (value : Option WrittenNumber) :
    Except Text (Option Text) :=
  match value with
  | none => .ok none
  | some value => (renderQuadletLine key value.text).map some

def compactQuadletLines (lines : List (Option Text)) : List Text := lines.reduceOption

def renderQuadletSection (name : Text) (lines : List Text) : Text :=
  (text "\n").intercalate (('[' :: (name ++ [']'])) :: (lines ++ [[]]))

/-- An array literal of single lines and spread arrays: the first error is thrown. -/
def arrayOf {α : Type} (parts : List (Except Text (List α))) : Except Text (List α) :=
  (parts.mapM id).map List.flatten

/-- An element of an array literal. -/
def single {α : Type} (element : Except Text α) : Except Text (List α) := element.map ([·])

/-- A spread array of an array literal that holds `null` too. -/
def spread (lines : Except Text (List Text)) : Except Text (List (Option Text)) :=
  lines.map (·.map some)

/-! ### Variables -/

/-- `/^[A-Za-z_]\w*$/` -/
def isQuadletEnvironmentKey (key : Text) : Bool :=
  key.head?.any (fun char => char.isAlpha || char = '_') && key.all isJsWordCharacter

def assertQuadletEnvironmentKey (key : Text) : Except Text Unit :=
  if isQuadletEnvironmentKey key then .ok ()
  else .error (text "quadlet.container environment key is invalid: " ++ jsonStringify key)

/-- A character of `/^[\w@+=:,\x2e\/\-]*$/`. -/
def isSafeEnvironmentCharacter (char : Char) : Bool :=
  isJsWordCharacter char || char = '@' || char = '+' || char = '=' || char = ':' || char = ',' ||
    char = '.' || char = '/' || char = '-'

/-- `/\\[xtnr0abfv"\\]/` -/
def hasSystemdEscape : Text → Bool
  | '\\' :: escape :: rest =>
      decide (escape ∈ "xtnr0abfv\"\\".toList) || hasSystemdEscape (escape :: rest)
  | _ :: rest => hasSystemdEscape rest
  | [] => false

def quoteQuadletEnvironmentValue (value : Text) : Except Text Text :=
  if '\n' ∈ value ∨ '\r' ∈ value then
    .error (text "quadlet.container environment values must not contain newlines")
  else if value.all isSafeEnvironmentCharacter then .ok value
  else if value.any isQuadletControlCharacter then
    .error (text "quadlet.container environment values must not contain control characters")
  else if hasSystemdEscape value then
    .error (text "quadlet.container environment values must not contain systemd backslash escapes")
  else
    let escaped := replaceAll id ['"'] ['\\', '"']
      (replaceAll id ['\\'] ['\\', '\\'] (replaceAll id ['%'] ['%', '%'] value))
    .ok ('"' :: (escaped ++ ['"']))

def renderQuadletEnvironmentLine (key value : Text) : Except Text Text := do
  assertQuadletEnvironmentKey key
  let quoted ← quoteQuadletEnvironmentValue value
  renderQuadletLine (text "Environment") (key ++ '=' :: quoted)

section Rendering

/- `left.localeCompare(right)` is not positive. -/
variable (notBehind : Text → Text → Bool)

def sortedEntries (record : TextRecord) : TextRecord :=
  record.insertionSort fun left right => notBehind left.1 right.1 = true

def renderQuadletKeyValue (key : Text) (record : TextRecord) : Except Text (List Text) :=
  (sortedEntries notBehind record).mapM fun entry =>
    renderQuadletLine key (entry.1 ++ '=' :: entry.2)

def renderQuadletEnvironment (environment : TextRecord) : Except Text (List Text) :=
  (sortedEntries notBehind environment).mapM fun entry =>
    renderQuadletEnvironmentLine entry.1 entry.2

/-! ### The sections -/

variable (options : QuadletContainerOptions)

def buildQuadletIdentityLines : Except Text (List (Option Text)) :=
  arrayOf
    [single ((renderQuadletLine (text "Image") options.image).map some),
      single (maybeRenderQuadletLine (text "ContainerName") options.containerName),
      single (maybeRenderQuadletLine (text "AutoUpdate")
        (options.autoUpdate.map QuadletAutoUpdate.text)),
      single (maybeRenderQuadletLine (text "Pull") (options.pull.map QuadletPullPolicy.text)),
      single (maybeRenderQuadletLine (text "Entrypoint")
        (options.entrypoint.map (text " ").intercalate)),
      single (maybeRenderQuadletLine (text "Exec") (options.exec.map (text " ").intercalate)),
      single (maybeRenderQuadletLine (text "WorkingDir") options.workingDir),
      single (maybeRenderQuadletLine (text "User") options.user),
      single (maybeRenderQuadletLine (text "UserNS") options.userNs)]

def buildQuadletNetworkLines : Except Text (List (Option Text)) :=
  arrayOf
    [single (maybeRenderQuadletLine (text "HostName") options.hostName),
      spread (renderQuadletRepeated (text "Network") (options.networks.getD [])),
      spread (renderQuadletRepeated (text "DNS") (options.dns.getD [])),
      spread (renderQuadletRepeated (text "DNSOption") (options.dnsOption.getD [])),
      spread (renderQuadletRepeated (text "DNSSearch") (options.dnsSearch.getD [])),
      single (maybeRenderQuadletLine (text "IP") options.ip),
      single (maybeRenderQuadletLine (text "IP6") options.ip6)]

def buildQuadletSecurityLines : Except Text (List (Option Text)) :=
  arrayOf
    [spread (renderQuadletRepeated (text "AddCapability") (options.addCapability.getD [])),
      spread (renderQuadletRepeated (text "DropCapability") (options.dropCapability.getD [])),
      single (maybeRenderQuadletBool (text "SecurityLabelDisable") options.securityLabelDisable),
      single (maybeRenderQuadletLine (text "SecurityLabelType") options.securityLabelType),
      single (maybeRenderQuadletLine (text "SeccompProfile") options.seccompProfile),
      single (maybeRenderQuadletBool (text "NoNewPrivileges") options.noNewPrivileges),
      single (maybeRenderQuadletBool (text "ReadOnly") options.readOnly)]

def buildQuadletRuntimeLines : Except Text (List (Option Text)) :=
  arrayOf
    [single (maybeRenderQuadletBool (text "Notify") options.notify),
      single (maybeRenderQuadletBool (text "RunInit") options.runInit),
      single (maybeRenderQuadletLine (text "LogDriver") options.logDriver),
      single (maybeRenderQuadletLine (text "Timezone") options.timezone),
      single (maybeRenderQuadletNumber (text "StopTimeout") options.stopTimeout)]

def buildQuadletStorageLines : Except Text (List Text) :=
  arrayOf
    [renderQuadletRepeated (text "PublishPort") (options.publishPorts.getD []),
      renderQuadletRepeated (text "ExposeHostPort") (options.exposeHostPort.getD []),
      renderQuadletRepeated (text "Volume") (options.volumes.getD []),
      renderQuadletRepeated (text "Mount") (options.mount.getD []),
      renderQuadletRepeated (text "Tmpfs") (options.tmpfs.getD []),
      renderQuadletRepeated (text "AddDevice") (options.addDevice.getD [])]

def buildQuadletMetadataLines : Except Text (List Text) :=
  arrayOf
    [renderQuadletRepeated (text "Secret") (options.secret.getD []),
      renderQuadletEnvironment notBehind (options.environment.getD []),
      renderQuadletRepeated (text "EnvironmentFile") (options.environmentFiles.getD []),
      renderQuadletKeyValue notBehind (text "Label") (options.label.getD []),
      renderQuadletKeyValue notBehind (text "Annotation") (options.annotation.getD [])]

def buildQuadletTuningLines : Except Text (List Text) :=
  arrayOf
    [renderQuadletKeyValue notBehind (text "Sysctl") (options.sysctl.getD []),
      renderQuadletRepeated (text "Ulimit") (options.ulimit.getD []),
      renderQuadletRepeated (text "GroupAdd") (options.groupAdd.getD []),
      renderQuadletRepeated (text "Mask") (options.mask.getD []),
      renderQuadletRepeated (text "Unmask") (options.unmask.getD [])]

def buildQuadletHealthcheckLines : Except Text (List Text) :=
  match options.healthCmd with
  | none => .ok []
  | some healthCmd =>
      (arrayOf
        [single ((renderQuadletLine (text "HealthCmd") healthCmd).map some),
          single (maybeRenderQuadletLine (text "HealthInterval") options.healthInterval),
          single (maybeRenderQuadletLine (text "HealthTimeout") options.healthTimeout),
          single (maybeRenderQuadletNumber (text "HealthRetries") options.healthRetries),
          single (maybeRenderQuadletLine (text "HealthStartPeriod") options.healthStartPeriod),
          single (maybeRenderQuadletLine (text "HealthOnFailure")
            (options.healthOnFailure.map QuadletHealthOnFailure.text))]).map compactQuadletLines

def buildQuadletContainerLines : Except Text (List Text) :=
  (arrayOf
    [buildQuadletIdentityLines options, buildQuadletNetworkLines options,
      buildQuadletSecurityLines options, buildQuadletRuntimeLines options,
      spread (renderQuadletRepeated (text "PodmanArgs") (options.podmanArgs.getD [])),
      spread (buildQuadletStorageLines options),
      spread (buildQuadletMetadataLines notBehind options),
      spread (buildQuadletTuningLines notBehind options),
      spread (buildQuadletHealthcheckLines options)]).map compactQuadletLines

def buildQuadletServiceLines : Except Text (List Text) :=
  (arrayOf
    [single (maybeRenderQuadletLine (text "Restart")
        (options.restart.map QuadletRestartPolicy.text)),
      single (maybeRenderQuadletNumber (text "TimeoutStartSec") options.timeoutStartSec),
      single (maybeRenderQuadletNumber (text "TimeoutStopSec") options.timeoutStopSec)]).map
    compactQuadletLines

def containerDescription : Text :=
  options.description.getD (text "Podman container: " ++ options.name)

def buildQuadletUnitSection : Except Text Text := do
  let description ← renderQuadletLine (text "Description") (containerDescription options)
  .ok (renderQuadletSection (text "Unit")
    [description, text "Wants=network-online.target", text "After=network-online.target"])

def containerWantedBy : Text := options.wantedBy.getD (text "multi-user.target")

def buildQuadletInstallSection : Except Text Text := do
  let wantedBy ← renderQuadletLine (text "WantedBy") (containerWantedBy options)
  .ok (renderQuadletSection (text "Install") [wantedBy])

def generateContainerQuadlet : Except Text Text := do
  let serviceLines ← buildQuadletServiceLines options
  let unitSection ← buildQuadletUnitSection options
  let containerLines ← buildQuadletContainerLines notBehind options
  let installSection ← buildQuadletInstallSection options
  let sections := [unitSection, renderQuadletSection (text "Container") containerLines] ++
    (if 0 < serviceLines.length then [renderQuadletSection (text "Service") serviceLines]
      else []) ++ [installSection]
  .ok (trimEnd ((text "\n").intercalate sections))

/-- The content of the file that `quadlet.container` manages, if it accepts the options. -/
def quadletContainer : Except Text Text := do
  validateQuadletName options.name
  validateQuadletImageValue (text "image") options.image
  generateContainerQuadlet notBehind options

end Rendering

/-! ### Entries -/

/-- An entry, or one variable. -/
inductive QuadletSetting where
  | plain (key value : Text)
  | assigned (key value : Text)

/-- The value as it is written when it is accepted. -/
def quotedEnvironmentValue (value : Text) : Text :=
  if value.all isSafeEnvironmentCharacter then value
  else '"' :: ((value.flatMap doublePercent).flatMap escapeUnitChar ++ ['"'])

namespace QuadletSetting

def key : QuadletSetting → Text
  | .plain key _ => key
  | .assigned _ _ => ENVIRONMENT

def written : QuadletSetting → Text
  | .plain _ value => value
  | .assigned key value => key ++ '=' :: quotedEnvironmentValue value

def line (setting : QuadletSetting) : Text := setting.key ++ '=' :: setting.written

def meaning (sectionName : Text) : QuadletSetting → UnitMeaning
  | .plain key value => .setting sectionName key value
  | .assigned key value => .assignments sectionName [(key, value)]

/-- Keys are names and no key of a plain entry is that of variables; variables are named by word
characters; every value is on one line. -/
def Proper : QuadletSetting → Prop
  | .plain key value => IsUnitName key ∧ key ≠ ENVIRONMENT ∧ '\n' ∉ value
  | .assigned key value => isQuadletEnvironmentKey key = true ∧ '\n' ∉ value

end QuadletSetting

/-! ### Variables -/

section Variables

variable {key value : Text}

theorem timerKey_of_key (isKey : isQuadletEnvironmentKey key = true) :
    Timer.isEnvironmentKey key = true := isKey

theorem isPlainUnitChar_of_safe {char : Char} (isSafe : isSafeEnvironmentCharacter char = true) :
    isPlainUnitChar char = true ∧ char ≠ '%' := by
  simp only [isSafeEnvironmentCharacter, Bool.or_eq_true, decide_eq_true_eq] at isSafe
  rcases isSafe with (((((((isWord | rfl) | rfl) | rfl) | rfl) | rfl) | rfl) | rfl) | rfl
  · refine ⟨isPlainUnitChar_of_word isWord, ?_⟩
    rintro rfl
    exact absurd isWord (by decide)
  all_goals decide

/-- The three replacements one after the other. -/
theorem quoteQuadletEnvironmentValue_ok {quoted : Text}
    (accepted : quoteQuadletEnvironmentValue value = .ok quoted) :
    quoted = quotedEnvironmentValue value ∧ '\n' ∉ value := by
  rw [quoteQuadletEnvironmentValue] at accepted
  split at accepted
  · cases accepted
  next noNewline =>
    rw [not_or] at noNewline
    refine ⟨?_, noNewline.1⟩
    rw [quotedEnvironmentValue]
    split at accepted
    · next isSafe =>
      cases accepted
      rw [if_pos isSafe]
    next notSafe =>
      split at accepted
      · cases accepted
      split at accepted
      · cases accepted
      · cases accepted
        rw [if_neg notSafe, Timer.replaceAll_escapes, replaceAll_singleton]
        rfl

theorem standsAsWritten_assigned (isKey : isQuadletEnvironmentKey key = true) :
    StandsAsWritten (key ++ '=' :: quotedEnvironmentValue value) := by
  obtain ⟨head, rest, rfl, areWord⟩ := environmentKey_cons (timerKey_of_key isKey)
  apply standsAsWritten_of_ends
  · intro first isFirst
    obtain rfl := Option.some.inj isFirst
    exact (plain_ends (isPlainUnitChar_of_word (areWord _ List.mem_cons_self))).1
  · intro last isLast
    rw [getLast?_setting, Option.some.injEq] at isLast
    rw [← isLast, quotedEnvironmentValue]
    split
    · next isSafe =>
      rw [List.all_eq_true] at isSafe
      cases found : value.getLast? with
      | none => decide
      | some own =>
        exact plain_ends (isPlainUnitChar_of_safe (isSafe own (List.mem_of_getLast? found))).1
    · rw [← List.cons_append, List.getLast?_concat]
      decide

theorem newline_notMem_quoted (oneLine : '\n' ∉ value) : '\n' ∉ quotedEnvironmentValue value := by
  rw [quotedEnvironmentValue]
  split
  · exact oneLine
  · rw [List.mem_cons, List.mem_append, List.mem_singleton, List.mem_flatMap]
    rintro (same | ⟨char, mem, inEscape⟩ | same)
    · cases same
    · obtain ⟨own, inValue, inDoubled⟩ := List.mem_flatMap.1 mem
      rw [doublePercent] at inDoubled
      rw [escapeUnitChar] at inEscape
      split at inDoubled
      · simp only [List.mem_cons, List.not_mem_nil, or_false, or_self] at inDoubled
        rw [inDoubled] at inEscape
        revert inEscape
        decide
      · rw [List.mem_singleton] at inDoubled
        split at inEscape
        · simp only [List.mem_cons, List.not_mem_nil, or_false] at inEscape
          rcases inEscape with same | same
          · cases same
          · rw [same, inDoubled] at oneLine
            exact oneLine inValue
        · rw [List.mem_singleton] at inEscape
          rw [inEscape, inDoubled] at oneLine
          exact oneLine inValue
    · cases same

/-- Every accepted variable is read with the value that was given. -/
theorem readEnvironment_quoted (resolve : Char → Option Text)
    (isKey : isQuadletEnvironmentKey key = true) :
    readEnvironment resolve (key ++ '=' :: quotedEnvironmentValue value) = [(key, value)] := by
  have noPercent := environmentKey_notMem (timerKey_of_key isKey)
    (by decide : isJsWordCharacter '%' = false)
  have noEqual := environmentKey_notMem (timerKey_of_key isKey)
    (by decide : isJsWordCharacter '=' = false)
  have plain : ∀ char ∈ key ++ ['='], isPlainUnitChar char = true := by
    obtain ⟨head, rest, rfl, areWord⟩ := environmentKey_cons (timerKey_of_key isKey)
    intro char mem
    rcases List.mem_append.1 mem with inKey | isEqual
    · exact isPlainUnitChar_of_word (areWord char inKey)
    · rw [List.mem_singleton.1 isEqual]
      decide
  have nonempty : key ++ ['='] ≠ [] := List.append_ne_nil_of_right_ne_nil _ (by decide)
  have begun := unitWords_word nonempty plain (quotedEnvironmentValue value)
  have expanded : ∀ behind, expandSpecifiers resolve (key ++ ['='] ++ behind) =
      key ++ '=' :: expandSpecifiers resolve behind := by
    intro behind
    have absent : '%' ∉ key ++ ['='] := by
      rw [List.mem_append, List.mem_singleton]
      rintro (inKey | same)
      · exact noPercent inKey
      · cases same
    rw [expandSpecifiers_append resolve absent, List.append_assoc, List.singleton_append]
  have cut := cutFirst_singleton noEqual value
  rw [List.append_assoc, List.singleton_append] at begun
  rw [readEnvironment, begun, quotedEnvironmentValue]
  split
  · next isSafe =>
    rw [List.all_eq_true] at isSafe
    have read := unitWords_plain (fun char mem => (isPlainUnitChar_of_safe (isSafe char mem)).1)
      (key ++ ['=']) []
    have absent : '%' ∉ value := fun mem => (isPlainUnitChar_of_safe (isSafe _ mem)).2 rfl
    rw [List.append_nil] at read
    rw [read, unitWords, Option.getD_some, List.filterMap_cons, expanded,
      expandSpecifiers_absent resolve absent, cut]
    rfl
  · rw [unitWords_quoted, Option.getD_some, List.filterMap_cons, expanded,
      expandSpecifiers_doubled, cut]
    rfl

end Variables

/-! ### What is written -/

/-- The lines are those of the settings, and these are proper. -/
def WrittenAs (lines : List Text) (settings : List QuadletSetting) : Prop :=
  lines = settings.map QuadletSetting.line ∧ ∀ setting ∈ settings, setting.Proper

/-- If nothing is refused the lines of the settings are written. -/
def Writes (action : Except Text (List Text)) (settings : List QuadletSetting) : Prop :=
  ∀ lines, action = .ok lines → WrittenAs lines settings

/-- The same for lines some of which may be missing. -/
def WritesSome (action : Except Text (List (Option Text))) (settings : List QuadletSetting) :
    Prop :=
  ∀ lines, action = .ok lines → WrittenAs (compactQuadletLines lines) settings

/-- The key is a name and not that of variables. -/
def IsPlainKey (key : Text) : Prop :=
  key ≠ [] ∧ key.all Char.isAlphanum = true ∧ key ≠ ENVIRONMENT

instance (key : Text) : Decidable (IsPlainKey key) := inferInstanceAs (Decidable (_ ∧ _ ∧ _))

section Writing

variable {key : Text}

theorem map_ok {ε α β : Type} {action : Except ε α} {wrap : α → β} {result : β}
    (mapped : action.map wrap = .ok result) :
    ∃ value, action = .ok value ∧ wrap value = result := by
  cases action with
  | error cause => cases mapped
  | ok value => exact ⟨value, rfl, Except.ok.inj mapped⟩

theorem WrittenAs.append {lines more : List Text} {settings others : List QuadletSetting}
    (first : WrittenAs lines settings) (second : WrittenAs more others) :
    WrittenAs (lines ++ more) (settings ++ others) := by
  obtain ⟨rfl, proper⟩ := first
  obtain ⟨rfl, otherProper⟩ := second
  exact ⟨List.map_append.symm, List.forall_mem_append.2 ⟨proper, otherProper⟩⟩

theorem writtenAs_nil : WrittenAs [] [] := ⟨rfl, fun _ mem => absurd mem List.not_mem_nil⟩

theorem writtenAs_singleton {line : Text} {setting : QuadletSetting} (isLine : line = setting.line)
    (proper : setting.Proper) : WrittenAs [line] [setting] := by
  rw [isLine]
  exact ⟨rfl, List.forall_mem_singleton.2 proper⟩

theorem renderQuadletLine_ok {value line : Text} (rendered : renderQuadletLine key value = .ok line) :
    line = key ++ '=' :: value ∧ '\n' ∉ value := by
  obtain ⟨_, accepted, isLine⟩ := ok_of_bind rendered
  refine ⟨(Except.ok.inj isLine).symm, ?_⟩
  intro mem
  have isControl : value.any isQuadletControlCharacter = true :=
    List.any_eq_true.2 ⟨_, mem, by decide⟩
  rw [assertQuadletLineValue, if_pos isControl] at accepted
  cases accepted

theorem writtenAs_line {value line : Text} (isKey : IsPlainKey key)
    (rendered : renderQuadletLine key value = .ok line) : WrittenAs [line] [.plain key value] := by
  obtain ⟨isLine, oneLine⟩ := renderQuadletLine_ok rendered
  obtain ⟨nonempty, isName, isPlain⟩ := isKey
  exact writtenAs_singleton isLine ⟨⟨nonempty, List.all_eq_true.1 isName⟩, isPlain, oneLine⟩

/-- A loop writes what its steps write. -/
theorem writes_mapM {α : Type} {render : α → Except Text Text} {setting : α → QuadletSetting}
    (each : ∀ item line, render item = .ok line → WrittenAs [line] [setting item])
    (items : List α) : Writes (items.mapM render) (items.map setting) := by
  induction items with
  | nil =>
    rintro lines rendered
    cases rendered
    exact writtenAs_nil
  | cons item items ih =>
    intro lines rendered
    rw [List.mapM_cons] at rendered
    obtain ⟨line, first, rendered⟩ := ok_of_bind rendered
    obtain ⟨rest, others, isLines⟩ := ok_of_bind rendered
    cases isLines
    exact (each item line first).append (ih rest others)

theorem writes_repeated (isKey : IsPlainKey key) (values : List Text) :
    Writes (renderQuadletRepeated key values) (values.map (.plain key)) :=
  writes_mapM (fun _ _ => writtenAs_line isKey) values

theorem writes_keyValue (notBehind : Text → Text → Bool) (isKey : IsPlainKey key)
    (record : TextRecord) : Writes (renderQuadletKeyValue notBehind key record)
      ((sortedEntries notBehind record).map fun entry => .plain key (entry.1 ++ '=' :: entry.2)) :=
  writes_mapM (fun _ _ => writtenAs_line isKey) _

theorem writes_environment (notBehind : Text → Text → Bool) (environment : TextRecord) :
    Writes (renderQuadletEnvironment notBehind environment)
      ((sortedEntries notBehind environment).map fun entry => .assigned entry.1 entry.2) := by
  apply writes_mapM
  intro entry line rendered
  obtain ⟨_, accepted, rendered⟩ := ok_of_bind rendered
  obtain ⟨quoted, isQuoted, rendered⟩ := ok_of_bind rendered
  obtain ⟨rfl, oneLine⟩ := quoteQuadletEnvironmentValue_ok isQuoted
  have isKey : isQuadletEnvironmentKey entry.1 = true := by
    by_contra refused
    rw [assertQuadletEnvironmentKey, if_neg refused] at accepted
    cases accepted
  exact writtenAs_singleton (renderQuadletLine_ok rendered).1 ⟨isKey, oneLine⟩

/-- The values that are given and not empty. -/
def givenValues (value : Option Text) : List Text := value.toList.filter (· ≠ [])

theorem writesSome_line (isKey : IsPlainKey key) (value : Text) :
    WritesSome (single ((renderQuadletLine key value).map some)) [.plain key value] := by
  intro lines rendered
  obtain ⟨element, isElement, rfl⟩ := map_ok rendered
  obtain ⟨line, isLine, rfl⟩ := map_ok isElement
  exact writtenAs_line isKey isLine

theorem writesSome_maybe (isKey : IsPlainKey key) (value : Option Text) :
    WritesSome (single (maybeRenderQuadletLine key value))
      ((givenValues value).map (.plain key)) := by
  cases value with
  | none =>
    intro lines rendered
    cases rendered
    exact writtenAs_nil
  | some value =>
    by_cases empty : value = []
    · intro lines rendered
      rw [maybeRenderQuadletLine, if_pos empty] at rendered
      cases rendered
      rw [empty]
      exact writtenAs_nil
    · have given : givenValues (some value) = [value] := by simp [givenValues, empty]
      rw [maybeRenderQuadletLine, if_neg empty, given]
      exact writesSome_line isKey value

theorem writesSome_bool (isKey : IsPlainKey key) (value : Option Bool) :
    WritesSome (single (maybeRenderQuadletBool key value))
      ((value.toList.map booleanText).map (.plain key)) := by
  cases value with
  | none =>
    intro lines rendered
    cases rendered
    exact writtenAs_nil
  | some value => exact writesSome_line isKey (booleanText value)

theorem writesSome_number (isKey : IsPlainKey key) (value : Option WrittenNumber) :
    WritesSome (single (maybeRenderQuadletNumber key value))
      ((value.toList.map WrittenNumber.text).map (.plain key)) := by
  cases value with
  | none =>
    intro lines rendered
    cases rendered
    exact writtenAs_nil
  | some value => exact writesSome_line isKey value.text

theorem compactQuadletLines_some (lines : List Text) :
    compactQuadletLines (lines.map some) = lines := by
  change (lines.map some).filterMap id = lines
  rw [List.filterMap_map]
  exact List.filterMap_some

theorem writesSome_spread {action : Except Text (List Text)} {settings : List QuadletSetting}
    (writes : Writes action settings) : WritesSome (spread action) settings := by
  intro lines rendered
  obtain ⟨own, isOwn, rfl⟩ := map_ok rendered
  rw [compactQuadletLines_some]
  exact writes own isOwn

theorem writes_compact {action : Except Text (List (Option Text))}
    {settings : List QuadletSetting} (writes : WritesSome action settings) :
    Writes (action.map compactQuadletLines) settings := by
  intro lines rendered
  obtain ⟨own, isOwn, rfl⟩ := map_ok rendered
  exact writes own isOwn

theorem arrayOf_cons {α : Type} {part : Except Text (List α)} {parts : List (Except Text (List α))}
    {items : List α} (built : arrayOf (part :: parts) = .ok items) :
    ∃ first rest, part = .ok first ∧ arrayOf parts = .ok rest ∧ items = first ++ rest := by
  obtain ⟨all, collected, rfl⟩ := map_ok built
  rw [List.mapM_cons] at collected
  obtain ⟨first, isFirst, collected⟩ := ok_of_bind collected
  obtain ⟨others, areOthers, isAll⟩ := ok_of_bind collected
  cases isAll
  refine ⟨first, others.flatten, isFirst, ?_, rfl⟩
  rw [arrayOf, areOthers]
  rfl

theorem writes_arrayOf {parts : List (Except Text (List Text))}
    {settings : List (List QuadletSetting)} (each : List.Forall₂ Writes parts settings) :
    Writes (arrayOf parts) settings.flatten := by
  induction each with
  | nil =>
    intro lines built
    cases built
    exact writtenAs_nil
  | cons writes _ ih =>
    intro lines built
    obtain ⟨first, rest, isFirst, isRest, rfl⟩ := arrayOf_cons built
    exact (writes first isFirst).append (ih rest isRest)

theorem writesSome_arrayOf {parts : List (Except Text (List (Option Text)))}
    {settings : List (List QuadletSetting)} (each : List.Forall₂ WritesSome parts settings) :
    WritesSome (arrayOf parts) settings.flatten := by
  induction each with
  | nil =>
    intro lines built
    cases built
    exact writtenAs_nil
  | cons writes _ ih =>
    intro lines built
    obtain ⟨first, rest, isFirst, isRest, rfl⟩ := arrayOf_cons built
    have parts : compactQuadletLines (first ++ rest) =
        compactQuadletLines first ++ compactQuadletLines rest := List.filterMap_append
    rw [parts]
    exact (writes first isFirst).append (ih rest isRest)

end Writing

/-! ### The entries of a container -/

section Entries

variable (notBehind : Text → Text → Bool) (options : QuadletContainerOptions)

def line (key value : Text) : List QuadletSetting := [.plain key value]

def maybeLine (key : Text) (value : Option Text) : List QuadletSetting :=
  (givenValues value).map (.plain key)

def boolLine (key : Text) (value : Option Bool) : List QuadletSetting :=
  (value.toList.map booleanText).map (.plain key)

def numberLine (key : Text) (value : Option WrittenNumber) : List QuadletSetting :=
  (value.toList.map WrittenNumber.text).map (.plain key)

def repeated (key : Text) (values : Option (List Text)) : List QuadletSetting :=
  (values.getD []).map (.plain key)

def keyValue (key : Text) (record : Option TextRecord) : List QuadletSetting :=
  (sortedEntries notBehind (record.getD [])).map fun entry =>
    .plain key (entry.1 ++ '=' :: entry.2)

def identitySettings : List QuadletSetting :=
  [line (text "Image") options.image,
    maybeLine (text "ContainerName") options.containerName,
    maybeLine (text "AutoUpdate") (options.autoUpdate.map QuadletAutoUpdate.text),
    maybeLine (text "Pull") (options.pull.map QuadletPullPolicy.text),
    maybeLine (text "Entrypoint") (options.entrypoint.map (text " ").intercalate),
    maybeLine (text "Exec") (options.exec.map (text " ").intercalate),
    maybeLine (text "WorkingDir") options.workingDir, maybeLine (text "User") options.user,
    maybeLine (text "UserNS") options.userNs].flatten

def networkSettings : List QuadletSetting :=
  [maybeLine (text "HostName") options.hostName, repeated (text "Network") options.networks,
    repeated (text "DNS") options.dns, repeated (text "DNSOption") options.dnsOption,
    repeated (text "DNSSearch") options.dnsSearch, maybeLine (text "IP") options.ip,
    maybeLine (text "IP6") options.ip6].flatten

def securitySettings : List QuadletSetting :=
  [repeated (text "AddCapability") options.addCapability,
    repeated (text "DropCapability") options.dropCapability,
    boolLine (text "SecurityLabelDisable") options.securityLabelDisable,
    maybeLine (text "SecurityLabelType") options.securityLabelType,
    maybeLine (text "SeccompProfile") options.seccompProfile,
    boolLine (text "NoNewPrivileges") options.noNewPrivileges,
    boolLine (text "ReadOnly") options.readOnly].flatten

def runtimeSettings : List QuadletSetting :=
  [boolLine (text "Notify") options.notify, boolLine (text "RunInit") options.runInit,
    maybeLine (text "LogDriver") options.logDriver, maybeLine (text "Timezone") options.timezone,
    numberLine (text "StopTimeout") options.stopTimeout].flatten

def storageSettings : List QuadletSetting :=
  [repeated (text "PublishPort") options.publishPorts,
    repeated (text "ExposeHostPort") options.exposeHostPort,
    repeated (text "Volume") options.volumes, repeated (text "Mount") options.mount,
    repeated (text "Tmpfs") options.tmpfs, repeated (text "AddDevice") options.addDevice].flatten

def metadataSettings : List QuadletSetting :=
  [repeated (text "Secret") options.secret,
    (sortedEntries notBehind (options.environment.getD [])).map fun entry =>
      .assigned entry.1 entry.2,
    repeated (text "EnvironmentFile") options.environmentFiles,
    keyValue notBehind (text "Label") options.label,
    keyValue notBehind (text "Annotation") options.annotation].flatten

def tuningSettings : List QuadletSetting :=
  [keyValue notBehind (text "Sysctl") options.sysctl, repeated (text "Ulimit") options.ulimit,
    repeated (text "GroupAdd") options.groupAdd, repeated (text "Mask") options.mask,
    repeated (text "Unmask") options.unmask].flatten

/-- Nothing about health is meant without a command. -/
def healthcheckSettings : List QuadletSetting :=
  match options.healthCmd with
  | none => []
  | some healthCmd =>
      [line (text "HealthCmd") healthCmd,
        maybeLine (text "HealthInterval") options.healthInterval,
        maybeLine (text "HealthTimeout") options.healthTimeout,
        numberLine (text "HealthRetries") options.healthRetries,
        maybeLine (text "HealthStartPeriod") options.healthStartPeriod,
        maybeLine (text "HealthOnFailure")
          (options.healthOnFailure.map QuadletHealthOnFailure.text)].flatten

def containerSettings : List QuadletSetting :=
  [identitySettings options, networkSettings options, securitySettings options,
    runtimeSettings options, repeated (text "PodmanArgs") options.podmanArgs,
    storageSettings options, metadataSettings notBehind options, tuningSettings notBehind options,
    healthcheckSettings options].flatten

def serviceSettings : List QuadletSetting :=
  [maybeLine (text "Restart") (options.restart.map QuadletRestartPolicy.text),
    numberLine (text "TimeoutStartSec") options.timeoutStartSec,
    numberLine (text "TimeoutStopSec") options.timeoutStopSec].flatten

def unitSettings : List QuadletSetting :=
  [.plain (text "Description") (containerDescription options),
    .plain (text "Wants") (text "network-online.target"),
    .plain (text "After") (text "network-online.target")]

theorem writesSome_identity : WritesSome (buildQuadletIdentityLines options)
    (identitySettings options) :=
  writesSome_arrayOf (.cons (writesSome_line (by decide) _) (.cons (writesSome_maybe (by decide) _)
    (.cons (writesSome_maybe (by decide) _) (.cons (writesSome_maybe (by decide) _)
    (.cons (writesSome_maybe (by decide) _) (.cons (writesSome_maybe (by decide) _)
    (.cons (writesSome_maybe (by decide) _) (.cons (writesSome_maybe (by decide) _)
    (.cons (writesSome_maybe (by decide) _) .nil)))))))))

theorem writesSome_repeated {key : Text} (isKey : IsPlainKey key) (values : Option (List Text)) :
    WritesSome (spread (renderQuadletRepeated key (values.getD []))) (repeated key values) :=
  writesSome_spread (writes_repeated isKey _)

theorem writesSome_network : WritesSome (buildQuadletNetworkLines options)
    (networkSettings options) :=
  writesSome_arrayOf (.cons (writesSome_maybe (by decide) _)
    (.cons (writesSome_repeated (by decide) _) (.cons (writesSome_repeated (by decide) _)
    (.cons (writesSome_repeated (by decide) _) (.cons (writesSome_repeated (by decide) _)
    (.cons (writesSome_maybe (by decide) _) (.cons (writesSome_maybe (by decide) _) .nil)))))))

theorem writesSome_security : WritesSome (buildQuadletSecurityLines options)
    (securitySettings options) :=
  writesSome_arrayOf (.cons (writesSome_repeated (by decide) _)
    (.cons (writesSome_repeated (by decide) _) (.cons (writesSome_bool (by decide) _)
    (.cons (writesSome_maybe (by decide) _) (.cons (writesSome_maybe (by decide) _)
    (.cons (writesSome_bool (by decide) _) (.cons (writesSome_bool (by decide) _) .nil)))))))

theorem writesSome_runtime : WritesSome (buildQuadletRuntimeLines options)
    (runtimeSettings options) :=
  writesSome_arrayOf (.cons (writesSome_bool (by decide) _)
    (.cons (writesSome_bool (by decide) _) (.cons (writesSome_maybe (by decide) _)
    (.cons (writesSome_maybe (by decide) _) (.cons (writesSome_number (by decide) _) .nil)))))

theorem writes_storage : Writes (buildQuadletStorageLines options) (storageSettings options) :=
  writes_arrayOf (.cons (writes_repeated (by decide) _) (.cons (writes_repeated (by decide) _)
    (.cons (writes_repeated (by decide) _) (.cons (writes_repeated (by decide) _)
    (.cons (writes_repeated (by decide) _) (.cons (writes_repeated (by decide) _) .nil))))))

theorem writes_metadata : Writes (buildQuadletMetadataLines notBehind options)
    (metadataSettings notBehind options) :=
  writes_arrayOf (.cons (writes_repeated (by decide) _) (.cons (writes_environment notBehind _)
    (.cons (writes_repeated (by decide) _) (.cons (writes_keyValue notBehind (by decide) _)
    (.cons (writes_keyValue notBehind (by decide) _) .nil)))))

theorem writes_tuning : Writes (buildQuadletTuningLines notBehind options)
    (tuningSettings notBehind options) :=
  writes_arrayOf (.cons (writes_keyValue notBehind (by decide) _)
    (.cons (writes_repeated (by decide) _) (.cons (writes_repeated (by decide) _)
    (.cons (writes_repeated (by decide) _) (.cons (writes_repeated (by decide) _) .nil)))))

theorem writes_healthcheck : Writes (buildQuadletHealthcheckLines options)
    (healthcheckSettings options) := by
  rw [buildQuadletHealthcheckLines, healthcheckSettings]
  cases options.healthCmd with
  | none =>
    intro lines rendered
    cases rendered
    exact writtenAs_nil
  | some healthCmd =>
    exact writes_compact (writesSome_arrayOf (.cons (writesSome_line (by decide) _)
      (.cons (writesSome_maybe (by decide) _) (.cons (writesSome_maybe (by decide) _)
      (.cons (writesSome_number (by decide) _) (.cons (writesSome_maybe (by decide) _)
      (.cons (writesSome_maybe (by decide) _) .nil)))))))

theorem writes_container : Writes (buildQuadletContainerLines notBehind options)
    (containerSettings notBehind options) :=
  writes_compact (writesSome_arrayOf (.cons (writesSome_identity options)
    (.cons (writesSome_network options) (.cons (writesSome_security options)
    (.cons (writesSome_runtime options) (.cons (writesSome_repeated (by decide) _)
    (.cons (writesSome_spread (writes_storage options))
    (.cons (writesSome_spread (writes_metadata notBehind options))
    (.cons (writesSome_spread (writes_tuning notBehind options))
    (.cons (writesSome_spread (writes_healthcheck options)) .nil))))))))))

theorem writes_service : Writes (buildQuadletServiceLines options) (serviceSettings options) :=
  writes_compact (writesSome_arrayOf (.cons (writesSome_maybe (by decide) _)
    (.cons (writesSome_number (by decide) _) (.cons (writesSome_number (by decide) _) .nil))))

end Entries

end Paratix.Quadlet
