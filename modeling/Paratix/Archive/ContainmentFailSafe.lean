/-
Module: Paratix.Archive.ContainmentFailSafe
Purpose: Containment entries: their bodies, how these are read back, and the ledger of a listing,
  which no incomplete output keeps from the verification of the whole destination.
Main exports: ContainmentFlagBody, containment_entries_fail_safe
-/
import Paratix.Archive.Member
import Paratix.Foundation.Json
import Paratix.Foundation.LinePattern
import Paratix.Foundation.Lines
import Paratix.Foundation.Utf8
import Paratix.Masking.Secrets

namespace Paratix.Archive

open Foundation
open Masking (CodeUnits codeUnits)

/-! ### Bodies -/

def CONTAINMENT_FLAG_LINK_LIMIT : Nat := 256

def CONTAINMENT_FLAG_BODY_LIMIT_BYTES : Nat := 65536

def CONTAINMENT_FLAG_VERSION : Nat := 1

def CONTAINMENT_SCOPE_FLAG_VERSION : Nat := 2

/-- `/^[\da-f]$/` for every character. -/
def isLowerHex (char : Char) : Bool := char.isDigit || ('a' ≤ char && char ≤ 'f')

/-- `/^[\da-f]{64}$/` -/
def isSha256 (value : Text) : Bool := value.length = 64 && value.all isLowerHex

/-- A code unit that is a character of a sha256 digest. -/
def isSha256Units (units : CodeUnits) : Bool :=
  units.length = 64 && units.all fun unit => isLowerHex (Char.ofNat unit.toNat)

def TOO_MANY_OFFENDING_LINKS : CodeUnits := codeUnits "too many offending links"

/-- A record of an apply that failed, that does not know the links or that threw, or the body an
apply starts with. -/
inductive ContainmentFlagBody where
  | failed (links : List CodeUnits)
  | unknown (reason : CodeUnits)
  | stopped (scope : CodeUnits)
  | inProgress (scope : CodeUnits)

inductive ParsedContainmentFlag where
  | recorded (links : List CodeUnits)
  | scoped (scope : CodeUnits)
  | unknown (why : CodeUnits)

/-- The members of a body: `version`, `state` and one more key, in the order of the alphabet. -/
def flagMembers (key : String) (value : Json) (state : String) (version : Nat) :
    List (CodeUnits × Json) :=
  [(codeUnits key, value), (codeUnits "state", .string (codeUnits state)),
    (codeUnits "version", .number (decimal version))]

def flagObject (key : String) (value : Json) (state : String) (version : Nat) : Json :=
  .object (flagMembers key value state version)

def bodyLine (object : Json) : Text := stringifyJson object ++ ['\n']

def unknownFlagBody (reason : CodeUnits) : Text :=
  bodyLine (flagObject "reason" (.string reason) "unknown" CONTAINMENT_FLAG_VERSION)

/-- `[...new Set(links)]` -/
def distinctLinks (links : List CodeUnits) : List CodeUnits := links.foldl setAdd []

def failedFlagBody (links : List CodeUnits) : Text :=
  bodyLine (flagObject "links" (.array (links.map .string)) "failed" CONTAINMENT_FLAG_VERSION)

/-- There are more links than the limit, or more bytes. -/
def ExceedsLimits (links : List CodeUnits) : Prop :=
  CONTAINMENT_FLAG_LINK_LIMIT < (distinctLinks links).length ∨
    CONTAINMENT_FLAG_BODY_LIMIT_BYTES <
      (utf8Bytes (failedFlagBody (distinctLinks links))).length

instance (links : List CodeUnits) : Decidable (ExceedsLimits links) :=
  inferInstanceAs (Decidable (_ ∨ _))

def containmentFlagBody : ContainmentFlagBody → Text
  | .stopped scope =>
      bodyLine (flagObject "scope" (.string scope) "stopped" CONTAINMENT_SCOPE_FLAG_VERSION)
  | .inProgress scope =>
      bodyLine (flagObject "scope" (.string scope) "in-progress" CONTAINMENT_SCOPE_FLAG_VERSION)
  | .unknown reason => unknownFlagBody reason
  | .failed links =>
      if ExceedsLimits links then unknownFlagBody TOO_MANY_OFFENDING_LINKS
      else failedFlagBody (distinctLinks links)

/-! ### Reading a body -/

def NO_USABLE_LIST : CodeUnits := codeUnits
  "holds no usable list of offending links (it was written by an older paratix version or is damaged)"

def IN_PROGRESS : CodeUnits := codeUnits
  "records an apply that did not finish (it stopped after it started, possibly after its merge had begun, it lost its extract lock, or it is an apply of an older paratix version without the extract lock that is still running)"

def SCOPE_MISMATCH : CodeUnits := codeUnits
  "records an apply that did not finish whose archive scope differs from this apply's (another archive, or a scope derived by another paratix or Unicode version)"

def NO_USABLE_LIST_STATE : ParsedContainmentFlag := .unknown NO_USABLE_LIST

/-- No empty segment, no `.` and no `..`. -/
def isNormalizedRelativePath (path : CodeUnits) : Bool :=
  (path.splitOn 0x2f).all fun segment =>
    segment ≠ [] && segment ≠ codeUnits "." && segment ≠ codeUnits ".."

def jsonText : Json → Option CodeUnits
  | .string units => some units
  | _ => none

def isRecordedLink (link : CodeUnits) : Bool := link ≠ [] && isNormalizedRelativePath link

def validRecordedLinks : Json → Option (List CodeUnits)
  | .array items =>
      if CONTAINMENT_FLAG_LINK_LIMIT < items.length then none
      else do
        let links ← items.mapM jsonText
        if links.all isRecordedLink && (distinctLinks links).length = links.length then some links
        else none
  | _ => none

section Numbers

-- Whether a written number is the integer.
variable (isNumber : List Char → Nat → Bool)

def isVersion (value : Json) (version : Nat) : Bool :=
  match value with
  | .number literal => isNumber literal version
  | _ => false

def interpretFlagObject (members : List (CodeUnits × Json)) (state : Json) :
    ParsedContainmentFlag :=
  match members.lookup (codeUnits "links") with
  | some links =>
      if jsonText state = some (codeUnits "in-progress") then .unknown IN_PROGRESS
      else if jsonText state ≠ some (codeUnits "failed") then NO_USABLE_LIST_STATE
      else
        match validRecordedLinks links with
        | none => NO_USABLE_LIST_STATE
        | some links => .recorded links
  | none =>
      match (members.lookup (codeUnits "reason")).bind jsonText with
      | some reason =>
          if jsonText state = some (codeUnits "unknown") then
            .unknown (codeUnits "records a failed apply whose offending links are not known (" ++
              reason ++ codeUnits ")")
          else NO_USABLE_LIST_STATE
      | none => NO_USABLE_LIST_STATE

def interpretScopedFlagObject (members : List (CodeUnits × Json)) (state : Json) :
    ParsedContainmentFlag :=
  match (members.lookup (codeUnits "scope")).bind jsonText with
  | some scope =>
      if (jsonText state = some (codeUnits "in-progress") ∨
          jsonText state = some (codeUnits "stopped")) ∧ isSha256Units scope = true then
        .scoped scope
      else NO_USABLE_LIST_STATE
  | none => NO_USABLE_LIST_STATE

def FLAG_OBJECT_KEY_COUNT : Nat := 3

def parseContainmentFlag (content : Text) : ParsedContainmentFlag :=
  if CONTAINMENT_FLAG_BODY_LIMIT_BYTES < (utf8Bytes content).length then NO_USABLE_LIST_STATE
  else
    match parseJson content with
    | some (.object members) =>
        match members.lookup (codeUnits "version"), members.lookup (codeUnits "state") with
        | some version, some state =>
            if members.length ≠ FLAG_OBJECT_KEY_COUNT then NO_USABLE_LIST_STATE
            else if isVersion isNumber version CONTAINMENT_SCOPE_FLAG_VERSION then
              interpretScopedFlagObject members state
            else if !isVersion isNumber version CONTAINMENT_FLAG_VERSION then NO_USABLE_LIST_STATE
            else interpretFlagObject members state
        | _, _ => NO_USABLE_LIST_STATE
    | _ => NO_USABLE_LIST_STATE

def parseContainmentEntryBytes (bytes : List UInt8) : ParsedContainmentFlag :=
  if CONTAINMENT_FLAG_BODY_LIMIT_BYTES < bytes.length then
    .unknown (codeUnits "is larger than 65536 bytes and " ++ NO_USABLE_LIST)
  else
    match decodeUtf8 bytes with
    | none => .unknown (codeUnits "is not valid UTF-8 and " ++ NO_USABLE_LIST)
    | some content => parseContainmentFlag isNumber content

/-- An entry with another scope holds no usable list. -/
def containmentEntryForScope (state : ParsedContainmentFlag) (scopeDigest : CodeUnits) :
    ParsedContainmentFlag :=
  match state with
  | .scoped scope => if scope ≠ scopeDigest then .unknown SCOPE_MISMATCH else .scoped scope
  | .recorded links => .recorded links
  | .unknown why => .unknown why

def ParsedContainmentFlag.isUnknown : ParsedContainmentFlag → Bool
  | .unknown _ => true
  | _ => false

/-! ### The output that lists the entries -/

structure ContainmentEstablishInputs where
  entryDirectory : Text
  legacyFlag : Text
  ownEntry : Text
  scopeDigest : CodeUnits

structure ReadContainmentEntry where
  path : Text
  sha256 : Text
  state : ParsedContainmentFlag

inductive EstablishLine where
  | done
  | more
  | entry (read : ReadContainmentEntry)

structure RemovableContainmentEntry where
  path : Text
  sha256 : Text
deriving DecidableEq

structure ContainmentLedger where
  carried : List CodeUnits
  ownEntry : Text
  removable : List RemovableContainmentEntry
  verifyWholeDestination : Bool

def CAPTURE_TRUNCATION_MARKER : Text := text "\n[output truncated]"

/-- `/^run-[\dA-Za-z\-]*$/` -/
def isEntryName (name : Text) : Bool :=
  (text "run-").isPrefixOf name && (name.drop 4).all fun char => char.isAlphanum || char = '-'

/-- `Buffer.from(hex, "hex")` of an even number of digits. -/
def hexBytes : Text → List UInt8
  | high :: low :: rest =>
      UInt8.ofNat ((hexDigitValue high).getD 0 * 16 + (hexDigitValue low).getD 0) :: hexBytes rest
  | _ => []

def readEntryLine (path sha256 hex : Text) : Option EstablishLine :=
  if !isSha256 sha256 || !hex.all isLowerHex || hex.length % 2 ≠ 0 then none
  else some (.entry ⟨path, sha256, parseContainmentEntryBytes isNumber (hexBytes hex)⟩)

def parseEstablishLine (paths : ContainmentEstablishInputs) (line : Text) :
    Option EstablishLine :=
  if line = text "done" then some .done
  else if line = text "more" then some .more
  else
    match line.splitOn ' ' with
    | [label, first, second] =>
        if label = text "legacy" then readEntryLine isNumber paths.legacyFlag first second else none
    | [label, name, first, second] =>
        if label ≠ text "entry" || !isEntryName name then none
        else readEntryLine isNumber (paths.entryDirectory ++ '/' :: name) first second
    | _ => none

def EstablishLine.isDone : EstablishLine → Bool
  | .done => true
  | _ => false

def establishLines (paths : ContainmentEstablishInputs) (stdout : Text) :
    Option (List EstablishLine) :=
  let doneLine := text "done\n"
  if stdout ≠ doneLine && !(text "\n" ++ doneLine).isSuffixOf stdout then none
  else
    let body := stdout.take (stdout.length - doneLine.length)
    let lines := if body = [] then [] else body.dropLast.splitOn '\n'
    match lines.mapM (parseEstablishLine isNumber paths) with
    | none => none
    | some parsed => if parsed.any EstablishLine.isDone then none else some parsed

def EstablishLine.read? : EstablishLine → Option ReadContainmentEntry
  | .entry read => some read
  | _ => none

def EstablishLine.isMore : EstablishLine → Bool
  | .more => true
  | _ => false

def ParsedContainmentFlag.links : ParsedContainmentFlag → List CodeUnits
  | .recorded links => links
  | _ => []

def parseContainmentEstablishOutput (stdout : Text) (inputs : ContainmentEstablishInputs) :
    Option ContainmentLedger :=
  if CAPTURE_TRUNCATION_MARKER.isSuffixOf stdout then
    some { carried := [], ownEntry := inputs.ownEntry, removable := [],
           verifyWholeDestination := true }
  else
    match establishLines isNumber inputs stdout with
    | none => none
    | some lines =>
        let entries := lines.filterMap EstablishLine.read?
        if entries.any (fun entry => entry.path = inputs.ownEntry) then none
        else
          some { carried := distinctLinks (entries.flatMap fun entry => entry.state.links),
                 ownEntry := inputs.ownEntry,
                 removable := entries.map fun entry => ⟨entry.path, entry.sha256⟩,
                 verifyWholeDestination := lines.any EstablishLine.isMore ||
                   entries.any fun entry => entry.path = inputs.legacyFlag ||
                     (containmentEntryForScope entry.state inputs.scopeDigest).isUnknown }

end Numbers

/-! ### What is meant -/

/-- An integer that is written in decimals is read as that integer. -/
def NumberLiterals (isNumber : List Char → Nat → Bool) : Prop :=
  ∀ written meant, isNumber (decimal written) meant = decide (written = meant)

/-- Links are normalized and not empty, scopes are sha256 digests. -/
def ContainmentFlagBody.WellFormed : ContainmentFlagBody → Prop
  | .failed links => ∀ link ∈ links, isRecordedLink link = true
  | .unknown _ => True
  | .stopped scope | .inProgress scope => isSha256Units scope = true

/-- A body that exceeds the limits reads as unknown. -/
def ContainmentFlagBody.ReadsBack (read : ParsedContainmentFlag) : ContainmentFlagBody → Prop
  | .failed links =>
      if ExceedsLimits links then read.isUnknown = true
      else read = .recorded (distinctLinks links)
  | .unknown _ => read.isUnknown = true
  | .stopped scope | .inProgress scope => read = .scoped scope

/-- The bytes are, within the limit, the JSON of an object with these three members and no
other. -/
def IsEntryObject (isNumber : List Char → Nat → Bool) (bytes : List UInt8) (key : String)
    (value : Json) (state : String) (version : Nat) : Prop :=
  bytes.length ≤ CONTAINMENT_FLAG_BODY_LIMIT_BYTES ∧
    ∃ content members literal, bytes = utf8Bytes content ∧
      parseJson content = some (.object members) ∧
      members.Perm [(codeUnits key, value), (codeUnits "state", .string (codeUnits state)),
        (codeUnits "version", .number literal)] ∧
      isNumber literal version = true

/-- The output is whole: one line for each entry, and the last line says that these are all. -/
def CompleteListing (isNumber : List Char → Nat → Bool) (inputs : ContainmentEstablishInputs)
    (stdout : Text) (entries : List ReadContainmentEntry) : Prop :=
  ∃ lines, stdout = fileText '\n' (lines ++ [text "done"]) ∧
    lines.map (parseEstablishLine isNumber inputs) =
      entries.map fun entry => some (.entry entry)

section Reading

variable {isNumber : List Char → Nat → Bool}

/-! ### Bodies that are written -/

theorem isJsonWord_versions :
    ∀ version ∈ [CONTAINMENT_FLAG_VERSION, CONTAINMENT_SCOPE_FLAG_VERSION],
      IsJsonWord (decimal version) (.number (decimal version)) := by
  decide

theorem proper_flagObject {key : String} {value : Json} {version : Nat} (state : String)
    (nodup : [codeUnits key, codeUnits "state", codeUnits "version"].Nodup)
    (known : version ∈ [CONTAINMENT_FLAG_VERSION, CONTAINMENT_SCOPE_FLAG_VERSION])
    (proper : value.Proper) : (flagObject key value state version).Proper := by
  apply Json.Proper.object
  · exact nodup
  · simp only [flagMembers, List.forall_mem_cons]
    exact ⟨proper, .string _, .number (isJsonWord_versions version known), List.forall_mem_nil _⟩

theorem parseJson_bodyLine {object : Json} (proper : object.Proper) :
    parseJson (bodyLine object) = some object :=
  parseJson_stringifyJson proper (by decide)

theorem parseContainmentEntryBytes_utf8Bytes {content : Text}
    (small : (utf8Bytes content).length ≤ CONTAINMENT_FLAG_BODY_LIMIT_BYTES) :
    parseContainmentEntryBytes isNumber (utf8Bytes content) =
      parseContainmentFlag isNumber content := by
  rw [parseContainmentEntryBytes, if_neg (Nat.not_lt.2 small), decodeUtf8_utf8Bytes]

theorem lookup_flagMembers {key : String} (value : Json) (state : String) (version : Nat)
    (nodup : [codeUnits key, codeUnits "state", codeUnits "version"].Nodup) :
    (flagMembers key value state version).lookup (codeUnits key) = some value ∧
      (flagMembers key value state version).lookup (codeUnits "state") =
        some (.string (codeUnits state)) ∧
      (flagMembers key value state version).lookup (codeUnits "version") =
        some (.number (decimal version)) := by
  have each := @lookup_of_mem _ _ _ _ (flagMembers key value state version)
  refine ⟨each nodup (.head _), each nodup (.tail _ (.head _)), ?_⟩
  exact each nodup (.tail _ (.tail _ (.head _)))

/-- Every body that is written has the shape that is asked for. -/
theorem parseContainmentFlag_flagObject (literals : NumberLiterals isNumber) {key : String}
    {value : Json} {state : String} {version : Nat}
    (nodup : [codeUnits key, codeUnits "state", codeUnits "version"].Nodup)
    (known : version ∈ [CONTAINMENT_FLAG_VERSION, CONTAINMENT_SCOPE_FLAG_VERSION])
    (proper : value.Proper)
    (small : (utf8Bytes (bodyLine (flagObject key value state version))).length ≤
      CONTAINMENT_FLAG_BODY_LIMIT_BYTES) :
    parseContainmentFlag isNumber (bodyLine (flagObject key value state version)) =
      if version = CONTAINMENT_SCOPE_FLAG_VERSION then
        interpretScopedFlagObject (flagMembers key value state version) (.string (codeUnits state))
      else
        interpretFlagObject (flagMembers key value state version) (.string (codeUnits state)) := by
  obtain ⟨-, stateIs, versionIs⟩ := lookup_flagMembers value state version nodup
  have counted : ¬(flagMembers key value state version).length ≠ FLAG_OBJECT_KEY_COUNT :=
    not_not.2 rfl
  have parsed : parseJson (bodyLine (flagObject key value state version)) =
      some (.object (flagMembers key value state version)) :=
    parseJson_bodyLine (proper_flagObject state nodup known proper)
  rw [parseContainmentFlag, if_neg (Nat.not_lt.2 small), parsed]
  simp only [stateIs, versionIs, isVersion, literals version, decide_eq_true_eq]
  rw [if_neg counted]
  rcases List.mem_pair.1 known with rfl | rfl
  · rfl
  · rfl

theorem small_scopeBody {scope : CodeUnits} {state : String}
    (started : state ∈ ["in-progress", "stopped"]) (isScope : isSha256Units scope = true) :
    (utf8Bytes (bodyLine (flagObject "scope" (.string scope) state
      CONTAINMENT_SCOPE_FLAG_VERSION))).length ≤ CONTAINMENT_FLAG_BODY_LIMIT_BYTES := by
  have length : scope.length = 64 := by
    rw [isSha256Units, Bool.and_eq_true, decide_eq_true_eq] at isScope
    exact isScope.1
  have scopeChars := length_jsonStringChars_le scope
  have bytes := length_utf8Bytes_le (bodyLine (flagObject "scope" (.string scope) state
    CONTAINMENT_SCOPE_FLAG_VERSION))
  have stateChars : ∀ state ∈ ["in-progress", "stopped"],
      (jsonStringChars (codeUnits state)).length ≤ 11 := by decide
  have keyChars : (jsonStringChars (codeUnits "scope")).length = 5 ∧
    (jsonStringChars (codeUnits "state")).length = 5 ∧
    (jsonStringChars (codeUnits "version")).length = 7 ∧
    (decimal CONTAINMENT_SCOPE_FLAG_VERSION).length = 1 := by decide
  have characters : (bodyLine (flagObject "scope" (.string scope) state
      CONTAINMENT_SCOPE_FLAG_VERSION)).length ≤ 1000 := by
    have stateLength := stateChars state started
    simp only [bodyLine, stringifyJson, flagObject, flagMembers, Json.tokens, memberTokens,
      JsonToken.chars, List.flatMap_cons, List.flatMap_nil,
      List.length_append, List.length_cons, List.length_nil, List.cons_append, List.nil_append]
    omega
  apply bytes.trans
  rw [CONTAINMENT_FLAG_BODY_LIMIT_BYTES]
  omega

theorem reads_scope (literals : NumberLiterals isNumber) {scope : CodeUnits} {state : String}
    (started : state ∈ ["in-progress", "stopped"]) (isScope : isSha256Units scope = true) :
    parseContainmentEntryBytes isNumber (utf8Bytes (bodyLine (flagObject "scope" (.string scope)
      state CONTAINMENT_SCOPE_FLAG_VERSION))) = .scoped scope := by
  have nodup : [codeUnits "scope", codeUnits "state", codeUnits "version"].Nodup := by decide
  have small := small_scopeBody started isScope
  rw [parseContainmentEntryBytes_utf8Bytes small,
    parseContainmentFlag_flagObject literals nodup (by decide) (.string scope) small,
    if_pos rfl, interpretScopedFlagObject, (lookup_flagMembers _ _ _ nodup).1]
  apply if_pos
  refine ⟨?_, isScope⟩
  rcases List.mem_pair.1 started with rfl | rfl
  · exact .inl rfl
  · exact .inr rfl

theorem reads_unknown (literals : NumberLiterals isNumber) (reason : CodeUnits) :
    (parseContainmentEntryBytes isNumber (utf8Bytes (unknownFlagBody reason))).isUnknown =
      true := by
  have nodup : [codeUnits "reason", codeUnits "state", codeUnits "version"].Nodup := by decide
  by_cases small : (utf8Bytes (unknownFlagBody reason)).length ≤ CONTAINMENT_FLAG_BODY_LIMIT_BYTES
  · have noLinks : (flagMembers "reason" (.string reason) "unknown"
        CONTAINMENT_FLAG_VERSION).lookup (codeUnits "links") = none := rfl
    rw [parseContainmentEntryBytes_utf8Bytes small, unknownFlagBody,
      parseContainmentFlag_flagObject literals nodup (by decide) (.string reason) small,
      if_neg (by decide), interpretFlagObject, noLinks, (lookup_flagMembers _ _ _ nodup).1]
    rfl
  · rw [parseContainmentEntryBytes, if_pos (Nat.not_le.1 small)]
    rfl

theorem mapM_jsonText (links : List CodeUnits) :
    (links.map Json.string).mapM jsonText = some links := by
  induction links with
  | nil => rfl
  | cons link links ih =>
    rw [List.map_cons, List.mapM_cons, ih]
    rfl

theorem validRecordedLinks_distinctLinks {links : List CodeUnits}
    (recorded : ∀ link ∈ links, isRecordedLink link = true)
    (few : (distinctLinks links).length ≤ CONTAINMENT_FLAG_LINK_LIMIT) :
    validRecordedLinks (.array ((distinctLinks links).map .string)) =
      some (distinctLinks links) := by
  obtain ⟨nodup, members⟩ := foldl_setAdd_spec links [] List.nodup_nil
  have again : distinctLinks (distinctLinks links) = distinctLinks links :=
    @foldl_setAdd_nodup _ _ _ (distinctLinks links) [] nodup
  have all : (distinctLinks links).all isRecordedLink = true := by
    rw [List.all_eq_true]
    intro link mem
    exact recorded link (((members link).1 mem).resolve_left List.not_mem_nil)
  rw [validRecordedLinks, List.length_map, if_neg (Nat.not_lt.2 few), mapM_jsonText]
  show (if _ then some (distinctLinks links) else none) = _
  rw [all, again]
  simp

theorem reads_failed (literals : NumberLiterals isNumber) {links : List CodeUnits}
    (recorded : ∀ link ∈ links, isRecordedLink link = true) (within : ¬ExceedsLimits links) :
    parseContainmentEntryBytes isNumber (utf8Bytes (failedFlagBody (distinctLinks links))) =
      .recorded (distinctLinks links) := by
  rw [ExceedsLimits, not_or, Nat.not_lt, Nat.not_lt] at within
  obtain ⟨few, small⟩ := within
  have nodup : [codeUnits "links", codeUnits "state", codeUnits "version"].Nodup := by decide
  have proper : (Json.array ((distinctLinks links).map .string)).Proper := by
    apply Json.Proper.array
    intro item mem
    obtain ⟨link, -, rfl⟩ := List.mem_map.1 mem
    exact .string link
  rw [parseContainmentEntryBytes_utf8Bytes small, failedFlagBody,
    parseContainmentFlag_flagObject literals nodup (by decide) proper small,
    if_neg (by decide), interpretFlagObject, (lookup_flagMembers _ _ _ nodup).1]
  simp only [validRecordedLinks_distinctLinks recorded few]
  rfl

theorem readsBack_containmentFlagBody (literals : NumberLiterals isNumber)
    {body : ContainmentFlagBody} (wellFormed : body.WellFormed) :
    body.ReadsBack (parseContainmentEntryBytes isNumber (utf8Bytes (containmentFlagBody body))) := by
  cases body with
  | unknown reason => exact reads_unknown literals reason
  | stopped scope => exact reads_scope literals (by decide) wellFormed
  | inProgress scope => exact reads_scope literals (by decide) wellFormed
  | failed links =>
    rw [containmentFlagBody, ContainmentFlagBody.ReadsBack]
    split
    · exact reads_unknown literals TOO_MANY_OFFENDING_LINKS
    · next within => exact reads_failed literals wellFormed within

/-! ### Bytes that are read -/

/-- A text that does not read as unknown is the JSON of an object with a version and a state. -/
theorem object_of_known {content : Text}
    (known : (parseContainmentFlag isNumber content).isUnknown = false) :
    ∃ members version state, parseJson content = some (.object members) ∧ members.length = 3 ∧
      members.lookup (codeUnits "version") = some version ∧
      members.lookup (codeUnits "state") = some state ∧
      (isVersion isNumber version CONTAINMENT_SCOPE_FLAG_VERSION = true ∧
          parseContainmentFlag isNumber content = interpretScopedFlagObject members state ∨
        isVersion isNumber version CONTAINMENT_FLAG_VERSION = true ∧
          parseContainmentFlag isNumber content = interpretFlagObject members state) := by
  revert known
  fun_cases parseContainmentFlag isNumber content with
  | case3 _ members parsed version state stateIs versionIs counted isScope =>
    exact fun _ => ⟨members, version, state, parsed, not_not.1 counted, versionIs, stateIs,
      .inl ⟨isScope, rfl⟩⟩
  | case5 _ members parsed version state stateIs versionIs counted _ isLinks =>
    exact fun _ => ⟨members, version, state, parsed, not_not.1 counted, versionIs, stateIs,
      .inr ⟨by simpa using isLinks, rfl⟩⟩
  | _ => exact fun known => absurd known Bool.true_eq_false_eq_False

theorem jsonText_eq_some {value : Json} {units : CodeUnits} (isText : jsonText value = some units) :
    value = .string units := by
  cases value with
  | string read => rw [Option.some.inj isText]
  | _ => cases isText

theorem mapM_jsonText_eq_some {items : List Json} {links : List CodeUnits}
    (read : items.mapM jsonText = some links) : items = links.map .string := by
  induction items generalizing links with
  | nil =>
    cases Option.some.inj read
    rfl
  | cons item items ih =>
    rw [List.mapM_cons] at read
    obtain ⟨link, isLink, rest⟩ := Option.bind_eq_some_iff.1 read
    obtain ⟨others, areOthers, joined⟩ := Option.bind_eq_some_iff.1 rest
    cases Option.some.inj joined
    rw [List.map_cons, ih areOthers, jsonText_eq_some isLink]

/-- A list is as long as it is without repetitions exactly if it has none. -/
theorem nodup_of_length_distinctLinks {links : List CodeUnits}
    (length : (distinctLinks links).length = links.length) : links.Nodup := by
  obtain ⟨nodup, members⟩ := foldl_setAdd_spec links [] List.nodup_nil
  have below : distinctLinks links ⊆ links := by
    intro link mem
    exact ((members link).1 mem).resolve_left List.not_mem_nil
  have permuted := (List.subperm_of_subset nodup below).perm_of_length_le length.ge
  exact permuted.nodup_iff.1 nodup

theorem validRecordedLinks_eq_some {value : Json} {links : List CodeUnits}
    (valid : validRecordedLinks value = some links) :
    value = .array (links.map .string) ∧ links.length ≤ CONTAINMENT_FLAG_LINK_LIMIT ∧
      (∀ link ∈ links, isRecordedLink link = true) ∧ links.Nodup := by
  cases value with
  | array items =>
    rw [validRecordedLinks] at valid
    split at valid
    · cases valid
    · next few =>
      obtain ⟨read, areRead, accepted⟩ := Option.bind_eq_some_iff.1 valid
      rw [Option.ite_none_right_eq_some, Bool.and_eq_true, decide_eq_true_eq] at accepted
      obtain ⟨⟨all, length⟩, same⟩ := accepted
      cases Option.some.inj same
      have items := mapM_jsonText_eq_some areRead
      subst items
      rw [List.length_map] at few
      exact ⟨rfl, Nat.not_lt.1 few, List.all_eq_true.1 all, nodup_of_length_distinctLinks length⟩
  | _ => cases valid

theorem interpretScopedFlagObject_known {members : List (CodeUnits × Json)} {state : Json}
    (known : (interpretScopedFlagObject members state).isUnknown = false) :
    ∃ scope name, interpretScopedFlagObject members state = .scoped scope ∧
      members.lookup (codeUnits "scope") = some (.string scope) ∧
      name ∈ ["in-progress", "stopped"] ∧ state = .string (codeUnits name) ∧
      isSha256Units scope = true := by
  revert known
  fun_cases interpretScopedFlagObject members state with
  | case1 scope isScope accepted =>
    intro _
    obtain ⟨value, found, isText⟩ := Option.bind_eq_some_iff.1 isScope
    rw [jsonText_eq_some isText] at found
    rcases accepted.1 with started | stopped
    · exact ⟨scope, "in-progress", rfl, found, by decide, jsonText_eq_some started, accepted.2⟩
    · exact ⟨scope, "stopped", rfl, found, by decide, jsonText_eq_some stopped, accepted.2⟩
  | _ => exact fun known => absurd known Bool.true_eq_false_eq_False

theorem interpretFlagObject_known {members : List (CodeUnits × Json)} {state : Json}
    (known : (interpretFlagObject members state).isUnknown = false) :
    ∃ links, interpretFlagObject members state = .recorded links ∧
      members.lookup (codeUnits "links") = some (.array (links.map .string)) ∧
      state = .string (codeUnits "failed") ∧ links.length ≤ CONTAINMENT_FLAG_LINK_LIMIT ∧
      (∀ link ∈ links, isRecordedLink link = true) ∧ links.Nodup := by
  revert known
  fun_cases interpretFlagObject members state with
  | case4 value found _ isFailed links valid =>
    intro _
    obtain ⟨isArray, few, recorded, nodup⟩ := validRecordedLinks_eq_some valid
    rw [isArray] at found
    exact ⟨links, rfl, found, jsonText_eq_some (not_not.1 isFailed), few, recorded, nodup⟩
  | _ => exact fun known => absurd known Bool.true_eq_false_eq_False

/-- Three members with three keys are an object with these members and no other. -/
theorem perm_of_lookup {members : List (CodeUnits × Json)} {key : String}
    {value state version : Json}
    (nodup : [codeUnits key, codeUnits "state", codeUnits "version"].Nodup)
    (three : members.length = 3) (valueIs : members.lookup (codeUnits key) = some value)
    (stateIs : members.lookup (codeUnits "state") = some state)
    (versionIs : members.lookup (codeUnits "version") = some version) :
    members.Perm [(codeUnits key, value), (codeUnits "state", state),
      (codeUnits "version", version)] := by
  have apart : [(codeUnits key, value), (codeUnits "state", state),
      (codeUnits "version", version)].Nodup := List.Nodup.of_map Prod.fst nodup
  have below : [(codeUnits key, value), (codeUnits "state", state),
      (codeUnits "version", version)] ⊆ members := by
    rw [List.cons_subset, List.cons_subset, List.cons_subset]
    exact ⟨mem_of_lookup valueIs, mem_of_lookup stateIs, mem_of_lookup versionIs, List.nil_subset _⟩
  exact ((List.subperm_of_subset apart below).perm_of_length_le three.le).symm

theorem exists_literal {version : Json} {meant : Nat}
    (isMeant : isVersion isNumber version meant = true) :
    ∃ literal, version = .number literal ∧ isNumber literal meant = true := by
  cases version with
  | number literal => exact ⟨literal, rfl, isMeant⟩
  | _ => exact absurd isMeant Bool.false_ne_true

/-- Bytes that do not read as unknown are a whole record. -/
theorem known_entry {bytes : List UInt8}
    (known : (parseContainmentEntryBytes isNumber bytes).isUnknown = false) :
    (∃ links, parseContainmentEntryBytes isNumber bytes = .recorded links ∧
        IsEntryObject isNumber bytes "links" (.array (links.map .string)) "failed"
          CONTAINMENT_FLAG_VERSION ∧
        links.length ≤ CONTAINMENT_FLAG_LINK_LIMIT ∧
        (∀ link ∈ links, isRecordedLink link = true) ∧ links.Nodup) ∨
      ∃ scope state, parseContainmentEntryBytes isNumber bytes = .scoped scope ∧
        state ∈ ["in-progress", "stopped"] ∧
        IsEntryObject isNumber bytes "scope" (.string scope) state CONTAINMENT_SCOPE_FLAG_VERSION ∧
        isSha256Units scope = true := by
  revert known
  fun_cases parseContainmentEntryBytes isNumber bytes with
  | case3 small content decoded =>
    intro known
    obtain ⟨members, version, state, parsed, three, versionIs, stateIs, shape⟩ :=
      object_of_known known
    have encoded := (decodeUtf8_eq_some_iff.1 decoded).symm
    rcases shape with ⟨isScope, read⟩ | ⟨isLinks, read⟩
    · obtain ⟨scope, name, reads, found, started, rfl, isDigest⟩ :=
        interpretScopedFlagObject_known (read ▸ known)
      obtain ⟨literal, rfl, isMeant⟩ := exists_literal isScope
      refine .inr ⟨scope, name, read.trans reads, started, ?_, isDigest⟩
      exact ⟨Nat.not_lt.1 small, content, members, literal, encoded, parsed,
        perm_of_lookup (by decide) three found stateIs versionIs, isMeant⟩
    · obtain ⟨links, reads, found, rfl, few, recorded, nodup⟩ :=
        interpretFlagObject_known (read ▸ known)
      obtain ⟨literal, rfl, isMeant⟩ := exists_literal isLinks
      refine .inl ⟨links, read.trans reads, ?_, few, recorded, nodup⟩
      exact ⟨Nat.not_lt.1 small, content, members, literal, encoded, parsed,
        perm_of_lookup (by decide) three found stateIs versionIs, isMeant⟩
  | _ => exact fun known => absurd known Bool.true_eq_false_eq_False

/-! ### The output -/

theorem map_of_mapM {α β : Type} {convert : α → Option β} {inputs : List α} {outputs : List β}
    (converted : inputs.mapM convert = some outputs) :
    inputs.map convert = outputs.map some := by
  induction inputs generalizing outputs with
  | nil =>
    cases Option.some.inj converted
    rfl
  | cons input inputs ih =>
    rw [List.mapM_cons] at converted
    obtain ⟨output, isOutput, rest⟩ := Option.bind_eq_some_iff.1 converted
    obtain ⟨others, areOthers, joined⟩ := Option.bind_eq_some_iff.1 rest
    cases Option.some.inj joined
    rw [List.map_cons, List.map_cons, isOutput, ih areOthers]

/-- The lines that are decoded are all lines before the last, which is `done`. -/
theorem fileText_of_establishLines {inputs : ContainmentEstablishInputs} {stdout : Text}
    {lines : List EstablishLine} (read : establishLines isNumber inputs stdout = some lines) :
    ∃ texts, stdout = fileText '\n' (texts ++ [text "done"]) ∧
      texts.map (parseEstablishLine isNumber inputs) = lines.map some ∧
      lines.any EstablishLine.isDone = false := by
  simp only [establishLines] at read
  split at read
  · cases read
  · next ends =>
    split at read
    · cases read
    · next parsed decoded =>
      split at read
      · cases read
      · next noDone =>
        cases Option.some.inj read
        refine ⟨_, ?_, map_of_mapM decoded, Bool.eq_false_iff.2 noDone⟩
        by_cases alone : stdout = text "done\n"
        · subst alone
          rfl
        · have suffix : text "\n" ++ text "done\n" <:+ stdout := by
            simpa [alone] using ends
          obtain ⟨front, rfl⟩ := suffix
          rw [← List.append_assoc, List.length_append, Nat.add_sub_cancel, List.take_left]
          have newline : front ++ text "\n" = front ++ ['\n'] := rfl
          rw [newline, if_neg (List.append_ne_nil_of_right_ne_nil _ (List.cons_ne_nil _ _)),
            List.dropLast_concat, fileText_append,
            ← intercalate_newline (List.splitOn_ne_nil _ _), List.intercalate_splitOn]
          rfl

/-- Lines that are neither `done` nor `more` are the entries. -/
theorem lines_eq_entries {lines : List EstablishLine}
    (noDone : lines.any EstablishLine.isDone = false)
    (noMore : lines.any EstablishLine.isMore = false) :
    lines = (lines.filterMap EstablishLine.read?).map EstablishLine.entry := by
  induction lines with
  | nil => rfl
  | cons line lines ih =>
    rw [List.any_cons, Bool.or_eq_false_iff] at noDone noMore
    cases line with
    | done => exact absurd noDone.1.symm Bool.false_ne_true
    | more => exact absurd noMore.1.symm Bool.false_ne_true
    | entry read =>
      exact congrArg (List.cons (.entry read)) (ih noDone.2 noMore.2)

/-- An entry that is known to this apply is a list or has its scope. -/
theorem known_for_scope {state : ParsedContainmentFlag} {scopeDigest : CodeUnits}
    (known : (containmentEntryForScope state scopeDigest).isUnknown = false) :
    (∃ links, state = .recorded links) ∨ state = .scoped scopeDigest := by
  rcases state with links | scope | why
  · exact .inl ⟨links, rfl⟩
  · rw [containmentEntryForScope] at known
    split at known
    · exact absurd known.symm Bool.false_ne_true
    · next same => exact .inr (congrArg _ (not_not.1 same))
  · exact absurd known.symm Bool.false_ne_true

/-- What the ledger of an output lists. -/
structure LedgerOf (isNumber : List Char → Nat → Bool) (inputs : ContainmentEstablishInputs)
    (stdout : Text) (ledger : ContainmentLedger) : Prop where
  own : ledger.ownEntry = inputs.ownEntry
  notOwn : ∀ entry ∈ ledger.removable, entry.path ≠ inputs.ownEntry
  complete : ledger.verifyWholeDestination = false →
    ∃ entries, CompleteListing isNumber inputs stdout entries ∧
      ledger.removable = entries.map (fun entry => ⟨entry.path, entry.sha256⟩) ∧
      ∀ entry ∈ entries, entry.path ≠ inputs.legacyFlag ∧
        ((∃ links, entry.state = .recorded links ∧ links ⊆ ledger.carried) ∨
          entry.state = .scoped inputs.scopeDigest)

theorem ledgerOf_parseContainmentEstablishOutput {inputs : ContainmentEstablishInputs}
    {stdout : Text} {ledger : ContainmentLedger}
    (parsed : parseContainmentEstablishOutput isNumber stdout inputs = some ledger) :
    LedgerOf isNumber inputs stdout ledger := by
  simp only [parseContainmentEstablishOutput] at parsed
  split at parsed
  · cases Option.some.inj parsed
    exact ⟨rfl, fun entry mem => absurd mem List.not_mem_nil,
      fun verified => absurd verified.symm Bool.false_ne_true⟩
  · split at parsed
    · cases parsed
    · next lines read =>
      split at parsed
      · cases parsed
      · next noOwn =>
        cases Option.some.inj parsed
        obtain ⟨texts, whole, decoded, noDone⟩ := fileText_of_establishLines read
        refine ⟨rfl, ?_, ?_⟩
        · intro removable mem same
          obtain ⟨entry, isEntry, rfl⟩ := List.mem_map.1 mem
          exact noOwn (List.any_eq_true.2 ⟨entry, isEntry, decide_eq_true same⟩)
        · intro verified
          rw [Bool.or_eq_false_iff] at verified
          obtain ⟨noMore, entriesKnown⟩ := verified
          refine ⟨lines.filterMap EstablishLine.read?, ⟨texts, whole, ?_⟩, rfl, ?_⟩
          · rw [decoded]
            nth_rewrite 1 [lines_eq_entries noDone noMore]
            rw [List.map_map]
            rfl
          · intro entry mem
            have each := List.any_eq_false.1 entriesKnown entry mem
            rw [Bool.or_eq_true, not_or, decide_eq_true_eq, Bool.not_eq_true] at each
            refine ⟨each.1, (known_for_scope each.2).imp ?_ id⟩
            rintro ⟨links, isRecorded⟩
            refine ⟨links, isRecorded, fun link isLink => ?_⟩
            apply ((foldl_setAdd_spec _ [] List.nodup_nil).2 link).2
            apply Or.inr
            apply List.mem_flatMap.2
            exact ⟨entry, mem, by rwa [isRecorded]⟩

theorem ledger_of_truncated {inputs : ContainmentEstablishInputs} {kept : Text}
    {ledger : ContainmentLedger}
    (parsed : parseContainmentEstablishOutput isNumber (kept ++ CAPTURE_TRUNCATION_MARKER)
      inputs = some ledger) :
    ledger.removable = [] ∧ ledger.verifyWholeDestination = true := by
  have truncated : CAPTURE_TRUNCATION_MARKER.isSuffixOf (kept ++ CAPTURE_TRUNCATION_MARKER) =
      true :=
    List.isSuffixOf_iff_suffix.2 (List.suffix_append _ _)
  rw [parseContainmentEstablishOutput, if_pos truncated] at parsed
  cases Option.some.inj parsed
  exact ⟨rfl, rfl⟩

end Reading

/-! ### The whole -/

/-- What is written is read back, bytes that do not read as unknown are the JSON of a record, a
ledger spares the verification only behind a complete output in which every entry is a list or has
the scope of the apply, and a truncated one removes nothing. -/
theorem containment_entries_fail_safe {isNumber : List Char → Nat → Bool}
    (literals : NumberLiterals isNumber) :
    (∀ body : ContainmentFlagBody, body.WellFormed →
      body.ReadsBack
        (parseContainmentEntryBytes isNumber (utf8Bytes (containmentFlagBody body)))) ∧
    (∀ bytes links, parseContainmentEntryBytes isNumber bytes = .recorded links →
      IsEntryObject isNumber bytes "links" (.array (links.map .string)) "failed"
          CONTAINMENT_FLAG_VERSION ∧
        ContainmentFlagBody.WellFormed (.failed links) ∧ links.Nodup ∧
        links.length ≤ CONTAINMENT_FLAG_LINK_LIMIT) ∧
    (∀ bytes scope, parseContainmentEntryBytes isNumber bytes = .scoped scope →
      ∃ state ∈ ["in-progress", "stopped"],
        IsEntryObject isNumber bytes "scope" (.string scope) state
            CONTAINMENT_SCOPE_FLAG_VERSION ∧
          ContainmentFlagBody.WellFormed (.stopped scope)) ∧
    (∀ inputs stdout ledger,
      parseContainmentEstablishOutput isNumber stdout inputs = some ledger →
        LedgerOf isNumber inputs stdout ledger) ∧
    ∀ inputs kept ledger,
      parseContainmentEstablishOutput isNumber (kept ++ CAPTURE_TRUNCATION_MARKER) inputs =
          some ledger →
        ledger.removable = [] ∧ ledger.verifyWholeDestination = true := by
  refine ⟨fun body wellFormed => readsBack_containmentFlagBody literals wellFormed, ?_, ?_,
    fun inputs stdout ledger => ledgerOf_parseContainmentEstablishOutput,
    fun inputs kept ledger => ledger_of_truncated⟩
  · intro bytes links reads
    have known : (parseContainmentEntryBytes isNumber bytes).isUnknown = false := by
      rw [reads]
      rfl
    rcases known_entry known with ⟨same, isSame, record, few, recorded, nodup⟩ |
      ⟨scope, state, isScoped, -⟩
    · cases reads.symm.trans isSame
      exact ⟨record, recorded, nodup, few⟩
    · cases reads.symm.trans isScoped
  · intro bytes scope reads
    have known : (parseContainmentEntryBytes isNumber bytes).isUnknown = false := by
      rw [reads]
      rfl
    rcases known_entry known with ⟨links, isRecorded, -⟩ |
      ⟨same, state, isSame, started, record, isDigest⟩
    · cases reads.symm.trans isRecorded
    · cases reads.symm.trans isSame
      exact ⟨state, started, record, isDigest⟩

/-- The integers that are read from decimals alone. -/
def readsDecimal (literal : List Char) (meant : Nat) : Bool := literal = decimal meant

theorem numberLiterals_readsDecimal : NumberLiterals readsDecimal := by
  intro written meant
  rw [readsDecimal, decide_eq_decide]
  exact ⟨decimal_injective, congrArg decimal⟩

theorem repeated_link_reads_back :
    parseContainmentEntryBytes readsDecimal
        (utf8Bytes (containmentFlagBody
          (.failed [codeUnits "etc/app", codeUnits "a\"b", codeUnits "etc/app"]))) =
      .recorded [codeUnits "etc/app", codeUnits "a\"b"] := by
  have recorded : ∀ link ∈ [codeUnits "etc/app", codeUnits "a\"b", codeUnits "etc/app"],
      isRecordedLink link = true := by decide
  have reads := (containment_entries_fail_safe numberLiterals_readsDecimal).1 (.failed _) recorded
  rwa [ContainmentFlagBody.ReadsBack, if_neg (by decide)] at reads

end Paratix.Archive
