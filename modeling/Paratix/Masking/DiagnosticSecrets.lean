/-
Module: Paratix.Masking.DiagnosticSecrets
Purpose: The masked clone of an error's cause, the redacted copy of an object graph, and when the
  diagnostic text of graphs that differ only in secrets and binary contents is the same.
Main exports: CauseValue, diagnostic_text_iff
-/
import Paratix.Foundation.Sieve
import Paratix.Masking.StreamMasker
import Paratix.Foundation.AssocList
import Paratix.Foundation.Run

namespace Paratix.Masking

open Foundation

/-! ### Causes -/

mutual

/-- A value that can be the cause of an error or a part of it. Objects have their
own enumerable properties in order; `ancestor` is an object that holds the value. -/
inductive CauseValue where
  | null
  | undefined
  | boolean (value : Bool)
  | number (text : CodeUnits) (finite : Bool)
  | bigint (digits : CodeUnits)
  | string (text : CodeUnits)
  | function (name : CodeUnits)
  | symbol (text : CodeUnits)
  | binary
  /-- `toJSON()` of an invalid date is `null` -/
  | date (json : Option CodeUnits)
  | ancestor
  | array (elements : CauseElements)
  | object (entries : CauseEntries)

inductive CauseElements where
  | nil
  | cons (value : CauseValue) (elements : CauseElements)

inductive CauseEntries where
  | nil
  | cons (key : CodeUnits) (value : CauseValue) (entries : CauseEntries)

end

mutual

/-- The text stands in a string leaf or a key of the value. -/
def CauseValue.Holds (text : CodeUnits) : CauseValue → Prop
  | .string leaf => text <:+: leaf
  | .array elements => elements.Holds text
  | .object entries => entries.Holds text
  | _ => False

def CauseElements.Holds (text : CodeUnits) : CauseElements → Prop
  | .nil => False
  | .cons value elements => value.Holds text ∨ elements.Holds text

def CauseEntries.Holds (text : CodeUnits) : CauseEntries → Prop
  | .nil => False
  | .cons key value entries => text <:+: key ∨ value.Holds text ∨ entries.Holds text

end

def CauseValue.IsObject : CauseValue → Bool
  | .array _ | .object _ => true
  | _ => false

/-! ### Normalization -/

def SECRET_FIELD_NAMES : List String :=
  ["apikey", "auth", "authorization", "bearer", "cookie", "cred", "credential",
    "credentials", "jwt", "key", "mfa", "otp", "pass", "passphrase", "passwd", "password",
    "pin", "privatekey", "pwd", "secret", "sessionkey", "signature", "token"]

def SECRET_FIELD_SUFFIXES : List String :=
  ["token", "password", "secret", "privatekey", "sessionkey", "signature", "jwt", "pin",
    "mfa", "otp", "cookie"]

/-- The ASCII letter or digit in the lower case of a code unit, if there is one:
also the Kelvin sign and the dotted capital I have one. -/
def lowerAsciiAlphaNumeric (unit : UInt16) : Option UInt16 :=
  let code := unit.toNat
  if (0x30 ≤ code && code ≤ 0x39) || (0x61 ≤ code && code ≤ 0x7a) then some unit
  else if 0x41 ≤ code && code ≤ 0x5a then some (UInt16.ofNat (code + 0x20))
  else if code = 0x212a then some (codeUnit 'k')
  else if code = 0x130 then some (codeUnit 'i')
  else none

def isSecretDiagnosticField (key : CodeUnits) : Bool :=
  let normalized := key.filterMap lowerAsciiAlphaNumeric
  (SECRET_FIELD_NAMES.map codeUnits).contains normalized ||
    SECRET_FIELD_SUFFIXES.any fun suffix => (codeUnits suffix).isSuffixOf normalized

def CIRCULAR_PLACEHOLDER : CodeUnits := codeUnits "[Circular]"

mutual

/-- `normalizeObjectCause` on objects, `normalizeCausePropertyValue` on the other
values. -/
def normalizeCause : CauseValue → CauseValue
  | .binary => .string REDACTED
  | .date json => match json with
      | some text => .string text
      | none => .null
  | .ancestor => .string CIRCULAR_PLACEHOLDER
  | .array elements => .array (normalizeElements elements)
  | .object entries => .object (normalizeEntries entries)
  | .bigint digits => .string digits
  | .null => .null
  | .undefined => .undefined
  | .boolean value => .boolean value
  | .number text finite => .number text finite
  | .string text => .string text
  | .function name => .function name
  | .symbol text => .symbol text

def normalizeElements : CauseElements → CauseElements
  | .nil => .nil
  | .cons value elements => .cons (normalizeCause value) (normalizeElements elements)

/-- Assigning `__proto__` sets no own property. -/
def normalizeEntries : CauseEntries → CauseEntries
  | .nil => .nil
  | .cons key value entries =>
      if isSecretDiagnosticField key then
        .cons key (.string REDACTED) (normalizeEntries entries)
      else if key = codeUnits "__proto__" then normalizeEntries entries
      else .cons key (normalizeCause value) (normalizeEntries entries)

end

/-! ### `JSON.stringify` -/

def lowerHexDigit (value : Nat) : UInt16 :=
  UInt16.ofNat (if value < 10 then 0x30 + value else 0x57 + value)

/-- `\uXXXX` -/
def unicodeEscape (unit : UInt16) : CodeUnits :=
  let code := unit.toNat
  codeUnits "\\u" ++ [lowerHexDigit (code / 0x1000), lowerHexDigit (code / 0x100 % 0x10),
    lowerHexDigit (code / 0x10 % 0x10), lowerHexDigit (code % 0x10)]

/-- A code unit that is no half of a surrogate pair inside a JSON string. -/
def escapeUnit (unit : UInt16) : CodeUnits :=
  if unit = 0x08 then codeUnits "\\b"
  else if unit = 0x09 then codeUnits "\\t"
  else if unit = 0x0a then codeUnits "\\n"
  else if unit = 0x0c then codeUnits "\\f"
  else if unit = 0x0d then codeUnits "\\r"
  else if unit = codeUnit '"' then codeUnits "\\\""
  else if unit = codeUnit '\\' then codeUnits "\\\\"
  else if unit.toNat < 0x20 || isHighSurrogate unit || isLowSurrogate unit then
    unicodeEscape unit
  else [unit]

/-- The contents of a JSON string literal. -/
def jsonEscape : CodeUnits → CodeUnits
  | [] => []
  | [unit] => escapeUnit unit
  | unit :: next :: text =>
      if isHighSurrogate unit && isLowSurrogate next then unit :: next :: jsonEscape text
      else escapeUnit unit ++ jsonEscape (next :: text)

def jsonString (text : CodeUnits) : CodeUnits :=
  codeUnits "\"" ++ jsonEscape text ++ codeUnits "\""

def joinComma : List CodeUnits → CodeUnits
  | [] => []
  | [part] => part
  | part :: next :: parts => part ++ codeUnits "," ++ joinComma (next :: parts)

mutual

/-- Nothing for the values `JSON.stringify` leaves out. -/
def jsonStringify : CauseValue → Option CodeUnits
  | .null => some (codeUnits "null")
  | .boolean value => some (codeUnits (if value then "true" else "false"))
  | .number text finite => some (if finite then text else codeUnits "null")
  | .string text => some (jsonString text)
  | .array elements =>
      some (codeUnits "[" ++ joinComma (jsonElements elements) ++ codeUnits "]")
  | .object entries =>
      some (codeUnits "\x7b" ++ joinComma (jsonEntries entries) ++ codeUnits "\x7d")
  | .undefined | .bigint _ | .function _ | .symbol _ | .binary | .date _ | .ancestor => none

def jsonElements : CauseElements → List CodeUnits
  | .nil => []
  | .cons value elements =>
      (jsonStringify value).getD (codeUnits "null") :: jsonElements elements

def jsonEntries : CauseEntries → List CodeUnits
  | .nil => []
  | .cons key value entries =>
      match jsonStringify value with
      | some text => (jsonString key ++ codeUnits ":" ++ text) :: jsonEntries entries
      | none => jsonEntries entries

end

/-- The cause as a text, before masking. -/
def stringifyCause : CauseValue → CodeUnits
  | .string text => text
  | .function name =>
      if 0 < name.length then codeUnits "[Function: " ++ name ++ codeUnits "]"
      else codeUnits "[Function]"
  | .number text _ => text
  | .boolean value => codeUnits (if value then "true" else "false")
  | .bigint digits => digits
  | .symbol text => text
  | .undefined => codeUnits "undefined"
  | .null => codeUnits "null"
  | cause => (jsonStringify (normalizeCause cause)).getD (codeUnits "[object Object]")

/-! ### Errors -/

mutual

/-- An error; a command error also carries what the command wrote. -/
inductive ErrorObject where
  | mk (name message : CodeUnits) (stack : Option CodeUnits)
      (output : Option (CodeUnits × CodeUnits)) (cause : ErrorCause)

inductive ErrorCause where
  | value (cause : CauseValue)
  | error (cause : ErrorObject)

end

mutual

/-- The masked clone of an error; its cause is absent, a text or a masked clone. -/
inductive MaskedError where
  | mk (name message : CodeUnits) (stack : Option CodeUnits)
      (output : Option (CodeUnits × CodeUnits)) (cause : MaskedCause)

inductive MaskedCause where
  | absent
  | text (cause : CodeUnits)
  | error (cause : MaskedError)

end

mutual

/-- The clone for a nonempty list of secrets. -/
def maskScopedError (secrets : PreparedSecrets) : ErrorObject → MaskedError
  | .mk name message stack output cause =>
      .mk name (maskPreparedSecrets message secrets)
        (stack.map (maskPreparedSecrets · secrets))
        (output.map fun texts =>
          (maskPreparedSecrets texts.1 secrets, maskPreparedSecrets texts.2 secrets))
        (maskCauseValue secrets cause)

def maskCauseValue (secrets : PreparedSecrets) : ErrorCause → MaskedCause
  | .error cause => .error (maskScopedError secrets cause)
  | .value .undefined => .absent
  | .value cause => .text (maskPreparedSecrets (stringifyCause cause) secrets)

end

mutual

/-- The value at the end of a chain of error causes. -/
def ErrorObject.innermost : ErrorObject → CauseValue
  | .mk _ _ _ _ cause => cause.innermost

def ErrorCause.innermost : ErrorCause → CauseValue
  | .value cause => cause
  | .error cause => cause.innermost

end

mutual

/-- The text at the end of a chain of masked causes. -/
def MaskedError.innermostText : MaskedError → Option CodeUnits
  | .mk _ _ _ _ cause => cause.innermostText

def MaskedCause.innermostText : MaskedCause → Option CodeUnits
  | .absent => none
  | .text cause => some cause
  | .error cause => cause.innermostText

end

/-! ### The text of a masked cause -/

mutual

theorem ErrorObject.innermostText_masked (secrets : PreparedSecrets) :
    ∀ {error : ErrorObject} {text : CodeUnits},
      (maskScopedError secrets error).innermostText = some text →
      text = maskPreparedSecrets (stringifyCause error.innermost) secrets
  | .mk _ _ _ _ _, _, isText => ErrorCause.innermostText_masked secrets isText

theorem ErrorCause.innermostText_masked (secrets : PreparedSecrets) :
    ∀ {cause : ErrorCause} {text : CodeUnits},
      (maskCauseValue secrets cause).innermostText = some text →
      text = maskPreparedSecrets (stringifyCause cause.innermost) secrets
  | .error _, _, isText => ErrorObject.innermostText_masked secrets isText
  | .value cause, _, isText => by
      cases cause <;> first | exact (Option.some.inj isText).symm | cases isText

end

/-- An error with the value as its cause. -/
def errorWithCause (cause : CauseValue) : ErrorObject :=
  .mk (codeUnits "Error") (codeUnits "boom") none none (.value cause)

/-! ### Escaping -/

theorem escapeUnit_length_of_surrogate {unit : UInt16}
    (surrogate : isHighSurrogate unit = true ∨ isLowSurrogate unit = true) :
    escapeUnit unit ≠ [unit] := by
  intro plain
  rw [escapeUnit] at plain
  have above : 0xd800 ≤ unit.toNat := by
    rcases surrogate with high | low
    · simp only [isHighSurrogate, Bool.and_eq_true, decide_eq_true_eq] at high
      exact high.1
    · simp only [isLowSurrogate, Bool.and_eq_true, decide_eq_true_eq] at low
      omega
  have differs : ∀ other : UInt16, other.toNat < 0xd800 → unit ≠ other := by
    intro other below same
    rw [same] at above
    omega
  rw [if_neg (differs _ (by decide)), if_neg (differs _ (by decide)),
    if_neg (differs _ (by decide)), if_neg (differs _ (by decide)),
    if_neg (differs _ (by decide)), if_neg (differs _ (by decide)),
    if_neg (differs _ (by decide))] at plain
  have escaped : (unit.toNat < 0x20 || isHighSurrogate unit || isLowSurrogate unit) = true := by
    rcases surrogate with high | low
    · rw [high, Bool.or_true, Bool.true_or]
    · rw [low, Bool.or_true]
  rw [if_pos escaped] at plain
  have lengths := congrArg List.length plain
  simp [unicodeEscape, codeUnits] at lengths

/-- A code unit that JSON strings hold as it is. -/
def PlainUnit (unit : UInt16) : Prop := escapeUnit unit = [unit]

instance (unit : UInt16) : Decidable (PlainUnit unit) :=
  inferInstanceAs (Decidable (_ = _))

theorem PlainUnit.notHigh {unit : UInt16} (plain : PlainUnit unit) : isHighSurrogate unit = false :=
  Bool.eq_false_iff.2 fun high => escapeUnit_length_of_surrogate (Or.inl high) plain

theorem PlainUnit.notLow {unit : UInt16} (plain : PlainUnit unit) : isLowSurrogate unit = false :=
  Bool.eq_false_iff.2 fun low => escapeUnit_length_of_surrogate (Or.inr low) plain

theorem jsonEscape_cons_plain {unit : UInt16} (plain : PlainUnit unit) (text : CodeUnits) :
    jsonEscape (unit :: text) = unit :: jsonEscape text := by
  cases text with
  | nil => exact plain
  | cons next text =>
    rw [jsonEscape, plain.notHigh, Bool.false_and, if_neg Bool.false_ne_true, plain]
    rfl

theorem jsonEscape_append_plain {unit : UInt16} (plain : PlainUnit unit) :
    ∀ text : CodeUnits, jsonEscape (text ++ [unit]) = jsonEscape text ++ [unit]
  | [] => plain
  | [only] => by
      simp only [List.cons_append, List.nil_append, jsonEscape, plain.notLow, Bool.and_false,
        Bool.false_eq_true, if_false]
      exact congrArg (escapeUnit only ++ ·) plain
  | first :: next :: text => by
      simp only [List.cons_append, jsonEscape]
      split
      · rw [jsonEscape_append_plain plain text, List.cons_append, List.cons_append]
      · have rest := jsonEscape_append_plain plain (next :: text)
        rw [List.cons_append] at rest
        rw [rest, List.append_assoc]

/-! ### When causes are clean -/

/-- Neither the secret nor its spelling inside a JSON string occurs. -/
def Clean (secret text : CodeUnits) : Prop :=
  ¬ secret <:+: text ∧ ¬ jsonEscape secret <:+: text

section Clean

variable {prepared : PreparedSecrets} {secret : CodeUnits}

theorem maskPreparedSecrets_free (apart : ∀ variant ∈ prepared.variants, Apart variant REDACTED)
    (text : CodeUnits) {variant : CodeUnits} (member : variant ∈ prepared.variants) :
    ¬ variant <:+: maskPreparedSecrets text prepared := by
  have valueApart : ∀ variant ∈ prepared.variants, Apart variant (REDACTED.map id) := by
    rw [List.map_id]
    exact apart
  have free := replaceEach_free valueApart text variant member
  rw [List.map_id] at free
  exact free

/-- A variant inside the escaped secret takes every occurrence of it apart. -/
theorem clean_of_variant (apart : ∀ variant ∈ prepared.variants, Apart variant REDACTED)
    (member : secret ∈ prepared.variants)
    (covered : ∃ variant ∈ prepared.variants, variant <:+: jsonEscape secret)
    (text : CodeUnits) : Clean secret (maskPreparedSecrets text prepared) := by
  obtain ⟨variant, isVariant, inEscaped⟩ := covered
  constructor
  · exact maskPreparedSecrets_free apart text member
  · intro found
    exact maskPreparedSecrets_free apart text isVariant (inEscaped.trans found)

/-- Between two code units no variant holds, an escaped secret without a variant
in it survives the masking. -/
theorem escaped_survives (apart : ∀ variant ∈ prepared.variants, Apart variant REDACTED)
    {spare : UInt16} (unused : ∀ variant ∈ prepared.variants, spare ∉ variant)
    (uncovered : ∀ variant ∈ prepared.variants, ¬ variant <:+: jsonEscape secret)
    (front back : CodeUnits) :
    jsonEscape secret <:+: maskPreparedSecrets
      (front ++ spare :: (jsonEscape secret ++ spare :: back)) prepared := by
  have redacts : Redacts prepared.variants REDACTED
      (front ++ spare :: (jsonEscape secret ++ spare :: back))
      (maskPreparedSecrets (front ++ spare :: (jsonEscape secret ++ spare :: back)) prepared) :=
    (Redacts.refl _).replaceEach (fun _ member => member) apart
  obtain ⟨frontResult, rest, resultEq, _, restRedacts⟩ := redacts.split_spare unused
  obtain ⟨middle, backResult, restEq, middleRedacts, _⟩ := restRedacts.split_spare unused
  rw [resultEq, restEq, middleRedacts.eq_of_absent uncovered]
  exact ⟨frontResult ++ [spare], spare :: backResult, by simp⟩

/-- The text of a one-element array of a text. -/
theorem stringifyCause_singleton (text : CodeUnits) :
    stringifyCause (.array (.cons (.string text) .nil)) =
      codeUnits "[\"" ++ jsonEscape text ++ codeUnits "\"]" := by
  have opening : codeUnits "[\"" = codeUnits "[" ++ codeUnits "\"" := by decide
  have closing : codeUnits "\"]" = codeUnits "\"" ++ codeUnits "]" := by decide
  rw [opening, closing]
  simp only [stringifyCause, normalizeCause, normalizeElements, jsonStringify, jsonElements,
    joinComma, jsonString, Option.getD_some, List.append_assoc]

end Clean

/-- A value; objects and functions are known by their identity. -/
inductive DiagnosticValue where
  | string (text : CodeUnits)
  /-- another primitive, as it is printed -/
  | scalar (printed : CodeUnits)
  | binary (bytes : List UInt8)
  | reference (identity : Nat)
deriving DecidableEq

inductive ObjectKind where
  | array
  | function
  | other
deriving DecidableEq

/-- A symbol is known by its `toString()`. -/
inductive PropertyKey where
  | name (text : CodeUnits)
  | symbol (text : CodeUnits)
deriving DecidableEq

/-- An own property; an accessor has no content. -/
structure DiagnosticProperty where
  key : PropertyKey
  enumerable : Bool
  content : Option DiagnosticValue

/-- An object or a function. The label is what an inspector prints of it besides its values (class,
function name, stack); the slots are the elements of an array and the values that other objects
hold outside their properties (entries of a map, the cause of an error). -/
structure DiagnosticObject where
  kind : ObjectKind
  label : CodeUnits
  slots : List DiagnosticValue
  properties : List DiagnosticProperty

abbrev ObjectGraph := Nat → DiagnosticObject

/-! ### Redaction -/

/-- The redacted copy: a value that is kept, or a new array or record. -/
inductive Redacted where
  | kept (value : DiagnosticValue)
  | array (elements : List Redacted)
  | record (properties : List (CodeUnits × Redacted))

def REDACTED_BINARY_PLACEHOLDER : CodeUnits := codeUnits "[REDACTED Buffer]"

def REDACTED_SECRET_FIELD_PLACEHOLDER : CodeUnits := codeUnits "[REDACTED]"

def REDACT_FORBIDDEN_KEYS : List CodeUnits :=
  ["__proto__", "constructor", "prototype"].map codeUnits

def isBufferLikeView : DiagnosticValue → Bool
  | .binary _ => true
  | _ => false

/-- The copied properties under the names of the copy: the enumerable names and then all symbols. -/
def DiagnosticObject.copied (object : DiagnosticObject) :
    List (CodeUnits × Option DiagnosticValue) :=
  (object.properties.filterMap fun property =>
    match property.key with
    | .name text =>
        if property.enumerable && !REDACT_FORBIDDEN_KEYS.contains text then
          some (text, property.content)
        else none
    | .symbol _ => none) ++
  object.properties.filterMap fun property =>
    match property.key with
    | .name _ => none
    | .symbol text => some (codeUnits "@@symbol:" ++ text, property.content)

/-- `redact` is the redaction one level down; the state holds the objects seen. -/
def copyRedactedProperty (redact : List Nat → DiagnosticValue → Redacted × List Nat)
    (seen : List Nat) (property : CodeUnits × Option DiagnosticValue) :
    (CodeUnits × Redacted) × List Nat :=
  match property.2 with
  | none => ((property.1, .kept (.string (codeUnits "[Accessor]"))), seen)
  | some value =>
      if isSecretDiagnosticField property.1 && !isBufferLikeView value then
        ((property.1, .kept (.string REDACTED_SECRET_FIELD_PLACEHOLDER)), seen)
      else ((property.1, (redact seen value).1), (redact seen value).2)

def redactObjectProperties (redact : List Nat → DiagnosticValue → Redacted × List Nat)
    (seen : List Nat) (object : DiagnosticObject) : Redacted × List Nat :=
  let copy := threaded (copyRedactedProperty redact) seen object.copied
  (.record (mapSetAll copy.1), copy.2)

section Graph

variable (graph : ObjectGraph)

/-- The redaction with the number of levels that are left, `maxDepth + 1 - depth`. -/
def redactWithin (levels : Nat) (seen : List Nat) (value : DiagnosticValue) :
    Redacted × List Nat :=
  match value with
  | .binary _ => (.kept (.string REDACTED_BINARY_PLACEHOLDER), seen)
  | .string text => (.kept (.string text), seen)
  | .scalar printed => (.kept (.scalar printed), seen)
  | .reference identity =>
      if (graph identity).kind = .function then (.kept (.reference identity), seen)
      else
        match levels with
        | 0 => (.kept (.reference identity), seen)
        | levels + 1 =>
            if identity ∈ seen then (.kept (.string CIRCULAR_PLACEHOLDER), seen)
            else if (graph identity).kind = .array then
              let copy := threaded (redactWithin levels) (identity :: seen) (graph identity).slots
              (.array copy.1, copy.2)
            else redactObjectProperties (redactWithin levels) (identity :: seen) (graph identity)

def redactBinaryValues (maxDepth : Nat) (value : DiagnosticValue) : Redacted :=
  (redactWithin graph (maxDepth + 1) [] value).1

/-- The inspector, with its options, prints the copy; what was kept it reads from the graph. -/
def inspectRedactedDiagnosticValue (inspect : ObjectGraph → Redacted → CodeUnits)
    (redactMaxDepth : Nat) (value : DiagnosticValue) : CodeUnits :=
  inspect graph (redactBinaryValues graph redactMaxDepth value)

/-! ### What can be seen -/

/-- What can be seen of an object without its values. New objects have no identity. -/
structure Outline where
  identity : Option Nat
  kind : ObjectKind
  label : CodeUnits
  slots : Nat
  /-- the enumerable keys, and whether they are accessors -/
  keys : List (PropertyKey × Bool)

/-- A value as far as it is unfolded. -/
inductive Sight where
  | string (text : CodeUnits)
  | scalar (printed : CodeUnits)
  | binary (bytes : List UInt8)
  | closed (outline : Outline)
  | opened (outline : Outline) (slots : List Sight) (properties : List (Option Sight))

/-- The enumerable properties. -/
def DiagnosticObject.shown (object : DiagnosticObject) : List DiagnosticProperty :=
  object.properties.filter DiagnosticProperty.enumerable

def DiagnosticObject.outline (object : DiagnosticObject) (identity : Nat) : Outline :=
  { identity := some identity, kind := object.kind, label := object.label,
    slots := object.slots.length,
    keys := object.shown.map fun property => (property.key, property.content.isNone) }

/-- A value of the graph, unfolded over some levels. -/
def unfolded (levels : Nat) (value : DiagnosticValue) : Sight :=
  match value with
  | .string text => .string text
  | .scalar printed => .scalar printed
  | .binary bytes => .binary bytes
  | .reference identity =>
      match levels with
      | 0 => .closed ((graph identity).outline identity)
      | levels + 1 =>
          .opened ((graph identity).outline identity)
            ((graph identity).slots.map (unfolded levels))
            ((graph identity).shown.map fun property => property.content.map (unfolded levels))

/-- A copy, unfolded over some levels. -/
def Redacted.sight (levels : Nat) (copy : Redacted) : Sight :=
  match copy with
  | .kept value => unfolded graph levels value
  | .array elements =>
      let outline : Outline := ⟨none, .array, [], elements.length, []⟩
      match levels with
      | 0 => .closed outline
      | levels + 1 => .opened outline (elements.map (Redacted.sight levels)) []
  | .record properties =>
      let outline : Outline :=
        ⟨none, .other, [], 0, properties.map fun property => (.name property.1, false)⟩
      match levels with
      | 0 => .closed outline
      | levels + 1 =>
          .opened outline [] (properties.map fun property =>
            some (Redacted.sight levels property.2))

end Graph

/-- The inspector recurses `depth` times: its text is a function of what stands above. -/
def InspectsTo (depth : Nat) (inspect : ObjectGraph → Redacted → CodeUnits) : Prop :=
  ∀ graph graph' copy copy',
    Redacted.sight graph (depth + 1) copy = Redacted.sight graph' (depth + 1) copy' →
      inspect graph copy = inspect graph' copy'

/-! ### Graphs that differ only in secrets -/

/-- The same value, or two binary values. -/
inductive ValuesAgree : DiagnosticValue → DiagnosticValue → Prop where
  | same (value : DiagnosticValue) : ValuesAgree value value
  | binary (bytes bytes' : List UInt8) : ValuesAgree (.binary bytes) (.binary bytes')

/-- The name of the property in the copy. -/
def PropertyKey.destination : PropertyKey → CodeUnits
  | .name text => text
  | .symbol text => codeUnits "@@symbol:" ++ text

/-- Contents under one name: any two values if the name is that of a secret. -/
inductive ContentsAgree (secret : Bool) : Option DiagnosticValue → Option DiagnosticValue → Prop
  where
  | accessor : ContentsAgree secret none none
  | data {value value' : DiagnosticValue} (agree : secret = true ∨ ValuesAgree value value') :
      ContentsAgree secret (some value) (some value')

structure PropertiesAgree (property property' : DiagnosticProperty) : Prop where
  key : property'.key = property.key
  enumerable : property'.enumerable = property.enumerable
  content : ContentsAgree (isSecretDiagnosticField property.key.destination) property.content
    property'.content

structure ObjectsAgree (object object' : DiagnosticObject) : Prop where
  kind : object'.kind = object.kind
  label : object'.label = object.label
  slots : List.Forall₂ ValuesAgree object.slots object'.slots
  properties : List.Forall₂ PropertiesAgree object.properties object'.properties

/-- The graphs differ only under the names of secrets and in the contents of binary values. -/
def GraphsAgree (graph graph' : ObjectGraph) : Prop :=
  ∀ identity, ObjectsAgree (graph identity) (graph' identity)

/-! ### What the walk meets -/

/-- What the walk through both graphs meets where it is printed: two values under the name of a
secret, and a function with the number of levels that are printed of it. -/
inductive Met where
  | secret (values : DiagnosticValue × DiagnosticValue)
  | function (levels : Nat) (identity : Nat)
deriving DecidableEq

/-- The values are binary both or neither; the function carries the same in both graphs. -/
def Met.Covered (graph graph' : ObjectGraph) : Met → Prop
  | .secret values => isBufferLikeView values.1 = isBufferLikeView values.2
  | .function levels identity =>
      unfolded graph levels (.reference identity) = unfolded graph' levels (.reference identity)

/-- What is met under a name. -/
def metUnder (meet : List Nat → DiagnosticValue × DiagnosticValue → List Met × List Nat)
    (seen : List Nat)
    (properties : (CodeUnits × Option DiagnosticValue) × (CodeUnits × Option DiagnosticValue)) :
    (CodeUnits × List Met) × List Nat :=
  match properties.1.2, properties.2.2 with
  | some value, some value' =>
      if isSecretDiagnosticField properties.1.1 then
        ((properties.1.1, [.secret (value, value')]), seen)
      else ((properties.1.1, (meet seen (value, value')).1), (meet seen (value, value')).2)
  | _, _ => ((properties.1.1, []), seen)

/-- The walk comes to each object once; of two properties with one name in the copy the later one
is kept. `printed` counts the levels that are printed, `levels` those that are copied. -/
def met (graph graph' : ObjectGraph) (levels printed : Nat) (seen : List Nat)
    (values : DiagnosticValue × DiagnosticValue) : List Met × List Nat :=
  match values.1 with
  | .reference identity =>
      if (graph identity).kind = .function then ([.function printed identity], seen)
      else
        match levels with
        | 0 => ([], seen)
        | levels + 1 =>
            if identity ∈ seen then ([], seen)
            else if (graph identity).kind = .array then
              let parts := threaded (met graph graph' levels (printed - 1)) (identity :: seen)
                ((graph identity).slots.zip (graph' identity).slots)
              (if printed = 0 then [] else parts.1.flatten, parts.2)
            else
              let parts := threaded (metUnder (met graph graph' levels (printed - 1)))
                (identity :: seen) ((graph identity).copied.zip (graph' identity).copied)
              (if printed = 0 then [] else (mapSetAll parts.1).flatMap Prod.snd, parts.2)
  | _ => ([], seen)

/-! ### One step of the redaction -/

section Agreement

variable {graph graph' : ObjectGraph}

/-- The copies look the same exactly if all that is met is covered. -/
def LookAlike (graph graph' : ObjectGraph) (printed : Nat) (copy copy' : Redacted)
    (meets : List Met) : Prop :=
  copy.sight graph printed = copy'.sight graph' printed ↔
    ∀ one ∈ meets, one.Covered graph graph'

/-- The same for properties with one name. -/
structure LookAlikeUnder (graph graph' : ObjectGraph) (printed : Nat)
    (property property' : CodeUnits × Redacted) (meets : CodeUnits × List Met) : Prop where
  name : property'.1 = property.1
  metName : meets.1 = property.1
  alike : LookAlike graph graph' printed property.2 property'.2 meets.2

theorem sight_kept (levels : Nat) (value : DiagnosticValue) :
    (Redacted.kept value).sight graph levels = unfolded graph levels value := by
  rw [Redacted.sight.eq_def]

theorem lookAlike_string (printed : Nat) (text : CodeUnits) :
    LookAlike graph graph' printed (.kept (.string text)) (.kept (.string text)) [] := by
  rw [LookAlike, sight_kept, sight_kept, unfolded.eq_def, unfolded.eq_def]
  exact iff_of_true rfl (fun _ mem => absurd mem List.not_mem_nil)

theorem redactWithin_binary (levels : Nat) (seen : List Nat) (bytes : List UInt8) :
    redactWithin graph levels seen (.binary bytes) =
      (.kept (.string REDACTED_BINARY_PLACEHOLDER), seen) := by
  rw [redactWithin.eq_def]

theorem placeholders_differ :
    REDACTED_BINARY_PLACEHOLDER ≠ REDACTED_SECRET_FIELD_PLACEHOLDER := by
  decide

/-- The copy of a value under the name of a secret shows whether it is binary. -/
theorem copy_secret {levels : Nat} {seen : List Nat} {name : CodeUnits}
    (isSecret : isSecretDiagnosticField name = true) (value : DiagnosticValue) :
    copyRedactedProperty (redactWithin graph levels) seen (name, some value) =
      ((name, .kept (.string (if isBufferLikeView value then REDACTED_BINARY_PLACEHOLDER
        else REDACTED_SECRET_FIELD_PLACEHOLDER))), seen) := by
  rw [copyRedactedProperty.eq_def]
  cases value with
  | binary bytes =>
    simp only [isSecret, isBufferLikeView, Bool.not_true, Bool.and_false, Bool.false_eq_true,
      if_false, redactWithin_binary, if_true]
  | string text => simp only [isSecret, isBufferLikeView, Bool.not_false, Bool.and_true, if_true,
      Bool.false_eq_true, if_false]
  | scalar printed => simp only [isSecret, isBufferLikeView, Bool.not_false, Bool.and_true,
      if_true, Bool.false_eq_true, if_false]
  | reference identity => simp only [isSecret, isBufferLikeView, Bool.not_false, Bool.and_true,
      if_true, Bool.false_eq_true, if_false]

theorem lookAlike_secret (printed : Nat) (value value' : DiagnosticValue) :
    LookAlike graph graph' printed
      (.kept (.string (if isBufferLikeView value then REDACTED_BINARY_PLACEHOLDER
        else REDACTED_SECRET_FIELD_PLACEHOLDER)))
      (.kept (.string (if isBufferLikeView value' then REDACTED_BINARY_PLACEHOLDER
        else REDACTED_SECRET_FIELD_PLACEHOLDER))) [.secret (value, value')] := by
  rw [LookAlike, List.forall_mem_singleton, Met.Covered, sight_kept, sight_kept,
    unfolded.eq_def, unfolded.eq_def, Sight.string.injEq]
  cases isBufferLikeView value with
  | true =>
    cases isBufferLikeView value' with
    | true => exact iff_of_true rfl rfl
    | false => exact iff_of_false placeholders_differ Bool.noConfusion
  | false =>
    cases isBufferLikeView value' with
    | true => exact iff_of_false placeholders_differ.symm Bool.noConfusion
    | false => exact iff_of_true rfl rfl

/-- One property, given the step one level down. -/
theorem copy_agree {levels printed : Nat} (below : ∀ seen value value', ValuesAgree value value' →
      SideBySide (LookAlike graph graph' printed) (redactWithin graph levels seen value)
        (redactWithin graph' levels seen value') (met graph graph' levels printed seen
          (value, value')))
    (seen : List Nat) (property property' : CodeUnits × Option DiagnosticValue)
    (agree : property'.1 = property.1 ∧
      ContentsAgree (isSecretDiagnosticField property.1) property.2 property'.2) :
    SideBySide (LookAlikeUnder graph graph' printed)
      (copyRedactedProperty (redactWithin graph levels) seen property)
      (copyRedactedProperty (redactWithin graph' levels) seen property')
      (metUnder (met graph graph' levels printed) seen (property, property')) := by
  obtain ⟨name, content⟩ := property
  obtain ⟨name', content'⟩ := property'
  obtain ⟨rfl, contents⟩ := agree
  cases contents with
  | accessor => exact ⟨rfl, rfl, rfl, rfl, lookAlike_string printed _⟩
  | @data value value' agree =>
    rw [metUnder.eq_def]
    cases isSecret : isSecretDiagnosticField name' with
    | true =>
      rw [copy_secret isSecret, copy_secret isSecret]
      simp only [if_true]
      exact ⟨rfl, rfl, rfl, rfl, lookAlike_secret printed value value'⟩
    | false =>
      simp only [isSecret, Bool.false_eq_true, false_or] at agree
      obtain ⟨state, metState, alike⟩ := below seen value value' agree
      rw [copyRedactedProperty.eq_def, copyRedactedProperty.eq_def]
      simp only [isSecret, Bool.false_and, Bool.false_eq_true, if_false]
      exact ⟨state, metState, rfl, rfl, alike⟩

/-! ### Objects that agree -/

theorem copied_agree {object object' : DiagnosticObject} (agree : ObjectsAgree object object') :
    List.Forall₂ (fun property property' => property'.1 = property.1 ∧
        ContentsAgree (isSecretDiagnosticField property.1) property.2 property'.2)
      object.copied object'.copied := by
  apply List.rel_append
  · refine List.rel_filterMap ?_ agree.properties
    rintro ⟨key, enumerable, content⟩ ⟨key', enumerable', content'⟩ ⟨sameKey, same, contents⟩
    obtain rfl := sameKey
    obtain rfl := same
    cases key' with
    | name text =>
      dsimp only
      split
      · exact .some ⟨rfl, contents⟩
      · exact .none
    | symbol text => exact .none
  · refine List.rel_filterMap ?_ agree.properties
    rintro ⟨key, enumerable, content⟩ ⟨key', enumerable', content'⟩ ⟨sameKey, same, contents⟩
    obtain rfl := sameKey
    cases key' with
    | name text => exact .none
    | symbol text => exact .some ⟨rfl, contents⟩

theorem ContentsAgree.isNone_eq {secret : Bool} {content content' : Option DiagnosticValue}
    (agree : ContentsAgree secret content content') : content'.isNone = content.isNone := by
  cases agree with
  | accessor => rfl
  | data _ => rfl

theorem keys_agree {properties properties' : List DiagnosticProperty}
    (agree : List.Forall₂ PropertiesAgree properties properties') :
    (properties'.filter DiagnosticProperty.enumerable).map
        (fun property => (property.key, property.content.isNone)) =
      (properties.filter DiagnosticProperty.enumerable).map
        fun property => (property.key, property.content.isNone) := by
  induction agree with
  | nil => rfl
  | cons head _ ih =>
    rw [List.filter_cons, List.filter_cons, head.enumerable]
    split
    · rw [List.map_cons, List.map_cons, ih, head.key]
      rw [head.content.isNone_eq]
    · exact ih

theorem outline_agree {object object' : DiagnosticObject} (agree : ObjectsAgree object object')
    (identity : Nat) : object'.outline identity = object.outline identity := by
  rw [DiagnosticObject.outline, DiagnosticObject.outline, DiagnosticObject.shown,
    DiagnosticObject.shown, keys_agree agree.properties, agree.kind, agree.label,
    agree.slots.length_eq]

/-! ### The whole walk -/

theorem lookAlike_array {printed : Nat} {elements elements' : List Redacted}
    {meets : List (List Met)}
    (alike : Columned (LookAlike graph graph' (printed - 1)) elements elements' meets) :
    LookAlike graph graph' printed (.array elements) (.array elements')
      (if printed = 0 then [] else meets.flatten) := by
  obtain ⟨⟨table, rfl, rfl, rfl, all⟩⟩ := alike
  rw [LookAlike, Redacted.sight.eq_def, Redacted.sight.eq_def]
  cases printed with
  | zero =>
    rw [if_pos rfl]
    apply iff_of_true
    · simp only [List.length_map]
    · exact fun _ mem => absurd mem List.not_mem_nil
  | succ printed =>
    rw [if_neg (Nat.succ_ne_zero _)]
    simp only [List.length_map, Sight.opened.injEq, true_and, and_true, List.map_map,
      List.map_inj_left, Function.comp_apply, List.forall_mem_flatten, List.forall_mem_map]
    exact forall_congr' fun row => forall_congr' fun mem => all row mem

theorem columned_mapSetAll {printed : Nat} {properties properties' : List (CodeUnits × Redacted)}
    {meets : List (CodeUnits × List Met)}
    (alike : Columned (LookAlikeUnder graph graph' printed) properties properties' meets) :
    Columned (LookAlikeUnder graph graph' printed) (mapSetAll properties)
      (mapSetAll properties') (mapSetAll meets) := by
  obtain ⟨⟨table, isFirst, isSecond, isThird, all⟩⟩ := alike
  let rows : List (CodeUnits × (Redacted × Redacted × List Met)) :=
    table.map fun row => (row.1.1, row.1.2, row.2.1.2, row.2.2.2)
  have first : properties = rows.map (Prod.map id fun row => row.1) := by
    rw [isFirst, List.map_map]
    rfl
  have second : properties' = rows.map (Prod.map id fun row => row.2.1) := by
    rw [isSecond, List.map_map]
    apply List.map_congr_left
    intro row mem
    exact Prod.ext (all row mem).name rfl
  have third : meets = rows.map (Prod.map id fun row => row.2.2) := by
    rw [isThird, List.map_map]
    apply List.map_congr_left
    intro row mem
    exact Prod.ext (all row mem).metName rfl
  refine ⟨(mapSetAll rows).map fun row => ((row.1, row.2.1), (row.1, row.2.2.1), row.1, row.2.2.2),
    ?_, ?_, ?_, ?_⟩
  · rw [first, ← map_mapSetAll, List.map_map]
    rfl
  · rw [second, ← map_mapSetAll, List.map_map]
    rfl
  · rw [third, ← map_mapSetAll, List.map_map]
    rfl
  · rw [List.forall_mem_map]
    intro row mem
    obtain ⟨source, inTable, rfl⟩ := List.mem_map.1 (mem_of_mem_mapSetAll mem)
    exact ⟨rfl, rfl, (all source inTable).alike⟩

theorem lookAlike_record {printed : Nat} {properties properties' : List (CodeUnits × Redacted)}
    {meets : List (CodeUnits × List Met)}
    (alike : Columned (LookAlikeUnder graph graph' (printed - 1)) properties properties' meets) :
    LookAlike graph graph' printed (.record properties) (.record properties')
      (if printed = 0 then [] else meets.flatMap Prod.snd) := by
  obtain ⟨⟨table, rfl, rfl, rfl, all⟩⟩ := alike
  have names : (table.map fun row => row.2.1).map
        (fun property : CodeUnits × Redacted => (PropertyKey.name property.1, false)) =
      (table.map fun row => row.1).map fun property => (PropertyKey.name property.1, false) := by
    rw [List.map_map, List.map_map]
    apply List.map_congr_left
    intro row mem
    rw [Function.comp_apply, Function.comp_apply, (all row mem).name]
  rw [LookAlike, Redacted.sight.eq_def, Redacted.sight.eq_def]
  dsimp only
  rw [names]
  cases printed with
  | zero =>
    rw [if_pos rfl]
    exact iff_of_true rfl (fun _ mem => absurd mem List.not_mem_nil)
  | succ printed =>
    rw [if_neg (Nat.succ_ne_zero _)]
    simp only [Sight.opened.injEq, true_and, List.map_map, List.map_inj_left,
      Function.comp_apply, Option.some.injEq, List.flatMap_def, List.forall_mem_flatten,
      List.forall_mem_map]
    exact forall_congr' fun row => forall_congr' fun mem => (all row mem).alike

/-- Primitives, binary values and functions, at any number of levels. -/
theorem redactWithin_agree_leaf (agree : GraphsAgree graph graph') (levels printed : Nat)
    (seen : List Nat) {value value' : DiagnosticValue} (agreeValue : ValuesAgree value value')
    (leaf : ∀ identity, value = .reference identity → (graph identity).kind = .function) :
    SideBySide (LookAlike graph graph' printed) (redactWithin graph levels seen value)
      (redactWithin graph' levels seen value')
      (met graph graph' levels printed seen (value, value')) := by
  rw [redactWithin.eq_def, redactWithin.eq_def, met.eq_def]
  cases agreeValue with
  | binary bytes bytes' => exact ⟨rfl, rfl, lookAlike_string printed _⟩
  | same value =>
    cases value with
    | binary bytes => exact ⟨rfl, rfl, lookAlike_string printed _⟩
    | string text => exact ⟨rfl, rfl, lookAlike_string printed _⟩
    | scalar text =>
      refine ⟨rfl, rfl, ?_⟩
      rw [LookAlike, sight_kept, sight_kept, unfolded.eq_def, unfolded.eq_def]
      exact iff_of_true rfl (fun _ mem => absurd mem List.not_mem_nil)
    | reference identity =>
      have isFunction := leaf identity rfl
      have isFunction' := (agree identity).kind.trans isFunction
      simp only [isFunction, isFunction', if_true]
      refine ⟨rfl, rfl, ?_⟩
      rw [LookAlike, List.forall_mem_singleton, Met.Covered, sight_kept, sight_kept]

/-- An object too deep to be copied, and too deep to be printed. -/
theorem redactWithin_agree_deep (agree : GraphsAgree graph graph') (seen : List Nat)
    {identity : Nat} (noFunction : (graph identity).kind ≠ .function) :
    SideBySide (LookAlike graph graph' 0) (redactWithin graph 0 seen (.reference identity))
      (redactWithin graph' 0 seen (.reference identity))
      (met graph graph' 0 0 seen (.reference identity, .reference identity)) := by
  have noFunction' : (graph' identity).kind ≠ .function := (agree identity).kind ▸ noFunction
  rw [redactWithin.eq_def, redactWithin.eq_def, met.eq_def]
  simp only [noFunction, noFunction', if_false]
  refine ⟨rfl, rfl, ?_⟩
  rw [LookAlike, sight_kept, sight_kept, unfolded.eq_def, unfolded.eq_def]
  exact iff_of_true (congrArg Sight.closed (outline_agree (agree identity) identity).symm)
    (fun _ mem => absurd mem List.not_mem_nil)

/-- An object that is copied, given the step one level down. -/
theorem redactWithin_agree_object (agree : GraphsAgree graph graph') {levels printed : Nat}
    (below : ∀ seen value value', ValuesAgree value value' →
      SideBySide (LookAlike graph graph' (printed - 1)) (redactWithin graph levels seen value)
        (redactWithin graph' levels seen value')
        (met graph graph' levels (printed - 1) seen (value, value')))
    (seen : List Nat) {identity : Nat} (noFunction : (graph identity).kind ≠ .function) :
    SideBySide (LookAlike graph graph' printed)
      (redactWithin graph (levels + 1) seen (.reference identity))
      (redactWithin graph' (levels + 1) seen (.reference identity))
      (met graph graph' (levels + 1) printed seen
        (.reference identity, .reference identity)) := by
  have kind := (agree identity).kind
  rw [redactWithin.eq_def, redactWithin.eq_def, met.eq_def]
  simp only [noFunction, if_false, kind]
  split
  · exact ⟨rfl, rfl, lookAlike_string printed _⟩
  · split
    · obtain ⟨state, metState, holds⟩ :=
        threaded_sideBySide below (agree identity).slots (identity :: seen)
      exact ⟨state, metState, lookAlike_array holds⟩
    · obtain ⟨state, metState, holds⟩ :=
        threaded_sideBySide (copy_agree below) (copied_agree (agree identity)) (identity :: seen)
      exact ⟨state, metState, lookAlike_record (columned_mapSetAll holds)⟩

/-- Both graphs are walked through alike, and the copies look the same exactly if all that is met
is covered. -/
theorem redactWithin_agree (agree : GraphsAgree graph graph') {levels printed : Nat}
    (enough : printed ≤ levels) (seen : List Nat) {value value' : DiagnosticValue}
    (agreeValue : ValuesAgree value value') :
    SideBySide (LookAlike graph graph' printed) (redactWithin graph levels seen value)
      (redactWithin graph' levels seen value')
      (met graph graph' levels printed seen (value, value')) := by
  induction levels generalizing printed seen value value' with
  | zero =>
    by_cases leaf : ∀ identity, value = .reference identity → (graph identity).kind = .function
    · exact redactWithin_agree_leaf agree 0 printed seen agreeValue leaf
    · push Not at leaf
      obtain ⟨identity, rfl, noFunction⟩ := leaf
      cases agreeValue
      obtain rfl := Nat.le_zero.1 enough
      exact redactWithin_agree_deep agree seen noFunction
  | succ levels ih =>
    by_cases leaf : ∀ identity, value = .reference identity → (graph identity).kind = .function
    · exact redactWithin_agree_leaf agree (levels + 1) printed seen agreeValue leaf
    · push Not at leaf
      obtain ⟨identity, rfl, noFunction⟩ := leaf
      cases agreeValue
      apply redactWithin_agree_object agree ?_ seen noFunction
      intro inner value value' agreeValue
      exact ih (Nat.sub_le_iff_le_add.2 enough) inner agreeValue

/-- The inspector that tells one sight from all others. -/
theorem exists_inspector {depth : Nat} {copy copy' : Redacted}
    (differ : copy.sight graph (depth + 1) ≠ copy'.sight graph' (depth + 1)) :
    ∃ inspect, InspectsTo depth inspect ∧ inspect graph copy ≠ inspect graph' copy' := by
  classical
  refine ⟨fun other copied => if copied.sight other (depth + 1) = copy.sight graph (depth + 1)
    then [] else [0], ?_, ?_⟩
  · intro one other oneCopy otherCopy same
    dsimp only
    rw [same]
  · dsimp only
    rw [if_pos rfl, if_neg differ.symm]
    exact (List.cons_ne_nil _ _).symm

/-- For all graphs that differ only under the names of secrets and in the contents of binary values:
the text is the same, for every inspector that recurses no deeper than the redaction, exactly if
what the walk meets is covered. -/
theorem diagnostic_text_iff (agree : GraphsAgree graph graph') {value value' : DiagnosticValue}
    (agreeValue : ValuesAgree value value') {depth redactMaxDepth : Nat}
    (redacted : depth ≤ redactMaxDepth) :
    (∀ inspect, InspectsTo depth inspect →
      inspectRedactedDiagnosticValue graph inspect redactMaxDepth value =
        inspectRedactedDiagnosticValue graph' inspect redactMaxDepth value') ↔
      ∀ one ∈ (met graph graph' (redactMaxDepth + 1) (depth + 1) [] (value, value')).1,
        one.Covered graph graph' := by
  have alike := (redactWithin_agree agree (Nat.succ_le_succ redacted) [] agreeValue).holds
  refine Iff.trans ?_ alike
  constructor
  · intro sameText
    by_contra differ
    obtain ⟨inspect, inspectsTo, different⟩ := exists_inspector differ
    exact different (sameText inspect inspectsTo)
  · intro same inspect inspectsTo
    exact inspectsTo graph graph' _ _ same

end Agreement

/-! ### Secrets that are hidden and others -/

/-- An object with one property, whose value is a string or a function with a password. -/
def sampleGraph (name : String) (value : DiagnosticValue) (password : String) : ObjectGraph
  | 0 => ⟨.other, codeUnits "Object", [], [⟨.name (codeUnits name), true, some value⟩]⟩
  | 1 => ⟨.function, codeUnits "[Function: f]", [],
      [⟨.name (codeUnits "password"), true, some (.string (codeUnits password))⟩]⟩
  | _ => ⟨.other, codeUnits "Object", [], []⟩

theorem sampleGraph_agree {name : String} {value value' : DiagnosticValue}
    {password password' : String}
    (agree : isSecretDiagnosticField (codeUnits name) = true ∨ ValuesAgree value value') :
    GraphsAgree (sampleGraph name value password) (sampleGraph name value' password') := by
  have isSecret : isSecretDiagnosticField (codeUnits "password") = true := by decide
  rintro (_ | _ | _)
  · exact ⟨rfl, rfl, .nil, .cons ⟨rfl, rfl, .data agree⟩ .nil⟩
  · exact ⟨rfl, rfl, .nil, .cons ⟨rfl, rfl, .data (.inl isSecret)⟩ .nil⟩
  · exact ⟨rfl, rfl, .nil, .nil⟩

/-- What `util.inspect` prints on one line of strings, objects and functions. -/
def printSight : Nat → Sight → CodeUnits
  | levels + 1, .opened outline _ properties =>
      let shown := (outline.keys.zip properties).map fun entry =>
        (match entry.1.1 with | .name text => text | .symbol text => text) ++ codeUnits ": " ++
          (entry.2.map (printSight levels)).getD (codeUnits "[Getter]")
      (if outline.label = [] then codeUnits "[Object: null prototype]" else outline.label) ++
        codeUnits " \x7b " ++ joinComma shown ++ codeUnits " \x7d"
  | _, .string text => codeUnits "'" ++ text ++ codeUnits "'"
  | _, .scalar printed => printed
  | _, .closed _ => codeUnits "[Object]"
  | _, _ => []

def sampleInspect (depth : Nat) (graph : ObjectGraph) (copy : Redacted) : CodeUnits :=
  printSight (depth + 2) (copy.sight graph (depth + 1))

theorem inspectsTo_sampleInspect (depth : Nat) : InspectsTo depth (sampleInspect depth) := by
  intro graph graph' copy copy' same
  rw [sampleInspect, sampleInspect, same]

/-- The password of a record is hidden. -/
theorem record_password_hidden :
    inspectRedactedDiagnosticValue (sampleGraph "token" (.string [1]) "x") (sampleInspect 2) 3
        (.reference 0) =
      inspectRedactedDiagnosticValue (sampleGraph "token" (.string [2]) "x") (sampleInspect 2) 3
        (.reference 0) := by
  apply (diagnostic_text_iff (sampleGraph_agree (.inl (by decide))) (.same _) (by decide)).2 ?_ _
    (inspectsTo_sampleInspect 2)
  have meets : (met (sampleGraph "token" (.string [1]) "x") (sampleGraph "token" (.string [2]) "x")
      4 3 [] (.reference 0, .reference 0)).1 = [.secret (.string [1], .string [2])] := by
    decide
  rw [meets, List.forall_mem_singleton]
  exact rfl

/-- The password that a function carries is printed. -/
theorem function_password_printed :
    GraphsAgree (sampleGraph "handler" (.reference 1) "a")
        (sampleGraph "handler" (.reference 1) "b") ∧
      InspectsTo 2 (sampleInspect 2) ∧
      inspectRedactedDiagnosticValue (sampleGraph "handler" (.reference 1) "a") (sampleInspect 2)
          3 (.reference 0) =
        codeUnits
          "[Object: null prototype] \x7b handler: [Function: f] \x7b password: 'a' \x7d \x7d" ∧
      inspectRedactedDiagnosticValue (sampleGraph "handler" (.reference 1) "b") (sampleInspect 2)
          3 (.reference 0) =
        codeUnits
          "[Object: null prototype] \x7b handler: [Function: f] \x7b password: 'b' \x7d \x7d" := by
  refine ⟨sampleGraph_agree (.inr (.same _)), inspectsTo_sampleInspect 2, ?_, ?_⟩
  · decide
  · decide

end Paratix.Masking
