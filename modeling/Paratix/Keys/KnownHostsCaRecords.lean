/-
Module: Paratix.Keys.KnownHostsCaRecords
Purpose: `ssh.knownHostsCertAuthority`: its parameters, and the edit of known_hosts; which records
  of known_hosts are told to be those of a CA key, and which are by their fields.
Main exports: canonicalKnownHostsCaKey, isStrayRecord_concat
-/
import Mathlib.Data.List.Sort
import Paratix.Foundation.AssocList
import Paratix.Foundation.Columns
import Paratix.Keys.AuthorizedKeys
import Paratix.Template.Template
import Paratix.Foundation.Records
import Paratix.Keys.KeyLineExact
import Paratix.Keys.KnownHostsLines

namespace Paratix.Keys

open Foundation Archive

def SSH_STRING_LENGTH_BYTES : Nat := 4

def IPV6_VERSION : Nat := 6

def MAX_TCP_PORT : Nat := 65535

def MIN_CA_LINE_FIELDS : Nat := 4

/-- A missing state is `present`. -/
structure KnownHostsCertAuthorityOptions where
  hosts : Option (List Text)
  publicKey : Text
  state : Option KeysState
deriving DecidableEq

structure KnownHostsCaParameters where
  key : Text
  patterns : List Text
  state : KeysState
  user : Text
deriving DecidableEq

def caError {α : Type} (message : Text) : Except KeyError α :=
  keyError (text "ssh.knownHostsCertAuthority: " ++ message)

/-! ### Keys -/

/-- The algorithm and the canonical base64 of a key, without a comment. -/
def canonicalKnownHostsCaKey (value : Text) (strict : Bool) : Except KeyError Text := do
  let trimmed := trim value
  assertAuthorizedKeyValue trimmed
  let parts := splitSpaces trimmed
  let algorithm := parts[0]?.getD []
  let encoded := parts[1]?.getD []
  let bytes := decodeBase64 encoded
  let algorithmLength := readUInt32BE bytes 0
  let encodedAlgorithm :=
    subarray bytes SSH_STRING_LENGTH_BYTES (SSH_STRING_LENGTH_BYTES + algorithmLength)
  if encodedAlgorithm ≠ utf8Bytes algorithm then
    caError (text "publicKey algorithm must match its encoded bytes exactly")
  else
    let canonical := encodeBase64 bytes
    if strict = true ∧ canonical ≠ encoded then
      caError (text "publicKey must use canonical base64")
    else .ok (algorithm ++ ' ' :: canonical)

/-! ### Host patterns -/

/-- The category of control characters -/
def isControlCode (char : Char) : Bool :=
  char.toNat < 0x20 || (0x7f ≤ char.toNat && char.toNat < 0xa0)

/-- The category of format characters: the first and the last code point of each row -/
def FORMAT_CODES : List (Nat × Nat) :=
  [(0xad, 0xad), (0x600, 0x605), (0x61c, 0x61c), (0x6dd, 0x6dd), (0x70f, 0x70f), (0x890, 0x891),
    (0x8e2, 0x8e2), (0x180e, 0x180e), (0x200b, 0x200f), (0x202a, 0x202e), (0x2060, 0x2064),
    (0x2066, 0x206f), (0xfeff, 0xfeff), (0xfff9, 0xfffb), (0x110bd, 0x110bd), (0x110cd, 0x110cd),
    (0x13430, 0x1343f), (0x1bca0, 0x1bca3), (0x1d173, 0x1d17a), (0xe0001, 0xe0001),
    (0xe0020, 0xe007f)]

def isFormatCode (char : Char) : Bool :=
  FORMAT_CODES.any fun (first, last) => first ≤ char.toNat && char.toNat ≤ last

/-- The class of characters that no pattern holds -/
def isForbiddenInPattern (char : Char) : Bool :=
  isJsSpace char || isControlCode char || isFormatCode char || char ∈ text ",!@#|\\"

/-- `/^\[([^\[\]]+)\]:(\d+)$/` -/
def qualifiedPattern (pattern : Text) : Option (Text × Text) :=
  match pattern with
  | '[' :: rest =>
      let inHost (char : Char) : Bool := char ≠ '[' && char ≠ ']'
      let host := rest.takeWhile inHost
      match rest.dropWhile inHost with
      | ']' :: ':' :: port =>
          if host ≠ [] && port ≠ [] && port.all Char.isDigit then some (host, port) else none
      | _ => none
  | _ => none

section Parameters

/- `isIP` of the runtime -/
variable (isIP : Text → Nat)

def assertPortQualifiedPattern (pattern : Text) : Except KeyError Unit :=
  match qualifiedPattern pattern with
  | none => caError (text "invalid port-qualified pattern: " ++ pattern)
  | some (host, digits) =>
      let port := Nat.ofDigitChars 10 digits 0
      if port < 1 ∨ MAX_TCP_PORT < port ∨ (':' ∈ host ∧ isIP host ≠ IPV6_VERSION) then
        caError (text "invalid host or port: " ++ pattern)
      else .ok ()

def assertHostPattern (pattern : Text) : Except KeyError Unit :=
  if pattern.length = 0 ∨ pattern.any isForbiddenInPattern ∨ pattern.head? = some '-' then
    caError (text "invalid host pattern: " ++ jsonStringify pattern)
  else if '[' ∉ pattern ∧ ']' ∉ pattern then
    if ':' ∈ pattern ∧ isIP pattern ≠ IPV6_VERSION then
      caError (text "invalid IPv6 pattern: " ++ pattern)
    else .ok ()
  else assertPortQualifiedPattern isIP pattern

def caState (value : Option KeysState) : KeysState := value.getD .present

def hostPatterns (value : Option (List Text)) : Except KeyError (List Text) := do
  let patterns := value.getD []
  patterns.forM (assertHostPattern isIP)
  return patterns

/-- `/^[a-z_][a-z0-9_\-]*\$?$/` -/
def isUserName : Text → Bool
  | [] => false
  | head :: rest =>
      let body := if rest.getLast? = some '$' then rest.dropLast else rest
      (head.isLower || head = '_') &&
        body.all fun char => char.isLower || char.isDigit || char = '_' || char = '-'

def assertValidUserName (name : Text) : Except KeyError Unit :=
  if isUserName name = false then
    keyError (text "user name " ++ jsonStringify name ++ text " is invalid")
  else .ok ()

/-- `[...new Set(patterns)].sort()`: by code units. -/
def sortedPatterns (patterns : List Text) : List Text :=
  (patterns.foldl setAdd []).insertionSort fun first second =>
    Template.utf16Units first ≤ Template.utf16Units second

def knownHostsCaParameters (user : Text) (options : KnownHostsCertAuthorityOptions) :
    Except KeyError KnownHostsCaParameters := do
  assertValidUserName user
  let state := caState options.state
  let key ← canonicalKnownHostsCaKey options.publicKey true
  let patterns ← hostPatterns isIP options.hosts
  if state = .present ∧ patterns.length = 0 then
    caError (text "hosts must not be empty for present")
  else
    .ok
      { key := key
        patterns := sortedPatterns patterns
        state := state
        user := user }

end Parameters

/-! ### Records -/

def CERT_AUTHORITY_MARKER : Text := text "@cert-authority"

/-- `[ \t]` -/
def isLeadingBlank (char : Char) : Bool := char = ' ' || char = '\t'

/-- `[ \t\r\n]` -/
def isFieldBlank (char : Char) : Bool := isLeadingBlank char || char = '\r' || char = '\n'

def caFields (line : Text) : List Text :=
  splitRuns isFieldBlank (line.dropWhile isLeadingBlank)

def lineHasCaIdentity (line key : Text) : Bool :=
  let parts := caFields line
  if parts[0]? ≠ some CERT_AUTHORITY_MARKER ∨ parts.length < MIN_CA_LINE_FIELDS then false
  else
    match canonicalKnownHostsCaKey (parts[2]?.getD [] ++ ' ' :: parts[3]?.getD []) false with
    | .ok canonical => canonical = key
    | .error _ => false

/-- `buffer.toString("latin1")` -/
def latin1 (bytes : Buffer) : Text := bytes.map fun byte => Char.ofNat byte.toNat

def caLine (parameters : KnownHostsCaParameters) : Text :=
  text "@cert-authority " ++ [','].intercalate parameters.patterns ++
    ' ' :: parameters.key ++ ['\n']

def canonicalCaLine (parameters : KnownHostsCaParameters) : Text :=
  latin1 (utf8Bytes (caLine parameters))

def splitRecords (content : Text) : List Text :=
  let lines := content.splitOn '\n'
  lines.mapIdx fun index line => if index = lines.length - 1 then line else line ++ ['\n']

/-- The rest of the loop: what is preserved, and whether the canonical line is inserted. -/
def preserveRecords (parameters : KnownHostsCaParameters) : Bool → List Text → List Text × Bool
  | inserted, [] => ([], inserted)
  | inserted, record :: records =>
      if lineHasCaIdentity record parameters.key = false then
        let (preserved, insertedBehind) := preserveRecords parameters inserted records
        (record :: preserved, insertedBehind)
      else if parameters.state = .present ∧ inserted = false then
        let (preserved, insertedBehind) := preserveRecords parameters true records
        (canonicalCaLine parameters :: preserved, insertedBehind)
      else preserveRecords parameters inserted records

/-- A missing newline is added before the canonical line. -/
def missingNewline (content : Text) : Text :=
  if content ≠ [] ∧ content.getLast? ≠ some '\n' then ['\n'] else []

def reconcileKnownHostsCa (content : Text) (parameters : KnownHostsCaParameters) : Text :=
  let (preserved, inserted) := preserveRecords parameters false (splitRecords content)
  let result := preserved.flatten
  if parameters.state = .absent ∨ inserted = true then result
  else result ++ missingNewline result ++ canonicalCaLine parameters

/-! ### Canonical keys -/

/-- The bytes are those of a key with this algorithm. -/
def IsKeyBlob (algorithm : Text) (bytes : Buffer) : Prop :=
  ∃ fields, CheckedFields algorithm fields ∧
    FieldsAt bytes 0 (utf8Bytes algorithm :: fields)

/-- A key as the parameters have it -/
def CaKey (key : Text) : Prop :=
  ∃ algorithm bytes, IsKeyBlob algorithm bytes ∧ key = algorithm ++ ' ' :: encodeBase64 bytes

theorem encodedAlgorithm_eq {bytes name : Buffer} {fields : List Buffer}
    (filled : FieldsAt bytes 0 (name :: fields)) :
    subarray bytes SSH_STRING_LENGTH_BYTES (SSH_STRING_LENGTH_BYTES + readUInt32BE bytes 0) =
      name := by
  obtain ⟨nextOffset, field, _⟩ := fieldsAt_cons.1 filled
  obtain ⟨_, _, isName, _⟩ := fieldAt_iff.1 field
  have size : UINT32_SIZE = SSH_STRING_LENGTH_BYTES := rfl
  rw [isName, size, Nat.zero_add]

theorem canonicalKnownHostsCaKey_ok_iff {value key : Text} {strict : Bool} :
    canonicalKnownHostsCaKey value strict = .ok key ↔
      ('\n' ∉ trim value ∧ '\r' ∉ trim value) ∧
        ∃ algorithm encoded rest, splitSpaces (trim value) = algorithm :: encoded :: rest ∧
          isStrictBase64 encoded = true ∧ IsKeyBlob algorithm (decodeBase64 encoded) ∧
          (strict = true → encodeBase64 (decodeBase64 encoded) = encoded) ∧
          key = algorithm ++ ' ' :: encodeBase64 (decodeBase64 encoded) := by
  constructor
  · intro canonical
    obtain ⟨_, accepted, canonical⟩ := ok_of_bind canonical
    obtain ⟨algorithm, encoded, name, fields, parts, isName, pinned, areChecked⟩ :=
      accepted_iff.1 accepted
    obtain ⟨rest, split⟩ := parts.split
    rw [trim_trim] at split
    simp only [split, List.getElem?_cons_zero, List.getElem?_cons_succ, Option.getD_some,
      encodedAlgorithm_eq parts.filled] at canonical
    split at canonical
    · cases canonical
    next sameName =>
      rw [not_not] at sameName
      subst sameName
      split at canonical
      · cases canonical
      next spelled =>
        rw [not_and, not_not] at spelled
        cases canonical
        exact ⟨parts.oneLine, algorithm, encoded, rest, split, parts.strict,
          ⟨fields, areChecked, parts.filled⟩, spelled, rfl⟩
  · rintro ⟨oneLine, algorithm, encoded, rest, split, strictBase64, ⟨fields, areChecked, filled⟩,
      spelled, rfl⟩
    have accepted : assertAuthorizedKeyValue (trim value) = .ok () := by
      refine accepted_iff.2 ⟨algorithm, encoded, utf8Bytes algorithm, fields,
        ⟨oneLine, ⟨rest, ?_⟩, strictBase64, filled⟩, asciiText_pinned areChecked.pinned,
        areChecked.pinned, areChecked⟩
      rw [trim_trim, split]
    rw [canonicalKnownHostsCaKey]
    simp only [accepted, split, List.getElem?_cons_zero, List.getElem?_cons_succ, Option.getD_some,
      encodedAlgorithm_eq filled]
    show (if utf8Bytes algorithm ≠ utf8Bytes algorithm then _ else if _ then _ else _) = _
    rw [if_neg (not_not.2 rfl), if_neg (fun both => both.2 (spelled both.1))]

theorem caKey_of_canonical {value key : Text} {strict : Bool}
    (canonical : canonicalKnownHostsCaKey value strict = .ok key) : CaKey key := by
  obtain ⟨_, algorithm, encoded, _, _, _, isBlob, _, isKey⟩ :=
    canonicalKnownHostsCaKey_ok_iff.1 canonical
  exact ⟨algorithm, decodeBase64 encoded, isBlob, isKey⟩

/-! ### Records of a key -/

/-- The algorithm and the bytes of a canonical key -/
def decodedKey (key : Text) : Text × Buffer :=
  (key.takeWhile (· ≠ ' '), decodeBase64 ((key.dropWhile (· ≠ ' ')).drop 1))

/-- The words start with the algorithm of the key and some base64 of its bytes. -/
def spellsKey (key : Text) : List Text → Bool
  | algorithm :: encoded :: _ =>
      isStrictBase64 encoded && (algorithm, decodeBase64 encoded) = decodedKey key
  | _ => false

/-- The fields are a `@cert-authority` line for the key. -/
def isCaRecord (key record : Text) : Bool :=
  match caFields record with
  | marker :: _ :: fields => marker = CERT_AUTHORITY_MARKER && spellsKey key fields
  | _ => false

/-- The third and the fourth field hold white space that does not separate fields, and split at
it they spell the key. -/
def isStrayRecord (key record : Text) : Bool :=
  match caFields record with
  | marker :: _ :: third :: fourth :: _ =>
      marker = CERT_AUTHORITY_MARKER && (third ++ fourth).any isJsSpace &&
        spellsKey key (splitSpaces (trim (third ++ ' ' :: fourth)))
  | _ => false

theorem isWord_of_isStrictBase64 {encoded : Text} (strict : isStrictBase64 encoded = true) :
    IsWord encoded := by
  have noSpace : ∀ own ∈ base64Alphabet, isJsSpace own = false :=
    forall_mem_of_all (by decide +kernel)
  simp only [isStrictBase64, Bool.and_eq_true, decide_eq_true_eq, List.all_eq_true] at strict
  obtain ⟨nonempty, pads⟩ := strict
  refine ⟨fun empty => nonempty (by rw [empty, List.takeWhile_nil]), fun char mem => ?_⟩
  have isPrefix : encoded.takeWhile (· ∈ base64Alphabet) <+: encoded := List.takeWhile_prefix _
  rw [← List.prefix_iff_eq_append.1 isPrefix] at mem
  rcases List.mem_append.1 mem with letter | pad
  · have inAlphabet :=
      @List.mem_takeWhile_imp _ (fun own => decide (own ∈ base64Alphabet)) encoded char letter
    exact noSpace char (of_decide_eq_true inAlphabet)
  · rw [pads char pad]
    rfl

theorem decodedKey_eq {algorithm : Text} {bytes : Buffer} (isBlob : IsKeyBlob algorithm bytes) :
    IsWord algorithm ∧ bytes ≠ [] ∧
      decodedKey (algorithm ++ ' ' :: encodeBase64 bytes) = (algorithm, bytes) := by
  obtain ⟨fields, areChecked, filled⟩ := isBlob
  have areWords : ∀ name ∈ PINNED_HOST_KEY_ALGORITHMS, IsWord name := forall_mem_of_all (by decide)
  have isWord := areWords _ areChecked.pinned
  have noBlank : ∀ char ∈ algorithm, decide (char ≠ ' ') = true := by
    intro char mem
    rw [decide_eq_true_eq]
    rintro rfl
    cases isWord.2 ' ' mem
  refine ⟨isWord, ?_, ?_⟩
  · rintro rfl
    obtain ⟨nextOffset, field, _⟩ := fieldsAt_cons.1 filled
    have inside := field.le
    rw [field.2.2, UINT32_SIZE, List.length_nil] at inside
    omega
  · rw [decodedKey, List.takeWhile_append_of_pos noBlank, List.dropWhile_append_of_pos noBlank]
    simp [decodeBase64_encodeBase64]

section Identity

variable {key : Text} (isKey : CaKey key)

include isKey

theorem spellsKey_words {algorithm encoded : Text} {rest : List Text}
    (spells : spellsKey key (algorithm :: encoded :: rest) = true) :
    IsWord algorithm ∧ IsWord encoded := by
  obtain ⟨own, bytes, isBlob, rfl⟩ := isKey
  obtain ⟨isWord, _, isDecoded⟩ := decodedKey_eq isBlob
  simp only [spellsKey, isDecoded, Bool.and_eq_true, decide_eq_true_eq, Prod.mk.injEq] at spells
  obtain ⟨strict, rfl, _⟩ := spells
  exact ⟨isWord, isWord_of_isStrictBase64 strict⟩

/-- A text without line breaks is canonically the key exactly if its words spell the key. -/
theorem canonical_iff_spells {value : Text} (oneLine : '\n' ∉ trim value ∧ '\r' ∉ trim value) :
    canonicalKnownHostsCaKey value false = .ok key ↔
      spellsKey key (splitSpaces (trim value)) = true := by
  obtain ⟨own, bytes, isBlob, rfl⟩ := isKey
  obtain ⟨isWord, _, isDecoded⟩ := decodedKey_eq isBlob
  rw [canonicalKnownHostsCaKey_ok_iff, and_iff_right oneLine]
  constructor
  · rintro ⟨algorithm, encoded, rest, split, strict, otherBlob, _, same⟩
    have decoded := (decodedKey_eq otherBlob).2.2
    rw [← same, isDecoded] at decoded
    rw [split, spellsKey, strict, isDecoded, decoded, decide_eq_true rfl]
    rfl
  · intro spells
    rcases split : splitSpaces (trim value) with _ | ⟨algorithm, _ | ⟨encoded, rest⟩⟩
    · rw [split] at spells
      cases spells
    · rw [split] at spells
      cases spells
    · rw [split, spellsKey, isDecoded, Bool.and_eq_true, decide_eq_true_eq, Prod.mk.injEq] at spells
      obtain ⟨strict, rfl, rfl⟩ := spells
      exact ⟨algorithm, encoded, rest, rfl, strict, isBlob, nofun, rfl⟩

/-- Words without white space in them are split where they were joined. -/
theorem spellsKey_split {third fourth : Text} (rest : List Text)
    (noSpace : ∀ char ∈ third ++ fourth, isJsSpace char = false) :
    spellsKey key (splitSpaces (trim (third ++ ' ' :: fourth))) =
      spellsKey key (third :: fourth :: rest) := by
  rw [List.forall_mem_append] at noSpace
  have blank : ∀ char ∈ [' '], isJsSpace char = true := List.forall_mem_singleton.2 rfl
  by_cases words : third ≠ [] ∧ fourth ≠ []
  · have areWords : ∀ word ∈ [third, fourth], IsWord word :=
      List.forall_mem_cons.2
        ⟨⟨words.1, noSpace.1⟩, List.forall_mem_singleton.2 ⟨words.2, noSpace.2⟩⟩
    have joined : joinWords [third, fourth] = third ++ ' ' :: fourth := rfl
    rw [← joined, trim_joinWords areWords, splitSpaces_joinWords (List.cons_ne_nil _ _) areWords]
    rfl
  · -- one word is too few, and no algorithm or base64 is empty
    have spellsNot : spellsKey key (third :: fourth :: rest) = false := by
      rw [← Bool.not_eq_true]
      intro spells
      obtain ⟨isThird, isFourth⟩ := spellsKey_words isKey spells
      exact words ⟨isThird.1, isFourth.1⟩
    have oneWord : ∃ word, splitSpaces (trim (third ++ ' ' :: fourth)) = [word] := by
      rcases not_and_or.1 words with empty | empty
      · rw [not_not] at empty
        refine ⟨fourth, ?_⟩
        rw [empty, List.nil_append, ← List.singleton_append, trim_append blank,
          trim_eq_self (fun _ isHead => noSpace.2 _ (List.mem_of_head? isHead))
            (fun _ isLast => noSpace.2 _ (List.mem_of_getLast? isLast)),
          splitSpaces_word noSpace.2]
      · rw [not_not] at empty
        refine ⟨third, ?_⟩
        rw [empty, trim_append_blank third blank,
          trim_eq_self (fun _ isHead => noSpace.1 _ (List.mem_of_head? isHead))
            (fun _ isLast => noSpace.1 _ (List.mem_of_getLast? isLast)),
          splitSpaces_word noSpace.1]
    obtain ⟨word, split⟩ := oneWord
    rw [spellsNot, split]
    rfl

theorem lineHasCaIdentity_fields {record marker patterns third fourth : Text} {rest : List Text}
    (fields : caFields record = marker :: patterns :: third :: fourth :: rest) :
    lineHasCaIdentity record key = (marker = CERT_AUTHORITY_MARKER &&
      spellsKey key (splitSpaces (trim (third ++ ' ' :: fourth)))) := by
  have inFields (field : Text) (mem : field ∈ [third, fourth]) :
      ∀ char ∈ field, isFieldBlank char = false := by
    have inRecord : field ∈ caFields record := by
      rw [fields]
      exact List.mem_cons_of_mem _ (List.mem_cons_of_mem _ (List.mem_append_left rest mem))
    exact noSeparator_of_mem_splitRuns inRecord
  have noBreak (char : Char) (isBlank : isFieldBlank char = true) (notSpace : char ≠ ' ') :
      char ∉ trim (third ++ ' ' :: fourth) := by
    intro inValue
    have inParts := mem_of_mem_trim inValue
    rw [List.mem_append, List.mem_cons] at inParts
    rcases inParts with inThird | rfl | inFourth
    · rw [inFields third List.mem_cons_self char inThird] at isBlank
      cases isBlank
    · exact notSpace rfl
    · rw [inFields fourth (List.mem_cons_of_mem _ List.mem_cons_self) char inFourth] at isBlank
      cases isBlank
  have spelled := canonical_iff_spells isKey
    ⟨noBreak '\n' rfl (by decide), noBreak '\r' rfl (by decide)⟩
  have long : ¬(marker :: patterns :: third :: fourth :: rest).length < MIN_CA_LINE_FIELDS := by
    simp only [List.length_cons, MIN_CA_LINE_FIELDS]
    omega
  simp only [lineHasCaIdentity, fields, List.getElem?_cons_zero, List.getElem?_cons_succ,
    Option.getD_some, Option.some.injEq, ne_eq]
  by_cases isMarker : marker = CERT_AUTHORITY_MARKER
  · rw [if_neg (not_or.2 ⟨not_not.2 isMarker, long⟩), decide_eq_true isMarker, Bool.true_and]
    rw [Bool.eq_iff_iff, ← spelled]
    cases canonicalKnownHostsCaKey (third ++ ' ' :: fourth) false with
    | ok canonical => rw [decide_eq_true_eq, Except.ok.injEq]
    | error cause => exact iff_of_false nofun nofun
  · rw [if_pos (.inl isMarker), decide_eq_false isMarker, Bool.false_and]

theorem spellsKey_of_space {third fourth : Text} (rest : List Text)
    (space : (third ++ fourth).any isJsSpace = true) :
    spellsKey key (third :: fourth :: rest) = false := by
  rw [← Bool.not_eq_true]
  intro spells
  obtain ⟨isThird, isFourth⟩ := spellsKey_words isKey spells
  obtain ⟨char, mem, isSpace⟩ := List.any_eq_true.1 space
  rcases List.mem_append.1 mem with inThird | inFourth
  · rw [isThird.2 char inThird] at isSpace
    cases isSpace
  · rw [isFourth.2 char inFourth] at isSpace
    cases isSpace

omit isKey in
theorem isCaRecord_fields {record marker patterns third fourth : Text} {rest : List Text}
    (fields : caFields record = marker :: patterns :: third :: fourth :: rest) :
    isCaRecord key record =
      (marker = CERT_AUTHORITY_MARKER && spellsKey key (third :: fourth :: rest)) := by
  rw [isCaRecord, fields]

/-- The records that are taken for one of the key: its own, and the stray ones. -/
theorem lineHasCaIdentity_eq (record : Text) :
    lineHasCaIdentity record key = (isCaRecord key record || isStrayRecord key record) := by
  rcases fields : caFields record with
    _ | ⟨marker, _ | ⟨patterns, _ | ⟨third, _ | ⟨fourth, rest⟩⟩⟩⟩
  · simp [lineHasCaIdentity, isCaRecord, isStrayRecord, fields]
  · simp [lineHasCaIdentity, isCaRecord, isStrayRecord, fields, MIN_CA_LINE_FIELDS]
  · simp [lineHasCaIdentity, isCaRecord, isStrayRecord, fields, MIN_CA_LINE_FIELDS, spellsKey]
  · simp [lineHasCaIdentity, isCaRecord, isStrayRecord, fields, MIN_CA_LINE_FIELDS, spellsKey]
  · rw [lineHasCaIdentity_fields isKey fields, isCaRecord_fields fields, isStrayRecord, fields]
    by_cases space : (third ++ fourth).any isJsSpace = true
    · simp only [space, spellsKey_of_space isKey rest space, Bool.and_true, Bool.and_false,
        Bool.false_or]
    · have noSpace : ∀ char ∈ third ++ fourth, isJsSpace char = false := by
        simpa only [List.any_eq_true, not_exists, not_and, Bool.not_eq_true] using space
      rw [Bool.not_eq_true] at space
      simp only [space, spellsKey_split isKey rest noSpace, Bool.and_false, Bool.false_and,
        Bool.or_false]

theorem not_isCaRecord_of_stray {record : Text} (stray : isStrayRecord key record = true) :
    isCaRecord key record = false := by
  rw [isStrayRecord] at stray
  split at stray
  · next marker patterns third fourth rest fields =>
    rw [Bool.and_eq_true, Bool.and_eq_true] at stray
    rw [isCaRecord_fields fields, spellsKey_of_space isKey rest stray.1.2, Bool.and_false]
  · cases stray

/-! ### A newline behind a record -/

omit isKey in
theorem caFields_concat (record : Text) : caFields (record ++ ['\n']) = caFields record ∨
      caFields (record ++ ['\n']) = caFields record ++ [[]] := by
  have dropped : (record ++ ['\n']).dropWhile isLeadingBlank =
      record.dropWhile isLeadingBlank ++ ['\n'] := by
    rw [List.dropWhile_append]
    split
    · next blank =>
      rw [List.isEmpty_iff] at blank
      rw [blank]
      rfl
    · rfl
  rw [caFields, dropped]
  exact splitRuns_concat rfl _

omit isKey in
/-- The newline of a record does not decide whether it is one of the key. -/
theorem isCaRecord_concat (record : Text) :
    isCaRecord key (record ++ ['\n']) = isCaRecord key record := by
  rcases caFields_concat record with same | more
  · rw [isCaRecord, isCaRecord, same]
  · rw [isCaRecord, isCaRecord, more]
    rcases caFields record with _ | ⟨marker, _ | ⟨patterns, _ | ⟨third, _ | ⟨fourth, rest⟩⟩⟩⟩
    · rfl
    · simp [spellsKey]
    · simp [spellsKey]
    · simp [spellsKey, isStrictBase64]
    · simp [spellsKey]

omit isKey in
theorem isStrayRecord_concat {record : Text} (stray : isStrayRecord key record = true) :
    isStrayRecord key (record ++ ['\n']) = true := by
  rcases caFields_concat record with same | more
  · rwa [isStrayRecord, same]
  · rw [isStrayRecord] at stray ⊢
    rw [more]
    split at stray
    · next fields =>
      rw [fields]
      exact stray
    · cases stray

end Identity

end Paratix.Keys
