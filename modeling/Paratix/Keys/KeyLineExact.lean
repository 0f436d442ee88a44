/-
Module: Paratix.Keys.KeyLineExact
Purpose: The key lines that a server can load, and for which values `ssh.authorizedKeys` accepts these
  and no others.
Main exports: accepted_iff, authorizedKeys_exact_iff
-/
import Paratix.Foundation.Utf8
import Paratix.Foundation.Octets
import Paratix.Keys.PublicKey
import Paratix.Foundation.Result

namespace Paratix.Keys

open Foundation Archive

/-! ### Base64 -/

def isBase64AlphaNumeric (character : Char) : Bool :=
  ('A' ≤ character && character ≤ 'Z') || ('a' ≤ character && character ≤ 'z') ||
    ('0' ≤ character && character ≤ '9')

def isBase64DataCharacter (character : Char) : Bool :=
  isBase64AlphaNumeric character || character = '+' || character = '/'

/-- `sawPadding` is that the count is not zero. -/
def hasBase64AlphabetFrom : Nat → Text → Bool
  | _, [] => true
  | paddingCount, character :: rest =>
      if isBase64DataCharacter character then
        paddingCount = 0 && hasBase64AlphabetFrom paddingCount rest
      else character = '=' && paddingCount + 1 ≤ 2 && hasBase64AlphabetFrom (paddingCount + 1) rest

def hasValidBase64Alphabet (value : Text) : Bool := value ≠ [] && hasBase64AlphabetFrom 0 value

def trimBase64Padding (value : Text) : Text := value.rdropWhile (· = '=')

def isCanonicalBase64 (value : Text) : Bool :=
  hasValidBase64Alphabet value &&
    decodeBase64 value ≠ [] &&
    trimBase64Padding (encodeBase64 (decodeBase64 value)) = trimBase64Padding value

/-! ### The wire format -/

structure ReadResult (α : Type) where
  nextOffset : Nat
  value : α

def readUint32 (value : Buffer) (offset : Nat) : Option (ReadResult Nat) :=
  if value.length < offset + UINT32_SIZE then none
  else some { nextOffset := offset + UINT32_SIZE, value := readUInt32BE value offset }

def readWireString (value : Buffer) (offset : Nat) : Option (ReadResult Buffer) := do
  let lengthResult ← readUint32 value offset
  let endOffset := lengthResult.nextOffset + lengthResult.value
  if value.length < endOffset then none
  else some { nextOffset := endOffset, value := subarray value lengthResult.nextOffset endOffset }

/-- Bytes that are not UTF-8 give a text with replacement characters, which is none of the names
it is compared with: here `none`. -/
def readWireStringUtf8 (value : Buffer) (offset : Nat) : Option (ReadResult (Option Text)) :=
  (readWireString value offset).map fun result =>
    { nextOffset := result.nextOffset, value := decodeUtf8 result.value }

def readMpint (value : Buffer) (offset : Nat) : Option (ReadResult Buffer) :=
  (readWireString value offset).bind fun result => if result.value = [] then none else some result

def isAtEnd (value : Buffer) (offset : Nat) : Bool := offset = value.length

def MPINT_SIGN_BIT : Nat := 0x80

def isPositiveMpint (value : Buffer) : Bool :=
  match value with
  | [] => false
  | first :: _ => first.toNat < MPINT_SIGN_BIT

def hasCanonicalMpintEncoding (value : Buffer) : Bool :=
  match value with
  | [] => false
  | first :: rest =>
      if first ≠ 0 then true
      else
        match rest with
        | [] => false
        | second :: _ => MPINT_SIGN_BIT ≤ second.toNat

def removeMpintSignPadding : Buffer → Buffer
  | first :: second :: rest =>
      if first = 0 then removeMpintSignPadding (second :: rest) else first :: second :: rest
  | value => value

def mpintToBigInt (value : Buffer) : Nat := beValue (removeMpintSignPadding value)

def BITS_PER_BYTE : Nat := 8

def getMpintBitLength (value : Buffer) : Nat :=
  match removeMpintSignPadding value with
  | [] => 0
  | firstByte :: rest =>
      if firstByte = 0 then 0
      else rest.length * BITS_PER_BYTE + (Nat.toDigits 2 firstByte.toNat).length

def MINIMUM_RSA_MODULUS_BITS : Nat := 2048

def MINIMUM_RSA_EXPONENT : Nat := 3

def hasValidRsaExponent (value : Buffer) : Bool :=
  MINIMUM_RSA_EXPONENT ≤ mpintToBigInt value && mpintToBigInt value % 2 = 1

def hasValidRsaModulus (value : Buffer) : Bool := MINIMUM_RSA_MODULUS_BITS ≤ getMpintBitLength value

def validateRsaWireKey (value : Buffer) (offset : Nat) : Bool :=
  match readMpint value offset with
  | none => false
  | some exponent =>
      isPositiveMpint exponent.value && hasCanonicalMpintEncoding exponent.value &&
        hasValidRsaExponent exponent.value &&
        match readMpint value exponent.nextOffset with
        | none => false
        | some modulus =>
            isPositiveMpint modulus.value && hasCanonicalMpintEncoding modulus.value &&
              hasValidRsaModulus modulus.value && isAtEnd value modulus.nextOffset

def ecdsaCurveNames : List (Text × Text) :=
  [(text "ecdsa-sha2-nistp256", text "nistp256"), (text "ecdsa-sha2-nistp384", text "nistp384"),
    (text "ecdsa-sha2-nistp521", text "nistp521"),
    (SK_ECDSA_SHA2_NISTP256_ALGORITHM, text "nistp256")]

def ecdsaPointLengths : List (Text × Nat) :=
  [(text "nistp256", 65), (text "nistp384", 97), (text "nistp521", 133)]

def ecdsaJwkCurveNames : List (Text × Text) :=
  [(text "nistp256", text "P-256"), (text "nistp384", text "P-384"),
    (text "nistp521", text "P-521")]

def UNCOMPRESSED_EC_POINT_PREFIX : Nat := 0x04

def hasValidEcdsaPoint (point : Buffer) (expectedPointLength : Option Nat) : Bool :=
  some point.length = expectedPointLength &&
    (point.head?.map UInt8.toNat) = some UNCOMPRESSED_EC_POINT_PREFIX

section Crypto

/- `createPublicKey` takes the curve and the coordinates of a point. -/
variable (createsPublicKey : Text → Buffer → Buffer → Bool)

def hasCryptographicallyValidEcdsaPoint (point : Buffer) (curveName : Text) : Bool :=
  match ecdsaJwkCurveNames.lookup curveName with
  | none => false
  | some jwkCurveName =>
      let coordinateLength := (point.length - 1) / 2
      createsPublicKey jwkCurveName (subarray point 1 (1 + coordinateLength))
        (point.drop (1 + coordinateLength))

/-- `application?.value.length` is not zero and the key ends behind it. -/
def hasApplication (value : Buffer) (offset : Nat) : Bool :=
  match readWireString value offset with
  | none => false
  | some application => application.value ≠ [] && isAtEnd value application.nextOffset

def validateEcdsaWireKey (value : Buffer) (offset : Nat) (algorithm : Text) : Bool :=
  match ecdsaCurveNames.lookup algorithm, readWireStringUtf8 value offset with
  | some expectedCurveName, some curveName =>
      curveName.value = some expectedCurveName &&
        match readWireString value curveName.nextOffset with
        | none => false
        | some point =>
            hasValidEcdsaPoint point.value (ecdsaPointLengths.lookup expectedCurveName) &&
              hasCryptographicallyValidEcdsaPoint createsPublicKey point.value expectedCurveName &&
              if algorithm ≠ SK_ECDSA_SHA2_NISTP256_ALGORITHM then isAtEnd value point.nextOffset
              else hasApplication value point.nextOffset
  | _, _ => false

def validateEd25519WireKey (value : Buffer) (offset : Nat) (algorithm : Text) : Bool :=
  match readWireString value offset with
  | none => false
  | some publicKey =>
      publicKey.value.length = ED25519_PUBLIC_KEY_SIZE &&
        if algorithm ≠ SK_SSH_ED25519_ALGORITHM then isAtEnd value publicKey.nextOffset
        else hasApplication value publicKey.nextOffset

def hasValidOpenSshPublicKeyWireBlob (algorithm encodedKey : Text) : Bool :=
  let decodedKey := decodeBase64 encodedKey
  match readWireStringUtf8 decodedKey 0 with
  | none => false
  | some wireAlgorithm =>
      wireAlgorithm.value = some algorithm &&
        if algorithm = text "ssh-rsa" then validateRsaWireKey decodedKey wireAlgorithm.nextOffset
        else if text "ecdsa-" <+: algorithm ∨ text "sk-ecdsa-" <+: algorithm then
          validateEcdsaWireKey createsPublicKey decodedKey wireAlgorithm.nextOffset algorithm
        else if algorithm = SSH_ED25519_ALGORITHM ∨ algorithm = SK_SSH_ED25519_ALGORITHM then
          validateEd25519WireKey decodedKey wireAlgorithm.nextOffset algorithm
        else false

/-! ### The key line -/

def UNSAFE_CODEPOINTS : List (Nat × Nat) :=
  [(0x00, 0x1f), (0x7f, 0x9f), (0x200e, 0x200f), (0x202a, 0x202e), (0x2066, 0x2069)]

def containsUnsafeCodepoint (value : Text) : Bool :=
  value.any fun char => UNSAFE_CODEPOINTS.any fun range =>
    range.1 ≤ char.toNat && char.toNat ≤ range.2

def supportedOpenSshAlgorithms : List Text :=
  [text "ecdsa-sha2-nistp256", text "ecdsa-sha2-nistp384", text "ecdsa-sha2-nistp521",
    SK_ECDSA_SHA2_NISTP256_ALGORITHM, SK_SSH_ED25519_ALGORITHM, SSH_ED25519_ALGORITHM,
    text "ssh-rsa"]

structure ParsedPublicKey where
  algorithm : Text
  encodedKey : Text

def parseOpenSshPublicKey (value : Text) : Option ParsedPublicKey :=
  if value = [] ∨ '\r' ∈ value ∨ '\n' ∈ value then none
  else if containsUnsafeCodepoint value then none
  else
    match splitSpaces value with
    | algorithm :: encodedKey :: _ =>
        if algorithm ∈ supportedOpenSshAlgorithms then
          some { algorithm := algorithm, encodedKey := encodedKey }
        else none
    | _ => none

def isValidAdminPublicKey (value : Text) : Bool :=
  match parseOpenSshPublicKey (trim value) with
  | none => false
  | some parsedKey =>
      isCanonicalBase64 parsedKey.encodedKey &&
        hasValidOpenSshPublicKeyWireBlob createsPublicKey parsedKey.algorithm parsedKey.encodedKey

end Crypto

/-! ### Reading strings at an offset -/

/-- The string stands at the offset of the buffer and ends before the next one. -/
def FieldAt (buffer : Buffer) (offset : Nat) (value : Buffer) (nextOffset : Nat) : Prop :=
  buffer.drop offset = wireString value ++ buffer.drop nextOffset ∧ FitsWire value ∧
    nextOffset = offset + UINT32_SIZE + value.length

section Fields

variable {buffer value : Buffer} {offset nextOffset : Nat}

theorem FieldAt.le (field : FieldAt buffer offset value nextOffset) :
    nextOffset ≤ buffer.length := by
  obtain ⟨split, _, isNext⟩ := field
  have lengths := congrArg List.length split
  rw [List.length_drop, List.length_append, List.length_drop, length_wireString] at lengths
  have size : WIRE_LENGTH_SIZE = UINT32_SIZE := rfl
  have positive : 0 < UINT32_SIZE := by decide
  omega

/-- Nothing follows exactly if the buffer ends there. -/
theorem FieldAt.end_iff (field : FieldAt buffer offset value nextOffset) :
    nextOffset = buffer.length ↔ buffer.drop nextOffset = [] := by
  rw [List.drop_eq_nil_iff]
  have inside := field.le
  omega

theorem fieldAt_of_drop {rest : Buffer} (split : buffer.drop offset = wireString value ++ rest)
    (fits : FitsWire value) : FieldAt buffer offset value (offset + UINT32_SIZE + value.length) ∧
      buffer.drop (offset + UINT32_SIZE + value.length) = rest := by
  have isRest : buffer.drop (offset + UINT32_SIZE + value.length) = rest := by
    rw [Nat.add_assoc, ← List.drop_drop, split]
    exact List.drop_left' (length_wireString value)
  exact ⟨⟨by rw [isRest, split], fits, rfl⟩, isRest⟩

theorem takeString_drop (buffer : Buffer) (offset : Nat) : takeString (buffer.drop offset) =
      if buffer.length < offset + UINT32_SIZE then none
      else if buffer.length < offset + UINT32_SIZE + readUInt32BE buffer offset then none
      else some (subarray buffer (offset + UINT32_SIZE)
          (offset + UINT32_SIZE + readUInt32BE buffer offset),
        buffer.drop (offset + UINT32_SIZE + readUInt32BE buffer offset)) := by
  have size : WIRE_LENGTH_SIZE = UINT32_SIZE := rfl
  have isLength : beValue ((buffer.drop offset).take UINT32_SIZE) = readUInt32BE buffer offset :=
    rfl
  have positive : 0 < UINT32_SIZE := by decide
  rw [takeString, size, isLength, List.length_drop]
  by_cases short : buffer.length < offset + UINT32_SIZE
  · rw [if_pos short, if_pos (by omega)]
  · rw [if_neg short, if_neg (by omega)]
    simp only [List.length_drop, List.drop_drop, subarray, Nat.add_sub_cancel_left]
    by_cases truncated : buffer.length < offset + UINT32_SIZE + readUInt32BE buffer offset
    · rw [if_pos truncated, if_pos (by omega)]
    · rw [if_neg truncated, if_neg (by omega)]

/-- The bounds that both readers check are met exactly where a string stands. -/
theorem fieldAt_iff : FieldAt buffer offset value nextOffset ↔
    ¬buffer.length < offset + UINT32_SIZE ∧
      ¬buffer.length < offset + UINT32_SIZE + readUInt32BE buffer offset ∧
      value = subarray buffer (offset + UINT32_SIZE)
        (offset + UINT32_SIZE + readUInt32BE buffer offset) ∧
      nextOffset = offset + UINT32_SIZE + readUInt32BE buffer offset := by
  have taken := takeString_drop buffer offset
  constructor
  · rintro ⟨split, fits, isNext⟩
    rw [split, takeString_wireString fits] at taken
    split at taken
    · cases taken
    · next long =>
      split at taken
      · cases taken
      · next inside =>
        rw [Option.some.injEq, Prod.mk.injEq] at taken
        refine ⟨long, inside, taken.1, ?_⟩
        have length := congrArg List.length taken.1
        rw [subarray, List.length_take, List.length_drop] at length
        omega
  · rintro ⟨long, inside, isValue, isNext⟩
    rw [if_neg long, if_neg inside, ← isValue, ← isNext] at taken
    obtain ⟨split, fits⟩ := takeString_eq_some_iff.1 taken
    refine ⟨split, fits, ?_⟩
    have length := congrArg List.length isValue
    rw [subarray, List.length_take, List.length_drop] at length
    omega

theorem readSshStringField_ok_iff {field : SshStringField} :
    readSshStringField buffer offset = .ok field ↔
      FieldAt buffer offset field.value field.nextOffset := by
  rw [fieldAt_iff, readSshStringField]
  constructor
  · intro read
    split at read
    · cases read
    · next long =>
      simp only at read
      split at read
      · cases read
      · next inside =>
        cases read
        exact ⟨long, inside, rfl, rfl⟩
  · rintro ⟨long, inside, isValue, isNext⟩
    rw [if_neg long]
    simp only [if_neg inside]
    rw [← isValue, ← isNext]

theorem readWireString_some_iff {result : ReadResult Buffer} :
    readWireString buffer offset = some result ↔
      FieldAt buffer offset result.value result.nextOffset := by
  rw [fieldAt_iff, readWireString, readUint32]
  constructor
  · intro read
    split at read
    · cases read
    · next long =>
      simp only [Option.bind_eq_bind, Option.bind_some] at read
      split at read
      · cases read
      · next inside =>
        cases read
        exact ⟨long, inside, rfl, rfl⟩
  · rintro ⟨long, inside, isValue, isNext⟩
    rw [if_neg long]
    simp only [Option.bind_eq_bind, Option.bind_some, if_neg inside]
    rw [← isValue, ← isNext]

/-- The strings stand at the offset of the buffer and fill it up. -/
def FieldsAt (buffer : Buffer) (offset : Nat) (fields : List Buffer) : Prop :=
  buffer.drop offset = wireStrings fields ∧ ∀ field ∈ fields, FitsWire field

theorem fieldsAt_cons {fields : List Buffer} : FieldsAt buffer offset (value :: fields) ↔
    ∃ nextOffset, FieldAt buffer offset value nextOffset ∧ FieldsAt buffer nextOffset fields := by
  constructor
  · rintro ⟨split, fits⟩
    rw [wireStrings_cons] at split
    rw [List.forall_mem_cons] at fits
    obtain ⟨field, rest⟩ := fieldAt_of_drop split fits.1
    exact ⟨_, field, rest, fits.2⟩
  · rintro ⟨nextOffset, ⟨split, fits, _⟩, rest, restFits⟩
    refine ⟨?_, List.forall_mem_cons.2 ⟨fits, restFits⟩⟩
    rw [wireStrings_cons, split, rest]

theorem FieldAt.fieldsAt_nil (field : FieldAt buffer offset value nextOffset) :
    FieldsAt buffer nextOffset [] ↔ nextOffset = buffer.length := by
  rw [FieldsAt, field.end_iff]
  exact and_iff_left nofun

theorem fieldsAt_singleton : FieldsAt buffer offset [value] ↔
    ∃ nextOffset, FieldAt buffer offset value nextOffset ∧ nextOffset = buffer.length := by
  rw [fieldsAt_cons]
  exact exists_congr fun nextOffset => and_congr_right fun field => field.fieldsAt_nil

/-- The strings that fill a buffer up are those it spells. -/
theorem FieldsAt.unique {fields others : List Buffer} (own : FieldsAt buffer offset fields)
    (other : FieldsAt buffer offset others) : fields = others :=
  wireStrings_injective own.2 other.2 (own.1.symm.trans other.1)

end Fields

/-! ### The shapes that are checked -/

section Shapes

variable {algorithm : Text} {keyBuffer : Buffer} {offset : Nat}

theorem assertNoTrailingKeyBlobData_ok_iff :
    assertNoTrailingKeyBlobData keyBuffer offset = .ok () ↔ offset = keyBuffer.length := by
  rw [assertNoTrailingKeyBlobData]
  split
  · next trailing => exact iff_of_false nofun trailing
  · next atEnd => exact iff_of_true rfl (not_not.1 atEnd)

/-- What is checked of the strings behind the name. -/
inductive CheckedFields : Text → List Buffer → Prop
  | ed25519 {key : Buffer} (size : key.length = ED25519_PUBLIC_KEY_SIZE) :
      CheckedFields SSH_ED25519_ALGORITHM [key]
  | pair {algorithm : Text} {first second : Buffer}
      (pinned : algorithm ∈ PINNED_HOST_KEY_ALGORITHMS)
      (notEd25519 : algorithm ≠ SSH_ED25519_ALGORITHM) (firstNonempty : first ≠ [])
      (secondNonempty : second ≠ []) : CheckedFields algorithm [first, second]

theorem assertEd25519KeyBlobShape_ok_iff (plain : algorithm ≠ SK_SSH_ED25519_ALGORITHM) :
    assertEd25519KeyBlobShape algorithm keyBuffer offset = .ok () ↔
      ∃ key, key.length = ED25519_PUBLIC_KEY_SIZE ∧ FieldsAt keyBuffer offset [key] := by
  rw [assertEd25519KeyBlobShape]
  constructor
  · intro shape
    obtain ⟨keyField, read, checked⟩ := ok_of_bind shape
    split at checked
    · cases checked
    · next size =>
      rw [assertNoTrailingKeyBlobData_ok_iff] at checked
      have field := readSshStringField_ok_iff.1 read
      exact ⟨keyField.value, not_not.1 size, fieldsAt_singleton.2 ⟨_, field, checked⟩⟩
  · rintro ⟨key, size, filled⟩
    obtain ⟨nextOffset, field, atEnd⟩ := fieldsAt_singleton.1 filled
    have read := (@readSshStringField_ok_iff keyBuffer _ ⟨nextOffset, key⟩).2 field
    rw [read]
    show (if key.length ≠ ED25519_PUBLIC_KEY_SIZE then _ else _) = _
    rw [if_neg (not_not.2 size), if_neg plain]
    exact assertNoTrailingKeyBlobData_ok_iff.2 atEnd

/-- Two strings that are not empty fill the buffer up. -/
def PairAt (keyBuffer : Buffer) (offset : Nat) : Prop :=
  ∃ first second, first ≠ [] ∧ second ≠ [] ∧ FieldsAt keyBuffer offset [first, second]

theorem pair_ok_iff {message : Text} : (do
      let first ← readSshStringField keyBuffer offset
      let second ← readSshStringField keyBuffer first.nextOffset
      if first.value = [] ∨ second.value = [] then .error message
      else assertNoTrailingKeyBlobData keyBuffer second.nextOffset) = .ok () ↔
      PairAt keyBuffer offset := by
  constructor
  · intro shape
    obtain ⟨first, readFirst, shape⟩ := ok_of_bind shape
    obtain ⟨second, readSecond, checked⟩ := ok_of_bind shape
    split at checked
    · cases checked
    · next nonempty =>
      rw [not_or] at nonempty
      rw [assertNoTrailingKeyBlobData_ok_iff] at checked
      have firstField := readSshStringField_ok_iff.1 readFirst
      have secondField := readSshStringField_ok_iff.1 readSecond
      have last := fieldsAt_singleton.2 ⟨_, secondField, checked⟩
      exact ⟨_, _, nonempty.1, nonempty.2, fieldsAt_cons.2 ⟨_, firstField, last⟩⟩
  · rintro ⟨first, second, firstNonempty, secondNonempty, filled⟩
    obtain ⟨firstEnd, firstField, last⟩ := fieldsAt_cons.1 filled
    obtain ⟨secondEnd, secondField, atEnd⟩ := fieldsAt_singleton.1 last
    have readFirst := (@readSshStringField_ok_iff keyBuffer _ ⟨firstEnd, first⟩).2 firstField
    have readSecond := (@readSshStringField_ok_iff keyBuffer _ ⟨secondEnd, second⟩).2 secondField
    rw [readFirst]
    show (do
      let second ← readSshStringField keyBuffer firstEnd
      if first = [] ∨ second.value = [] then .error message
      else assertNoTrailingKeyBlobData keyBuffer second.nextOffset) = _
    rw [readSecond]
    show (if first = [] ∨ second = [] then _ else _) = _
    rw [if_neg (not_or.2 ⟨firstNonempty, secondNonempty⟩)]
    exact assertNoTrailingKeyBlobData_ok_iff.2 atEnd

/-! ### The key blob -/

theorem extractAlgoFromKey_ok_iff {name : Buffer} {nextOffset : Nat} {algorithm : Text}
    (field : FieldAt keyBuffer 0 name nextOffset) : extractAlgoFromKey keyBuffer = .ok algorithm ↔
      asciiText name = algorithm ∧ algorithm ∈ PINNED_HOST_KEY_ALGORITHMS := by
  obtain ⟨long, inside, isName, isNext⟩ := fieldAt_iff.1 field
  rw [Nat.zero_add] at long inside isName isNext
  have length : readUInt32BE keyBuffer 0 = name.length := by
    have next := field.2.2
    omega
  rw [extractAlgoFromKey, if_neg long]
  dsimp only
  rw [← isName]
  by_cases empty : readUInt32BE keyBuffer 0 = 0
  · have noName : name = [] := List.length_eq_zero_iff.1 (length.symm.trans empty)
    have unpinned : asciiText [] ∉ PINNED_HOST_KEY_ALGORITHMS := by decide
    rw [if_pos (.inl empty), noName]
    refine iff_of_false nofun ?_
    rintro ⟨rfl, pinned⟩
    exact unpinned pinned
  · rw [if_neg (not_or.2 ⟨empty, inside⟩)]
    split
    · next pinned =>
      rw [Except.ok.injEq]
      constructor
      · rintro rfl
        exact ⟨rfl, pinned⟩
      · exact And.left
    · next unpinned =>
      refine iff_of_false nofun ?_
      rintro ⟨rfl, pinned⟩
      exact unpinned pinned

theorem plain_of_pinned {algorithm : Text} (pinned : algorithm ∈ PINNED_HOST_KEY_ALGORITHMS) :
    algorithm ∉ [SK_ECDSA_SHA2_NISTP256_ALGORITHM, SK_SSH_ED25519_ALGORITHM] ∧
      ¬text "sk-ecdsa-sha2-" <+: algorithm ∧ algorithm ∈ AUTHORIZED_KEY_ALGORITHMS := by
  have all : ∀ algorithm ∈ PINNED_HOST_KEY_ALGORITHMS,
      algorithm ∉ [SK_ECDSA_SHA2_NISTP256_ALGORITHM, SK_SSH_ED25519_ALGORITHM] ∧
        ¬text "sk-ecdsa-sha2-" <+: algorithm ∧ algorithm ∈ AUTHORIZED_KEY_ALGORITHMS :=
    forall_mem_of_all (by decide)
  exact all algorithm pinned

/-- The shape that is checked for a pinned algorithm. -/
theorem assertAuthorizedKeyBlobShape_ok_iff {algorithm : Text} {name : Buffer} {nextOffset : Nat}
    (pinned : algorithm ∈ PINNED_HOST_KEY_ALGORITHMS) (field : FieldAt keyBuffer 0 name nextOffset)
    (named : asciiText name = algorithm) :
    assertAuthorizedKeyBlobShape algorithm keyBuffer = .ok () ↔
      ∃ fields, FieldsAt keyBuffer nextOffset fields ∧ CheckedFields algorithm fields := by
  obtain ⟨notSk, notSkEcdsa, _⟩ := plain_of_pinned pinned
  rw [List.mem_pair, not_or] at notSk
  have read := (@readSshStringField_ok_iff keyBuffer _ ⟨nextOffset, name⟩).2 field
  have first : assertAuthorizedKeyBlobShape algorithm keyBuffer =
      if algorithm = SSH_ED25519_ALGORITHM ∨ algorithm = SK_SSH_ED25519_ALGORITHM then
        assertEd25519KeyBlobShape algorithm keyBuffer nextOffset
      else if text "ecdsa-sha2-" <+: algorithm ∨ text "sk-ecdsa-sha2-" <+: algorithm then
        assertEcdsaKeyBlobShape algorithm keyBuffer nextOffset
      else assertRsaKeyBlobShape algorithm keyBuffer nextOffset := by
    have same : assertEncodedAlgorithm algorithm (asciiText name) = .ok () :=
      if_neg (not_not.2 named)
    rw [assertAuthorizedKeyBlobShape, read]
    show (assertEncodedAlgorithm algorithm (asciiText name) >>= _) = _
    rw [same]
    rfl
  rw [first]
  by_cases ed25519 : algorithm = SSH_ED25519_ALGORITHM
  · rw [if_pos (.inl ed25519), assertEd25519KeyBlobShape_ok_iff notSk.2]
    constructor
    · rintro ⟨key, size, filled⟩
      rw [ed25519]
      exact ⟨[key], filled, .ed25519 size⟩
    · rintro ⟨fields, filled, checked⟩
      cases checked with
      | ed25519 size => exact ⟨_, size, filled⟩
      | pair _ notEd25519 => exact absurd ed25519 notEd25519
  · have pairChecked : PairAt keyBuffer nextOffset ↔
        ∃ fields, FieldsAt keyBuffer nextOffset fields ∧ CheckedFields algorithm fields := by
      constructor
      · rintro ⟨first, second, firstNonempty, secondNonempty, filled⟩
        exact ⟨_, filled, .pair pinned ed25519 firstNonempty secondNonempty⟩
      · rintro ⟨fields, filled, checked⟩
        cases checked with
        | ed25519 => exact absurd rfl ed25519
        | pair _ _ firstNonempty secondNonempty =>
          exact ⟨_, _, firstNonempty, secondNonempty, filled⟩
    rw [if_neg (not_or.2 ⟨ed25519, notSk.2⟩), ← pairChecked]
    split
    · simp only [assertEcdsaKeyBlobShape, if_neg notSkEcdsa]
      exact pair_ok_iff
    · exact pair_ok_iff

/-- The two checks of a key blob read its strings. -/
theorem keyBlob_ok_iff {algorithm : Text} : (do
      let _ ← extractAlgoFromKey keyBuffer
      assertAuthorizedKeyBlobShape algorithm keyBuffer : Except Text Unit) = .ok () ↔
      ∃ name fields, FieldsAt keyBuffer 0 (name :: fields) ∧ asciiText name = algorithm ∧
        algorithm ∈ PINNED_HOST_KEY_ALGORITHMS ∧ CheckedFields algorithm fields := by
  constructor
  · intro checked
    obtain ⟨own, extracted, shape⟩ := ok_of_bind checked
    obtain ⟨field, read, sameName⟩ := ok_of_bind shape
    obtain ⟨_, named, _⟩ := ok_of_bind sameName
    have isName : asciiText field.value = algorithm := by
      rw [assertEncodedAlgorithm] at named
      split at named
      · cases named
      · next same => exact not_not.1 same
    have first := readSshStringField_ok_iff.1 read
    obtain ⟨rfl, pinned⟩ := (extractAlgoFromKey_ok_iff first).1 extracted
    rw [isName] at pinned
    obtain ⟨fields, filled, areChecked⟩ :=
      (assertAuthorizedKeyBlobShape_ok_iff pinned first isName).1 shape
    exact ⟨field.value, fields, fieldsAt_cons.2 ⟨_, first, filled⟩, isName, pinned, areChecked⟩
  · rintro ⟨name, fields, filled, isName, pinned, areChecked⟩
    obtain ⟨nextOffset, first, rest⟩ := fieldsAt_cons.1 filled
    rw [(extractAlgoFromKey_ok_iff first).2 ⟨isName, pinned⟩]
    exact (assertAuthorizedKeyBlobShape_ok_iff pinned first isName).2 ⟨fields, rest, areChecked⟩

end Shapes

/-! ### Accepted lines -/

/-- The first field of the line reads as the algorithm; the second is base64 in which the strings
of a key are read. -/
structure LineParts (value algorithm base64Key : Text) (name : Buffer) (fields : List Buffer) :
    Prop where
  oneLine : '\n' ∉ value ∧ '\r' ∉ value
  split : ∃ rest, splitSpaces (trim value) = algorithm :: base64Key :: rest
  strict : isStrictBase64 base64Key = true
  filled : FieldsAt (decodeBase64 base64Key) 0 (name :: fields)

theorem parseAuthorizedKeyParts_ok_iff {value algorithm base64Key : Text} :
    parseAuthorizedKeyParts value = .ok (algorithm, base64Key) ↔
      ∃ rest, splitSpaces (trim value) = algorithm :: base64Key :: rest := by
  rw [parseAuthorizedKeyParts]
  split
  · next first second rest split =>
    rw [split, Except.ok.injEq, Prod.mk.injEq]
    constructor
    · rintro ⟨rfl, rfl⟩
      exact ⟨rest, rfl⟩
    · rintro ⟨others, same⟩
      rw [List.cons.injEq, List.cons.injEq] at same
      exact ⟨same.1, same.2.1⟩
  · next short =>
    refine iff_of_false nofun ?_
    rintro ⟨rest, split⟩
    exact short _ _ _ split

theorem mapError_ok_iff {α ε δ : Type} {result : Except ε α} {wrap : ε → δ} {value : α} :
    result.mapError wrap = .ok value ↔ result = .ok value := by
  cases result with
  | error cause => exact iff_of_false nofun nofun
  | ok own => rw [Except.mapError, Except.ok.injEq, Except.ok.injEq]

theorem accepted_iff {value : Text} : assertAuthorizedKeyValue value = .ok () ↔
    ∃ algorithm base64Key name fields, LineParts value algorithm base64Key name fields ∧
      asciiText name = algorithm ∧ algorithm ∈ PINNED_HOST_KEY_ALGORITHMS ∧
        CheckedFields algorithm fields := by
  rw [assertAuthorizedKeyValue]
  constructor
  · intro accepted
    split at accepted
    · cases accepted
    split at accepted
    · cases accepted
    next oneLine =>
      obtain ⟨parts, parsed, checked⟩ := ok_of_bind accepted
      obtain ⟨algorithm, base64Key⟩ := parts
      dsimp only at checked
      split at checked
      · cases checked
      split at checked
      · cases checked
      next strict =>
        rw [mapError_ok_iff, keyBlob_ok_iff] at checked
        obtain ⟨name, fields, filled, isName, pinned, areChecked⟩ := checked
        rw [Bool.not_eq_false] at strict
        exact ⟨algorithm, base64Key, name, fields,
          ⟨not_or.1 oneLine, parseAuthorizedKeyParts_ok_iff.1 parsed, strict, filled⟩, isName,
          pinned, areChecked⟩
  · rintro ⟨algorithm, base64Key, name, fields, parts, isName, pinned, areChecked⟩
    have nonempty : value ≠ [] := by
      rintro rfl
      obtain ⟨rest, split⟩ := parts.split
      cases split
    rw [if_neg nonempty, if_neg (not_or.2 parts.oneLine),
      parseAuthorizedKeyParts_ok_iff.2 parts.split]
    show (if algorithm ∉ AUTHORIZED_KEY_ALGORITHMS then _ else if isStrictBase64 base64Key = false
      then _ else _) = _
    rw [if_neg (not_not.2 (plain_of_pinned pinned).2.2), parts.strict, if_neg Bool.noConfusion]
    rw [mapError_ok_iff, keyBlob_ok_iff]
    exact ⟨name, fields, parts.filled, isName, pinned, areChecked⟩

/-! ### Lines that can be loaded -/

/-- A positive number in the shortest form. -/
def IsMpint (value : Buffer) : Prop :=
  isPositiveMpint value = true ∧ hasCanonicalMpintEncoding value = true

/-- The strings behind the name of the algorithm. -/
inductive KeyFields : Text → List Buffer → Prop
  | ed25519 {key : Buffer} (size : key.length = ED25519_PUBLIC_KEY_SIZE) :
      KeyFields SSH_ED25519_ALGORITHM [key]
  | skEd25519 {key application : Buffer} (size : key.length = ED25519_PUBLIC_KEY_SIZE)
      (nonempty : application ≠ []) : KeyFields SK_SSH_ED25519_ALGORITHM [key, application]
  | rsa {exponent modulus : Buffer} (isExponent : IsMpint exponent) (isModulus : IsMpint modulus) :
      KeyFields (text "ssh-rsa") [exponent, modulus]
  | ecdsa {algorithm curve : Text} {point : Buffer}
      (plain : algorithm ≠ SK_ECDSA_SHA2_NISTP256_ALGORITHM)
      (isCurve : ecdsaCurveNames.lookup algorithm = some curve)
      (isPoint : hasValidEcdsaPoint point (ecdsaPointLengths.lookup curve) = true) :
      KeyFields algorithm [utf8Bytes curve, point]
  | skEcdsa {point application : Buffer}
      (isPoint : hasValidEcdsaPoint point (ecdsaPointLengths.lookup (text "nistp256")) = true)
      (nonempty : application ≠ []) :
      KeyFields SK_ECDSA_SHA2_NISTP256_ALGORITHM [utf8Bytes (text "nistp256"), point, application]

/-- The second field is the base64 text of one key of the algorithm that the first one names. -/
def KeyLine (value : Text) : Prop :=
  ∃ algorithm rest fields, KeyFields algorithm fields ∧
    (∀ field ∈ utf8Bytes algorithm :: fields, FitsWire field) ∧
    splitSpaces (trim value) =
      algorithm :: encodeBase64 (wireStrings (utf8Bytes algorithm :: fields)) :: rest

/-! ### When the accepted lines are these -/

/-- The base64 text is the one that is written for its bytes, the name is ASCII, the numbers of an
RSA key are positive and in the shortest form, and an ECDSA key has the curve of its algorithm and
a point of it. -/
structure Spelled (algorithm base64Key : Text) (name : Buffer) (fields : List Buffer) : Prop where
  canonical : encodeBase64 (decodeBase64 base64Key) = base64Key
  ascii : ∀ byte ∈ name, byte.toNat < 0x80
  rsa : algorithm = text "ssh-rsa" → ∀ field ∈ fields, IsMpint field
  ecdsa : ∀ curve, ecdsaCurveNames.lookup algorithm = some curve →
    ∃ point, fields = [utf8Bytes curve, point] ∧
      hasValidEcdsaPoint point (ecdsaPointLengths.lookup curve) = true

def SK_ALGORITHMS : List Text := [SK_ECDSA_SHA2_NISTP256_ALGORITHM, SK_SSH_ED25519_ALGORITHM]

def OneLine (value : Text) : Prop := '\n' ∉ value ∧ '\r' ∉ value

/-- What reads as a key is spelled as one, and a key for the administrator is not one of a
security key. -/
structure Installable (createsPublicKey : Text → Buffer → Buffer → Bool) (value : Text) :
    Prop where
  spelled : ∀ algorithm base64Key name fields, LineParts value algorithm base64Key name fields →
    asciiText name = algorithm → CheckedFields algorithm fields →
      Spelled algorithm base64Key name fields
  plain : OneLine value → isValidAdminPublicKey createsPublicKey value = true →
    ∀ algorithm rest, splitSpaces (trim value) = algorithm :: rest → algorithm ∉ SK_ALGORITHMS

section Spelling

variable {algorithm base64Key value : Text} {name : Buffer} {fields : List Buffer}

theorem CheckedFields.pinned (checked : CheckedFields algorithm fields) :
    algorithm ∈ PINNED_HOST_KEY_ALGORITHMS := by
  cases checked with
  | ed25519 => decide
  | pair pinned => exact pinned

theorem utf8Bytes_asciiText_iff :
    utf8Bytes (asciiText name) = name ↔ ∀ byte ∈ name, byte.toNat < 0x80 := by
  have one : ∀ value < 128, String.utf8EncodeChar (Char.ofNat value) = [UInt8.ofNat value] := by
    decide +kernel
  induction name with
  | nil => exact iff_of_true rfl nofun
  | cons byte rest ih =>
    have same : UInt8.ofNat (byte.toNat % 128) = byte ↔ byte.toNat < 0x80 := by
      have small := byte.toNat_lt
      rw [← UInt8.toNat_inj, UInt8.toNat_ofNat']
      omega
    rw [List.forall_mem_cons, ← same, asciiText, List.map_cons, utf8Bytes_cons,
      one _ (Nat.mod_lt _ (by decide)), List.singleton_append, List.cons.injEq]
    exact and_congr_right fun _ => ih

/-- Where the shape is checked, the spelling is all that is missing. -/
theorem keyFields_iff_spelled (checked : CheckedFields algorithm fields)
    (isName : asciiText name = algorithm) :
    base64Key = encodeBase64 (decodeBase64 base64Key) ∧ name = utf8Bytes algorithm ∧
      KeyFields algorithm fields ↔ Spelled algorithm base64Key name fields := by
  constructor
  · rintro ⟨canonical, sameName, areFields⟩
    have notSk := (plain_of_pinned checked.pinned).1
    rw [List.mem_pair, not_or] at notSk
    have rsaHasNoCurve : ecdsaCurveNames.lookup (text "ssh-rsa") = none := by decide
    have ed25519HasNoCurve : ecdsaCurveNames.lookup SSH_ED25519_ALGORITHM = none := by decide
    refine ⟨canonical.symm, utf8Bytes_asciiText_iff.1 (by rw [isName, sameName]), ?_, ?_⟩
    · intro isRsa
      cases areFields with
      | ed25519 => exact absurd isRsa (by decide)
      | skEd25519 => exact absurd rfl notSk.2
      | rsa isExponent isModulus =>
        rw [List.forall_mem_cons, List.forall_mem_singleton]
        exact ⟨isExponent, isModulus⟩
      | ecdsa _ isCurve =>
        rw [isRsa] at isCurve
        exact absurd (rsaHasNoCurve.symm.trans isCurve) nofun
      | skEcdsa => exact absurd rfl notSk.1
    · intro curve isCurve
      cases areFields with
      | ed25519 =>
        exact absurd (ed25519HasNoCurve.symm.trans isCurve) nofun
      | skEd25519 => exact absurd rfl notSk.2
      | rsa =>
        exact absurd (rsaHasNoCurve.symm.trans isCurve) nofun
      | ecdsa _ ownCurve isPoint =>
        rw [ownCurve] at isCurve
        obtain rfl := Option.some.inj isCurve
        exact ⟨_, rfl, isPoint⟩
      | skEcdsa => exact absurd rfl notSk.1
  · intro spelled
    refine ⟨spelled.canonical.symm, ?_, ?_⟩
    · rw [← isName]
      exact (utf8Bytes_asciiText_iff.2 spelled.ascii).symm
    · cases checked with
      | ed25519 size => exact .ed25519 size
      | @pair _ first second pinned notEd25519 _ _ =>
        have ofCurve : ∀ curve, algorithm ≠ SK_ECDSA_SHA2_NISTP256_ALGORITHM →
            ecdsaCurveNames.lookup algorithm = some curve →
              KeyFields algorithm [first, second] := by
          intro curve plain isCurve
          obtain ⟨point, areFields, isPoint⟩ := spelled.ecdsa curve isCurve
          rw [areFields]
          exact .ecdsa plain isCurve isPoint
        simp only [PINNED_HOST_KEY_ALGORITHMS, List.mem_cons, List.not_mem_nil, or_false] at pinned
        rcases pinned with rfl | isRsa | rfl | rfl | rfl
        · exact absurd rfl notEd25519
        · have areMpints := spelled.rsa isRsa
          rw [List.forall_mem_cons, List.forall_mem_singleton] at areMpints
          rw [isRsa]
          exact .rsa areMpints.1 areMpints.2
        · exact ofCurve (text "nistp256") (by decide) (by decide)
        · exact ofCurve (text "nistp384") (by decide) (by decide)
        · exact ofCurve (text "nistp521") (by decide) (by decide)

/-- A line that reads as a key is one that can be loaded exactly if it is spelled as one. -/
theorem keyLine_iff_spelled (parts : LineParts value algorithm base64Key name fields)
    (checked : CheckedFields algorithm fields) (isName : asciiText name = algorithm) :
    KeyLine value ↔ Spelled algorithm base64Key name fields := by
  rw [← keyFields_iff_spelled checked isName]
  obtain ⟨rest, split⟩ := parts.split
  constructor
  · rintro ⟨other, others, otherFields, areFields, fits, otherSplit⟩
    rw [split, List.cons.injEq, List.cons.injEq] at otherSplit
    obtain ⟨rfl, sameKey, _⟩ := otherSplit
    have bytes : decodeBase64 base64Key = wireStrings (utf8Bytes algorithm :: otherFields) := by
      rw [sameKey, decodeBase64_encodeBase64]
    have filled : FieldsAt (decodeBase64 base64Key) 0 (utf8Bytes algorithm :: otherFields) :=
      ⟨bytes, fits⟩
    obtain ⟨rfl, rfl⟩ := List.cons.inj (parts.filled.unique filled)
    exact ⟨by rw [bytes, ← sameKey], rfl, areFields⟩
  · rintro ⟨canonical, rfl, areFields⟩
    refine ⟨algorithm, rest, fields, areFields, parts.filled.2, ?_⟩
    have bytes : decodeBase64 base64Key = wireStrings (utf8Bytes algorithm :: fields) :=
      parts.filled.1
    rw [split, ← bytes, ← canonical]

end Spelling

/-! ### Keys for the administrator -/

theorem mem_base64Alphabet_of_data {char : Char} (isData : isBase64DataCharacter char = true) :
    char ∈ base64Alphabet := by
  have all : ∀ value < 128, isBase64DataCharacter (Char.ofNat value) = true →
      Char.ofNat value ∈ base64Alphabet := by decide +kernel
  have small : char.toNat < 128 := by
    simp only [isBase64DataCharacter, isBase64AlphaNumeric, Bool.or_eq_true, Bool.and_eq_true,
      decide_eq_true_eq, Char.le_def, UInt32.le_iff_toNat_le] at isData
    rcases isData with ((((⟨_, upper⟩ | ⟨_, upper⟩) | ⟨_, upper⟩) | rfl) | rfl)
    · exact Nat.lt_of_le_of_lt upper (by decide)
    · exact Nat.lt_of_le_of_lt upper (by decide)
    · exact Nat.lt_of_le_of_lt upper (by decide)
    · decide
    · decide
  have own := all char.toNat small
  rw [Char.ofNat_toNat] at own
  exact own isData

theorem body_of_base64Alphabet {value : Text} {paddingCount : Nat}
    (valid : hasBase64AlphabetFrom paddingCount value = true) :
    ∃ body padding, value = body ++ padding ∧ (∀ char ∈ body, char ∈ base64Alphabet) ∧
      (∀ char ∈ padding, char = '=') ∧ (paddingCount ≠ 0 → body = []) := by
  induction value generalizing paddingCount with
  | nil => exact ⟨[], [], rfl, nofun, nofun, fun _ => rfl⟩
  | cons char rest ih =>
    rw [hasBase64AlphabetFrom] at valid
    split at valid
    · next isData =>
      rw [Bool.and_eq_true, decide_eq_true_eq] at valid
      obtain ⟨body, padding, rfl, areLetters, pads, _⟩ := ih valid.2
      have isLetter := mem_base64Alphabet_of_data isData
      exact ⟨char :: body, padding, rfl, List.forall_mem_cons.2 ⟨isLetter, areLetters⟩, pads,
        fun padded => absurd valid.1 padded⟩
    · rw [Bool.and_eq_true, Bool.and_eq_true, decide_eq_true_eq] at valid
      obtain ⟨body, padding, rfl, _, pads, noBody⟩ := ih valid.2
      obtain rfl := noBody (Nat.succ_ne_zero _)
      exact ⟨[], char :: padding, rfl, nofun, List.forall_mem_cons.2 ⟨valid.1.1, pads⟩,
        fun _ => rfl⟩

theorem isStrictBase64_of_canonical {value : Text} (canonical : isCanonicalBase64 value = true) :
    isStrictBase64 value = true := by
  simp only [isCanonicalBase64, hasValidBase64Alphabet, Bool.and_eq_true, decide_eq_true_eq]
    at canonical
  obtain ⟨⟨⟨_, alphabet⟩, someByte⟩, _⟩ := canonical
  obtain ⟨body, padding, rfl, areLetters, pads, _⟩ := body_of_base64Alphabet alphabet
  apply isStrictBase64_append ?_ areLetters pads
  rintro rfl
  have nothing : padding.takeWhile (· ≠ '=') = [] :=
    @takeWhile_before_padding [] padding _ nofun pads rfl
  apply someByte
  rw [List.nil_append, decodeBase64, nothing]
  rfl

theorem parseOpenSshPublicKey_some {value : Text} {parsedKey : ParsedPublicKey}
    (parsed : parseOpenSshPublicKey value = some parsedKey) :
    ∃ rest, splitSpaces value = parsedKey.algorithm :: parsedKey.encodedKey :: rest ∧
      parsedKey.algorithm ∈ supportedOpenSshAlgorithms := by
  rw [parseOpenSshPublicKey] at parsed
  split at parsed
  · cases parsed
  split at parsed
  · cases parsed
  split at parsed
  · next algorithm encodedKey rest split =>
    split at parsed
    · next supported =>
      cases parsed
      exact ⟨rest, split, supported⟩
    · cases parsed
  · cases parsed

theorem pinned_of_supported {algorithm : Text} (supported : algorithm ∈ supportedOpenSshAlgorithms)
    (plain : algorithm ∉ SK_ALGORITHMS) : algorithm ∈ PINNED_HOST_KEY_ALGORITHMS := by
  have all : ∀ algorithm ∈ supportedOpenSshAlgorithms, algorithm ∉ SK_ALGORITHMS →
      algorithm ∈ PINNED_HOST_KEY_ALGORITHMS := forall_mem_of_all (by decide)
  exact all algorithm supported plain

theorem asciiText_pinned {algorithm : Text} (pinned : algorithm ∈ PINNED_HOST_KEY_ALGORITHMS) :
    asciiText (utf8Bytes algorithm) = algorithm := by
  have all : ∀ algorithm ∈ PINNED_HOST_KEY_ALGORITHMS,
      asciiText (utf8Bytes algorithm) = algorithm := forall_mem_of_all (by decide)
  exact all algorithm pinned

section Admin

variable {createsPublicKey : Text → Buffer → Buffer → Bool} {value algorithm encodedKey : Text}

theorem readWireStringUtf8_some {buffer : Buffer} {offset : Nat} {result : ReadResult (Option Text)}
    (read : readWireStringUtf8 buffer offset = some result) :
    ∃ bytes, FieldAt buffer offset bytes result.nextOffset ∧ result.value = decodeUtf8 bytes := by
  obtain ⟨field, readField, rfl⟩ := Option.map_eq_some_iff.1 read
  exact ⟨field.value, readWireString_some_iff.1 readField, rfl⟩

theorem readMpint_some {buffer : Buffer} {offset : Nat} {result : ReadResult Buffer}
    (read : readMpint buffer offset = some result) :
    FieldAt buffer offset result.value result.nextOffset ∧ result.value ≠ [] := by
  obtain ⟨field, readField, isNumber⟩ := Option.bind_eq_some_iff.1 read
  split at isNumber
  · cases isNumber
  · next nonempty =>
    cases isNumber
    exact ⟨readWireString_some_iff.1 readField, nonempty⟩

theorem pairAt_of_validateRsaWireKey {buffer : Buffer} {offset : Nat}
    (valid : validateRsaWireKey buffer offset = true) : PairAt buffer offset := by
  rw [validateRsaWireKey] at valid
  split at valid
  · cases valid
  next exponent readExponent =>
    rw [Bool.and_eq_true] at valid
    obtain ⟨_, valid⟩ := valid
    split at valid
    · cases valid
    next modulus readModulus =>
      rw [Bool.and_eq_true, isAtEnd, decide_eq_true_eq] at valid
      obtain ⟨exponentField, exponentNonempty⟩ := readMpint_some readExponent
      obtain ⟨modulusField, modulusNonempty⟩ := readMpint_some readModulus
      have last := fieldsAt_singleton.2 ⟨_, modulusField, valid.2⟩
      exact ⟨_, _, exponentNonempty, modulusNonempty, fieldsAt_cons.2 ⟨_, exponentField, last⟩⟩

theorem decodeUtf8_nonempty {bytes : Buffer} {name : Text} (nonempty : name ≠ [])
    (decoded : decodeUtf8 bytes = some name) : bytes ≠ [] := by
  rintro rfl
  rw [show ([] : Buffer) = utf8Bytes [] from rfl, decodeUtf8_utf8Bytes] at decoded
  exact nonempty (Option.some.inj decoded).symm

theorem nonempty_of_curve {curve : Text} (isCurve : ecdsaCurveNames.lookup algorithm = some curve) :
    curve ≠ [] := by
  have all : ∀ names ∈ ecdsaCurveNames, names.2 ≠ [] := by decide
  obtain ⟨before, behind, split, _⟩ := List.lookup_eq_some_iff.1 isCurve
  apply all (algorithm, curve)
  rw [split]
  exact List.mem_append_right _ List.mem_cons_self

theorem pairAt_of_validateEcdsaWireKey {buffer : Buffer} {offset : Nat}
    (plain : algorithm ≠ SK_ECDSA_SHA2_NISTP256_ALGORITHM)
    (valid : validateEcdsaWireKey createsPublicKey buffer offset algorithm = true) :
    PairAt buffer offset := by
  rw [validateEcdsaWireKey] at valid
  split at valid
  · next expectedCurveName curveName isCurve readCurve =>
    rw [Bool.and_eq_true, decide_eq_true_eq] at valid
    obtain ⟨sameCurve, valid⟩ := valid
    split at valid
    · cases valid
    next point readPoint =>
      rw [if_pos plain, Bool.and_eq_true, Bool.and_eq_true, isAtEnd, decide_eq_true_eq] at valid
      obtain ⟨⟨isPoint, _⟩, atEnd⟩ := valid
      obtain ⟨bytes, curveField, decoded⟩ := readWireStringUtf8_some readCurve
      have pointField := readWireString_some_iff.1 readPoint
      have last := fieldsAt_singleton.2 ⟨_, pointField, atEnd⟩
      have named := nonempty_of_curve isCurve
      have pointNonempty : point.value ≠ [] := by
        intro empty
        rw [hasValidEcdsaPoint, Bool.and_eq_true, empty] at isPoint
        exact Bool.noConfusion isPoint.2
      have curveNonempty := decodeUtf8_nonempty named (decoded.symm.trans sameCurve)
      exact ⟨_, _, curveNonempty, pointNonempty, fieldsAt_cons.2 ⟨_, curveField, last⟩⟩
  · cases valid

theorem fieldsAt_of_validateEd25519WireKey {buffer : Buffer} {offset : Nat}
    (plain : algorithm ≠ SK_SSH_ED25519_ALGORITHM)
    (valid : validateEd25519WireKey buffer offset algorithm = true) :
    ∃ key, key.length = ED25519_PUBLIC_KEY_SIZE ∧ FieldsAt buffer offset [key] := by
  rw [validateEd25519WireKey] at valid
  split at valid
  · cases valid
  next publicKey readKey =>
    rw [if_pos plain, Bool.and_eq_true, decide_eq_true_eq, isAtEnd, decide_eq_true_eq] at valid
    have field := readWireString_some_iff.1 readKey
    exact ⟨_, valid.1, fieldsAt_singleton.2 ⟨_, field, valid.2⟩⟩

/-- The strings behind the name that the generator reads are checked ones. -/
theorem checkedFields_of_wireBlob
    (valid : hasValidOpenSshPublicKeyWireBlob createsPublicKey algorithm encodedKey = true)
    (pinned : algorithm ∈ PINNED_HOST_KEY_ALGORITHMS) :
    ∃ fields, FieldsAt (decodeBase64 encodedKey) 0 (utf8Bytes algorithm :: fields) ∧
      CheckedFields algorithm fields := by
  obtain ⟨notSk, _, _⟩ := plain_of_pinned pinned
  rw [List.mem_pair, not_or] at notSk
  rw [hasValidOpenSshPublicKeyWireBlob] at valid
  split at valid
  · cases valid
  next wireAlgorithm readName =>
    rw [Bool.and_eq_true, decide_eq_true_eq] at valid
    obtain ⟨sameName, valid⟩ := valid
    obtain ⟨name, nameField, decoded⟩ := readWireStringUtf8_some readName
    have isName := decodeUtf8_eq_some_iff.1 (decoded.symm.trans sameName)
    rw [← isName] at nameField
    have ofPair : algorithm ≠ SSH_ED25519_ALGORITHM →
        PairAt (decodeBase64 encodedKey) wireAlgorithm.nextOffset →
          ∃ fields, FieldsAt (decodeBase64 encodedKey) 0 (utf8Bytes algorithm :: fields) ∧
            CheckedFields algorithm fields := by
      rintro notEd25519 ⟨first, second, firstNonempty, secondNonempty, filled⟩
      exact ⟨[first, second], fieldsAt_cons.2 ⟨_, nameField, filled⟩,
        .pair pinned notEd25519 firstNonempty secondNonempty⟩
    split at valid
    · next isRsa =>
      exact ofPair (by rw [isRsa]; decide) (pairAt_of_validateRsaWireKey valid)
    split at valid
    · next isEcdsa =>
      apply ofPair ?_ (pairAt_of_validateEcdsaWireKey notSk.1 valid)
      rintro rfl
      exact absurd isEcdsa (by decide)
    split at valid
    · next isEd25519 =>
      obtain ⟨key, size, filled⟩ := fieldsAt_of_validateEd25519WireKey notSk.2 valid
      obtain rfl := isEd25519.resolve_right notSk.2
      exact ⟨[key], fieldsAt_cons.2 ⟨_, nameField, filled⟩, .ed25519 size⟩
    · cases valid

/-- A key line for the administrator is accepted unless it is one of a security key. -/
theorem accepted_of_admin (oneLine : OneLine value)
    (valid : isValidAdminPublicKey createsPublicKey value = true)
    (plain : ∀ algorithm rest, splitSpaces (trim value) = algorithm :: rest →
      algorithm ∉ SK_ALGORITHMS) :
    assertAuthorizedKeyValue value = .ok () := by
  rw [isValidAdminPublicKey] at valid
  split at valid
  · cases valid
  next parsedKey parsed =>
    rw [Bool.and_eq_true] at valid
    obtain ⟨rest, split, supported⟩ := parseOpenSshPublicKey_some parsed
    have pinned := pinned_of_supported supported (plain _ _ split)
    obtain ⟨fields, filled, checked⟩ := checkedFields_of_wireBlob valid.2 pinned
    exact accepted_iff.2 ⟨_, _, _, fields, ⟨oneLine, ⟨rest, split⟩,
      isStrictBase64_of_canonical valid.1, filled⟩, asciiText_pinned pinned, pinned, checked⟩

end Admin

theorem canonical_of_installable {createsPublicKey : Text → Buffer → Buffer → Bool}
    {value algorithm base64Key : Text} {rest : List Text}
    (installable : Installable createsPublicKey value)
    (accepted : assertAuthorizedKeyValue value = .ok ())
    (split : splitSpaces (trim value) = algorithm :: base64Key :: rest) :
    encodeBase64 (decodeBase64 base64Key) = base64Key := by
  obtain ⟨other, otherKey, name, fields, parts, isName, _, checked⟩ := accepted_iff.1 accepted
  obtain ⟨others, otherSplit⟩ := parts.split
  rw [split, List.cons.injEq, List.cons.injEq] at otherSplit
  rw [otherSplit.2.1]
  exact (installable.spelled _ _ _ _ parts isName checked).canonical

/-- For every value: what is accepted can be loaded, and what the generator accepts is accepted,
exactly if it is spelled as a key and is not a key of a security key; then equal bytes have one
text. -/
theorem authorizedKeys_exact_iff (createsPublicKey : Text → Buffer → Buffer → Bool) :
    (∀ value, ((assertAuthorizedKeyValue value = .ok () → KeyLine value) ∧
      (OneLine value → isValidAdminPublicKey createsPublicKey value = true →
        assertAuthorizedKeyValue value = .ok ())) ↔ Installable createsPublicKey value) ∧
    ∀ value other, Installable createsPublicKey value → Installable createsPublicKey other →
      assertAuthorizedKeyValue value = .ok () → assertAuthorizedKeyValue other = .ok () →
        ∀ algorithm base64Key otherKey rest others,
          splitSpaces (trim value) = algorithm :: base64Key :: rest →
          splitSpaces (trim other) = algorithm :: otherKey :: others →
          decodeBase64 base64Key = decodeBase64 otherKey → base64Key = otherKey := by
  constructor
  · intro value
    constructor
    · rintro ⟨accepted, admitted⟩
      constructor
      · intro algorithm base64Key name fields parts isName checked
        have isAccepted := accepted_iff.2 ⟨_, _, _, _, parts, isName, checked.pinned, checked⟩
        exact (keyLine_iff_spelled parts checked isName).1 (accepted isAccepted)
      · intro oneLine valid algorithm rest split isSk
        obtain ⟨other, base64Key, name, fields, parts, _, pinned, _⟩ :=
          accepted_iff.1 (admitted oneLine valid)
        obtain ⟨others, otherSplit⟩ := parts.split
        rw [split, List.cons.injEq] at otherSplit
        rw [← otherSplit.1] at pinned
        exact (plain_of_pinned pinned).1 isSk
    · intro installable
      constructor
      · intro accepted
        obtain ⟨algorithm, base64Key, name, fields, parts, isName, _, checked⟩ :=
          accepted_iff.1 accepted
        have spelled := installable.spelled _ _ _ _ parts isName checked
        exact (keyLine_iff_spelled parts checked isName).2 spelled
      · intro oneLine valid
        exact accepted_of_admin oneLine valid (installable.plain oneLine valid)
  · intro value other installable otherInstallable accepted otherAccepted algorithm base64Key
      otherKey rest others split otherSplit sameBytes
    have canonical := canonical_of_installable installable accepted split
    have otherCanonical := canonical_of_installable otherInstallable otherAccepted otherSplit
    rw [← canonical, sameBytes, otherCanonical]

/-! ### Lines that are not -/

/-- The bytes of an Ed25519 key: 32 of them are its own. -/
def ed25519Strings (algorithm : Text) (others : List Buffer) : Buffer :=
  wireStrings (utf8Bytes algorithm :: List.replicate ED25519_PUBLIC_KEY_SIZE 7 :: others)

def ed25519Line : Text :=
  text "ssh-ed25519 " ++ encodeBase64 (ed25519Strings (text "ssh-ed25519") [])

def skLine : Text :=
  SK_SSH_ED25519_ALGORITHM ++ text " " ++
    encodeBase64 (ed25519Strings SK_SSH_ED25519_ALGORITHM [utf8Bytes (text "ssh:")])

/-- A second text of the same key is accepted, and the line of a security key is not. -/
theorem padded_key_accepted :
    assertAuthorizedKeyValue (ed25519Line ++ text "=") = .ok () ∧
      assertAuthorizedKeyValue ed25519Line = .ok () ∧ ¬KeyLine (ed25519Line ++ text "=") ∧
      ∀ createsPublicKey, isValidAdminPublicKey createsPublicKey skLine = true ∧
        assertAuthorizedKeyValue skLine ≠ .ok () := by
  refine ⟨by decide +kernel, by decide +kernel, ?_, fun createsPublicKey => ⟨?_, by decide +kernel⟩⟩
  · rintro ⟨algorithm, rest, fields, _, _, split⟩
    have isSplit : splitSpaces (trim (ed25519Line ++ text "=")) =
        [text "ssh-ed25519",
          encodeBase64 (ed25519Strings (text "ssh-ed25519") []) ++ text "="] := by
      decide +kernel
    have notWritten : encodeBase64 (decodeBase64
        (encodeBase64 (ed25519Strings (text "ssh-ed25519") []) ++ text "=")) ≠
          encodeBase64 (ed25519Strings (text "ssh-ed25519") []) ++ text "=" := by
      decide +kernel
    rw [isSplit, List.cons.injEq, List.cons.injEq] at split
    apply notWritten
    rw [split.2.1, decodeBase64_encodeBase64]
  · rfl

end Paratix.Keys
