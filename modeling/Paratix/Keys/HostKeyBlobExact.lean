/-
Module: Paratix.Keys.HostKeyBlobExact
Purpose: How the project generator checks a scanned host key before it pins the fingerprint; the
  host keys that the checks of a blob and of a scan accept.
Main exports: validateHostKeyBlob, host_key_blob_exact
-/
import Paratix.Keys.KeyLineExact
import Paratix.Keys.VerifierSound
import Paratix.Keys.AdminKeyExact

namespace Paratix.Keys.HostKeyBlob

open Foundation Archive

/-! ### Reading -/

def SSH_WIRE_LENGTH_FIELD_BYTES : Nat := 4

def PRINTABLE_ASCII_MIN : Nat := 0x20

def PRINTABLE_ASCII_MAX : Nat := 0x7e

def ECDSA_CURVE_NAMES : List (Text × Text) :=
  [(text "ecdsa-sha2-nistp256", text "nistp256"), (text "ecdsa-sha2-nistp384", text "nistp384"),
    (text "ecdsa-sha2-nistp521", text "nistp521")]

def ECDSA_POINT_LENGTHS : List (Text × Nat) :=
  [(text "nistp256", 65), (text "nistp384", 97), (text "nistp521", 133)]

def ECDSA_JWK_CURVE_NAMES : List (Text × Text) :=
  [(text "nistp256", text "P-256"), (text "nistp384", text "P-384"),
    (text "nistp521", text "P-521")]

def readWireString (value : Buffer) (offset : Nat) : Option (ReadResult Buffer) :=
  if value.length < offset + SSH_WIRE_LENGTH_FIELD_BYTES then none
  else
    let length := readUInt32BE value offset
    let start := offset + SSH_WIRE_LENGTH_FIELD_BYTES
    let finish := start + length
    if value.length < finish then none
    else some { nextOffset := finish, value := subarray value start finish }

def throwInvalidHostKeyBlob {α : Type} (algorithm detail : Text) : Except Text α :=
  .error (text "Refusing to capture host fingerprint: malformed \"" ++ algorithm ++
    text "\" host key blob (" ++ detail ++
    text "). This may indicate a man-in-the-middle attack or a broken SSH peer.")

def isPrintableAsciiByte (byte : UInt8) : Bool :=
  PRINTABLE_ASCII_MIN ≤ byte.toNat && byte.toNat ≤ PRINTABLE_ASCII_MAX

/-! ### The fields of a key -/

def validateEd25519HostKeyBlob (keyBuffer : Buffer) (offset : Nat) (algorithm : Text) :
    Except Text Unit :=
  match readWireString keyBuffer offset with
  | none => throwInvalidHostKeyBlob algorithm (text "missing or truncated public-key field")
  | some publicKey =>
      if publicKey.value.length ≠ ED25519_PUBLIC_KEY_SIZE then
        throwInvalidHostKeyBlob algorithm (text "expected " ++ decimal ED25519_PUBLIC_KEY_SIZE ++
          text "-byte public key, got " ++ decimal publicKey.value.length)
      else if publicKey.nextOffset ≠ keyBuffer.length then
        throwInvalidHostKeyBlob algorithm (text "trailing data after public key")
      else .ok ()

section Crypto

/- `createPublicKey` takes the curve and the coordinates of a point. -/
variable (createsPublicKey : Text → Buffer → Buffer → Bool)

def assertEcdsaPointIsOnCurve (point : Buffer) (curveName algorithm : Text) : Except Text Unit :=
  match ECDSA_JWK_CURVE_NAMES.lookup curveName with
  | none =>
      throwInvalidHostKeyBlob algorithm (text "unknown ECDSA curve \"" ++ curveName ++ text "\"")
  | some jwkCurveName =>
      let coordinateLength := (point.length - 1) / 2
      if createsPublicKey jwkCurveName (subarray point 1 (1 + coordinateLength))
          (point.drop (1 + coordinateLength)) then .ok ()
      else throwInvalidHostKeyBlob algorithm (text "EC point is not on the expected curve")

def readEcdsaCurveName (keyBuffer : Buffer) (offset : Nat) (algorithm expectedCurveName : Text) :
    Except Text (ReadResult Buffer) :=
  match readWireString keyBuffer offset with
  | none => throwInvalidHostKeyBlob algorithm (text "missing or truncated curve identifier")
  | some curveName =>
      if curveName.value.all isPrintableAsciiByte = false then
        throwInvalidHostKeyBlob algorithm (text "curve identifier contains non-printable bytes")
      else if asciiText curveName.value ≠ expectedCurveName then
        throwInvalidHostKeyBlob algorithm (text "curve identifier \"" ++
          asciiText curveName.value ++ text "\" does not match \"" ++ expectedCurveName ++
          text "\"")
      else .ok curveName

def readEcdsaPoint (keyBuffer : Buffer) (offset : Nat) (algorithm : Text)
    (expectedPointLength : Nat) : Except Text (ReadResult Buffer) :=
  match readWireString keyBuffer offset with
  | none => throwInvalidHostKeyBlob algorithm (text "missing or truncated EC point field")
  | some point =>
      if point.value.length ≠ expectedPointLength then
        throwInvalidHostKeyBlob algorithm (text "expected " ++ decimal expectedPointLength ++
          text "-byte EC point, got " ++ decimal point.value.length)
      else if point.value.head?.map UInt8.toNat ≠ some UNCOMPRESSED_EC_POINT_PREFIX then
        throwInvalidHostKeyBlob algorithm (text "EC point is not in uncompressed form")
      else if point.nextOffset ≠ keyBuffer.length then
        throwInvalidHostKeyBlob algorithm (text "trailing data after EC point")
      else .ok point

def validateEcdsaHostKeyBlob (keyBuffer : Buffer) (offset : Nat) (algorithm : Text) :
    Except Text Unit :=
  match ECDSA_CURVE_NAMES.lookup algorithm with
  | none => throwInvalidHostKeyBlob algorithm (text "no curve mapping for algorithm")
  | some expectedCurveName =>
      match ECDSA_POINT_LENGTHS.lookup expectedCurveName with
      | none => throwInvalidHostKeyBlob algorithm (text "no curve mapping for algorithm")
      | some expectedPointLength => do
          let curveName ← readEcdsaCurveName keyBuffer offset algorithm expectedCurveName
          let point ← readEcdsaPoint keyBuffer curveName.nextOffset algorithm expectedPointLength
          assertEcdsaPointIsOnCurve createsPublicKey point.value expectedCurveName algorithm

/-! ### The blob -/

def resolvePayloadOffset (keyBuffer : Buffer) (algorithm : Text) (payloadOffsetHint : Option Nat) :
    Except Text Nat :=
  match readWireString keyBuffer 0 with
  | none => throwInvalidHostKeyBlob algorithm (text "missing or truncated algorithm field")
  | some algorithmField =>
      -- the decoder clears the highest bit of every byte
      let wireAlgorithm := asciiText algorithmField.value
      if wireAlgorithm ≠ algorithm then
        throwInvalidHostKeyBlob algorithm (text "algorithm field \"" ++ wireAlgorithm ++
          text "\" does not match expected \"" ++ algorithm ++ text "\"")
      else
        let payloadOffset := algorithmField.nextOffset
        match payloadOffsetHint with
        | none => .ok payloadOffset
        | some hint =>
            if hint ≠ payloadOffset then
              throwInvalidHostKeyBlob algorithm (text "payload offset hint " ++ decimal hint ++
                text " does not match parsed offset " ++ decimal payloadOffset)
            else .ok payloadOffset

def validateHostKeyBlob (keyBuffer : Buffer) (algorithm : Text) (payloadOffsetHint : Option Nat) :
    Except Text Unit := do
  let payloadOffset ← resolvePayloadOffset keyBuffer algorithm payloadOffsetHint
  if algorithm = text "ssh-ed25519" then
    validateEd25519HostKeyBlob keyBuffer payloadOffset algorithm
  else if algorithm = text "ecdsa-sha2-nistp256" ∨ algorithm = text "ecdsa-sha2-nistp384" ∨
      algorithm = text "ecdsa-sha2-nistp521" then
    validateEcdsaHostKeyBlob createsPublicKey keyBuffer payloadOffset algorithm
  else throwInvalidHostKeyBlob algorithm (text "no validator registered for algorithm")

/-! ### A scan -/

/-- `ssh-rsa` is not among them on purpose. The order is the one of `sort`. -/
def ACCEPTED_HOST_KEY_ALGORITHMS : List Text :=
  [text "ecdsa-sha2-nistp256", text "ecdsa-sha2-nistp384", text "ecdsa-sha2-nistp521",
    text "ssh-ed25519"]

def SSH_KEY_ALGO_LENGTH_FIELD_BYTES : Nat := 4

structure HostKeyAlgorithmExtractionResult where
  algorithm : Text
  nextOffset : Nat

def extractHostKeyAlgorithm (keyBuffer : Buffer) :
    Except Text HostKeyAlgorithmExtractionResult :=
  if keyBuffer.length < SSH_KEY_ALGO_LENGTH_FIELD_BYTES then
    .error (text "Invalid SSH host key buffer: too short to contain an algorithm length field")
  else
    let algoLength := readUInt32BE keyBuffer 0
    if algoLength = 0 ∨ keyBuffer.length < SSH_KEY_ALGO_LENGTH_FIELD_BYTES + algoLength then
      .error (text "Invalid SSH host key buffer: algorithm length exceeds buffer size")
    else
      let algorithmBytes := subarray keyBuffer SSH_KEY_ALGO_LENGTH_FIELD_BYTES
        (SSH_KEY_ALGO_LENGTH_FIELD_BYTES + algoLength)
      if algorithmBytes.all isPrintableAsciiByte = false then
        .error
          (text "Invalid SSH host key buffer: algorithm field contains non-printable bytes")
      else
        .ok { algorithm := asciiText algorithmBytes,
              nextOffset := SSH_KEY_ALGO_LENGTH_FIELD_BYTES + algoLength }

def assertSupportedHostKeyAlgorithm (keyBuffer : Buffer) :
    Except Text HostKeyAlgorithmExtractionResult := do
  let extraction ← extractHostKeyAlgorithm keyBuffer
  if extraction.algorithm ∉ ACCEPTED_HOST_KEY_ALGORITHMS then
    .error (text "Refusing to capture host fingerprint: unsupported SSH host key algorithm \"" ++
      extraction.algorithm ++
      text "\". This may indicate a man-in-the-middle attack. Expected one of: " ++
      (text ", ").intercalate ACCEPTED_HOST_KEY_ALGORITHMS ++ text ".")
  else .ok extraction

structure HostFingerprintScanResult where
  algorithm : Text
  fingerprint : Text
deriving DecidableEq

/- The digest of a key, `createHash("sha256").update(key).digest()`. -/
variable (sha256 : Buffer → Buffer)

def computeFingerprint (key : Buffer) : Text :=
  text "SHA256:" ++ (encodeBase64 (sha256 key)).filter (· ≠ '=')

def validateScanResult (info : HostKeyInfo) : Except Text HostFingerprintScanResult :=
  if info.kind ≠ .key then
    .error (text "Refusing to capture host fingerprint: SSH host certificates are unsupported.")
  else do
    let buffer := decodeBase64 info.keyBase64
    let extraction ← assertSupportedHostKeyAlgorithm buffer
    validateHostKeyBlob createsPublicKey buffer extraction.algorithm (some extraction.nextOffset)
    if extraction.algorithm ≠ info.algorithm then
      .error (text "SSH host key algorithm does not match the scanned key blob.")
    else
      let fingerprint := computeFingerprint sha256 buffer
      if fingerprint ≠ info.fingerprintSha256 then
        .error (text "SSH host key fingerprint does not match the scanned key blob.")
      else .ok { algorithm := extraction.algorithm, fingerprint := fingerprint }

end Crypto

/-! ### The strings of a host key -/

/-- The strings behind the name of the algorithm. -/
inductive HostKeyFields (creates : Text → Buffer → Buffer → Bool) :
    Text → List Buffer → Prop
  | ed25519 {key : Buffer} (size : key.length = ED25519_PUBLIC_KEY_SIZE) :
      HostKeyFields creates (text "ssh-ed25519") [key]
  | ecdsa {algorithm curve : Text} {point : Buffer}
      (isAlgorithm : algorithm = text "ecdsa-sha2-" ++ curve)
      (onCurve : OnCurve creates curve point) :
      HostKeyFields creates algorithm [utf8Bytes curve, point]

section Checks

variable {creates : Text → Buffer → Buffer → Bool} {keyBuffer : Buffer} {offset : Nat}
  {algorithm curve : Text}

theorem readWireString_some_iff {result : ReadResult Buffer} :
    readWireString keyBuffer offset = some result ↔
      FieldAt keyBuffer offset result.value result.nextOffset := by
  have size : SSH_WIRE_LENGTH_FIELD_BYTES = UINT32_SIZE := rfl
  rw [fieldAt_iff, readWireString, size]
  constructor
  · intro read
    split at read
    · cases read
    next long =>
      simp only at read
      split at read
      · cases read
      next inside =>
        cases read
        exact ⟨long, inside, rfl, rfl⟩
  · rintro ⟨long, inside, isValue, isNext⟩
    rw [if_neg long]
    simp only [if_neg inside]
    rw [← isValue, ← isNext]

theorem readWireString_of_fieldAt {value : Buffer} {nextOffset : Nat}
    (field : FieldAt keyBuffer offset value nextOffset) :
    readWireString keyBuffer offset = some ⟨nextOffset, value⟩ :=
  readWireString_some_iff.2 field

theorem validateEd25519HostKeyBlob_ok_iff :
    validateEd25519HostKeyBlob keyBuffer offset algorithm = .ok () ↔
      ∃ key, key.length = ED25519_PUBLIC_KEY_SIZE ∧ FieldsAt keyBuffer offset [key] := by
  rw [validateEd25519HostKeyBlob]
  constructor
  · intro valid
    split at valid
    · cases valid
    next publicKey readKey =>
      split at valid
      · cases valid
      next size =>
        split at valid
        · cases valid
        next atEnd =>
          have field := readWireString_some_iff.1 readKey
          exact ⟨_, not_not.1 size, fieldsAt_singleton.2 ⟨_, field, not_not.1 atEnd⟩⟩
  · rintro ⟨key, size, filled⟩
    obtain ⟨nextOffset, field, atEnd⟩ := fieldsAt_singleton.1 filled
    simp only [readWireString_of_fieldAt field, size, atEnd, ne_eq, not_true_eq_false, if_false]

/-- Bytes below 0x80 are read as they are. -/
theorem isPrintable_ascii {bytes : Buffer} (printable : bytes.all isPrintableAsciiByte = true) :
    ∀ byte ∈ bytes, byte.toNat < 0x80 := by
  intro byte mem
  have own := List.all_eq_true.1 printable byte mem
  rw [isPrintableAsciiByte, Bool.and_eq_true, decide_eq_true_eq, decide_eq_true_eq,
    PRINTABLE_ASCII_MAX] at own
  omega

theorem asciiText_eq_iff {bytes : Buffer} {name : Text}
    (ascii : ∀ byte ∈ bytes, byte.toNat < 0x80) (isName : asciiText (utf8Bytes name) = name) :
    asciiText bytes = name ↔ bytes = utf8Bytes name := by
  constructor
  · rintro rfl
    exact (utf8Bytes_asciiText_iff.2 ascii).symm
  · rintro rfl
    exact isName

theorem readEcdsaCurveName_ok_iff {result : ReadResult Buffer}
    (isCurve : curve ∈ EC_CURVES.map Prod.fst) :
    readEcdsaCurveName keyBuffer offset algorithm curve = .ok result ↔
      FieldAt keyBuffer offset result.value result.nextOffset ∧
        result.value = utf8Bytes curve := by
  have all : ∀ curve ∈ EC_CURVES.map Prod.fst, asciiText (utf8Bytes curve) = curve ∧
      (utf8Bytes curve).all isPrintableAsciiByte = true := forall_mem_of_all (by decide)
  obtain ⟨isName, isPrintable⟩ := all curve isCurve
  rw [readEcdsaCurveName]
  constructor
  · intro valid
    split at valid
    · cases valid
    next curveName readCurve =>
      split at valid
      · cases valid
      next printable =>
        rw [Bool.not_eq_false] at printable
        split at valid
        · cases valid
        next same =>
          cases valid
          exact ⟨readWireString_some_iff.1 readCurve,
            (asciiText_eq_iff (isPrintable_ascii printable) isName).1 (not_not.1 same)⟩
  · rintro ⟨field, isValue⟩
    simp only [readWireString_some_iff.2 field, isValue, isPrintable, isName, Bool.true_eq_false,
      ne_eq, not_true_eq_false, if_false]

theorem readEcdsaPoint_ok_iff {result : ReadResult Buffer} {expectedPointLength : Nat} :
    readEcdsaPoint keyBuffer offset algorithm expectedPointLength = .ok result ↔
      FieldAt keyBuffer offset result.value result.nextOffset ∧
        hasValidEcdsaPoint result.value (some expectedPointLength) = true ∧
          result.nextOffset = keyBuffer.length := by
  rw [readEcdsaPoint, hasValidEcdsaPoint, Bool.and_eq_true, decide_eq_true_eq, decide_eq_true_eq,
    Option.some.injEq]
  constructor
  · intro valid
    split at valid
    · cases valid
    next point readPoint =>
      split at valid
      · cases valid
      next length =>
        split at valid
        · cases valid
        next isLong =>
          split at valid
          · cases valid
          next atEnd =>
            cases valid
            exact ⟨readWireString_some_iff.1 readPoint, ⟨not_not.1 length, not_not.1 isLong⟩,
              not_not.1 atEnd⟩
  · rintro ⟨field, ⟨length, isLong⟩, atEnd⟩
    simp only [readWireString_some_iff.2 field, length, isLong, atEnd, ne_eq, not_true_eq_false,
      if_false]

theorem assertEcdsaPointIsOnCurve_ok_iff {point : Buffer} :
    assertEcdsaPointIsOnCurve creates point curve algorithm = .ok () ↔
      hasCryptographicallyValidEcdsaPoint creates point curve = true := by
  have sameTable : ECDSA_JWK_CURVE_NAMES = ecdsaJwkCurveNames := rfl
  rw [assertEcdsaPointIsOnCurve, hasCryptographicallyValidEcdsaPoint, sameTable]
  cases ecdsaJwkCurveNames.lookup curve with
  | none => exact iff_of_false (fun succeeded => by cases succeeded) (by simp)
  | some jwkCurveName =>
    dsimp only
    split
    · next created => exact iff_of_true rfl created
    · next refused => exact iff_of_false (fun succeeded => by cases succeeded) refused

/-- The algorithms with a curve are those of the curves. -/
theorem curve_lookup_iff : ECDSA_CURVE_NAMES.lookup algorithm = some curve ↔
    algorithm = text "ecdsa-sha2-" ++ curve ∧ curve ∈ EC_CURVES.map Prod.fst := by
  constructor
  · intro isCurve
    have all : ∀ entry ∈ ECDSA_CURVE_NAMES, entry.1 = text "ecdsa-sha2-" ++ entry.2 ∧
        entry.2 ∈ EC_CURVES.map Prod.fst := forall_mem_of_all (by decide)
    exact all _ (mem_of_lookup isCurve)
  · rintro ⟨rfl, isCurve⟩
    have all : ∀ curve ∈ EC_CURVES.map Prod.fst,
        ECDSA_CURVE_NAMES.lookup (text "ecdsa-sha2-" ++ curve) = some curve :=
      forall_mem_of_all (by decide)
    exact all curve isCurve

theorem point_length (isCurve : curve ∈ EC_CURVES.map Prod.fst) :
    ∃ length, ECDSA_POINT_LENGTHS.lookup curve = some length := by
  obtain ⟨entry, mem, rfl⟩ := List.mem_map.1 isCurve
  exact ⟨_, (curve_tables mem).1⟩

theorem validateEcdsaHostKeyBlob_ok_iff :
    validateEcdsaHostKeyBlob creates keyBuffer offset algorithm = .ok () ↔
      ∃ curve point, algorithm = text "ecdsa-sha2-" ++ curve ∧
        OnCurve creates curve point ∧
          FieldsAt keyBuffer offset [utf8Bytes curve, point] := by
  rw [validateEcdsaHostKeyBlob]
  constructor
  · intro valid
    split at valid
    · cases valid
    next curve isCurve =>
      obtain ⟨isAlgorithm, inCurves⟩ := curve_lookup_iff.1 isCurve
      split at valid
      · cases valid
      next length isLength =>
        obtain ⟨curveName, readCurve, valid⟩ := ok_of_bind valid
        obtain ⟨point, readPoint, onCurve⟩ := ok_of_bind valid
        obtain ⟨curveField, isCurveName⟩ := (readEcdsaCurveName_ok_iff inCurves).1 readCurve
        obtain ⟨pointField, isPoint, atEnd⟩ := readEcdsaPoint_ok_iff.1 readPoint
        rw [isCurveName] at curveField
        rw [← isLength] at isPoint
        have last := fieldsAt_singleton.2 ⟨_, pointField, atEnd⟩
        exact ⟨curve, point.value, isAlgorithm,
          onCurve_iff.2 ⟨isPoint, assertEcdsaPointIsOnCurve_ok_iff.1 onCurve⟩,
          fieldsAt_cons.2 ⟨_, curveField, last⟩⟩
  · rintro ⟨curve, point, isAlgorithm, onCurve, filled⟩
    obtain ⟨curveEnd, curveField, last⟩ := fieldsAt_cons.1 filled
    obtain ⟨pointEnd, pointField, atEnd⟩ := fieldsAt_singleton.1 last
    have inCurves := onCurve.mem_curves
    obtain ⟨length, isLength⟩ := point_length inCurves
    obtain ⟨isPoint, created⟩ := onCurve_iff.1 onCurve
    have sameLength : ecdsaPointLengths.lookup curve = some length := isLength
    rw [sameLength] at isPoint
    have readCurve := (@readEcdsaCurveName_ok_iff keyBuffer offset algorithm curve
      ⟨curveEnd, utf8Bytes curve⟩ inCurves).2 ⟨curveField, rfl⟩
    have readPoint := (@readEcdsaPoint_ok_iff keyBuffer curveEnd algorithm ⟨pointEnd, point⟩
      length).2 ⟨pointField, isPoint, atEnd⟩
    simp only [curve_lookup_iff.2 ⟨isAlgorithm, inCurves⟩, isLength, readCurve]
    show (readEcdsaPoint keyBuffer curveEnd algorithm length >>= _) = _
    rw [readPoint]
    exact assertEcdsaPointIsOnCurve_ok_iff.2 created

/-! ### The blob -/

theorem HostKeyFields.accepted {fields : List Buffer}
    (areFields : HostKeyFields creates algorithm fields) :
    algorithm ∈ ACCEPTED_HOST_KEY_ALGORITHMS := by
  have all : ∀ curve ∈ EC_CURVES.map Prod.fst,
      text "ecdsa-sha2-" ++ curve ∈ ACCEPTED_HOST_KEY_ALGORITHMS := forall_mem_of_all (by decide)
  cases areFields with
  | ed25519 => decide
  | ecdsa isAlgorithm onCurve =>
    rw [isAlgorithm]
    exact all _ onCurve.mem_curves

theorem printable_accepted (accepted : algorithm ∈ ACCEPTED_HOST_KEY_ALGORITHMS) :
    algorithm ≠ [] ∧ asciiText (utf8Bytes algorithm) = algorithm ∧
      (utf8Bytes algorithm).all isPrintableAsciiByte = true := by
  have all : ∀ algorithm ∈ ACCEPTED_HOST_KEY_ALGORITHMS, algorithm ≠ [] ∧
      asciiText (utf8Bytes algorithm) = algorithm ∧
        (utf8Bytes algorithm).all isPrintableAsciiByte = true := forall_mem_of_all (by decide)
  exact all algorithm accepted

/-- The caller has read the name and gives the offset behind it, or gives none. -/
def HintMatches (payloadOffsetHint : Option Nat) (name : Buffer) : Prop :=
  payloadOffsetHint = none ∨
    payloadOffsetHint = some (SSH_WIRE_LENGTH_FIELD_BYTES + name.length)

theorem resolvePayloadOffset_ok_iff {payloadOffsetHint : Option Nat} :
    resolvePayloadOffset keyBuffer algorithm payloadOffsetHint = .ok offset ↔
      ∃ name, FieldAt keyBuffer 0 name offset ∧ asciiText name = algorithm ∧
        HintMatches payloadOffsetHint name := by
  have size : SSH_WIRE_LENGTH_FIELD_BYTES = UINT32_SIZE := rfl
  rw [resolvePayloadOffset]
  constructor
  · intro resolved
    split at resolved
    · cases resolved
    next algorithmField readName =>
      have field := readWireString_some_iff.1 readName
      have isNext := field.2.2
      rw [Nat.zero_add, ← size] at isNext
      dsimp only at resolved
      split at resolved
      · cases resolved
      next isName =>
        split at resolved
        · cases resolved
          exact ⟨_, field, not_not.1 isName, .inl rfl⟩
        next hint =>
          split at resolved
          · cases resolved
          next matching =>
            cases resolved
            refine ⟨_, field, not_not.1 isName, .inr ?_⟩
            rw [not_not.1 matching, isNext]
  · rintro ⟨name, field, isName, hinted⟩
    have isNext := field.2.2
    rw [Nat.zero_add, ← size] at isNext
    simp only [readWireString_of_fieldAt field, isName, ne_eq, not_true_eq_false, if_false]
    rcases hinted with rfl | rfl
    · rfl
    · simp only [isNext, not_true_eq_false, if_false]

/-- The check that the algorithm selects. -/
theorem selected_ok_iff :
    (if algorithm = text "ssh-ed25519" then validateEd25519HostKeyBlob keyBuffer offset algorithm
      else if algorithm = text "ecdsa-sha2-nistp256" ∨ algorithm = text "ecdsa-sha2-nistp384" ∨
          algorithm = text "ecdsa-sha2-nistp521" then
        validateEcdsaHostKeyBlob creates keyBuffer offset algorithm
      else throwInvalidHostKeyBlob algorithm (text "no validator registered for algorithm")) =
      .ok () ↔
      ∃ fields, HostKeyFields creates algorithm fields ∧
        FieldsAt keyBuffer offset fields := by
  constructor
  · intro valid
    split at valid
    · next isEd25519 =>
      obtain ⟨key, size, filled⟩ := validateEd25519HostKeyBlob_ok_iff.1 valid
      rw [isEd25519]
      exact ⟨_, .ed25519 size, filled⟩
    split at valid
    · obtain ⟨curve, point, isAlgorithm, onCurve, filled⟩ := validateEcdsaHostKeyBlob_ok_iff.1 valid
      exact ⟨_, .ecdsa isAlgorithm onCurve, filled⟩
    · cases valid
  · rintro ⟨fields, areFields, filled⟩
    cases areFields with
    | ed25519 size =>
      rw [if_pos rfl]
      exact validateEd25519HostKeyBlob_ok_iff.2 ⟨_, size, filled⟩
    | ecdsa isAlgorithm onCurve =>
      have all : ∀ curve ∈ EC_CURVES.map Prod.fst,
          text "ecdsa-sha2-" ++ curve ≠ text "ssh-ed25519" ∧
            (text "ecdsa-sha2-" ++ curve = text "ecdsa-sha2-nistp256" ∨
              text "ecdsa-sha2-" ++ curve = text "ecdsa-sha2-nistp384" ∨
              text "ecdsa-sha2-" ++ curve = text "ecdsa-sha2-nistp521") :=
        forall_mem_of_all (by decide)
      obtain ⟨notEd25519, isEcdsa⟩ := all _ onCurve.mem_curves
      rw [isAlgorithm, if_neg notEd25519, if_pos isEcdsa, ← isAlgorithm]
      exact validateEcdsaHostKeyBlob_ok_iff.2 ⟨_, _, isAlgorithm, onCurve, filled⟩

/-- A blob is accepted if its first string reads as the name and the others are its fields. -/
theorem validateHostKeyBlob_ok_iff {payloadOffsetHint : Option Nat} :
    validateHostKeyBlob creates keyBuffer algorithm payloadOffsetHint = .ok () ↔
      ∃ name fields, FieldsAt keyBuffer 0 (name :: fields) ∧ asciiText name = algorithm ∧
        HintMatches payloadOffsetHint name ∧ HostKeyFields creates algorithm fields := by
  rw [validateHostKeyBlob]
  constructor
  · intro valid
    obtain ⟨payloadOffset, resolved, selected⟩ := ok_of_bind valid
    obtain ⟨name, field, isName, hinted⟩ := resolvePayloadOffset_ok_iff.1 resolved
    obtain ⟨fields, areFields, filled⟩ := selected_ok_iff.1 selected
    exact ⟨name, fields, fieldsAt_cons.2 ⟨_, field, filled⟩, isName, hinted, areFields⟩
  · rintro ⟨name, fields, filled, isName, hinted, areFields⟩
    obtain ⟨payloadOffset, field, behind⟩ := fieldsAt_cons.1 filled
    rw [resolvePayloadOffset_ok_iff.2 ⟨name, field, isName, hinted⟩]
    exact selected_ok_iff.2 ⟨fields, areFields, behind⟩

/-! ### The scan -/

theorem extractHostKeyAlgorithm_ok_iff {result : HostKeyAlgorithmExtractionResult} :
    extractHostKeyAlgorithm keyBuffer = .ok result ↔
      ∃ name, name ≠ [] ∧ FieldAt keyBuffer 0 name result.nextOffset ∧
        name.all isPrintableAsciiByte = true ∧ result.algorithm = asciiText name := by
  have size : SSH_KEY_ALGO_LENGTH_FIELD_BYTES = UINT32_SIZE := rfl
  rw [extractHostKeyAlgorithm, size]
  constructor
  · intro extracted
    split at extracted
    · cases extracted
    next long =>
      dsimp only at extracted
      split at extracted
      · cases extracted
      next inside =>
        rw [not_or] at inside
        split at extracted
        · cases extracted
        next printable =>
          cases extracted
          have field : FieldAt keyBuffer 0 (subarray keyBuffer UINT32_SIZE
              (UINT32_SIZE + readUInt32BE keyBuffer 0)) (UINT32_SIZE + readUInt32BE keyBuffer 0) := by
            rw [fieldAt_iff, Nat.zero_add]
            exact ⟨long, inside.2, rfl, rfl⟩
          refine ⟨_, ?_, field, Bool.not_eq_false _ ▸ printable, rfl⟩
          intro empty
          have isNext := field.2.2
          rw [empty, List.length_nil] at isNext
          omega
  · rintro ⟨name, nonempty, field, printable, isAlgorithm⟩
    have isNext := field.2.2
    obtain ⟨long, inside, isName, isEnd⟩ := fieldAt_iff.1 field
    rw [Nat.zero_add] at long inside isName isEnd isNext
    have length : readUInt32BE keyBuffer 0 ≠ 0 := by
      have positive := List.length_pos_of_ne_nil nonempty
      omega
    rw [if_neg long]
    dsimp only
    rw [if_neg (not_or.2 ⟨length, inside⟩), ← isName, printable, if_neg Bool.noConfusion,
      ← isAlgorithm, ← isEnd]

theorem assertSupportedHostKeyAlgorithm_ok_iff {result : HostKeyAlgorithmExtractionResult} :
    assertSupportedHostKeyAlgorithm keyBuffer = .ok result ↔
      result.algorithm ∈ ACCEPTED_HOST_KEY_ALGORITHMS ∧
        FieldAt keyBuffer 0 (utf8Bytes result.algorithm) result.nextOffset := by
  rw [assertSupportedHostKeyAlgorithm]
  constructor
  · intro supported
    obtain ⟨extraction, extracted, accepted⟩ := ok_of_bind supported
    split at accepted
    · cases accepted
    next inAllowlist =>
      cases accepted
      obtain ⟨name, _, field, printable, isAlgorithm⟩ := extractHostKeyAlgorithm_ok_iff.1 extracted
      obtain ⟨_, isText, _⟩ := printable_accepted (not_not.1 inAllowlist)
      rw [(asciiText_eq_iff (isPrintable_ascii printable) isText).1 isAlgorithm.symm] at field
      exact ⟨not_not.1 inAllowlist, field⟩
  · rintro ⟨accepted, field⟩
    obtain ⟨nonempty, isText, printable⟩ := printable_accepted accepted
    have someByte : utf8Bytes result.algorithm ≠ [] := by
      intro empty
      exact nonempty (@utf8Bytes_injective _ [] empty)
    rw [extractHostKeyAlgorithm_ok_iff.2 ⟨_, someByte, field, printable, isText.symm⟩]
    show (if result.algorithm ∉ ACCEPTED_HOST_KEY_ALGORITHMS then _ else _) = _
    rw [if_neg (not_not.2 accepted)]

theorem validateScanResult_ok_iff {sha256 : Buffer → Buffer} {info : HostKeyInfo}
    {result : HostFingerprintScanResult} : validateScanResult creates sha256 info = .ok result ↔
      info.kind = .key ∧
        (∃ fields, FieldsAt (decodeBase64 info.keyBase64) 0 (utf8Bytes info.algorithm :: fields) ∧
          HostKeyFields creates info.algorithm fields) ∧
        info.fingerprintSha256 = computeFingerprint sha256 (decodeBase64 info.keyBase64) ∧
        result = ⟨info.algorithm, info.fingerprintSha256⟩ := by
  rw [validateScanResult]
  constructor
  · intro scanned
    split at scanned
    · cases scanned
    next isKey =>
      obtain ⟨extraction, supported, scanned⟩ := ok_of_bind scanned
      obtain ⟨_, valid, scanned⟩ := ok_of_bind scanned
      obtain ⟨accepted, field⟩ := assertSupportedHostKeyAlgorithm_ok_iff.1 supported
      obtain ⟨name, fields, filled, isName, _, areFields⟩ := validateHostKeyBlob_ok_iff.1 valid
      split at scanned
      · cases scanned
      next sameAlgorithm =>
        dsimp only at scanned
        split at scanned
        · cases scanned
        next sameFingerprint =>
          cases scanned
          rw [not_not] at isKey sameAlgorithm sameFingerprint
          -- both readers have read the same name
          obtain ⟨nextOffset, nameField, _⟩ := fieldsAt_cons.1 filled
          have sameName := (wireString_append_inj field.2.1 nameField.2.1
            (field.1.symm.trans nameField.1)).1
          rw [← sameName, sameAlgorithm] at filled
          rw [sameAlgorithm] at areFields
          exact ⟨isKey, ⟨fields, filled, areFields⟩, sameFingerprint.symm,
            by rw [sameAlgorithm, sameFingerprint]⟩
  · rintro ⟨isKey, ⟨fields, filled, areFields⟩, isFingerprint, rfl⟩
    have accepted := areFields.accepted
    obtain ⟨_, isText, _⟩ := printable_accepted accepted
    obtain ⟨nextOffset, field, _⟩ := fieldsAt_cons.1 filled
    have isNext := field.2.2
    rw [Nat.zero_add] at isNext
    have supported := (@assertSupportedHostKeyAlgorithm_ok_iff (decodeBase64 info.keyBase64)
      ⟨info.algorithm, nextOffset⟩).2 ⟨accepted, field⟩
    have valid := (@validateHostKeyBlob_ok_iff creates (decodeBase64 info.keyBase64)
      info.algorithm (some nextOffset)).2
        ⟨_, fields, filled, isText, .inr (congrArg some isNext), areFields⟩
    rw [if_neg (not_not.2 isKey)]
    dsimp only
    rw [supported]
    show (validateHostKeyBlob creates (decodeBase64 info.keyBase64) info.algorithm
      (some nextOffset) >>= _) = _
    rw [valid]
    show (if info.algorithm ≠ info.algorithm then _ else if computeFingerprint sha256
      (decodeBase64 info.keyBase64) ≠ info.fingerprintSha256 then _ else _) = _
    rw [if_neg (not_not.2 rfl), if_neg (not_not.2 isFingerprint.symm), isFingerprint]

end Checks

/-! ### Exactly the keys -/

/-- The bytes of the first string are ASCII. -/
def AsciiHeader (keyBuffer : Buffer) : Prop :=
  ∀ name rest, keyBuffer = wireString name ++ rest → FitsWire name →
    ∀ byte ∈ name, byte.toNat < 0x80

/-- The bytes are those of one key of the algorithm. -/
def IsHostKey (creates : Text → Buffer → Buffer → Bool) (algorithm : Text)
    (keyBuffer : Buffer) : Prop :=
  ∃ fields, HostKeyFields creates algorithm fields ∧
    (∀ field ∈ utf8Bytes algorithm :: fields, FitsWire field) ∧
    keyBuffer = wireStrings (utf8Bytes algorithm :: fields)

theorem isHostKey_iff {creates : Text → Buffer → Buffer → Bool} {algorithm : Text}
    {keyBuffer : Buffer} : IsHostKey creates algorithm keyBuffer ↔
      ∃ fields, FieldsAt keyBuffer 0 (utf8Bytes algorithm :: fields) ∧
        HostKeyFields creates algorithm fields := by
  constructor
  · rintro ⟨fields, areFields, fits, isBlob⟩
    exact ⟨fields, ⟨isBlob, fits⟩, areFields⟩
  · rintro ⟨fields, ⟨isBlob, fits⟩, areFields⟩
    exact ⟨fields, areFields, fits, isBlob⟩

/-- Where the bytes of the name are ASCII, the checked blobs are the keys of the algorithm, Ed25519
or ECDSA; no blob is accepted for another algorithm; and a scan, which checks these bytes itself,
accepts the keys of the algorithm and no other bytes. -/
theorem host_key_blob_exact (creates : Text → Buffer → Buffer → Bool)
    (sha256 : Buffer → Buffer) :
    (∀ keyBuffer algorithm payloadOffsetHint, AsciiHeader keyBuffer →
      (validateHostKeyBlob creates keyBuffer algorithm payloadOffsetHint = .ok () ↔
        IsHostKey creates algorithm keyBuffer ∧
          HintMatches payloadOffsetHint (utf8Bytes algorithm))) ∧
    (∀ keyBuffer algorithm payloadOffsetHint, algorithm ∉ ACCEPTED_HOST_KEY_ALGORITHMS →
      validateHostKeyBlob creates keyBuffer algorithm payloadOffsetHint ≠ .ok ()) ∧
    ∀ info result, validateScanResult creates sha256 info = .ok result ↔
      info.kind = .key ∧
        IsHostKey creates info.algorithm (decodeBase64 info.keyBase64) ∧
        info.fingerprintSha256 = computeFingerprint sha256 (decodeBase64 info.keyBase64) ∧
        result = ⟨info.algorithm, info.fingerprintSha256⟩ := by
  refine ⟨?_, ?_, ?_⟩
  · intro keyBuffer algorithm payloadOffsetHint ascii
    rw [validateHostKeyBlob_ok_iff, isHostKey_iff]
    constructor
    · rintro ⟨name, fields, filled, isName, hinted, areFields⟩
      obtain ⟨_, isText, _⟩ := printable_accepted areFields.accepted
      have fits := filled.2 name (List.mem_cons_self ..)
      have isWritten := (asciiText_eq_iff (ascii name _ (wireStrings_cons _ _ ▸ filled.1) fits)
        isText).1 isName
      rw [isWritten] at filled hinted
      exact ⟨⟨fields, filled, areFields⟩, hinted⟩
    · rintro ⟨⟨fields, filled, areFields⟩, hinted⟩
      obtain ⟨_, isText, _⟩ := printable_accepted areFields.accepted
      exact ⟨_, fields, filled, isText, hinted, areFields⟩
  · intro keyBuffer algorithm payloadOffsetHint outside valid
    obtain ⟨name, fields, _, _, _, areFields⟩ := validateHostKeyBlob_ok_iff.1 valid
    exact outside areFields.accepted
  · intro info result
    rw [validateScanResult_ok_iff, isHostKey_iff]

/-! ### A key that is refused -/

def rsaExponent : Buffer := [1, 0, 1]

def rsaModulus : Buffer := 0 :: List.replicate 256 255

/-- A complete RSA key is refused under its own name; the header of an Ed25519 key with the high
bits set is read as the name. -/
theorem rsa_host_key_refused :
    AdminKeyFields (fun _ _ _ => true) (text "ssh-rsa") [rsaExponent, rsaModulus] ∧
      validateHostKeyBlob (fun _ _ _ => true)
        (wireStrings [utf8Bytes (text "ssh-rsa"), rsaExponent, rsaModulus]) (text "ssh-rsa") none ≠
          .ok () ∧
      validateHostKeyBlob (fun _ _ _ => true)
        (wireStrings [(utf8Bytes (text "ssh-ed25519")).map (· ||| 0x80),
          List.replicate ED25519_PUBLIC_KEY_SIZE 7]) (text "ssh-ed25519") none = .ok () := by
  have isExponent : IsMpint rsaExponent := ⟨rfl, rfl⟩
  have isModulus : IsMpint rsaModulus := ⟨rfl, rfl⟩
  have large : 3 ≤ beValue rsaExponent ∧ beValue rsaExponent % 2 = 1 := by decide +kernel
  have long : 2 ^ 2047 ≤ beValue rsaModulus := by decide +kernel
  refine ⟨.rsa isExponent isModulus large.1 large.2 long, ?_, ?_⟩
  · intro valid
    obtain ⟨_, fields, _, _, _, areFields⟩ := validateHostKeyBlob_ok_iff.1 valid
    exact absurd areFields.accepted (by decide)
  · apply validateHostKeyBlob_ok_iff.2
    refine ⟨_, [List.replicate ED25519_PUBLIC_KEY_SIZE 7], ⟨rfl, ?_⟩, ?_, .inl rfl,
      .ed25519 (List.length_replicate ..)⟩
    · simp only [List.forall_mem_cons, List.not_mem_nil, false_imp_iff, implies_true, and_true,
        FitsWire]
      exact ⟨by decide, by decide⟩
    · decide

end Paratix.Keys.HostKeyBlob
