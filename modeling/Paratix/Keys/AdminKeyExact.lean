/-
Module: Paratix.Keys.AdminKeyExact
Purpose: The keys that the project generator accepts for the administrator, told by the numbers
  and the points they hold, and which base64 texts it accepts for their bytes.
Main exports: isCanonicalBase64_iff, admin_keys_exact_iff
-/
import Mathlib.Data.Nat.Size
import Paratix.Foundation.AssocList
import Paratix.Keys.KeyLineExact
import Paratix.Keys.KnownHostsLines

namespace Paratix.Keys

open Foundation Archive

/-! ### Base64 texts -/

/-- Letters of some bytes with the wrong number of padding characters behind them. -/
def Mispadded (value : Text) : Prop :=
  value.length % 4 ≠ 0 ∧ ∃ bytes count, bytes ≠ [] ∧ count ≤ 2 ∧
    value = trimBase64Padding (encodeBase64 bytes) ++ List.replicate count '='

theorem data_of_mem_base64Alphabet {char : Char} (mem : char ∈ base64Alphabet) :
    isBase64DataCharacter char = true := by
  have all : ∀ char ∈ base64Alphabet, isBase64DataCharacter char = true :=
    forall_mem_of_all (by decide +kernel)
  exact all char mem

theorem hasBase64AlphabetFrom_padding {paddingCount count : Nat} :
    hasBase64AlphabetFrom paddingCount (List.replicate count '=') = true ↔
      count = 0 ∨ paddingCount + count ≤ 2 := by
  have noData : isBase64DataCharacter '=' = false := by decide
  induction count generalizing paddingCount with
  | zero => simp [hasBase64AlphabetFrom]
  | succ count ih =>
    rw [List.replicate_succ, hasBase64AlphabetFrom, noData]
    simp only [Bool.false_eq_true, if_false, Bool.and_eq_true, decide_eq_true_eq, true_and,
      ih, decide_true]
    omega

/-- Letters may be followed by two padding characters at most. -/
theorem hasBase64AlphabetFrom_append {letters padding : Text} :
    (∀ char ∈ letters, char ∈ base64Alphabet) →
      hasBase64AlphabetFrom 0 (letters ++ padding) = hasBase64AlphabetFrom 0 padding := by
  intro areLetters
  induction letters with
  | nil => rfl
  | cons char letters ih =>
    rw [List.forall_mem_cons] at areLetters
    rw [List.cons_append, hasBase64AlphabetFrom, if_pos (data_of_mem_base64Alphabet areLetters.1),
      ih areLetters.2]
    rfl

theorem trimBase64Padding_append {letters : Text} {count : Nat}
    (areLetters : ∀ char ∈ letters, char ∈ base64Alphabet) :
    trimBase64Padding (letters ++ List.replicate count '=') = letters := by
  have noPad : '=' ∉ base64Alphabet := by decide +kernel
  rw [trimBase64Padding]
  induction count with
  | zero =>
    rw [List.replicate_zero, List.append_nil, List.rdropWhile_eq_self_iff]
    intro nonempty isPad
    have mem := areLetters _ (List.getLast_mem nonempty)
    rw [of_decide_eq_true isPad] at mem
    exact noPad mem
  | succ count ih =>
    rw [List.replicate_succ', ← List.append_assoc, List.rdropWhile_concat_pos _ _ _ (by simp)]
    exact ih

theorem decodeBase64_append {letters : Text} {count : Nat}
    (areLetters : ∀ char ∈ letters, char ∈ base64Alphabet) :
    decodeBase64 (letters ++ List.replicate count '=') =
      sextetBytes (letters.filterMap base64Value) := by
  have noPad : '=' ∉ base64Alphabet := by decide +kernel
  have body : (letters ++ List.replicate count '=').takeWhile (· ≠ '=') = letters := by
    apply takeWhile_before_padding ?_ (fun char mem => List.eq_of_mem_replicate mem) (by simp)
    intro char mem
    rw [decide_eq_true_eq]
    rintro rfl
    exact noPad (areLetters _ mem)
  rw [decodeBase64, body]

theorem decodeBase64_padded {bytes : Buffer} {count : Nat} :
    decodeBase64 (trimBase64Padding (encodeBase64 bytes) ++ List.replicate count '=') = bytes := by
  obtain ⟨letters, padding, encoded, areLetters, _, _, _⟩ := encodeBase64_padding bytes
  rw [encoded, trimBase64Padding_append areLetters, decodeBase64_append areLetters,
    ← @decodeBase64_append letters padding areLetters, ← encoded, decodeBase64_encodeBase64]

/-- The letters that are written for the bytes, with up to two padding characters. -/
theorem isCanonicalBase64_iff {value : Text} : isCanonicalBase64 value = true ↔
    ∃ bytes count, bytes ≠ [] ∧ count ≤ 2 ∧
      value = trimBase64Padding (encodeBase64 bytes) ++ List.replicate count '=' := by
  constructor
  · intro canonical
    simp only [isCanonicalBase64, hasValidBase64Alphabet, Bool.and_eq_true, decide_eq_true_eq]
      at canonical
    obtain ⟨⟨⟨_, alphabet⟩, someByte⟩, same⟩ := canonical
    obtain ⟨letters, padding, split, areLetters, pads, _⟩ := body_of_base64Alphabet alphabet
    have isPadding := List.eq_replicate_of_mem pads
    rw [isPadding] at split
    rw [split, hasBase64AlphabetFrom_append areLetters, hasBase64AlphabetFrom_padding] at alphabet
    rw [split, trimBase64Padding_append areLetters, ← split] at same
    refine ⟨decodeBase64 value, padding.length, someByte, ?_, ?_⟩
    · omega
    · rw [same]
      exact split
  · rintro ⟨bytes, count, someByte, few, rfl⟩
    obtain ⟨letters, padding, encoded, areLetters, _, _, _⟩ := encodeBase64_padding bytes
    have isLetters : trimBase64Padding (encodeBase64 bytes) = letters := by
      rw [encoded, trimBase64Padding_append areLetters]
    have isDecoded : decodeBase64 (letters ++ List.replicate count '=') = bytes := by
      rw [← isLetters, decodeBase64_padded]
    have nonempty : letters ≠ [] := by
      rintro rfl
      rw [@decodeBase64_append [] count areLetters] at isDecoded
      exact someByte isDecoded.symm
    simp only [isCanonicalBase64, hasValidBase64Alphabet, Bool.and_eq_true, decide_eq_true_eq,
      isLetters, isDecoded, trimBase64Padding_append areLetters, and_true,
      hasBase64AlphabetFrom_append areLetters, hasBase64AlphabetFrom_padding]
    exact ⟨⟨List.append_ne_nil_of_left_ne_nil nonempty _, by omega⟩, someByte⟩

theorem isCanonicalBase64_encodeBase64 {bytes : Buffer} (someByte : bytes ≠ []) :
    isCanonicalBase64 (encodeBase64 bytes) = true := by
  obtain ⟨letters, padding, encoded, areLetters, _, _, few⟩ := encodeBase64_padding bytes
  apply isCanonicalBase64_iff.2
  refine ⟨bytes, padding, someByte, few, ?_⟩
  rw [encoded, trimBase64Padding_append areLetters]

/-- Of the accepted texts for some bytes one has a length that is a multiple of four. -/
theorem eq_encodeBase64_iff {bytes : Buffer} {count : Nat} (few : count ≤ 2) :
    trimBase64Padding (encodeBase64 bytes) ++ List.replicate count '=' = encodeBase64 bytes ↔
      (trimBase64Padding (encodeBase64 bytes) ++ List.replicate count '=').length % 4 = 0 := by
  obtain ⟨letters, padding, encoded, areLetters, length, isPadding, small⟩ :=
    encodeBase64_padding bytes
  have isLetters : trimBase64Padding (encodeBase64 bytes) = letters := by
    rw [encoded, trimBase64Padding_append areLetters]
  rw [isLetters, encoded, List.append_cancel_left_eq, List.length_append, List.length_replicate]
  constructor
  · intro same
    have counts := congrArg List.length same
    rw [List.length_replicate, List.length_replicate] at counts
    omega
  · intro whole
    have counts : count = padding := by omega
    rw [counts]

theorem canonical_iff_not_mispadded {value : Text} :
    (isCanonicalBase64 value = true → value = encodeBase64 (decodeBase64 value)) ↔
      ¬Mispadded value := by
  constructor
  · rintro written ⟨uneven, bytes, count, someByte, few, rfl⟩
    have own := written (isCanonicalBase64_iff.2 ⟨bytes, count, someByte, few, rfl⟩)
    rw [decodeBase64_padded, eq_encodeBase64_iff few] at own
    exact uneven own
  · intro padded canonical
    obtain ⟨bytes, count, someByte, few, rfl⟩ := isCanonicalBase64_iff.1 canonical
    rw [decodeBase64_padded, eq_encodeBase64_iff few]
    by_contra uneven
    exact padded ⟨uneven, bytes, count, someByte, few, rfl⟩

/-! ### Numbers -/

theorem beValue_cons (first : UInt8) (rest : Buffer) :
    beValue (first :: rest) = first.toNat * 256 ^ rest.length + beValue rest := by
  induction rest using List.reverseRecOn with
  | nil =>
    rw [show [first] = [] ++ [first] from rfl, beValue_concat]
    simp [beValue]
  | append_singleton front byte ih =>
    rw [← List.cons_append, beValue_concat, ih, beValue_concat,
      List.length_append, List.length_singleton, Nat.pow_succ, ← Nat.mul_assoc, Nat.add_mul,
      Nat.add_assoc]

theorem beValue_removeMpintSignPadding (value : Buffer) :
    beValue (removeMpintSignPadding value) = beValue value := by
  fun_induction removeMpintSignPadding value with
  | case1 second rest ih =>
    rw [ih, beValue_cons 0]
    simp
  | case2 => rfl
  | case3 => rfl

theorem mpintToBigInt_eq (value : Buffer) : mpintToBigInt value = beValue value :=
  beValue_removeMpintSignPadding value

/-- A zero byte is left over only where nothing else is. -/
theorem removeMpintSignPadding_zero {value rest : Buffer}
    (stripped : removeMpintSignPadding value = 0 :: rest) : rest = [] := by
  revert stripped
  fun_induction removeMpintSignPadding value with
  | case1 second rest ih => exact ih
  | case2 first second rest notZero =>
    intro stripped
    exact absurd (List.cons.inj stripped).1 notZero
  | case3 value short =>
    rintro rfl
    cases rest with
    | nil => rfl
    | cons second rest => exact absurd rfl (short 0 second rest)

/-- The bits of the number that is spelled. -/
theorem getMpintBitLength_eq (value : Buffer) :
    getMpintBitLength value = (beValue value).size := by
  have digits : ∀ byte < 256, byte ≠ 0 → (Nat.toDigits 2 byte).length = byte.size := by
    decide +kernel
  rw [← beValue_removeMpintSignPadding, getMpintBitLength]
  split
  · next stripped =>
    rw [stripped]
    rfl
  · next first rest stripped =>
    split
    · next isZero =>
      rw [isZero] at stripped
      rw [stripped, removeMpintSignPadding_zero stripped]
      rfl
    · next notZero =>
      have isByte := first.toNat_lt
      have nonzero : first.toNat ≠ 0 := by
        intro isZero
        exact notZero (UInt8.toNat_inj.1 isZero)
      have tail := beValue_lt rest
      have scale : 256 ^ rest.length = 2 ^ (rest.length * BITS_PER_BYTE) := by
        rw [Nat.mul_comm, Nat.pow_mul]
        rfl
      rw [stripped, beValue_cons, digits _ isByte nonzero]
      apply Nat.le_antisymm
      · -- the top bit of the first byte is one
        have someBit := Nat.size_pos.2 (Nat.pos_of_ne_zero nonzero)
        have top : 2 ^ (first.toNat.size - 1) ≤ first.toNat := Nat.lt_size.1 (by omega)
        have isLast : rest.length * BITS_PER_BYTE + first.toNat.size =
            rest.length * BITS_PER_BYTE + (first.toNat.size - 1) + 1 := by omega
        rw [isLast]
        apply Nat.lt_size.2
        calc 2 ^ (rest.length * BITS_PER_BYTE + (first.toNat.size - 1))
            = 2 ^ (first.toNat.size - 1) * 256 ^ rest.length := by
              rw [Nat.pow_add, scale, Nat.mul_comm]
          _ ≤ first.toNat * 256 ^ rest.length := Nat.mul_le_mul_right _ top
          _ ≤ first.toNat * 256 ^ rest.length + beValue rest := Nat.le_add_right _ _
      · have above := Nat.lt_size_self first.toNat
        apply Nat.size_le.2
        calc first.toNat * 256 ^ rest.length + beValue rest
            < first.toNat * 256 ^ rest.length + 256 ^ rest.length := Nat.add_lt_add_left tail _
          _ = (first.toNat + 1) * 256 ^ rest.length := (Nat.succ_mul _ _).symm
          _ ≤ 2 ^ first.toNat.size * 256 ^ rest.length := Nat.mul_le_mul_right _ above
          _ = 2 ^ (rest.length * BITS_PER_BYTE + first.toNat.size) := by
              rw [Nat.pow_add, scale, Nat.mul_comm]

theorem hasValidRsaExponent_iff {value : Buffer} :
    hasValidRsaExponent value = true ↔ 3 ≤ beValue value ∧ beValue value % 2 = 1 := by
  rw [hasValidRsaExponent, mpintToBigInt_eq, Bool.and_eq_true, decide_eq_true_eq,
    decide_eq_true_eq, MINIMUM_RSA_EXPONENT]

theorem hasValidRsaModulus_iff {value : Buffer} :
    hasValidRsaModulus value = true ↔ 2 ^ 2047 ≤ beValue value := by
  rw [hasValidRsaModulus, getMpintBitLength_eq, decide_eq_true_eq, MINIMUM_RSA_MODULUS_BITS]
  exact Nat.lt_size

/-! ### The strings of a complete key -/

/-- The curves: the name on the wire, the name for `createPublicKey`, the size of a coordinate. -/
def EC_CURVES : List (Text × Text × Nat) :=
  [(text "nistp256", text "P-256", 32), (text "nistp384", text "P-384", 48),
    (text "nistp521", text "P-521", 66)]

/-- A point in the long form that `createPublicKey` takes. -/
inductive OnCurve (creates : Text → Buffer → Buffer → Bool) : Text → Buffer → Prop
  | point {curve jwkCurve : Text} {size : Nat} {x y : Buffer}
      (isCurve : (curve, jwkCurve, size) ∈ EC_CURVES) (xSize : x.length = size)
      (ySize : y.length = size) (exists_ : creates jwkCurve x y = true) :
      OnCurve creates curve (0x04 :: (x ++ y))

/-- The strings behind the name of the algorithm. -/
inductive AdminKeyFields (creates : Text → Buffer → Buffer → Bool) :
    Text → List Buffer → Prop
  | rsa {exponent modulus : Buffer} (isExponent : IsMpint exponent) (isModulus : IsMpint modulus)
      (large : 3 ≤ beValue exponent) (odd : beValue exponent % 2 = 1)
      (long : 2 ^ 2047 ≤ beValue modulus) :
      AdminKeyFields creates (text "ssh-rsa") [exponent, modulus]
  | ecdsa {algorithm curve : Text} {point : Buffer}
      (isAlgorithm : algorithm = text "ecdsa-sha2-" ++ curve)
      (onCurve : OnCurve creates curve point) :
      AdminKeyFields creates algorithm [utf8Bytes curve, point]
  | skEcdsa {point application : Buffer}
      (onCurve : OnCurve creates (text "nistp256") point) (nonempty : application ≠ []) :
      AdminKeyFields creates SK_ECDSA_SHA2_NISTP256_ALGORITHM
        [utf8Bytes (text "nistp256"), point, application]
  | ed25519 {key : Buffer} (size : key.length = ED25519_PUBLIC_KEY_SIZE) :
      AdminKeyFields creates SSH_ED25519_ALGORITHM [key]
  | skEd25519 {key application : Buffer} (size : key.length = ED25519_PUBLIC_KEY_SIZE)
      (nonempty : application ≠ []) :
      AdminKeyFields creates SK_SSH_ED25519_ALGORITHM [key, application]

section Fields

variable {creates : Text → Buffer → Buffer → Bool} {buffer : Buffer} {offset : Nat}
  {algorithm curve : Text}

theorem readWireStringUtf8_of_fieldAt {name : Text} {nextOffset : Nat}
    (field : FieldAt buffer offset (utf8Bytes name) nextOffset) :
    readWireStringUtf8 buffer offset = some ⟨nextOffset, some name⟩ := by
  have read := (@readWireString_some_iff buffer offset ⟨nextOffset, utf8Bytes name⟩).2 field
  rw [readWireStringUtf8, read, Option.map_some, decodeUtf8_utf8Bytes]

theorem IsMpint.nonempty {value : Buffer} (isMpint : IsMpint value) : value ≠ [] := by
  rintro rfl
  exact Bool.noConfusion isMpint.1

theorem readMpint_of_fieldAt {value : Buffer} {nextOffset : Nat}
    (field : FieldAt buffer offset value nextOffset) (nonempty : value ≠ []) :
    readMpint buffer offset = some ⟨nextOffset, value⟩ := by
  have read := (@readWireString_some_iff buffer offset ⟨nextOffset, value⟩).2 field
  rw [readMpint, read, Option.bind_some, if_neg nonempty]

theorem validateRsaWireKey_iff : validateRsaWireKey buffer offset = true ↔
    ∃ exponent modulus, (IsMpint exponent ∧ hasValidRsaExponent exponent = true) ∧
      (IsMpint modulus ∧ hasValidRsaModulus modulus = true) ∧
        FieldsAt buffer offset [exponent, modulus] := by
  constructor
  · intro valid
    rw [validateRsaWireKey] at valid
    split at valid
    · cases valid
    next exponent readExponent =>
      rw [Bool.and_eq_true, Bool.and_eq_true, Bool.and_eq_true] at valid
      obtain ⟨⟨isExponent, exponentValid⟩, valid⟩ := valid
      split at valid
      · cases valid
      next modulus readModulus =>
        rw [Bool.and_eq_true, Bool.and_eq_true, Bool.and_eq_true, isAtEnd, decide_eq_true_eq]
          at valid
        obtain ⟨⟨isModulus, modulusValid⟩, atEnd⟩ := valid
        have last := fieldsAt_singleton.2 ⟨_, (readMpint_some readModulus).1, atEnd⟩
        exact ⟨exponent.value, modulus.value, ⟨isExponent, exponentValid⟩,
          ⟨isModulus, modulusValid⟩, fieldsAt_cons.2 ⟨_, (readMpint_some readExponent).1, last⟩⟩
  · rintro ⟨exponent, modulus, ⟨isExponent, exponentValid⟩, ⟨isModulus, modulusValid⟩, filled⟩
    obtain ⟨exponentEnd, exponentField, last⟩ := fieldsAt_cons.1 filled
    obtain ⟨modulusEnd, modulusField, atEnd⟩ := fieldsAt_singleton.1 last
    rw [validateRsaWireKey, readMpint_of_fieldAt exponentField isExponent.nonempty]
    simp only [readMpint_of_fieldAt modulusField isModulus.nonempty, isExponent.1, isExponent.2,
      exponentValid, isModulus.1, isModulus.2, modulusValid, isAtEnd, atEnd, decide_true,
      Bool.and_self]

/-- The two tables of the source agree on the curves. -/
theorem curve_tables {jwkCurve : Text} {size : Nat} (isCurve : (curve, jwkCurve, size) ∈ EC_CURVES) :
    ecdsaPointLengths.lookup curve = some (1 + 2 * size) ∧
      ecdsaJwkCurveNames.lookup curve = some jwkCurve := by
  have all : ∀ entry ∈ EC_CURVES,
      ecdsaPointLengths.lookup entry.1 = some (1 + 2 * entry.2.2) ∧
        ecdsaJwkCurveNames.lookup entry.1 = some entry.2.1 := by decide
  exact all _ isCurve

theorem curve_of_jwk {jwkCurve : Text} (named : ecdsaJwkCurveNames.lookup curve = some jwkCurve) :
    ∃ size, (curve, jwkCurve, size) ∈ EC_CURVES := by
  have all : ∀ entry ∈ ecdsaJwkCurveNames, ∃ size ∈ [32, 48, 66],
      (entry.1, entry.2, size) ∈ EC_CURVES := by decide
  obtain ⟨size, _, isCurve⟩ := all _ (mem_of_lookup named)
  exact ⟨size, isCurve⟩

/-- The coordinates are the halves behind the mark. -/
theorem hasCryptographicallyValidEcdsaPoint_halves {jwkCurve : Text} {first : UInt8} {x y : Buffer}
    (isJwk : ecdsaJwkCurveNames.lookup curve = some jwkCurve) (sameSize : x.length = y.length) :
    hasCryptographicallyValidEcdsaPoint creates (first :: (x ++ y)) curve =
      creates jwkCurve x y := by
  have half : ((first :: (x ++ y)).length - 1) / 2 = x.length := by
    rw [List.length_cons, List.length_append]
    omega
  rw [hasCryptographicallyValidEcdsaPoint, isJwk]
  simp only [half, subarray, Nat.add_comm 1, List.drop_succ_cons, List.drop_zero,
    Nat.add_sub_cancel, List.take_left, List.drop_left]

/-- A point of the length of its curve is the mark of the long form and two coordinates. -/
theorem onCurve_iff {point : Buffer} : OnCurve creates curve point ↔
    hasValidEcdsaPoint point (ecdsaPointLengths.lookup curve) = true ∧
      hasCryptographicallyValidEcdsaPoint creates point curve = true := by
  constructor
  · intro onCurve
    cases onCurve with
    | @point jwkCurve size x y isCurve xSize ySize isPoint =>
      obtain ⟨isLength, isJwk⟩ := curve_tables isCurve
      have length : (0x04 :: (x ++ y) : Buffer).length = 1 + 2 * size := by
        rw [List.length_cons, List.length_append]
        omega
      constructor
      · rw [hasValidEcdsaPoint, isLength, length]
        simp [UNCOMPRESSED_EC_POINT_PREFIX]
      · rw [hasCryptographicallyValidEcdsaPoint_halves isJwk (xSize.trans ySize.symm)]
        exact isPoint
  · rintro ⟨isPoint, created⟩
    have named : ∃ jwkCurve, ecdsaJwkCurveNames.lookup curve = some jwkCurve := by
      rw [hasCryptographicallyValidEcdsaPoint] at created
      split at created
      · cases created
      · next jwkCurve isJwk => exact ⟨jwkCurve, isJwk⟩
    obtain ⟨jwkCurve, isJwk⟩ := named
    obtain ⟨size, isCurve⟩ := curve_of_jwk isJwk
    rw [hasValidEcdsaPoint, (curve_tables isCurve).1, Bool.and_eq_true, decide_eq_true_eq,
      decide_eq_true_eq, Option.some.injEq] at isPoint
    obtain ⟨length, isLong⟩ := isPoint
    cases point with
    | nil => cases isLong
    | cons first coordinates =>
      rw [List.head?_cons, Option.map_some, Option.some.injEq] at isLong
      have isFirst : first = 0x04 := UInt8.toNat_inj.1 isLong
      rw [List.length_cons] at length
      have xSize : (coordinates.take size).length = size := by
        rw [List.length_take]
        omega
      have ySize : (coordinates.drop size).length = size := by
        rw [List.length_drop]
        omega
      rw [← List.take_append_drop size coordinates,
        hasCryptographicallyValidEcdsaPoint_halves isJwk (xSize.trans ySize.symm)] at created
      rw [isFirst, ← List.take_append_drop size coordinates]
      exact .point isCurve xSize ySize created

/-- The name of the application fills the rest. -/
theorem hasApplication_iff : hasApplication buffer offset = true ↔
    ∃ application, application ≠ [] ∧ FieldsAt buffer offset [application] := by
  rw [hasApplication]
  constructor
  · intro valid
    split at valid
    · cases valid
    · next application readApplication =>
      rw [Bool.and_eq_true, decide_eq_true_eq, isAtEnd, decide_eq_true_eq] at valid
      have field := readWireString_some_iff.1 readApplication
      exact ⟨application.value, valid.1, fieldsAt_singleton.2 ⟨_, field, valid.2⟩⟩
  · rintro ⟨application, nonempty, filled⟩
    obtain ⟨nextOffset, field, atEnd⟩ := fieldsAt_singleton.1 filled
    rw [(@readWireString_some_iff buffer offset ⟨nextOffset, application⟩).2 field]
    simp [nonempty, isAtEnd, atEnd]

/-- What stands behind the strings that both kinds of key have: for a key of a security key the
name of its application, for other keys nothing. -/
inductive Tail (securityKey algorithm : Text) : List Buffer → Prop
  | plain (isPlain : algorithm ≠ securityKey) : Tail securityKey algorithm []
  | application {application : Buffer} (isKey : algorithm = securityKey)
      (nonempty : application ≠ []) : Tail securityKey algorithm [application]

theorem tail_iff {securityKey : Text} {value : Buffer} {nextOffset : Nat}
    (field : FieldAt buffer offset value nextOffset) :
    (if algorithm ≠ securityKey then isAtEnd buffer nextOffset
      else hasApplication buffer nextOffset) = true ↔
      ∃ fields, Tail securityKey algorithm fields ∧ FieldsAt buffer nextOffset fields := by
  by_cases isKey : algorithm = securityKey
  · rw [if_neg (not_not.2 isKey), hasApplication_iff]
    constructor
    · rintro ⟨application, nonempty, filled⟩
      exact ⟨_, .application isKey nonempty, filled⟩
    · rintro ⟨fields, tail, filled⟩
      cases tail with
      | plain isPlain => exact absurd isKey isPlain
      | application _ nonempty => exact ⟨_, nonempty, filled⟩
  · rw [if_pos isKey, isAtEnd, decide_eq_true_eq, ← field.fieldsAt_nil]
    constructor
    · intro atEnd
      exact ⟨[], .plain isKey, atEnd⟩
    · rintro ⟨fields, tail, filled⟩
      cases tail with
      | plain => exact filled
      | application isSame => exact absurd isSame isKey

theorem validateEd25519WireKey_iff : validateEd25519WireKey buffer offset algorithm = true ↔
    ∃ key fields, key.length = ED25519_PUBLIC_KEY_SIZE ∧
      Tail SK_SSH_ED25519_ALGORITHM algorithm fields ∧ FieldsAt buffer offset (key :: fields) := by
  rw [validateEd25519WireKey]
  constructor
  · intro valid
    split at valid
    · cases valid
    · next publicKey readKey =>
      rw [Bool.and_eq_true, decide_eq_true_eq] at valid
      have field := readWireString_some_iff.1 readKey
      obtain ⟨fields, tail, filled⟩ := (tail_iff field).1 valid.2
      exact ⟨publicKey.value, fields, valid.1, tail, fieldsAt_cons.2 ⟨_, field, filled⟩⟩
  · rintro ⟨key, fields, size, tail, filled⟩
    obtain ⟨nextOffset, field, last⟩ := fieldsAt_cons.1 filled
    rw [(@readWireString_some_iff buffer offset ⟨nextOffset, key⟩).2 field, Bool.and_eq_true,
      decide_eq_true_eq]
    exact ⟨size, (tail_iff field).2 ⟨fields, tail, last⟩⟩

theorem validateEcdsaWireKey_iff : validateEcdsaWireKey creates buffer offset algorithm = true ↔
      ∃ curve point fields, ecdsaCurveNames.lookup algorithm = some curve ∧
        OnCurve creates curve point ∧
          Tail SK_ECDSA_SHA2_NISTP256_ALGORITHM algorithm fields ∧
            FieldsAt buffer offset (utf8Bytes curve :: point :: fields) := by
  rw [validateEcdsaWireKey]
  constructor
  · intro valid
    split at valid
    · next curve curveName isCurve readCurve =>
      rw [Bool.and_eq_true, decide_eq_true_eq] at valid
      obtain ⟨sameCurve, valid⟩ := valid
      split at valid
      · cases valid
      next point readPoint =>
        rw [Bool.and_eq_true, Bool.and_eq_true, ← onCurve_iff] at valid
        obtain ⟨bytes, curveField, decoded⟩ := readWireStringUtf8_some readCurve
        rw [← decodeUtf8_eq_some_iff.1 (decoded.symm.trans sameCurve)] at curveField
        have pointField := readWireString_some_iff.1 readPoint
        obtain ⟨fields, tail, filled⟩ := (tail_iff pointField).1 valid.2
        have behind := fieldsAt_cons.2 ⟨_, pointField, filled⟩
        exact ⟨curve, point.value, fields, isCurve, valid.1, tail,
          fieldsAt_cons.2 ⟨_, curveField, behind⟩⟩
    · cases valid
  · rintro ⟨curve, point, fields, isCurve, onCurve, tail, filled⟩
    obtain ⟨curveEnd, curveField, behind⟩ := fieldsAt_cons.1 filled
    obtain ⟨pointEnd, pointField, last⟩ := fieldsAt_cons.1 behind
    have readPoint := (@readWireString_some_iff buffer curveEnd ⟨pointEnd, point⟩).2 pointField
    have isTail := (tail_iff pointField).2 ⟨fields, tail, last⟩
    obtain ⟨isPoint, created⟩ := onCurve_iff.1 onCurve
    rw [isCurve, readWireStringUtf8_of_fieldAt curveField]
    simp only [readPoint, isPoint, created, isTail, decide_true, Bool.and_self]

theorem OnCurve.mem_curves {point : Buffer} (onCurve : OnCurve creates curve point) :
    curve ∈ EC_CURVES.map Prod.fst := by
  cases onCurve with
  | point isCurve => exact List.mem_map_of_mem isCurve

/-- The algorithms with a curve: one for each curve, and the one of security keys. -/
theorem algorithm_of_curve (isCurve : ecdsaCurveNames.lookup algorithm = some curve) :
    algorithm = text "ecdsa-sha2-" ++ curve ∨
      (algorithm = SK_ECDSA_SHA2_NISTP256_ALGORITHM ∧ curve = text "nistp256") := by
  have all : ∀ entry ∈ ecdsaCurveNames, entry.1 = text "ecdsa-sha2-" ++ entry.2 ∨
      (entry.1 = SK_ECDSA_SHA2_NISTP256_ALGORITHM ∧ entry.2 = text "nistp256") := by decide
  exact all _ (mem_of_lookup isCurve)

theorem curve_algorithm (isCurve : curve ∈ EC_CURVES.map Prod.fst) :
    ecdsaCurveNames.lookup (text "ecdsa-sha2-" ++ curve) = some curve ∧
      text "ecdsa-sha2-" ++ curve ≠ text "ssh-rsa" ∧
      text "ecdsa-" <+: text "ecdsa-sha2-" ++ curve ∧
      text "ecdsa-sha2-" ++ curve ≠ SK_ECDSA_SHA2_NISTP256_ALGORITHM := by
  have all : ∀ curve ∈ EC_CURVES.map Prod.fst,
      ecdsaCurveNames.lookup (text "ecdsa-sha2-" ++ curve) = some curve ∧
      text "ecdsa-sha2-" ++ curve ≠ text "ssh-rsa" ∧
      text "ecdsa-" <+: text "ecdsa-sha2-" ++ curve ∧
      text "ecdsa-sha2-" ++ curve ≠ SK_ECDSA_SHA2_NISTP256_ALGORITHM :=
    forall_mem_of_all (by decide)
  exact all curve isCurve

/-- The reader that the name of the algorithm selects. -/
theorem selected_iff : (if algorithm = text "ssh-rsa" then validateRsaWireKey buffer offset
      else if text "ecdsa-" <+: algorithm ∨ text "sk-ecdsa-" <+: algorithm then
        validateEcdsaWireKey creates buffer offset algorithm
      else if algorithm = SSH_ED25519_ALGORITHM ∨ algorithm = SK_SSH_ED25519_ALGORITHM then
        validateEd25519WireKey buffer offset algorithm
      else false) = true ↔
      ∃ fields, AdminKeyFields creates algorithm fields ∧
        FieldsAt buffer offset fields := by
  constructor
  · intro valid
    split at valid
    · next isRsa =>
      obtain ⟨exponent, modulus, ⟨isExponent, exponentValid⟩, ⟨isModulus, modulusValid⟩, filled⟩ :=
        validateRsaWireKey_iff.1 valid
      obtain ⟨large, odd⟩ := hasValidRsaExponent_iff.1 exponentValid
      rw [isRsa]
      exact ⟨_, .rsa isExponent isModulus large odd (hasValidRsaModulus_iff.1 modulusValid), filled⟩
    split at valid
    · obtain ⟨curve, point, fields, isCurve, onCurve, tail, filled⟩ :=
        validateEcdsaWireKey_iff.1 valid
      refine ⟨_, ?_, filled⟩
      cases tail with
      | plain isPlain =>
        rcases algorithm_of_curve isCurve with isAlgorithm | isKey
        · exact .ecdsa isAlgorithm onCurve
        · exact absurd isKey.1 isPlain
      | application isKey nonempty =>
        rcases algorithm_of_curve isCurve with isAlgorithm | isSame
        · rw [isAlgorithm] at isKey
          exact absurd isKey (curve_algorithm onCurve.mem_curves).2.2.2
        · rw [isSame.2] at onCurve
          rw [isSame.1, isSame.2]
          exact .skEcdsa onCurve nonempty
    split at valid
    · next isEd25519 =>
      obtain ⟨key, fields, size, tail, filled⟩ := validateEd25519WireKey_iff.1 valid
      refine ⟨_, ?_, filled⟩
      cases tail with
      | plain isPlain =>
        rw [isEd25519.resolve_right isPlain]
        exact .ed25519 size
      | application isKey nonempty =>
        rw [isKey]
        exact .skEd25519 size nonempty
    · cases valid
  · rintro ⟨fields, areFields, filled⟩
    cases areFields with
    | rsa isExponent isModulus large odd long =>
      have exponentValid := hasValidRsaExponent_iff.2 ⟨large, odd⟩
      have modulusValid := hasValidRsaModulus_iff.2 long
      rw [if_pos rfl]
      exact validateRsaWireKey_iff.2
        ⟨_, _, ⟨isExponent, exponentValid⟩, ⟨isModulus, modulusValid⟩, filled⟩
    | ecdsa isAlgorithm onCurve =>
      obtain ⟨isCurve, notRsa, isEcdsa, isPlain⟩ := curve_algorithm onCurve.mem_curves
      rw [isAlgorithm, if_neg notRsa, if_pos (.inl isEcdsa)]
      exact validateEcdsaWireKey_iff.2 ⟨_, _, [], isCurve, onCurve, .plain isPlain, filled⟩
    | skEcdsa onCurve nonempty =>
      rw [if_neg (by decide), if_pos (by decide)]
      exact validateEcdsaWireKey_iff.2
        ⟨_, _, _, by decide, onCurve, .application rfl nonempty, filled⟩
    | ed25519 size =>
      rw [if_neg (by decide), if_neg (by decide), if_pos (by decide)]
      exact validateEd25519WireKey_iff.2 ⟨_, [], size, .plain (by decide), filled⟩
    | skEd25519 size nonempty =>
      rw [if_neg (by decide), if_neg (by decide), if_pos (by decide)]
      exact validateEd25519WireKey_iff.2 ⟨_, _, size, .application rfl nonempty, filled⟩

/-- A key is valid if its bytes are the name and the strings of one complete key. -/
theorem wireBlob_iff {encodedKey : Text} :
    hasValidOpenSshPublicKeyWireBlob creates algorithm encodedKey = true ↔
      ∃ fields, AdminKeyFields creates algorithm fields ∧
        FieldsAt (decodeBase64 encodedKey) 0 (utf8Bytes algorithm :: fields) := by
  rw [hasValidOpenSshPublicKeyWireBlob]
  constructor
  · intro valid
    split at valid
    · cases valid
    next wireAlgorithm readName =>
      rw [Bool.and_eq_true, decide_eq_true_eq, selected_iff] at valid
      obtain ⟨sameName, fields, areFields, filled⟩ := valid
      obtain ⟨name, nameField, decoded⟩ := readWireStringUtf8_some readName
      rw [← decodeUtf8_eq_some_iff.1 (decoded.symm.trans sameName)] at nameField
      exact ⟨fields, areFields, fieldsAt_cons.2 ⟨_, nameField, filled⟩⟩
  · rintro ⟨fields, areFields, filled⟩
    obtain ⟨nextOffset, nameField, behind⟩ := fieldsAt_cons.1 filled
    simp only [readWireStringUtf8_of_fieldAt nameField, decide_true, Bool.true_and]
    exact selected_iff.2 ⟨fields, areFields, behind⟩

end Fields

/-! ### Key lines -/

/-- A line without line breaks, control characters and marks of a writing direction. -/
def Harmless (line : Text) : Prop :=
  '\r' ∉ line ∧ '\n' ∉ line ∧ containsUnsafeCodepoint line = false

/-- The second field holds the bytes of one complete key of the algorithm that the first one
names. -/
structure AdminLine (creates : Text → Buffer → Buffer → Bool)
    (value algorithm encodedKey : Text) (fields : List Buffer) : Prop where
  harmless : Harmless (trim value)
  split : ∃ rest, splitSpaces (trim value) = algorithm :: encodedKey :: rest
  complete : AdminKeyFields creates algorithm fields
  fits : ∀ field ∈ utf8Bytes algorithm :: fields, FitsWire field
  decoded : decodeBase64 encodedKey = wireStrings (utf8Bytes algorithm :: fields)

section Lines

variable {creates : Text → Buffer → Buffer → Bool}
  {value algorithm encodedKey other otherKey : Text} {fields others : List Buffer}

theorem AdminKeyFields.supported (complete : AdminKeyFields creates algorithm fields) :
    algorithm ∈ supportedOpenSshAlgorithms := by
  have all : ∀ curve ∈ EC_CURVES.map Prod.fst,
      text "ecdsa-sha2-" ++ curve ∈ supportedOpenSshAlgorithms := forall_mem_of_all (by decide)
  cases complete with
  | rsa => decide
  | ecdsa isAlgorithm onCurve =>
    rw [isAlgorithm]
    exact all _ onCurve.mem_curves
  | skEcdsa => decide
  | ed25519 => decide
  | skEd25519 => decide

theorem AdminLine.unique (line : AdminLine creates value algorithm encodedKey fields)
    (same : AdminLine creates value other otherKey others) :
    algorithm = other ∧ encodedKey = otherKey ∧ fields = others := by
  obtain ⟨rest, split⟩ := line.split
  obtain ⟨otherRest, otherSplit⟩ := same.split
  rw [split, List.cons.injEq, List.cons.injEq] at otherSplit
  obtain ⟨sameAlgorithm, sameKey, _⟩ := otherSplit
  have bytes := same.decoded
  rw [← sameKey, line.decoded] at bytes
  exact ⟨sameAlgorithm, sameKey, (List.cons.inj (wireStrings_injective line.fits same.fits bytes)).2⟩

theorem parseOpenSshPublicKey_of_parts {rest : List Text} (harmless : Harmless value)
    (split : splitSpaces value = algorithm :: encodedKey :: rest)
    (supported : algorithm ∈ supportedOpenSshAlgorithms) :
    parseOpenSshPublicKey value = some ⟨algorithm, encodedKey⟩ := by
  obtain ⟨noReturn, noBreak, safe⟩ := harmless
  have nonempty : value ≠ [] := by
    rintro rfl
    cases split
  rw [parseOpenSshPublicKey, if_neg, if_neg]
  · simp only [split, if_pos supported]
  · rw [safe]
    exact Bool.noConfusion
  · simp only [nonempty, noReturn, noBreak, or_self, not_false_eq_true]

theorem harmless_of_parsed {parsedKey : ParsedPublicKey}
    (parsed : parseOpenSshPublicKey value = some parsedKey) : Harmless value := by
  rw [parseOpenSshPublicKey] at parsed
  split at parsed
  · cases parsed
  next noBreak =>
    split at parsed
    · cases parsed
    next safe =>
      rw [not_or, not_or] at noBreak
      exact ⟨noBreak.2.1, noBreak.2.2, Bool.not_eq_true _ ▸ safe⟩

/-- The accepted lines hold one complete key in a base64 text that may be padded wrongly. -/
theorem isValidAdminPublicKey_iff : isValidAdminPublicKey creates value = true ↔
    ∃ algorithm encodedKey fields, AdminLine creates value algorithm encodedKey fields ∧
        isCanonicalBase64 encodedKey = true := by
  rw [isValidAdminPublicKey]
  constructor
  · intro valid
    split at valid
    · cases valid
    next parsedKey parsed =>
      rw [Bool.and_eq_true, wireBlob_iff] at valid
      obtain ⟨canonical, fields, complete, filled⟩ := valid
      obtain ⟨rest, split, _⟩ := parseOpenSshPublicKey_some parsed
      exact ⟨_, _, fields,
        ⟨harmless_of_parsed parsed, ⟨rest, split⟩, complete, filled.2, filled.1⟩, canonical⟩
  · rintro ⟨algorithm, encodedKey, fields, line, canonical⟩
    obtain ⟨rest, split⟩ := line.split
    simp only [parseOpenSshPublicKey_of_parts line.harmless split line.complete.supported,
      canonical, Bool.true_and]
    exact wireBlob_iff.2 ⟨fields, line.complete, line.decoded, line.fits⟩

/-! ### Lines that are written for a key -/

def printableAscii (char : Char) : Bool := 0x20 ≤ char.toNat && char.toNat < 0x7f

theorem harmless_of_printable (printable : ∀ char ∈ value, printableAscii char = true) :
    Harmless value := by
  have safe : ∀ char, printableAscii char = true → containsUnsafeCodepoint [char] = false := by
    intro char isPrintable
    rw [printableAscii, Bool.and_eq_true, decide_eq_true_eq, decide_eq_true_eq] at isPrintable
    simp only [containsUnsafeCodepoint, UNSAFE_CODEPOINTS, List.any_cons, List.any_nil,
      Bool.or_false, Bool.or_eq_false_iff, Bool.and_eq_false_iff, decide_eq_false_iff_not]
    omega
  refine ⟨fun mem => ?_, fun mem => ?_, ?_⟩
  · exact absurd (printable '\r' mem) (by decide)
  · exact absurd (printable '\n' mem) (by decide)
  · rw [containsUnsafeCodepoint, List.any_eq_false]
    intro char mem
    have own := safe char (printable char mem)
    rw [containsUnsafeCodepoint, List.any_cons, List.any_nil, Bool.or_false] at own
    rw [own]
    exact Bool.noConfusion

theorem word_of_supported (supported : algorithm ∈ supportedOpenSshAlgorithms) :
    IsWord algorithm ∧ ∀ char ∈ algorithm, printableAscii char = true := by
  have all : ∀ algorithm ∈ supportedOpenSshAlgorithms,
      IsWord algorithm ∧ algorithm.all printableAscii = true :=
    forall_mem_of_all (by decide)
  obtain ⟨isWord, printable⟩ := all algorithm supported
  exact ⟨isWord, List.all_eq_true.1 printable⟩

theorem printable_encodeBase64 {bytes : Buffer} :
    ∀ char ∈ encodeBase64 bytes, printableAscii char = true := by
  have letters : ∀ char ∈ base64Alphabet, printableAscii char = true :=
    forall_mem_of_all (by decide +kernel)
  intro char mem
  rcases mem_encodeBase64 mem with inAlphabet | rfl
  · exact letters char inAlphabet
  · rfl

theorem accepted_of_complete (complete : AdminKeyFields creates algorithm fields)
    (fits : ∀ field ∈ utf8Bytes algorithm :: fields, FitsWire field) {rest : List Text}
    (harmless : Harmless (trim value)) (split : splitSpaces (trim value) =
      algorithm :: encodeBase64 (wireStrings (utf8Bytes algorithm :: fields)) :: rest) :
    isValidAdminPublicKey creates value = true := by
  have someByte : wireStrings (utf8Bytes algorithm :: fields) ≠ [] := by
    rw [wireStrings_cons]
    exact List.append_ne_nil_of_left_ne_nil (wireString_ne_nil _) _
  apply isValidAdminPublicKey_iff.2
  refine ⟨_, _, fields, ⟨harmless, ⟨rest, split⟩, complete, fits, ?_⟩, ?_⟩
  · exact decodeBase64_encodeBase64 _
  · exact isCanonicalBase64_encodeBase64 someByte

/-- The line without a comment. -/
theorem written_line (complete : AdminKeyFields creates algorithm fields)
    {bytes : Buffer} (someByte : bytes ≠ []) :
    Harmless (trim (joinWords [algorithm, encodeBase64 bytes])) ∧
      splitSpaces (trim (joinWords [algorithm, encodeBase64 bytes])) =
        [algorithm, encodeBase64 bytes] := by
  obtain ⟨isWord, printable⟩ := word_of_supported complete.supported
  have areWords : ∀ word ∈ [algorithm, encodeBase64 bytes], IsWord word := by
    rw [List.forall_mem_cons, List.forall_mem_singleton]
    exact ⟨isWord, isWord_encodeBase64 someByte⟩
  rw [trim_joinWords areWords]
  refine ⟨?_, splitSpaces_joinWords (List.cons_ne_nil _ _) areWords⟩
  apply harmless_of_printable
  intro char mem
  have parts : char ∈ algorithm ++ ' ' :: encodeBase64 bytes := mem
  rw [List.mem_append, List.mem_cons] at parts
  rcases parts with inAlgorithm | rfl | inKey
  · exact printable char inAlgorithm
  · rfl
  · exact printable_encodeBase64 char inKey

end Lines

/-- An accepted base64 text is the one for its bytes exactly if its padding is the right one; an
accepted line holds exactly one complete key and is written as that key under the same condition;
every complete key is accepted as it is written, with a comment or without. -/
theorem admin_keys_exact_iff (creates : Text → Buffer → Buffer → Bool) :
    (∀ value, (isCanonicalBase64 value = true → value = encodeBase64 (decodeBase64 value)) ↔
      ¬Mispadded value) ∧
    (∀ value other, isCanonicalBase64 value = true → isCanonicalBase64 other = true →
      ¬Mispadded value → ¬Mispadded other → decodeBase64 value = decodeBase64 other →
        value = other) ∧
    (∀ value, isValidAdminPublicKey creates value = true →
      ∃ algorithm encodedKey fields,
        AdminLine creates value algorithm encodedKey fields ∧
        (∀ other otherKey others, AdminLine creates value other otherKey others →
          algorithm = other ∧ encodedKey = otherKey ∧ fields = others) ∧
        (encodedKey = encodeBase64 (wireStrings (utf8Bytes algorithm :: fields)) ↔
          ¬Mispadded encodedKey)) ∧
    ∀ algorithm fields, AdminKeyFields creates algorithm fields →
      (∀ field ∈ utf8Bytes algorithm :: fields, FitsWire field) →
        isValidAdminPublicKey creates
          (joinWords [algorithm, encodeBase64 (wireStrings (utf8Bytes algorithm :: fields))]) =
            true ∧
        ∀ value rest, Harmless (trim value) →
          splitSpaces (trim value) =
            algorithm :: encodeBase64 (wireStrings (utf8Bytes algorithm :: fields)) :: rest →
          isValidAdminPublicKey creates value = true := by
  refine ⟨fun value => canonical_iff_not_mispadded, ?_, ?_, ?_⟩
  · intro value other canonical otherCanonical padded otherPadded sameBytes
    rw [canonical_iff_not_mispadded.2 padded canonical, sameBytes,
      ← canonical_iff_not_mispadded.2 otherPadded otherCanonical]
  · intro value valid
    obtain ⟨algorithm, encodedKey, fields, line, canonical⟩ := isValidAdminPublicKey_iff.1 valid
    refine ⟨algorithm, encodedKey, fields, line, fun _ _ _ same => line.unique same, ?_⟩
    rw [← line.decoded, ← canonical_iff_not_mispadded]
    constructor
    · intro written _
      exact written
    · intro written
      exact written canonical
  · intro algorithm fields complete fits
    have someByte : wireStrings (utf8Bytes algorithm :: fields) ≠ [] := by
      rw [wireStrings_cons]
      exact List.append_ne_nil_of_left_ne_nil (wireString_ne_nil _) _
    obtain ⟨harmless, split⟩ := written_line complete someByte
    exact ⟨accepted_of_complete complete fits harmless split,
      fun value rest => accepted_of_complete complete fits⟩

/-- The base64 text of an Ed25519 key. -/
def ed25519Key : Text := encodeBase64 (ed25519Strings (text "ssh-ed25519") [])

/-- A second text of the same key is accepted: it has a padding character too many. -/
theorem overpadded_key_accepted :
    isCanonicalBase64 (ed25519Key ++ text "=") = true ∧
      ed25519Key ++ text "=" ≠ encodeBase64 (decodeBase64 (ed25519Key ++ text "=")) ∧
      isCanonicalBase64 ed25519Key = true ∧
      decodeBase64 (ed25519Key ++ text "=") = decodeBase64 ed25519Key ∧
      ∀ creates,
        isValidAdminPublicKey creates (ed25519Line ++ text "=") = true := by
  refine ⟨by decide +kernel, by decide +kernel, by decide +kernel, by decide +kernel, ?_⟩
  intro creates
  rfl

end Paratix.Keys
