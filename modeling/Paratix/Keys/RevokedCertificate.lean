/-
Module: Paratix.Keys.RevokedCertificate
Purpose: What a revoked certificate is reduced to: the public key that it certifies.
Main exports: HostCertificate, leafRecovered_iff
-/
import Mathlib
import Paratix.Foundation.Utf8
import Paratix.Keys.KnownHostsLines

namespace Paratix.Keys

open Foundation Archive

/-! ### Strings behind their length -/

theorem lengthPrefixed_length (value : Buffer) :
    (lengthPrefixed value).length = UINT32_SIZE + value.length := by
  simp only [lengthPrefixed, List.length_append, List.length_cons, List.length_nil, UINT32_SIZE]

theorem readUInt32BE_lengthPrefixed {value : Buffer} (small : value.length < 2 ^ 32)
    (rest : Buffer) : readUInt32BE (lengthPrefixed value ++ rest) 0 = value.length := by
  simp only [readUInt32BE, lengthPrefixed, UINT32_SIZE, List.drop_zero, List.cons_append,
    List.take_succ_cons, List.take_zero, List.foldl_cons, List.foldl_nil, UInt8.toNat_ofNat']
  omega

theorem readUInt32BE_append (front rest : Buffer) (offset : Nat) :
    readUInt32BE (front ++ rest) (front.length + offset) = readUInt32BE rest offset := by
  rw [readUInt32BE, List.drop_append, List.drop_of_length_le (by omega), List.nil_append,
    Nat.add_sub_cancel_left, readUInt32BE]

/-- Four bytes are the length that they spell. -/
theorem lengthPrefixed_of_readUInt32BE {first second third fourth : UInt8} {value rest : Buffer}
    (isLength : readUInt32BE (first :: second :: third :: fourth :: rest) 0 = value.length) :
    lengthPrefixed value = first :: second :: third :: fourth :: value ∧
      value.length < 2 ^ 32 := by
  simp only [readUInt32BE, UINT32_SIZE, List.drop_zero, List.take_succ_cons, List.take_zero,
    List.foldl_cons, List.foldl_nil] at isLength
  have firstBound := first.toNat_lt
  have secondBound := second.toNat_lt
  have thirdBound := third.toNat_lt
  have fourthBound := fourth.toNat_lt
  refine ⟨?_, by omega⟩
  have firstEq : UInt8.ofNat (value.length / 16777216) = first := by
    apply UInt8.toNat_inj.1
    rw [UInt8.toNat_ofNat']
    omega
  have secondEq : UInt8.ofNat (value.length / 65536) = second := by
    apply UInt8.toNat_inj.1
    rw [UInt8.toNat_ofNat']
    omega
  have thirdEq : UInt8.ofNat (value.length / 256) = third := by
    apply UInt8.toNat_inj.1
    rw [UInt8.toNat_ofNat']
    omega
  have fourthEq : UInt8.ofNat value.length = fourth := by
    apply UInt8.toNat_inj.1
    rw [UInt8.toNat_ofNat']
    omega
  rw [lengthPrefixed, firstEq, secondEq, thirdEq, fourthEq]
  rfl

theorem readString_lengthPrefixed {value : Buffer} (small : value.length < 2 ^ 32)
    (front rest : Buffer) : readString (front ++ (lengthPrefixed value ++ rest)) front.length =
      some (value, front.length + (lengthPrefixed value).length) := by
  have isLength := readUInt32BE_append front (lengthPrefixed value ++ rest) 0
  rw [readUInt32BE_lengthPrefixed small, Nat.add_zero] at isLength
  have total : (front ++ (lengthPrefixed value ++ rest)).length =
      front.length + (UINT32_SIZE + value.length + rest.length) := by
    rw [List.length_append, List.length_append, lengthPrefixed_length]
  have isValue : subarray (front ++ (lengthPrefixed value ++ rest)) (front.length + UINT32_SIZE)
      (front.length + UINT32_SIZE + value.length) = value := by
    rw [subarray, Nat.add_sub_cancel_left, List.drop_append, List.drop_of_length_le (by omega),
      List.nil_append, Nat.add_sub_cancel_left]
    simp [lengthPrefixed, UINT32_SIZE]
  rw [readString, if_neg (by omega), isLength]
  dsimp only
  rw [if_neg (by omega), isValue, lengthPrefixed_length, Nat.add_assoc]

/-- A string that was read stands in the blob, with its length before it. -/
theorem readString_spec {key value : Buffer} {offset next : Nat}
    (read : readString key offset = some (value, next)) :
    key.drop offset = lengthPrefixed value ++ key.drop next ∧ value.length < 2 ^ 32 ∧
      next = offset + UINT32_SIZE + value.length ∧ next ≤ key.length := by
  unfold readString at read
  split at read
  · cases read
  next enough =>
    dsimp only at read
    split at read
    · cases read
    next inside =>
      obtain ⟨rfl, rfl⟩ := Prod.mk.inj (Option.some.inj read)
      have isLength : (subarray key (offset + UINT32_SIZE)
          (offset + UINT32_SIZE + readUInt32BE key offset)).length = readUInt32BE key offset := by
        rw [subarray, Nat.add_sub_cancel_left, List.length_take, List.length_drop]
        omega
      have atOffset : readUInt32BE key offset = readUInt32BE (key.drop offset) 0 := by
        rw [readUInt32BE, readUInt32BE, List.drop_zero]
      have four : UINT32_SIZE ≤ (key.drop offset).length := by
        rw [List.length_drop]
        omega
      match cells : key.drop offset, four with
      | first :: second :: third :: fourth :: rest, _ =>
        rw [cells] at atOffset
        have restEq : key.drop (offset + UINT32_SIZE) = rest := by
          rw [← List.drop_drop, cells]
          rfl
        have spelled := lengthPrefixed_of_readUInt32BE (atOffset.symm.trans isLength.symm)
        refine ⟨?_, spelled.2, by rw [isLength], by omega⟩
        rw [spelled.1, subarray, Nat.add_sub_cancel_left, restEq, ← List.drop_drop, restEq]
        simp

theorem readStrings_lengthPrefixed {values : List Buffer}
    (small : ∀ value ∈ values, value.length < 2 ^ 32) (front rest : Buffer) :
    readStrings (front ++ (values.flatMap lengthPrefixed ++ rest)) values.length front.length =
      some values := by
  induction values generalizing front with
  | nil => rfl
  | cons value values ih =>
    have smallRest : ∀ value ∈ values, value.length < 2 ^ 32 := fun value member =>
      small value (List.mem_cons_of_mem _ member)
    have later := ih smallRest (front ++ lengthPrefixed value)
    rw [List.length_append, List.append_assoc] at later
    rw [List.flatMap_cons, List.append_assoc, List.length_cons, readStrings,
      readString_lengthPrefixed (small value List.mem_cons_self)]
    simp [later]

theorem readStrings_spec {key : Buffer} {count offset : Nat} {values : List Buffer}
    (read : readStrings key count offset = some values) :
    values.length = count ∧ (∀ value ∈ values, value.length < 2 ^ 32) ∧
      ∃ rest, key.drop offset = values.flatMap lengthPrefixed ++ rest := by
  induction count generalizing offset values with
  | zero =>
    cases read
    exact ⟨rfl, by simp, key.drop offset, rfl⟩
  | succ count ih =>
    simp only [readStrings, Option.bind_eq_bind, Option.bind_eq_some_iff] at read
    obtain ⟨⟨value, next⟩, readValue, others, readOthers, same⟩ := read
    cases same
    obtain ⟨stands, small, _, _⟩ := readString_spec readValue
    obtain ⟨counted, smallOthers, rest, restEq⟩ := ih readOthers
    refine ⟨by rw [List.length_cons, counted], List.forall_mem_cons.2 ⟨small, smallOthers⟩,
      rest, ?_⟩
    rw [stands, restEq, List.flatMap_cons, List.append_assoc]

/-! ### The name of the algorithm -/

/-- Names of supported keys are spelled with seven bits. -/
theorem asciiText_certificateName : ∀ algorithm ∈ PINNED_HOST_KEY_ALGORITHMS,
      asciiText (utf8Bytes (algorithm ++ CERTIFICATE_SUFFIX)) = algorithm ++ CERTIFICATE_SUFFIX ∧
        (utf8Bytes algorithm).length = algorithm.length ∧
          (utf8Bytes (algorithm ++ CERTIFICATE_SUFFIX)).length < 2 ^ 32 ∧
            ∀ byte ∈ utf8Bytes (algorithm ++ CERTIFICATE_SUFFIX), byte.toNat < 0x80 := by
  have lengths : ∀ algorithm ∈ PINNED_HOST_KEY_ALGORITHMS,
      asciiText (utf8Bytes (algorithm ++ CERTIFICATE_SUFFIX)) = algorithm ++ CERTIFICATE_SUFFIX ∧
        (utf8Bytes algorithm).length = algorithm.length ∧
          (utf8Bytes (algorithm ++ CERTIFICATE_SUFFIX)).length < 2 ^ 32 := by decide
  have sevenBits : ∀ algorithm ∈ PINNED_HOST_KEY_ALGORITHMS,
      (utf8Bytes (algorithm ++ CERTIFICATE_SUFFIX)).all (fun byte => decide (byte.toNat < 0x80)) =
        true := by decide
  intro algorithm isPinned
  obtain ⟨text, length, bound⟩ := lengths algorithm isPinned
  exact ⟨text, length, bound, forall_mem_of_all (sevenBits algorithm isPinned)⟩

theorem cutFirst_certificateName : ∀ algorithm ∈ PINNED_HOST_KEY_ALGORITHMS,
      cutFirst CERTIFICATE_SUFFIX (algorithm ++ CERTIFICATE_SUFFIX) = some (algorithm, []) := by
  decide

/-- Bytes of seven bits are the bytes of the text that they spell. -/
theorem utf8Bytes_asciiText {name : Buffer} (sevenBits : ∀ byte ∈ name, byte.toNat < 0x80) :
    utf8Bytes (asciiText name) = name := by
  induction name with
  | nil => rfl
  | cons byte name ih =>
    obtain ⟨small, smallRest⟩ := List.forall_mem_cons.1 sevenBits
    have isByte : (Char.ofNat (byte.toNat % 128)).toNat = byte.toNat := by
      have valid : byte.toNat.isValidChar := Or.inl (by omega)
      rw [Nat.mod_eq_of_lt small, Char.ofNat, dif_pos valid]
      rfl
    have encoded : String.utf8EncodeChar (Char.ofNat (byte.toNat % 128)) = [byte] := by
      rw [utf8EncodeChar_of_ascii (by omega), isByte, UInt8.ofNat_toNat]
    rw [asciiText, List.map_cons, utf8Bytes_cons, encoded, List.singleton_append]
    exact congrArg _ (ih smallRest)

/-- The suffix does not overlap itself. -/
theorem certificateSuffix_apart : ∀ count < CERTIFICATE_SUFFIX.length,
      CERTIFICATE_SUFFIX.drop count <+: CERTIFICATE_SUFFIX → count = 0 := by
  decide

/-- Where the first suffix is cut from a name that ends in one, and a supported name stays,
it was the last. -/
theorem certificateName_of_cut {algorithm front back : Text}
    (ends : CERTIFICATE_SUFFIX <:+ algorithm)
    (cut : cutFirst CERTIFICATE_SUFFIX algorithm = some (front, back))
    (supported : front ++ back ∈ PINNED_HOST_KEY_ALGORITHMS) :
    algorithm = (front ++ back) ++ CERTIFICATE_SUFFIX := by
  have noSuffix : ∀ name ∈ PINNED_HOST_KEY_ALGORITHMS, ¬CERTIFICATE_SUFFIX <:+ name := by decide
  obtain ⟨algorithmEq, _⟩ := cutFirst_spec cut
  have backNil : back = [] := by
    by_contra nonempty
    have positive := List.length_pos_iff.2 nonempty
    have backEnds : back <:+ algorithm := ⟨front ++ CERTIFICATE_SUFFIX, by simp [algorithmEq]⟩
    rcases Nat.lt_or_ge back.length CERTIFICATE_SUFFIX.length with shorter | longer
    · -- a shorter rest would make the suffix overlap itself
      have bothEnd : CERTIFICATE_SUFFIX <:+ CERTIFICATE_SUFFIX ++ back := by
        apply List.suffix_of_suffix_length_le ends
        · exact ⟨front, algorithmEq.symm⟩
        · simp
      obtain ⟨start, startEq⟩ := bothEnd
      have startLength : start.length = back.length := by
        have lengths := congrArg List.length startEq
        simp only [List.length_append] at lengths
        omega
      have overlap : CERTIFICATE_SUFFIX.drop back.length <+: CERTIFICATE_SUFFIX := by
        refine ⟨back, ?_⟩
        have dropped := congrArg (List.drop back.length) startEq
        rw [List.drop_append_of_le_length (Nat.le_of_lt shorter), ← startLength,
          List.drop_left] at dropped
        rw [← startLength]
        exact dropped.symm
      exact absurd (certificateSuffix_apart _ shorter overlap) (by omega)
    · have inBack : CERTIFICATE_SUFFIX <:+ back :=
        List.suffix_of_suffix_length_le ends backEnds longer
      exact noSuffix _ supported (inBack.trans (List.suffix_append front back))
  rw [algorithmEq, backNil, List.append_nil, List.append_nil]

/-! ### Certificates -/

/-- A host certificate of a supported type: the fields of the key that it certifies stand
between its nonce and the rest. -/
structure HostCertificate where
  algorithm : Text
  nonce : Buffer
  fields : List Buffer
  rest : Buffer
  supported : algorithm ∈ PINNED_HOST_KEY_ALGORITHMS
  counted : fields.length = if algorithm = text "ssh-ed25519" then 1 else 2
  nonceSmall : nonce.length < 2 ^ 32
  fieldsSmall : ∀ field ∈ fields, field.length < 2 ^ 32

namespace HostCertificate

variable (certificate : HostCertificate)

/-- The certificate under a name that stands for its algorithm. -/
def blobNamed (name : Buffer) : Buffer :=
  lengthPrefixed name ++ (lengthPrefixed certificate.nonce ++
    (certificate.fields.flatMap lengthPrefixed ++ certificate.rest))

def certificateName : Text := certificate.algorithm ++ CERTIFICATE_SUFFIX

def blob : Buffer := certificate.blobNamed (utf8Bytes certificate.certificateName)

/-- The public key of the same fields on its own. -/
def leaf : Buffer :=
  (utf8Bytes certificate.algorithm :: certificate.fields).flatMap lengthPrefixed

end HostCertificate

/-- A certificate becomes the key that it certifies; any other blob stays. -/
def LeafRecovered (key : Buffer) : Prop :=
  (∀ certificate : HostCertificate, certificate.blob = key →
      normalizeRevokedKey key = certificate.leaf) ∧
    ((∀ certificate : HostCertificate, certificate.blob ≠ key) → normalizeRevokedKey key = key)

/-- Wherever the blob reads as a certificate once the eighth bit of its name is dropped, that
bit was not set. -/
def ReadsSevenBits (key : Buffer) : Prop :=
  ∀ (certificate : HostCertificate) (name : Buffer), name.length < 2 ^ 32 →
    asciiText name = certificate.certificateName → certificate.blobNamed name = key →
    ∀ byte ∈ name, byte.toNat < 0x80

theorem certifiedLeaf_blobNamed (certificate : HostCertificate) {name : Buffer}
    (small : name.length < 2 ^ 32) (isName : asciiText name = certificate.certificateName) :
    certifiedLeaf (certificate.blobNamed name) = some certificate.leaf := by
  have readName := readString_lengthPrefixed small [] (lengthPrefixed certificate.nonce ++
    (certificate.fields.flatMap lengthPrefixed ++ certificate.rest))
  have readNonce := readString_lengthPrefixed certificate.nonceSmall (lengthPrefixed name)
    (certificate.fields.flatMap lengthPrefixed ++ certificate.rest)
  have readFields := readStrings_lengthPrefixed certificate.fieldsSmall
    (lengthPrefixed name ++ lengthPrefixed certificate.nonce) certificate.rest
  rw [List.append_assoc, List.length_append, certificate.counted] at readFields
  rw [List.nil_append, List.length_nil, Nat.zero_add] at readName
  have ends : CERTIFICATE_SUFFIX <:+ certificate.certificateName := List.suffix_append _ _
  have cut := cutFirst_certificateName _ certificate.supported
  rw [certifiedLeaf, HostCertificate.blobNamed, readName]
  simp only [Option.bind_eq_bind, Option.bind_some, isName]
  rw [if_pos ends, HostCertificate.certificateName, cut]
  simp only [readNonce, Option.bind_some, List.append_nil]
  rw [if_neg (not_not_intro certificate.supported), readFields]
  rfl

/-- What is normalised reads as a certificate, up to the eighth bit of its name. -/
theorem exists_certificate {key leaf : Buffer} (certified : certifiedLeaf key = some leaf) :
    ∃ (certificate : HostCertificate) (name : Buffer), name.length < 2 ^ 32 ∧
      asciiText name = certificate.certificateName ∧ certificate.blobNamed name = key ∧
        certificate.leaf = leaf := by
  simp only [certifiedLeaf, Option.bind_eq_bind, Option.bind_eq_some_iff] at certified
  obtain ⟨⟨name, afterName⟩, readName, certified⟩ := certified
  obtain ⟨nameStands, nameSmall, _, _⟩ := readString_spec readName
  dsimp only at certified
  split at certified
  · next ends =>
      obtain ⟨⟨nonce, afterNonce⟩, readNonce, certified⟩ := Option.bind_eq_some_iff.1 certified
      obtain ⟨nonceStands, nonceSmall, _, _⟩ := readString_spec readNonce
      dsimp only at certified
      cases cut : cutFirst CERTIFICATE_SUFFIX (asciiText name) with
      | none => exact absurd ends.isInfix (cutFirst_eq_none_iff.1 cut)
      | some pieces =>
        obtain ⟨front, back⟩ := pieces
        rw [cut] at certified
        dsimp only at certified
        split at certified
        · cases certified
        next supported =>
          rw [not_not] at supported
          obtain ⟨fields, readFields, isLeaf⟩ := Option.bind_eq_some_iff.1 certified
          obtain ⟨counted, fieldsSmall, rest, restEq⟩ := readStrings_spec readFields
          refine ⟨⟨front ++ back, nonce, fields, rest, supported, counted, nonceSmall,
            fieldsSmall⟩, name, nameSmall, certificateName_of_cut ends cut supported, ?_,
            Option.some.inj isLeaf⟩
          rw [List.drop_zero] at nameStands
          rw [HostCertificate.blobNamed, nameStands, nonceStands, restEq]
  · cases certified

/-- The certified key is shorter than the certificate. -/
theorem leaf_ne_blobNamed (certificate : HostCertificate) {name : Buffer}
    (isName : asciiText name = certificate.certificateName) :
    certificate.leaf ≠ certificate.blobNamed name := by
  intro same
  have lengths := congrArg List.length same
  have nameLength := congrArg List.length isName
  have algorithmLength := (asciiText_certificateName _ certificate.supported).2.1
  have suffixLength : CERTIFICATE_SUFFIX.length = 21 := by decide
  rw [asciiText, List.length_map, HostCertificate.certificateName, List.length_append]
    at nameLength
  simp only [HostCertificate.leaf, HostCertificate.blobNamed, List.flatMap_cons,
    List.length_append, lengthPrefixed_length] at lengths
  omega

theorem blobNamed_name {certificate other : HostCertificate} {name otherName : Buffer}
    (small : name.length < 2 ^ 32) (otherSmall : otherName.length < 2 ^ 32)
    (same : certificate.blobNamed name = other.blobNamed otherName) : name = otherName := by
  have readName := readString_lengthPrefixed small [] (lengthPrefixed certificate.nonce ++
    (certificate.fields.flatMap lengthPrefixed ++ certificate.rest))
  have readOther := readString_lengthPrefixed otherSmall [] (lengthPrefixed other.nonce ++
    (other.fields.flatMap lengthPrefixed ++ other.rest))
  rw [HostCertificate.blobNamed, HostCertificate.blobNamed] at same
  rw [same, readOther] at readName
  exact (congrArg Prod.fst (Option.some.inj readName)).symm

/-- A certificate becomes the key that it certifies. -/
theorem normalizeRevokedKey_blob (certificate : HostCertificate) :
    normalizeRevokedKey certificate.blob = certificate.leaf := by
  obtain ⟨isName, _, small, _⟩ := asciiText_certificateName _ certificate.supported
  have leaf := certifiedLeaf_blobNamed certificate small isName
  rw [normalizeRevokedKey, HostCertificate.blob, HostCertificate.certificateName, leaf,
    Option.getD_some]

/-- The certified key is recovered, and every other blob kept, exactly where no byte of the
name of the algorithm needs its eighth bit dropped; no string is read past the end. -/
theorem leafRecovered_iff (key : Buffer) :
    (LeafRecovered key ↔ ReadsSevenBits key) ∧
      ∀ offset value next, readString key offset = some (value, next) →
        offset + UINT32_SIZE + value.length = next ∧ next ≤ key.length := by
  constructor
  · constructor
    · rintro ⟨_, isKept⟩ certificate name small isName isKey
      by_cases genuine : ∃ other : HostCertificate, other.blob = key
      · obtain ⟨other, otherKey⟩ := genuine
        obtain ⟨_, _, otherSmall, sevenBits⟩ := asciiText_certificateName _ other.supported
        have sameName := blobNamed_name small otherSmall (isKey.trans otherKey.symm)
        exact sameName ▸ sevenBits
      · have kept := isKept fun other same => genuine ⟨other, same⟩
        rw [normalizeRevokedKey, ← isKey, certifiedLeaf_blobNamed certificate small isName,
          Option.getD_some] at kept
        exact absurd kept (leaf_ne_blobNamed certificate isName)
    · intro sevenBits
      refine ⟨fun certificate isKey => isKey ▸ normalizeRevokedKey_blob certificate,
        fun noCertificate => ?_⟩
      cases certified : certifiedLeaf key with
      | none => rw [normalizeRevokedKey, certified, Option.getD_none]
      | some leaf =>
          obtain ⟨certificate, name, small, isName, isKey, _⟩ := exists_certificate certified
          have spelled := utf8Bytes_asciiText (sevenBits certificate name small isName isKey)
          rw [isName] at spelled
          have genuine : certificate.blob = key := by
            rw [HostCertificate.blob, spelled, isKey]
          exact absurd genuine (noCertificate certificate)
  · intro offset value next read
    obtain ⟨_, _, isNext, inside⟩ := readString_spec read
    exact ⟨isNext.symm, inside⟩

/-! ### A name with an eighth bit -/

def plainCertificate : HostCertificate where
  algorithm := text "ssh-ed25519"
  nonce := List.replicate 32 7
  fields := [List.replicate 32 1]
  rest := []
  supported := by decide
  counted := by decide
  nonceSmall := by decide
  fieldsSmall := by decide

/-- `ssh-ed25519-cert-v01@openssh.com` with `0xf3` for the first letter. -/
def maskedName : Buffer := 0xf3 :: (utf8Bytes plainCertificate.certificateName).tail

/-- No certificate has this name, and the blob is taken for one. -/
theorem maskedName_not_leafRecovered :
    ¬LeafRecovered (plainCertificate.blobNamed maskedName) := by
  rintro ⟨_, isKept⟩
  have isName : asciiText maskedName = plainCertificate.certificateName := by decide
  have small : maskedName.length < 2 ^ 32 := by decide
  have kept := isKept fun other same => by
    obtain ⟨_, _, otherSmall, sevenBits⟩ := asciiText_certificateName _ other.supported
    have masked : (0xf3 : UInt8) ∈ maskedName := List.mem_cons_self
    rw [← blobNamed_name otherSmall small same] at masked
    exact absurd (sevenBits _ masked) (by decide)
  rw [normalizeRevokedKey, certifiedLeaf_blobNamed plainCertificate small isName,
    Option.getD_some] at kept
  exact leaf_ne_blobNamed plainCertificate isName kept

end Paratix.Keys
