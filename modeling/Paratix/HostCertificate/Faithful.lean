/-
Module: Paratix.HostCertificate.Faithful
Purpose: What an accepted host certificate text holds, and when what is returned is what its bytes
  say.
Main exports: SshWireReader, hostCertificate_faithful_iff
-/
import Paratix.Archive.Member
import Paratix.Foundation.Base64
import Paratix.Foundation.Cursor
import Paratix.Foundation.Octets
import Paratix.Foundation.Words
import Paratix.Keys.PublicKey
import Paratix.Template.Template
import Paratix.Keys.KeyLineExact
import Paratix.Template.Base64Exact

namespace Paratix.HostCertificate

open Foundation Archive
open Keys (Buffer PINNED_HOST_KEY_ALGORITHMS)

def SSH_UINT32_BYTES : Nat := 4

def SSH_UINT64_BYTES : Nat := 8

def MAX_PUBLIC_KEY_TEXT_BYTES : Nat := 131072

def MAX_PUBLIC_KEY_BLOB_BYTES : Nat := 65536

/-- `Number.MAX_SAFE_INTEGER` -/
def MAX_SAFE_INTEGER : Nat := 2 ^ 53 - 1

/-! ### The reader -/

/-- A reader over bytes; errors are their texts. -/
abbrev SshWireReader (β : Type) : Type := Reading Text UInt8 β

def MALFORMED : Text := text "Malformed SSH certificate"

/-- The error of a text decoder. -/
def INVALID_ENCODING : Text := text "The encoded data was not valid for encoding utf-8"

namespace SshWireReader

def bytes (length : Nat) : SshWireReader Buffer := fun reader =>
  if inside : reader.offset + length ≤ reader.data.length then
    .ok ((reader.data.drop reader.offset).take length,
      ⟨reader.data, reader.offset + length, inside⟩)
  else .error MALFORMED

def uint32 : SshWireReader Nat := do
  let value ← bytes SSH_UINT32_BYTES
  return beValue value

def uint64 : SshWireReader Nat := do
  let value ← bytes SSH_UINT64_BYTES
  if MAX_SAFE_INTEGER < beValue value then
    throw "Unsupported SSH certificate time or serial".toList
  else return beValue value

def string : SshWireReader Buffer := do
  let length ← uint32
  bytes length

/-- A text as a value, or the error of the decoder. -/
def decoded : Option Text → SshWireReader Text
  | some value => return value
  | none => throw INVALID_ENCODING

def text : SshWireReader Text := do
  let value ← string
  decoded (Template.decodeStrictUtf8 value)

end SshWireReader

def sshString (value : Buffer) : Buffer := wireString value

/-! ### The line of a key -/

/-- `/^[A-Za-z0-9+\/]+={0,2}$/` -/
def isPaddedBase64 (value : Text) : Bool := isStrictBase64 value && value.count '=' ≤ 2

/-- `.replace(/={1,2}$/, "")` -/
def withoutPadding (value : Text) : Text :=
  if ['=', '='] <:+ value then value.dropLast.dropLast
  else if ['='] <:+ value then value.dropLast
  else value

/-- A trimmed text is split into several lines exactly if it has a line break. -/
def publicKeyIdentity (key : Text) : Except Text Text :=
  if MAX_PUBLIC_KEY_TEXT_BYTES < (Template.utf16Units key).length then
    .error (text "SSH public key exceeds size limit")
  else if '\n' ∈ trim key then .error (text "Exactly one public SSH key is required")
  else
    match splitSpaces (trim key) with
    | algorithm :: encoded :: _ =>
        if isPaddedBase64 encoded = false then .error (text "Malformed SSH public key")
        else
          let bytes := decodeBase64 encoded
          if MAX_PUBLIC_KEY_BLOB_BYTES < bytes.length ∨
              withoutPadding (encodeBase64 bytes) ≠ withoutPadding encoded then
            .error (text "Malformed SSH key encoding")
          else do
            let (name, _) ← SshWireReader.text (.start bytes)
            if name ≠ algorithm then .error (text "SSH key algorithm mismatch")
            else .ok (algorithm ++ ' ' :: encodeBase64 bytes)
    | _ => .error (text "Malformed SSH public key")

/-! ### The certificate -/

structure ParsedHostCertificate where
  algorithm : Text
  caPublicKey : Text
  principals : List Text
  publicKey : Text
  validAfter : Nat
  validBefore : Nat

def SSH_SERIAL_BYTES : Nat := 8

def CERTIFICATE_SUFFIX : Text := text "-cert-v01@openssh.com"

/-- `value.replace(pattern, "")` -/
def removeFirst (pattern : Text) : Text → Text
  | [] => []
  | char :: rest =>
      if pattern <+: char :: rest then (char :: rest).drop pattern.length
      else char :: removeFirst pattern rest

def publicFields (algorithm : Text) : SshWireReader (List Buffer) :=
  if algorithm = text "ssh-ed25519" then do
    let key ← SshWireReader.string
    return [key]
  else if algorithm = text "ssh-rsa" ∨ text "ecdsa-sha2-" <+: algorithm then do
    let first ← SshWireReader.string
    let second ← SshWireReader.string
    return [first, second]
  else throw (text "Unsupported host certificate key algorithm")

def HOST_CERTIFICATE : Nat := 2

def assertHostType (type : Nat) : SshWireReader Unit :=
  if type ≠ HOST_CERTIFICATE then throw (text "A host certificate is required") else return ()

def readHostCertificateKey (algorithm : Text) : SshWireReader Text := do
  let _ ← SshWireReader.text
  let _ ← SshWireReader.string
  let rawAlgorithm := removeFirst CERTIFICATE_SUFFIX algorithm
  let fields ← publicFields rawAlgorithm
  let _ ← SshWireReader.bytes SSH_SERIAL_BYTES
  let type ← SshWireReader.uint32
  assertHostType type
  let _ ← SshWireReader.string
  return rawAlgorithm ++
    ' ' :: encodeBase64 (sshString (utf8Bytes rawAlgorithm) ++ fields.flatMap sshString)

structure HostCertificateBody where
  principals : List Text
  validAfter : Nat
  validBefore : Nat

/-- `principals.toSorted()`: by code units. -/
def toSorted (principals : List Text) : List Text :=
  principals.mergeSort fun first second =>
    Template.utf16Units first ≤ Template.utf16Units second

def assertEmpty (value : Buffer) (message : Text) : SshWireReader Unit :=
  if value ≠ [] then throw message else return ()

/-- The reader of the principals is at its end after as many strings as there are bytes at
most. -/
def readPrincipals (data : Buffer) : SshWireReader (List Text) := fun reader => do
  let principals ← readWhile SshWireReader.text data.length (.start data)
  return (principals, reader)

def readHostCertificateBody : SshWireReader HostCertificateBody := do
  let data ← SshWireReader.string
  let principals ← readPrincipals data
  let validAfter ← SshWireReader.uint64
  let validBefore ← SshWireReader.uint64
  let criticalOptions ← SshWireReader.string
  assertEmpty criticalOptions (text "Host certificate critical options are unsupported")
  let _ ← SshWireReader.string
  let reserved ← SshWireReader.string
  assertEmpty reserved (text "Unexpected reserved certificate data")
  return { principals := toSorted principals, validAfter := validAfter, validBefore := validBefore }

section Verification

/- `verifyCertificateSignature(ca, signature, data)` does not throw. -/
variable (verifyCertificateSignature : Buffer → Buffer → Buffer → Bool)

def readCertificateAuthority (reader : Cursor UInt8) : Except Text Text := do
  let (ca, reader) ← SshWireReader.string reader
  let signed := reader.data.take reader.offset
  let (signature, reader) ← SshWireReader.string reader
  if reader.atEnd = false then .error (text "Trailing SSH certificate data")
  else if verifyCertificateSignature ca signature signed = false then
    .error (text "Invalid or disallowed SSH certificate signature")
  else do
    let (name, _) ← SshWireReader.text (.start ca)
    return name ++ ' ' :: encodeBase64 ca

def readHostCertificate (algorithm encoded : Text) : Except Text ParsedHostCertificate := do
  if ¬CERTIFICATE_SUFFIX <:+ algorithm then .error (text "Expected an OpenSSH certificate")
  else
    let (publicKey, reader) ← readHostCertificateKey algorithm (.start (decodeBase64 encoded))
    let (body, reader) ← readHostCertificateBody reader
    let caPublicKey ← readCertificateAuthority verifyCertificateSignature reader
    return {
      algorithm := algorithm
      caPublicKey := caPublicKey
      principals := body.principals
      publicKey := publicKey
      validAfter := body.validAfter
      validBefore := body.validBefore
    }

def parseHostCertificate (value : Text) : Except Text ParsedHostCertificate :=
  let parsed : Except Text ParsedHostCertificate := do
    let identity ← publicKeyIdentity value
    match identity.splitOn ' ' with
    | algorithm :: encoded :: _ => readHostCertificate verifyCertificateSignature algorithm encoded
    | _ => .error MALFORMED
  parsed.mapError fun _ => text "Invalid, unsupported or untrusted SSH host certificate"

end Verification

/-! ### The policy -/

structure HostCertificatePolicy where
  caPublicKey : Text
  principals : List Text
  renewBefore : Nat
  validity : Nat

structure PolicyState where
  now : Int
  policy : HostCertificatePolicy
  publicKey : Text

/-- Lists of texts are written alike exactly if they are equal. -/
def certificateSatisfies (certificate : ParsedHostCertificate) (state : PolicyState) :
    Except Text Bool := do
  let identity ← publicKeyIdentity state.publicKey
  return certificate.publicKey = identity &&
    certificate.caPublicKey = state.policy.caPublicKey &&
    certificate.principals = state.policy.principals &&
    certificate.validAfter ≤ state.now &&
    state.policy.renewBefore < certificate.validBefore - state.now &&
    certificate.validAfter < certificate.validBefore &&
    (certificate.validBefore : Int) - certificate.validAfter ≤ state.policy.validity

/-! ### The format -/

/-- The part of a certificate up to the identity of the key. -/
structure CertifiedKey where
  name : Buffer
  nonce : Buffer
  fields : List Buffer
  serial : Nat
  keyId : Buffer

structure CertificateBody where
  principals : List Buffer
  validAfter : Nat
  validBefore : Nat
  criticalOptions : Buffer
  extensions : Buffer
  reserved : Buffer

structure Certificate extends CertifiedKey, CertificateBody where
  ca : Buffer
  signature : Buffer

def CertifiedKey.cells (key : CertifiedKey) : Buffer :=
  wireString key.name ++ (wireString key.nonce ++ (wireStrings key.fields ++
    (beBytes SSH_SERIAL_BYTES key.serial ++
      (beBytes SSH_UINT32_BYTES HOST_CERTIFICATE ++ wireString key.keyId))))

def CertificateBody.cells (body : CertificateBody) : Buffer :=
  wireString (wireStrings body.principals) ++ (beBytes SSH_UINT64_BYTES body.validAfter ++
    (beBytes SSH_UINT64_BYTES body.validBefore ++ (wireString body.criticalOptions ++
      (wireString body.extensions ++ wireString body.reserved))))

/-- What is signed. -/
def Certificate.signedPart (certificate : Certificate) : Buffer :=
  certificate.toCertifiedKey.cells ++ (certificate.toCertificateBody.cells ++
    wireString certificate.ca)

def Certificate.encoding (certificate : Certificate) : Buffer :=
  certificate.signedPart ++ wireString certificate.signature

structure CertifiedKey.Fits (key : CertifiedKey) : Prop where
  name : FitsWire key.name
  nonce : FitsWire key.nonce
  fields : ∀ field ∈ key.fields, FitsWire field
  serial : key.serial < 256 ^ SSH_SERIAL_BYTES
  keyId : FitsWire key.keyId

structure CertificateBody.Fits (body : CertificateBody) : Prop where
  principals : FitsWire (wireStrings body.principals)
  eachPrincipal : ∀ principal ∈ body.principals, FitsWire principal
  validAfter : body.validAfter < 256 ^ SSH_UINT64_BYTES
  validBefore : body.validBefore < 256 ^ SSH_UINT64_BYTES
  criticalOptions : FitsWire body.criticalOptions
  extensions : FitsWire body.extensions
  reserved : FitsWire body.reserved

structure Certificate.Fits (certificate : Certificate) : Prop where
  key : certificate.toCertifiedKey.Fits
  body : certificate.toCertificateBody.Fits
  ca : FitsWire certificate.ca
  signature : FitsWire certificate.signature

/-! ### Strings and numbers -/

/-- The bytes of a number. -/
def NumberCells (width value : Nat) (cells : Buffer) : Prop :=
  cells = beBytes width value ∧ value < 256 ^ width

def StringCells (value cells : Buffer) : Prop := cells = wireString value ∧ FitsWire value

/-- The bytes of a string that is decoded as the text. -/
def TextCells (value : Text) (cells : Buffer) : Prop :=
  ∃ raw, StringCells raw cells ∧ Template.decodeStrictUtf8 raw = some value

theorem reads_bytes (length : Nat) :
    Reads (SshWireReader.bytes length) fun value cells =>
      value = cells ∧ cells.length = length := by
  intro before value after
  rw [SshWireReader.bytes]
  split
  · next inside =>
    have size : ((before.data.drop before.offset).take length).length = length := by
      rw [List.length_take, List.length_drop]
      omega
    constructor
    · intro succeeded
      cases succeeded
      refine ⟨_, ⟨rfl, size⟩, rfl, by rw [size], ?_⟩
      rw [Cursor.rest, Cursor.rest, ← List.drop_drop, List.take_append_drop]
    · rintro ⟨_, ⟨rfl, sameSize⟩, consumed⟩
      have isValue : (before.data.drop before.offset).take length = value := by
        rw [← sameSize]
        exact (congrArg (List.take value.length) consumed.next).trans List.take_left
      have isAfter : after = ⟨before.data, before.offset + length, inside⟩ :=
        Cursor.ext consumed.data (by rw [consumed.offset, sameSize])
      rw [isValue, isAfter]
  · next outside =>
    refine iff_of_false (fun succeeded => by cases succeeded) ?_
    rintro ⟨cells, ⟨_, size⟩, consumed⟩
    have length := congrArg List.length consumed.next
    have inside := before.inside
    rw [Cursor.length_rest, List.length_append] at length
    omega

theorem reads_number (width : Nat) :
    Reads (do
      let value ← SshWireReader.bytes width
      return beValue value) (NumberCells width) := by
  apply ((reads_bytes width).bind fun first => .pure (beValue first)).congr
  intro value cells
  constructor
  · rintro ⟨first, _, _, ⟨rfl, rfl⟩, ⟨rfl, rfl⟩, rfl⟩
    rw [List.append_nil]
    exact ⟨(beBytes_beValue first).symm, beValue_lt first⟩
  · rintro ⟨rfl, small⟩
    exact ⟨_, _, [], ⟨rfl, length_beBytes _ _⟩, ⟨(beValue_beBytes small).symm, rfl⟩,
      (List.append_nil _).symm⟩

theorem reads_uint32 : Reads SshWireReader.uint32 (NumberCells SSH_UINT32_BYTES) :=
  reads_number SSH_UINT32_BYTES

/-- Numbers that a double does not hold are refused. -/
theorem reads_uint64 : Reads SshWireReader.uint64 fun value cells =>
    NumberCells SSH_UINT64_BYTES value cells ∧ value ≤ MAX_SAFE_INTEGER := by
  apply ((reads_bytes SSH_UINT64_BYTES).bind fun first =>
    .ite (.throw "Unsupported SSH certificate time or serial".toList)
      (.pure (beValue first))).congr
  intro value cells
  constructor
  · rintro ⟨first, _, _, ⟨rfl, size⟩, checked, rfl⟩
    split at checked
    · exact checked.elim
    · next small =>
      obtain ⟨rfl, rfl⟩ := checked
      rw [List.append_nil, NumberCells, ← size]
      exact ⟨⟨(beBytes_beValue first).symm, beValue_lt first⟩, Nat.le_of_not_lt small⟩
  · rintro ⟨⟨rfl, bound⟩, small⟩
    refine ⟨_, _, [], ⟨rfl, length_beBytes _ _⟩, ?_, (List.append_nil _).symm⟩
    rw [beValue_beBytes bound, if_neg (Nat.not_lt.2 small)]
    exact ⟨rfl, rfl⟩

theorem reads_string : Reads SshWireReader.string StringCells := by
  apply (reads_uint32.bind reads_bytes).congr
  intro value cells
  constructor
  · rintro ⟨length, _, back, ⟨rfl, small⟩, ⟨rfl, rfl⟩, rfl⟩
    exact ⟨rfl, small⟩
  · rintro ⟨rfl, fits⟩
    exact ⟨value.length, _, value, ⟨rfl, fits⟩, ⟨rfl, rfl⟩, rfl⟩

theorem reads_decoded (result : Option Text) :
    Reads (SshWireReader.decoded result) fun value cells => result = some value ∧ cells = [] := by
  cases result with
  | none =>
    apply (Reads.throw INVALID_ENCODING).congr
    intro value cells
    exact iff_of_false id nofun
  | some value =>
    apply (Reads.pure value).congr
    intro other cells
    rw [Option.some.injEq, eq_comm]

theorem reads_text : Reads SshWireReader.text TextCells := by
  apply (reads_string.bind fun first => reads_decoded (Template.decodeStrictUtf8 first)).congr
  intro value cells
  constructor
  · rintro ⟨raw, front, _, written, ⟨isValue, rfl⟩, rfl⟩
    rw [List.append_nil]
    exact ⟨raw, written, isValue⟩
  · rintro ⟨raw, written, isValue⟩
    exact ⟨raw, cells, [], written, ⟨isValue, rfl⟩, (List.append_nil _).symm⟩

/-! ### The parts of a certificate -/

/-- How many strings the public key of an algorithm is. -/
def publicFieldCount (algorithm : Text) : Option Nat :=
  if algorithm = text "ssh-ed25519" then some 1
  else if algorithm = text "ssh-rsa" ∨ text "ecdsa-sha2-" <+: algorithm then some 2
  else none

theorem reads_publicFields (algorithm : Text) :
    Reads (publicFields algorithm) fun fields cells =>
      publicFieldCount algorithm = some fields.length ∧ cells = wireStrings fields ∧
        ∀ field ∈ fields, FitsWire field := by
  have single : Reads (do
      let key ← SshWireReader.string
      return [key]) fun fields cells => fields.length = 1 ∧ cells = wireStrings fields ∧
        ∀ field ∈ fields, FitsWire field := by
    apply (reads_string.bind fun key => .pure [key]).congr
    intro fields cells
    constructor
    · rintro ⟨key, _, _, ⟨rfl, fits⟩, ⟨rfl, rfl⟩, rfl⟩
      exact ⟨rfl, rfl, List.forall_mem_singleton.2 fits⟩
    · rintro ⟨length, rfl, fits⟩
      obtain ⟨key, rfl⟩ := List.length_eq_one_iff.1 length
      exact ⟨key, _, [], ⟨rfl, List.forall_mem_singleton.1 fits⟩, ⟨rfl, rfl⟩, rfl⟩
  have double : Reads (do
      let first ← SshWireReader.string
      let second ← SshWireReader.string
      return [first, second]) fun fields cells =>
        fields.length = 2 ∧ cells = wireStrings fields ∧ ∀ field ∈ fields, FitsWire field := by
    apply (reads_string.bind fun first => reads_string.bind fun second =>
      .pure [first, second]).congr
    intro fields cells
    constructor
    · rintro ⟨first, _, _, ⟨rfl, fits⟩, ⟨second, _, _, ⟨rfl, otherFits⟩, ⟨rfl, rfl⟩, rfl⟩, rfl⟩
      exact ⟨rfl, rfl, List.forall_mem_cons.2 ⟨fits, List.forall_mem_singleton.2 otherFits⟩⟩
    · rintro ⟨length, rfl, fits⟩
      obtain ⟨first, second, rfl⟩ := List.length_eq_two.1 length
      rw [List.forall_mem_cons, List.forall_mem_singleton] at fits
      exact ⟨first, _, _, ⟨rfl, fits.1⟩, ⟨second, _, [], ⟨rfl, fits.2⟩, ⟨rfl, rfl⟩, rfl⟩, rfl⟩
  apply (Reads.ite single (.ite double
    (.throw (text "Unsupported host certificate key algorithm")))).congr
  intro fields cells
  rw [publicFieldCount]
  split
  · rw [Option.some.injEq, eq_comm]
  · split
    · rw [Option.some.injEq, eq_comm]
    · exact iff_of_false id nofun

theorem reads_assertHostType (type : Nat) :
    Reads (assertHostType type) fun _ cells => type = HOST_CERTIFICATE ∧ cells = [] := by
  apply (Reads.ite (.throw (text "A host certificate is required")) (.pure ())).congr
  intro value cells
  split
  · next isOther => exact iff_of_false id fun both => isOther both.1
  · next isHost => exact and_congr_left' (iff_of_true rfl (not_not.1 isHost))

theorem reads_assertEmpty (value : Buffer) (message : Text) :
    Reads (assertEmpty value message) fun _ cells => value = [] ∧ cells = [] := by
  apply (Reads.ite (.throw message) (.pure ())).congr
  intro nothing cells
  split
  · next nonempty => exact iff_of_false id fun both => nonempty both.1
  · next empty => exact and_congr_left' (iff_of_true rfl (not_not.1 empty))

/-- The line of the certified key. -/
def publicKeyLine (algorithm : Text) (fields : List Buffer) : Text :=
  algorithm ++ ' ' :: encodeBase64 (wireStrings (utf8Bytes algorithm :: fields))

def rawAlgorithm (algorithm : Text) : Text := removeFirst CERTIFICATE_SUFFIX algorithm

theorem reads_key (algorithm : Text) :
    Reads (readHostCertificateKey algorithm) fun publicKey cells => ∃ key : CertifiedKey,
      key.Fits ∧ cells = key.cells ∧ (Template.decodeStrictUtf8 key.name).isSome ∧
        publicFieldCount (rawAlgorithm algorithm) = some key.fields.length ∧
        publicKey = publicKeyLine (rawAlgorithm algorithm) key.fields := by
  apply (reads_text.bind fun _ => reads_string.bind fun _ =>
    (reads_publicFields (rawAlgorithm algorithm)).bind fun fields =>
      (reads_bytes SSH_SERIAL_BYTES).bind fun _ => reads_uint32.bind fun type =>
        (reads_assertHostType type).bind fun _ => reads_string.bind fun _ =>
          .pure (publicKeyLine (rawAlgorithm algorithm) fields)).congr
  intro publicKey cells
  constructor
  · rintro ⟨name, _, _, ⟨raw, ⟨rfl, nameFits⟩, isName⟩,
      ⟨nonce, _, _, ⟨rfl, nonceFits⟩,
        ⟨fields, _, _, ⟨count, rfl, fieldsFit⟩,
          ⟨serial, _, _, ⟨rfl, size⟩,
            ⟨_, _, _, ⟨rfl, _⟩,
              ⟨_, _, _, ⟨rfl, rfl⟩,
                ⟨keyId, _, _, ⟨rfl, keyIdFits⟩, ⟨rfl, rfl⟩, rfl⟩, rfl⟩, rfl⟩, rfl⟩, rfl⟩, rfl⟩,
      rfl⟩
    have isSerial := beBytes_beValue serial
    have bound := beValue_lt serial
    rw [size] at isSerial bound
    refine ⟨⟨raw, nonce, fields, beValue serial, keyId⟩,
      ⟨nameFits, nonceFits, fieldsFit, bound, keyIdFits⟩, ?_, by rw [isName]; rfl, count, rfl⟩
    rw [CertifiedKey.cells, isSerial, List.append_nil, List.nil_append]
  · rintro ⟨key, fits, rfl, readable, count, rfl⟩
    obtain ⟨name, isName⟩ := Option.isSome_iff_exists.1 readable
    exact ⟨name, _, _, ⟨key.name, ⟨rfl, fits.name⟩, isName⟩,
      ⟨key.nonce, _, _, ⟨rfl, fits.nonce⟩,
        ⟨key.fields, _, _, ⟨count, rfl, fits.fields⟩,
          ⟨_, _, _, ⟨rfl, length_beBytes _ _⟩,
            ⟨HOST_CERTIFICATE, _, _, ⟨rfl, by decide⟩,
              ⟨(), [], _, ⟨rfl, rfl⟩,
                ⟨key.keyId, _, [], ⟨rfl, fits.keyId⟩, ⟨rfl, rfl⟩, (List.append_nil _).symm⟩,
                rfl⟩, rfl⟩, rfl⟩, rfl⟩, rfl⟩, rfl⟩

/-! ### The principals and the rest -/

/-- The texts are what the decoder makes of the strings. -/
def DecodedAs (texts : List Text) (raws : List Buffer) : Prop :=
  List.Forall₂ (fun text raw => Template.decodeStrictUtf8 raw = some text) texts raws

theorem forall₂_textCells_iff {texts : List Text} {rows : List Buffer} :
    List.Forall₂ TextCells texts rows ↔ ∃ raws : List Buffer, rows = raws.map wireString ∧
      (∀ raw ∈ raws, FitsWire raw) ∧ DecodedAs texts raws := by
  constructor
  · intro areTexts
    induction areTexts with
    | nil => exact ⟨[], rfl, nofun, .nil⟩
    | cons first _ ih =>
      obtain ⟨raw, ⟨rfl, fits⟩, isText⟩ := first
      obtain ⟨raws, rfl, allFit, decoded⟩ := ih
      exact ⟨raw :: raws, rfl, List.forall_mem_cons.2 ⟨fits, allFit⟩, .cons isText decoded⟩
  · rintro ⟨raws, rfl, allFit, decoded⟩
    induction decoded with
    | nil => exact .nil
    | cons isText _ ih =>
      rw [List.forall_mem_cons] at allFit
      exact .cons ⟨_, ⟨rfl, allFit.1⟩, isText⟩ (ih allFit.2)

theorem reads_principals (data : Buffer) :
    Reads (readPrincipals data) fun texts cells => cells = [] ∧ ∃ raws, data = wireStrings raws ∧
      (∀ raw ∈ raws, FitsWire raw) ∧ DecodedAs texts raws := by
  have nonempty : ∀ value cells, TextCells value cells → cells ≠ [] := by
    rintro value cells ⟨raw, ⟨rfl, _⟩, _⟩
    exact wireString_ne_nil raw
  have whole : ∀ texts, readWhile SshWireReader.text data.length (.start data) = .ok texts ↔
      ∃ raws, data = wireStrings raws ∧ (∀ raw ∈ raws, FitsWire raw) ∧ DecodedAs texts raws := by
    intro texts
    rw [readWhile_iff reads_text nonempty (by rw [Cursor.rest_start]), Cursor.rest_start]
    constructor
    · rintro ⟨rows, areTexts, split⟩
      obtain ⟨raws, rfl, allFit, decoded⟩ := forall₂_textCells_iff.1 areTexts
      exact ⟨raws, split.trans List.flatMap_def.symm, allFit, decoded⟩
    · rintro ⟨raws, split, allFit, decoded⟩
      exact ⟨raws.map wireString, forall₂_textCells_iff.2 ⟨raws, rfl, allFit, decoded⟩,
        split.trans List.flatMap_def⟩
  intro before texts after
  constructor
  · intro succeeded
    obtain ⟨own, read, returned⟩ := ok_of_bind succeeded
    cases returned
    exact ⟨[], ⟨rfl, (whole _).1 read⟩, .nil _⟩
  · rintro ⟨_, ⟨rfl, read⟩, consumed⟩
    rw [consumes_nil_iff.1 consumed, readPrincipals, (whole _).2 read]
    rfl

/-- What is checked of the rest, and what it gives. -/
structure BodyRead (body : CertificateBody) (texts : List Text) (result : HostCertificateBody) :
    Prop where
  decoded : DecodedAs texts body.principals
  validAfter : body.validAfter ≤ MAX_SAFE_INTEGER
  validBefore : body.validBefore ≤ MAX_SAFE_INTEGER
  criticalOptions : body.criticalOptions = []
  reserved : body.reserved = []
  result : result = ⟨toSorted texts, body.validAfter, body.validBefore⟩

theorem reads_body : Reads readHostCertificateBody fun result cells =>
    ∃ body : CertificateBody, body.Fits ∧ cells = body.cells ∧
      ∃ texts, BodyRead body texts result := by
  have reads := reads_string.bind fun data => (reads_principals data).bind fun texts =>
    reads_uint64.bind fun validAfter => reads_uint64.bind fun validBefore =>
      reads_string.bind fun criticalOptions =>
        (reads_assertEmpty criticalOptions
          (text "Host certificate critical options are unsupported")).bind fun _ =>
            reads_string.bind fun _ => reads_string.bind fun reserved =>
              (reads_assertEmpty reserved
                (text "Unexpected reserved certificate data")).bind fun _ =>
                Reads.pure (HostCertificateBody.mk (toSorted texts) validAfter validBefore)
  unfold readHostCertificateBody
  apply reads.congr
  intro result cells
  constructor
  · rintro ⟨_, _, _, ⟨rfl, principalsFit⟩,
      ⟨texts, _, _, ⟨rfl, raws, rfl, allFit, decoded⟩,
        ⟨validAfter, _, _, ⟨⟨rfl, afterBound⟩, afterSmall⟩,
          ⟨validBefore, _, _, ⟨⟨rfl, beforeBound⟩, beforeSmall⟩,
            ⟨_, _, _, ⟨rfl, optionsFit⟩,
              ⟨_, _, _, ⟨rfl, rfl⟩,
                ⟨extensions, _, _, ⟨rfl, extensionsFit⟩,
                  ⟨_, _, _, ⟨rfl, reservedFits⟩,
                    ⟨_, _, _, ⟨rfl, rfl⟩, ⟨rfl, rfl⟩, rfl⟩, rfl⟩, rfl⟩, rfl⟩, rfl⟩, rfl⟩, rfl⟩,
        rfl⟩, rfl⟩
    refine ⟨⟨raws, validAfter, validBefore, [], extensions, []⟩,
      ⟨principalsFit, allFit, afterBound, beforeBound, optionsFit, extensionsFit, reservedFits⟩, ?_,
      texts, ⟨decoded, afterSmall, beforeSmall, rfl, rfl, rfl⟩⟩
    simp only [CertificateBody.cells, List.append_nil, List.nil_append]
  · rintro ⟨body, fits, rfl, texts, read⟩
    obtain ⟨raws, validAfter, validBefore, criticalOptions, extensions, reserved⟩ := body
    obtain ⟨decoded, afterSmall, beforeSmall, noOptions, noReserved, isResult⟩ := read
    exact ⟨_, _, _, ⟨rfl, fits.principals⟩,
      ⟨texts, [], _, ⟨rfl, raws, rfl, fits.eachPrincipal, decoded⟩,
        ⟨validAfter, _, _, ⟨⟨rfl, fits.validAfter⟩, afterSmall⟩,
          ⟨validBefore, _, _, ⟨⟨rfl, fits.validBefore⟩, beforeSmall⟩,
            ⟨criticalOptions, _, _, ⟨rfl, fits.criticalOptions⟩,
              ⟨(), [], _, ⟨noOptions, rfl⟩,
                ⟨extensions, _, _, ⟨rfl, fits.extensions⟩,
                  ⟨reserved, _, [], ⟨rfl, fits.reserved⟩,
                    ⟨(), [], [], ⟨noReserved, rfl⟩, ⟨isResult, rfl⟩, rfl⟩,
                    (List.append_nil _).symm⟩, rfl⟩, rfl⟩, rfl⟩, rfl⟩, rfl⟩, rfl⟩, rfl⟩

/-! ### Accepted texts -/

/-- What the parser checks of a certificate; the texts are those of the principals. -/
structure Readable (verify : Buffer → Buffer → Buffer → Bool)
    (algorithm : Text) (certificate : Certificate) (texts : List Text) (caName : Text) : Prop where
  fits : certificate.Fits
  suffix : CERTIFICATE_SUFFIX <:+ algorithm
  name : (Template.decodeStrictUtf8 certificate.name).isSome
  count : publicFieldCount (rawAlgorithm algorithm) = some certificate.fields.length
  decoded : DecodedAs texts certificate.principals
  validAfter : certificate.validAfter ≤ MAX_SAFE_INTEGER
  validBefore : certificate.validBefore ≤ MAX_SAFE_INTEGER
  criticalOptions : certificate.criticalOptions = []
  reserved : certificate.reserved = []
  caName : ∃ after, SshWireReader.text (.start certificate.ca) = .ok (caName, after)
  verified : verify certificate.ca certificate.signature
    certificate.signedPart = true

/-- What is returned for it. -/
def parsedOf (algorithm : Text) (certificate : Certificate) (texts : List Text) (caName : Text) :
    ParsedHostCertificate where
  algorithm := algorithm
  caPublicKey := caName ++ ' ' :: encodeBase64 certificate.ca
  principals := toSorted texts
  publicKey := publicKeyLine (rawAlgorithm algorithm) certificate.fields
  validAfter := certificate.validAfter
  validBefore := certificate.validBefore

/-- The line of the bytes, under the name that its first field is read as. -/
def CertificateLine (value algorithm : Text) (blob : Buffer) : Prop :=
  publicKeyIdentity value = .ok (algorithm ++ ' ' :: encodeBase64 blob) ∧ ' ' ∉ algorithm

section Parsing

variable {verify : Buffer → Buffer → Buffer → Bool}

theorem readCertificateAuthority_ok_iff {reader : Cursor UInt8} {result : Text} :
    readCertificateAuthority verify reader = .ok result ↔
      ∃ ca signature caName, FitsWire ca ∧ FitsWire signature ∧
        reader.rest = wireString ca ++ wireString signature ∧
        verify ca signature (reader.data.take reader.offset ++ wireString ca) = true ∧
        (∃ after, SshWireReader.text (.start ca) = .ok (caName, after)) ∧
        result = caName ++ ' ' :: encodeBase64 ca := by
  constructor
  · intro succeeded
    obtain ⟨⟨ca, middle⟩, readCa, succeeded⟩ := ok_of_bind succeeded
    obtain ⟨⟨signature, last⟩, readSignature, checked⟩ := ok_of_bind succeeded
    dsimp only at checked
    split at checked
    · cases checked
    next atEnd =>
      split at checked
      · cases checked
      next verified =>
        obtain ⟨⟨caName, after⟩, readName, returned⟩ := ok_of_bind checked
        cases returned
        obtain ⟨_, ⟨rfl, caFits⟩, consumed⟩ := (reads_string _ _ _).1 readCa
        obtain ⟨_, ⟨rfl, signatureFits⟩, consumedLast⟩ := (reads_string _ _ _).1 readSignature
        rw [Bool.not_eq_false, Cursor.atEnd_iff] at atEnd
        rw [Bool.not_eq_false, consumed.take_offset_eq] at verified
        refine ⟨ca, signature, caName, caFits, signatureFits, ?_, verified, ⟨after, readName⟩, rfl⟩
        rw [consumed.next, consumedLast.next, atEnd, List.append_nil]
  · rintro ⟨ca, signature, caName, caFits, signatureFits, split, verified, ⟨after, readName⟩, rfl⟩
    obtain ⟨middle, consumed, isRest⟩ := exists_consumes split
    rw [← List.append_nil (wireString signature)] at isRest
    obtain ⟨last, consumedLast, nothing⟩ := exists_consumes isRest
    have readCa := (reads_string _ _ _).2 ⟨_, ⟨rfl, caFits⟩, consumed⟩
    have readSignature := (reads_string _ _ _).2 ⟨_, ⟨rfl, signatureFits⟩, consumedLast⟩
    have atEnd := Cursor.atEnd_iff.2 nothing
    rw [← consumed.take_offset_eq] at verified
    simp only [readCertificateAuthority, readCa, readSignature, readName, bind, Except.bind, atEnd,
      verified, Bool.true_eq_false, if_false]
    rfl

theorem readHostCertificate_ok_iff {algorithm encoded : Text} {parsed : ParsedHostCertificate} :
    readHostCertificate verify algorithm encoded = .ok parsed ↔
      ∃ certificate texts caName, decodeBase64 encoded = certificate.encoding ∧
        Readable verify algorithm certificate texts caName ∧
        parsed = parsedOf algorithm certificate texts caName := by
  rw [readHostCertificate]
  constructor
  · intro succeeded
    split at succeeded
    · cases succeeded
    next suffix =>
      obtain ⟨⟨publicKey, keyEnd⟩, readKey, succeeded⟩ := ok_of_bind succeeded
      obtain ⟨⟨body, bodyEnd⟩, readBody, succeeded⟩ := ok_of_bind succeeded
      obtain ⟨caPublicKey, readAuthority, returned⟩ := ok_of_bind succeeded
      cases returned
      obtain ⟨_, ⟨key, keyFits, rfl, name, count, rfl⟩, keyConsumed⟩ :=
        (reads_key algorithm _ _ _).1 readKey
      obtain ⟨_, ⟨body, bodyFits, rfl, texts, bodyRead⟩, bodyConsumed⟩ :=
        (reads_body _ _ _).1 readBody
      obtain ⟨ca, signature, caName, caFits, signatureFits, split, verified, readName, rfl⟩ :=
        readCertificateAuthority_ok_iff.1 readAuthority
      obtain ⟨decoded, afterSmall, beforeSmall, noOptions, noReserved, rfl⟩ := bodyRead
      refine ⟨⟨key, body, ca, signature⟩, texts, caName, ?_,
        ⟨⟨keyFits, bodyFits, caFits, signatureFits⟩, not_not.1 suffix, name, count, decoded,
          afterSmall, beforeSmall, noOptions, noReserved, readName, ?_⟩, rfl⟩
      · have whole := keyConsumed.next
        rw [Cursor.rest_start, bodyConsumed.next, split] at whole
        rw [whole, Certificate.encoding, Certificate.signedPart]
        simp only [List.append_assoc]
      · have isSigned := bodyConsumed.take_offset_eq
        rw [keyConsumed.take_offset_eq] at isSigned
        rw [isSigned] at verified
        rw [Certificate.signedPart, ← List.append_assoc]
        exact verified
  · rintro ⟨certificate, texts, caName, whole, readable, rfl⟩
    have next : (Cursor.start (decodeBase64 encoded)).rest =
        certificate.toCertifiedKey.cells ++ (certificate.toCertificateBody.cells ++
          (wireString certificate.ca ++ wireString certificate.signature)) := by
      rw [Cursor.rest_start, whole, Certificate.encoding, Certificate.signedPart]
      simp only [List.append_assoc]
    obtain ⟨keyEnd, keyConsumed, keyRest⟩ := exists_consumes next
    obtain ⟨bodyEnd, bodyConsumed, bodyRest⟩ := exists_consumes keyRest
    have readKey := (reads_key algorithm _ _ _).2
      ⟨_, ⟨certificate.toCertifiedKey, readable.fits.key, rfl, readable.name, readable.count, rfl⟩,
        keyConsumed⟩
    have readBody := (reads_body _ _ _).2
      ⟨_, ⟨certificate.toCertificateBody, readable.fits.body, rfl, texts, readable.decoded,
        readable.validAfter, readable.validBefore, readable.criticalOptions, readable.reserved,
        rfl⟩, bodyConsumed⟩
    have isSigned : bodyEnd.data.take bodyEnd.offset ++ wireString certificate.ca =
        certificate.signedPart := by
      rw [bodyConsumed.take_offset_eq, keyConsumed.take_offset_eq, Certificate.signedPart,
        ← List.append_assoc]
      rfl
    have verified := readable.verified
    rw [← isSigned] at verified
    have readAuthority := readCertificateAuthority_ok_iff.2
      ⟨certificate.ca, certificate.signature, caName, readable.fits.ca, readable.fits.signature,
        bodyRest, verified, readable.caName, rfl⟩
    rw [if_neg (not_not.2 readable.suffix)]
    simp only [readKey, readBody, readAuthority, bind, Except.bind]
    rfl

end Parsing

theorem publicKeyIdentity_ok {value identity : Text}
    (succeeded : publicKeyIdentity value = .ok identity) :
    ∃ algorithm encoded rest after, splitSpaces (trim value) = algorithm :: encoded :: rest ∧
      identity = algorithm ++ ' ' :: encodeBase64 (decodeBase64 encoded) ∧ ' ' ∉ algorithm ∧
      SshWireReader.text (.start (decodeBase64 encoded)) = .ok (algorithm, after) := by
  rw [publicKeyIdentity] at succeeded
  split at succeeded
  · cases succeeded
  split at succeeded
  · cases succeeded
  split at succeeded
  · next algorithm encoded rest words =>
    split at succeeded
    · cases succeeded
    dsimp only at succeeded
    split at succeeded
    · cases succeeded
    obtain ⟨⟨name, after⟩, readName, checked⟩ := ok_of_bind succeeded
    dsimp only at checked
    split at checked
    · cases checked
    next same =>
      cases checked
      obtain rfl := not_not.1 same
      have inWords : name ∈ splitSpaces (trim value) := by
        rw [words]
        exact List.mem_cons_self
      refine ⟨name, encoded, rest, after, words, rfl, ?_, readName⟩
      intro blank
      exact absurd (noSpace_of_mem_splitSpaces inWords ' ' blank) (by decide)
  · cases succeeded

theorem blank_notMem_encodeBase64 (bytes : Buffer) : ' ' ∉ encodeBase64 bytes := by
  have noBlank : ' ' ∉ base64Alphabet := by decide +kernel
  intro mem
  rcases mem_encodeBase64 mem with isLetter | isPad
  · exact noBlank isLetter
  · exact absurd isPad (by decide)

theorem splitOn_line {algorithm : Text} (oneWord : ' ' ∉ algorithm) (blob : Buffer) :
    (algorithm ++ ' ' :: encodeBase64 blob).splitOn ' ' = [algorithm, encodeBase64 blob] := by
  rw [List.splitOn_append_cons_self, List.splitOn_eq_singleton oneWord,
    List.splitOn_eq_singleton (blank_notMem_encodeBase64 blob)]
  rfl

theorem parseHostCertificate_ok_iff {verify : Buffer → Buffer → Buffer → Bool} {value : Text}
    {parsed : ParsedHostCertificate} : parseHostCertificate verify value = .ok parsed ↔
      ∃ algorithm certificate texts caName, CertificateLine value algorithm certificate.encoding ∧
        Readable verify algorithm certificate texts caName ∧
        parsed = parsedOf algorithm certificate texts caName := by
  rw [parseHostCertificate, Keys.mapError_ok_iff]
  constructor
  · intro succeeded
    obtain ⟨identity, isIdentity, succeeded⟩ := ok_of_bind succeeded
    obtain ⟨algorithm, encoded, _, _, _, rfl, oneWord, _⟩ := publicKeyIdentity_ok isIdentity
    rw [splitOn_line oneWord] at succeeded
    obtain ⟨certificate, texts, caName, whole, readable, isParsed⟩ :=
      readHostCertificate_ok_iff.1 succeeded
    rw [decodeBase64_encodeBase64] at whole
    rw [whole] at isIdentity
    exact ⟨algorithm, certificate, texts, caName, ⟨isIdentity, oneWord⟩, readable, isParsed⟩
  · rintro ⟨algorithm, certificate, texts, caName, ⟨isIdentity, oneWord⟩, readable, isParsed⟩
    rw [isIdentity]
    dsimp only [bind, Except.bind]
    rw [splitOn_line oneWord]
    apply readHostCertificate_ok_iff.2
    exact ⟨certificate, texts, caName, decodeBase64_encodeBase64 _, readable, isParsed⟩

/-! ### Encodings are read in one way -/

theorem numberCells_append_inj {width value other : Nat} {rest otherRest : Buffer}
    (small : value < 256 ^ width) (otherSmall : other < 256 ^ width)
    (same : beBytes width value ++ rest = beBytes width other ++ otherRest) :
    value = other ∧ rest = otherRest := by
  have lengths : (beBytes width value).length = (beBytes width other).length := by
    rw [length_beBytes, length_beBytes]
  obtain ⟨sameBytes, sameRest⟩ := List.append_inj same lengths
  refine ⟨?_, sameRest⟩
  rw [← beValue_beBytes small, sameBytes, beValue_beBytes otherSmall]

theorem wireStrings_append_inj {values others : List Buffer} {rest otherRest : Buffer}
    (fits : ∀ value ∈ values, FitsWire value) (otherFits : ∀ value ∈ others, FitsWire value)
    (count : values.length = others.length)
    (same : wireStrings values ++ rest = wireStrings others ++ otherRest) :
    values = others ∧ rest = otherRest := by
  induction values generalizing others with
  | nil =>
    obtain rfl := List.length_eq_zero_iff.1 count.symm
    exact ⟨rfl, same⟩
  | cons value values ih =>
    cases others with
    | nil => cases count
    | cons other others =>
      rw [wireStrings_cons, wireStrings_cons, List.append_assoc, List.append_assoc] at same
      rw [List.forall_mem_cons] at fits otherFits
      obtain ⟨rfl, tails⟩ := wireString_append_inj fits.1 otherFits.1 same
      obtain ⟨rfl, rests⟩ := ih fits.2 otherFits.2 (Nat.succ.inj count) tails
      exact ⟨rfl, rests⟩

theorem key_append_inj {key other : CertifiedKey} {rest otherRest : Buffer} (fits : key.Fits)
    (otherFits : other.Fits) (count : key.fields.length = other.fields.length)
    (same : key.cells ++ rest = other.cells ++ otherRest) : key = other ∧ rest = otherRest := by
  obtain ⟨name, nonce, fields, serial, keyId⟩ := key
  obtain ⟨otherName, otherNonce, otherFields, otherSerial, otherKeyId⟩ := other
  simp only [CertifiedKey.cells, List.append_assoc] at same
  obtain ⟨rfl, nonces⟩ := wireString_append_inj fits.name otherFits.name same
  obtain ⟨rfl, ownFields⟩ := wireString_append_inj fits.nonce otherFits.nonce nonces
  obtain ⟨rfl, serials⟩ := wireStrings_append_inj fits.fields otherFits.fields count ownFields
  obtain ⟨rfl, types⟩ := numberCells_append_inj fits.serial otherFits.serial serials
  have keyIds := List.append_cancel_left types
  obtain ⟨rfl, rests⟩ := wireString_append_inj fits.keyId otherFits.keyId keyIds
  exact ⟨rfl, rests⟩

theorem body_append_inj {body other : CertificateBody} {rest otherRest : Buffer} (fits : body.Fits)
    (otherFits : other.Fits) (same : body.cells ++ rest = other.cells ++ otherRest) :
    body = other ∧ rest = otherRest := by
  obtain ⟨principals, validAfter, validBefore, criticalOptions, extensions, reserved⟩ := body
  obtain ⟨others, otherAfter, otherBefore, otherOptions, otherExtensions, otherReserved⟩ := other
  simp only [CertificateBody.cells, List.append_assoc] at same
  obtain ⟨rows, starts⟩ := wireString_append_inj fits.principals otherFits.principals same
  obtain rfl := wireStrings_injective fits.eachPrincipal otherFits.eachPrincipal rows
  obtain ⟨rfl, ends⟩ := numberCells_append_inj fits.validAfter otherFits.validAfter starts
  obtain ⟨rfl, options⟩ := numberCells_append_inj fits.validBefore otherFits.validBefore ends
  obtain ⟨rfl, allExtensions⟩ :=
    wireString_append_inj fits.criticalOptions otherFits.criticalOptions options
  obtain ⟨rfl, lasts⟩ := wireString_append_inj fits.extensions otherFits.extensions allExtensions
  obtain ⟨rfl, rests⟩ := wireString_append_inj fits.reserved otherFits.reserved lasts
  exact ⟨rfl, rests⟩

theorem encoding_injective {certificate other : Certificate} (fits : certificate.Fits)
    (otherFits : other.Fits) (count : certificate.fields.length = other.fields.length)
    (same : certificate.encoding = other.encoding) : certificate = other := by
  obtain ⟨key, body, ca, signature⟩ := certificate
  obtain ⟨otherKey, otherBody, otherCa, otherSignature⟩ := other
  simp only [Certificate.encoding, Certificate.signedPart, List.append_assoc] at same
  obtain ⟨rfl, bodies⟩ := key_append_inj fits.key otherFits.key count same
  obtain ⟨rfl, authorities⟩ := body_append_inj fits.body otherFits.body bodies
  obtain ⟨rfl, signatures⟩ := wireString_append_inj fits.ca otherFits.ca authorities
  rw [← List.append_nil (wireString signature), ← List.append_nil (wireString otherSignature)]
    at signatures
  obtain ⟨rfl, _⟩ := wireString_append_inj fits.signature otherFits.signature signatures
  rfl

/-- The name alone is the first string. -/
theorem name_eq_of_encoding {certificate other : Certificate} (fits : certificate.Fits)
    (otherFits : other.Fits) (same : certificate.encoding = other.encoding) :
    certificate.name = other.name := by
  simp only [Certificate.encoding, Certificate.signedPart, CertifiedKey.cells, List.append_assoc]
    at same
  exact (wireString_append_inj fits.key.name otherFits.key.name same).1

/-! ### What the bytes say -/

/-- A host certificate of OpenSSH for a plain algorithm. -/
structure IsHostCertificate (raw : Text) (certificate : Certificate) : Prop where
  known : raw ∈ PINNED_HOST_KEY_ALGORITHMS
  fits : certificate.Fits
  named : certificate.name = utf8Bytes (raw ++ CERTIFICATE_SUFFIX)
  count : publicFieldCount raw = some certificate.fields.length

/-- The bytes of the second word. -/
def blobOf (value : Text) : Buffer := decodeBase64 ((splitSpaces (trim value)).getD 1 [])

/-- The blob is the one certificate, and what was parsed is what it says. -/
structure SaysBytes (verify : Buffer → Buffer → Buffer → Bool) (blob : Buffer)
    (parsed : ParsedHostCertificate) (raw : Text) (certificate : Certificate) : Prop where
  isCertificate : IsHostCertificate raw certificate
  encoding : blob = certificate.encoding
  unique : ∀ otherRaw other, IsHostCertificate otherRaw other → blob = other.encoding →
    other = certificate
  principals : (parsed.principals.map utf8Bytes).Perm certificate.principals
  publicKey : parsed.publicKey = publicKeyLine raw certificate.fields
  validAfter : parsed.validAfter = certificate.validAfter
  validBefore : parsed.validBefore = certificate.validBefore
  verified : verify certificate.ca certificate.signature
    certificate.signedPart = true

def Faithful (verify : Buffer → Buffer → Buffer → Bool) (blob : Buffer)
    (parsed : ParsedHostCertificate) : Prop :=
  ∃ raw certificate, SaysBytes verify blob parsed raw certificate

/-- A readable certificate is one of a known algorithm, and neither its name nor a principal
starts with a byte order mark. -/
def Unmarked (verify : Buffer → Buffer → Buffer → Bool) (value : Text) : Prop :=
  ∀ algorithm certificate texts caName, CertificateLine value algorithm certificate.encoding →
    Readable verify algorithm certificate texts caName →
      algorithm ∈ PINNED_HOST_KEY_ALGORITHMS.map (· ++ CERTIFICATE_SUFFIX) ∧
        ¬Template.BYTE_ORDER_MARK_BYTES <+: certificate.name ∧
        ∀ principal ∈ certificate.principals, ¬Template.BYTE_ORDER_MARK_BYTES <+: principal

/-! ### Byte order marks -/

/-- The decoder drops a mark, and nothing else. -/
theorem decodeStrictUtf8_cases {raw : Buffer} {value : Text}
    (decoded : Template.decodeStrictUtf8 raw = some value) :
    raw = utf8Bytes value ∧ ¬Template.BYTE_ORDER_MARK_BYTES <+: raw ∨
      raw = Template.BYTE_ORDER_MARK_BYTES ++ utf8Bytes value := by
  obtain ⟨whole, rfl, rfl⟩ := Template.decodeStrictUtf8_eq_some_iff.1 decoded
  rw [Template.withoutMark]
  split
  · next isMarked =>
    cases whole with
    | nil => cases isMarked
    | cons char rest =>
      obtain rfl := Option.some.inj isMarked
      have mark : String.utf8EncodeChar Template.BYTE_ORDER_MARK =
          Template.BYTE_ORDER_MARK_BYTES := by decide
      exact .inr (by rw [utf8Bytes_cons, mark, List.tail_cons])
  · next isUnmarked =>
    rw [← Template.mark_prefix_iff] at isUnmarked
    exact .inl ⟨rfl, isUnmarked⟩

theorem unmarked_eq {raw : Buffer} {value : Text}
    (decoded : Template.decodeStrictUtf8 raw = some value)
    (unmarked : ¬Template.BYTE_ORDER_MARK_BYTES <+: raw) : raw = utf8Bytes value := by
  rcases decodeStrictUtf8_cases decoded with ⟨same, _⟩ | marked
  · exact same
  · exact absurd ⟨_, marked.symm⟩ unmarked

theorem DecodedAs.bytes {texts : List Text} {raws : List Buffer} (decoded : DecodedAs texts raws)
    (unmarked : ∀ raw ∈ raws, ¬Template.BYTE_ORDER_MARK_BYTES <+: raw) :
    texts.map utf8Bytes = raws := by
  induction decoded with
  | nil => rfl
  | cons isText _ ih =>
    rw [List.forall_mem_cons] at unmarked
    rw [List.map_cons, ih unmarked.2, ← unmarked_eq isText unmarked.1]

/-- The texts are as long as the strings exactly if no mark was dropped. -/
theorem DecodedAs.length {texts : List Text} {raws : List Buffer} (decoded : DecodedAs texts raws) :
    (texts.map utf8Bytes).flatten.length ≤ raws.flatten.length ∧
      ((texts.map utf8Bytes).flatten.length = raws.flatten.length →
        ∀ raw ∈ raws, ¬Template.BYTE_ORDER_MARK_BYTES <+: raw) := by
  induction decoded with
  | nil => exact ⟨Nat.le_refl _, fun _ => nofun⟩
  | cons isText _ ih =>
    obtain ⟨shorter, unmarked⟩ := ih
    rw [List.map_cons, List.flatten_cons, List.flatten_cons, List.length_append,
      List.length_append, List.forall_mem_cons]
    rcases decodeStrictUtf8_cases isText with ⟨same, plain⟩ | marked
    · rw [← same]
      exact ⟨by omega, fun sameLength => ⟨plain, unmarked (by omega)⟩⟩
    · have longer := congrArg List.length marked
      rw [List.length_append] at longer
      have mark : Template.BYTE_ORDER_MARK_BYTES.length = 3 := rfl
      exact ⟨by omega, fun sameLength => by omega⟩

/-! ### Faithful texts -/

theorem toSorted_perm (texts : List Text) : (toSorted texts).Perm texts := List.mergeSort_perm _ _

/-- The names of certificates are read back. -/
theorem known_name {raw : Text} (known : raw ∈ PINNED_HOST_KEY_ALGORITHMS) :
    rawAlgorithm (raw ++ CERTIFICATE_SUFFIX) = raw ∧
      (raw ++ CERTIFICATE_SUFFIX).head? ≠ some Template.BYTE_ORDER_MARK := by
  have all : ∀ raw ∈ PINNED_HOST_KEY_ALGORITHMS, rawAlgorithm (raw ++ CERTIFICATE_SUFFIX) = raw ∧
      (raw ++ CERTIFICATE_SUFFIX).head? ≠ some Template.BYTE_ORDER_MARK :=
    forall_mem_of_all (by decide +kernel)
  exact all raw known

theorem CertificateLine.blob {value algorithm : Text} {blob : Buffer}
    (line : CertificateLine value algorithm blob) :
    blobOf value = blob ∧ ∃ after, SshWireReader.text (.start blob) = .ok (algorithm, after) := by
  obtain ⟨isIdentity, oneWord⟩ := line
  obtain ⟨other, encoded, rest, after, words, sameIdentity, otherWord, readName⟩ :=
    publicKeyIdentity_ok isIdentity
  have same := congrArg (List.splitOn ' ') sameIdentity
  rw [splitOn_line oneWord, splitOn_line otherWord, List.cons.injEq, List.cons.injEq] at same
  obtain ⟨rfl, sameText, _⟩ := same
  have sameBlob : blob = decodeBase64 encoded := by
    rw [← decodeBase64_encodeBase64 blob, sameText, decodeBase64_encodeBase64]
  rw [sameBlob, blobOf, words]
  exact ⟨rfl, after, readName⟩

/-- The name that is read is the one before the blob. -/
theorem CertificateLine.name {value algorithm : Text} {certificate : Certificate}
    (line : CertificateLine value algorithm certificate.encoding) (fits : certificate.Fits) :
    Template.decodeStrictUtf8 certificate.name = some algorithm := by
  obtain ⟨_, after, readName⟩ := line.blob
  obtain ⟨_, ⟨raw, ⟨rfl, rawFits⟩, isName⟩, consumed⟩ := (reads_text _ _ _).1 readName
  have next := consumed.next
  rw [Cursor.rest_start] at next
  simp only [Certificate.encoding, Certificate.signedPart, CertifiedKey.cells, List.append_assoc]
    at next
  rw [(wireString_append_inj fits.key.name rawFits next).1]
  exact isName

theorem IsHostCertificate.unique {raw otherRaw : Text} {certificate other : Certificate}
    (own : IsHostCertificate raw certificate) (another : IsHostCertificate otherRaw other)
    (same : certificate.encoding = other.encoding) : other = certificate := by
  have names := name_eq_of_encoding own.fits another.fits same
  rw [own.named, another.named] at names
  have sameRaw := List.append_cancel_right (utf8Bytes_injective names)
  have count := own.count
  rw [sameRaw, another.count, Option.some.injEq] at count
  exact (encoding_injective own.fits another.fits count.symm same).symm

section Exactly

variable {verify : Buffer → Buffer → Buffer → Bool} {value : Text}

/-- What is returned for a readable certificate without marks is what its bytes say. -/
theorem saysBytes_of_unmarked {algorithm caName : Text} {certificate : Certificate}
    {texts : List Text} (unmarked : Unmarked verify value)
    (line : CertificateLine value algorithm certificate.encoding)
    (readable : Readable verify algorithm certificate texts caName) :
    SaysBytes verify (blobOf value)
      (parsedOf algorithm certificate texts caName) (rawAlgorithm algorithm) certificate := by
  obtain ⟨inList, plainName, plainPrincipals⟩ := unmarked _ _ _ _ line readable
  obtain ⟨raw, known, rfl⟩ := List.mem_map.1 inList
  have isRaw := (known_name known).1
  have isCertificate : IsHostCertificate raw certificate :=
    ⟨known, readable.fits, unmarked_eq (line.name readable.fits) plainName,
      by rw [← readable.count, isRaw]⟩
  rw [isRaw]
  refine ⟨isCertificate, line.blob.1, ?_, ?_, by rw [parsedOf, isRaw], rfl, rfl, readable.verified⟩
  · intro otherRaw other isOther same
    rw [line.blob.1] at same
    exact isCertificate.unique isOther same
  · rw [← readable.decoded.bytes plainPrincipals]
    exact (toSorted_perm texts).map utf8Bytes

/-- A faithful result shows that no mark was dropped. -/
theorem unmarked_of_faithful {algorithm caName : Text} {certificate : Certificate}
    {texts : List Text} (line : CertificateLine value algorithm certificate.encoding)
    (readable : Readable verify algorithm certificate texts caName)
    (faithful : Faithful verify (blobOf value) (parsedOf algorithm certificate texts caName)) :
    algorithm ∈ PINNED_HOST_KEY_ALGORITHMS.map (· ++ CERTIFICATE_SUFFIX) ∧
      ¬Template.BYTE_ORDER_MARK_BYTES <+: certificate.name ∧
      ∀ principal ∈ certificate.principals, ¬Template.BYTE_ORDER_MARK_BYTES <+: principal := by
  obtain ⟨raw, other, shown⟩ := faithful
  have known := shown.isCertificate.known
  have same : certificate.encoding = other.encoding := line.blob.1.symm.trans shown.encoding
  have named := name_eq_of_encoding readable.fits shown.isCertificate.fits same
  rw [shown.isCertificate.named] at named
  have plainName : ¬Template.BYTE_ORDER_MARK_BYTES <+: certificate.name := by
    rw [named, Template.mark_prefix_iff]
    exact (known_name known).2
  have isAlgorithm : algorithm = raw ++ CERTIFICATE_SUFFIX := by
    apply utf8Bytes_injective
    rw [← named, unmarked_eq (line.name readable.fits) plainName]
  have count := readable.count
  rw [isAlgorithm, (known_name known).1, shown.isCertificate.count, Option.some.injEq] at count
  obtain rfl := encoding_injective readable.fits shown.isCertificate.fits count.symm same
  have sameLength := ((toSorted_perm texts).map utf8Bytes).flatten.length_eq.symm.trans
    shown.principals.flatten.length_eq
  exact ⟨List.mem_map.2 ⟨raw, known, isAlgorithm.symm⟩, plainName,
    readable.decoded.length.2 sameLength⟩

end Exactly

/-- For every text: what is returned is what the bytes say exactly if the certificate has a known
algorithm and no byte order mark; such certificates with the same principals have the same
strings. -/
theorem hostCertificate_faithful_iff
    (verify : Buffer → Buffer → Buffer → Bool) :
    (∀ value, (∀ parsed, parseHostCertificate verify value = .ok parsed →
      Faithful verify (blobOf value) parsed) ↔
        Unmarked verify value) ∧
    ∀ value other parsed otherParsed, Unmarked verify value →
      Unmarked verify other →
      parseHostCertificate verify value = .ok parsed →
      parseHostCertificate verify other = .ok otherParsed →
      parsed.principals = otherParsed.principals →
        ∀ raw otherRaw certificate otherCertificate, IsHostCertificate raw certificate →
          IsHostCertificate otherRaw otherCertificate → blobOf value = certificate.encoding →
          blobOf other = otherCertificate.encoding →
            certificate.principals.Perm otherCertificate.principals := by
  constructor
  · intro value
    constructor
    · intro faithful algorithm certificate texts caName line readable
      have accepted := parseHostCertificate_ok_iff.2 ⟨_, _, _, _, line, readable, rfl⟩
      exact unmarked_of_faithful line readable (faithful _ accepted)
    · intro unmarked parsed accepted
      obtain ⟨algorithm, certificate, texts, caName, line, readable, rfl⟩ :=
        parseHostCertificate_ok_iff.1 accepted
      exact ⟨_, _, saysBytes_of_unmarked unmarked line readable⟩
  · intro value other parsed otherParsed unmarked otherUnmarked accepted otherAccepted same raw
      otherRaw certificate otherCertificate isCertificate isOther encoding otherEncoding
    obtain ⟨_, _, _, _, line, readable, rfl⟩ := parseHostCertificate_ok_iff.1 accepted
    obtain ⟨_, _, _, _, otherLine, otherReadable, rfl⟩ :=
      parseHostCertificate_ok_iff.1 otherAccepted
    have shown := saysBytes_of_unmarked unmarked line readable
    have otherShown := saysBytes_of_unmarked otherUnmarked otherLine otherReadable
    rw [shown.unique raw certificate isCertificate encoding,
      otherShown.unique otherRaw otherCertificate isOther otherEncoding]
    have principals := shown.principals
    rw [same] at principals
    exact principals.symm.trans otherShown.principals

/-! ### A dropped mark -/

def sampleCertificate (principal : Buffer) : Certificate where
  name := utf8Bytes (text "ssh-ed25519" ++ CERTIFICATE_SUFFIX)
  nonce := [1]
  fields := [List.replicate 32 7]
  serial := 1
  keyId := []
  principals := [principal]
  validAfter := 0
  validBefore := 3600
  criticalOptions := []
  extensions := []
  reserved := []
  ca := wireStrings [utf8Bytes (text "ssh-ed25519"), List.replicate 32 9]
  signature := [1]

def certificateText (certificate : Certificate) : Text :=
  text "ssh-ed25519" ++ CERTIFICATE_SUFFIX ++ ' ' :: encodeBase64 certificate.encoding

theorem sample_isHostCertificate {principal : Buffer} (short : principal.length < 100) :
    IsHostCertificate (text "ssh-ed25519") (sampleCertificate principal) := by
  have small : ∀ value : Buffer, value.length < 100 → FitsWire value := fun value short =>
    Nat.lt_trans short (by decide)
  have row : FitsWire (wireStrings [principal]) := by
    rw [FitsWire, wireStrings_cons, List.length_append, length_wireString]
    exact Nat.lt_of_lt_of_le (Nat.add_lt_add_right (Nat.add_lt_add_left short _) _) (by decide)
  have keyFits : (sampleCertificate principal).toCertifiedKey.Fits := by
    have field : FitsWire (List.replicate 32 7) := small _ (by decide)
    refine ⟨small _ ?_, small _ ?_, List.forall_mem_singleton.2 field, ?_, small _ ?_⟩
    all_goals
      simp only [sampleCertificate]
      decide
  have bodyFits : (sampleCertificate principal).toCertificateBody.Fits := by
    refine ⟨row, List.forall_mem_singleton.2 (small _ short), ?_, ?_, small _ ?_, small _ ?_,
      small _ ?_⟩
    all_goals
      simp only [sampleCertificate]
      decide
  exact ⟨by decide, ⟨keyFits, bodyFits, small (sampleCertificate []).ca (by decide),
    small (sampleCertificate []).signature (by decide)⟩, rfl, rfl⟩

def plainPrincipal : Buffer := utf8Bytes (text "example.com")

def markedPrincipal : Buffer := Template.BYTE_ORDER_MARK_BYTES ++ plainPrincipal

/-- Two certificates with different principals give the same ones. -/
theorem marked_principal_reads_plain :
    (parseHostCertificate (fun _ _ _ => true)
        (certificateText (sampleCertificate plainPrincipal))).map (·.principals) =
      .ok [text "example.com"] ∧
    (parseHostCertificate (fun _ _ _ => true)
        (certificateText (sampleCertificate markedPrincipal))).map (·.principals) =
      .ok [text "example.com"] ∧
    blobOf (certificateText (sampleCertificate plainPrincipal)) =
      (sampleCertificate plainPrincipal).encoding ∧
    blobOf (certificateText (sampleCertificate markedPrincipal)) =
      (sampleCertificate markedPrincipal).encoding ∧
    IsHostCertificate (text "ssh-ed25519") (sampleCertificate plainPrincipal) ∧
    IsHostCertificate (text "ssh-ed25519") (sampleCertificate markedPrincipal) ∧
    ¬(sampleCertificate plainPrincipal).principals.Perm
      (sampleCertificate markedPrincipal).principals :=
  ⟨by decide +kernel, by decide +kernel, by decide +kernel, by decide +kernel,
    sample_isHostCertificate (by decide), sample_isHostCertificate (by decide), by decide⟩

end Paratix.HostCertificate
