/-
Module: Paratix.Keys.VerifierSound
Purpose: The host verifier of a connection, and what has been checked whenever it accepts a key.
Main exports: HostVerifier.verify, host_verifier_sound
-/
import Paratix.Keys.KnownHostsLines

namespace Paratix.Keys

open Foundation Archive

/-! ### What a handshake presents -/

inductive HostKeyKind where
  | key
  | certificate
deriving DecidableEq, Repr

inductive CertificateType where
  | host
  | user
deriving DecidableEq, Repr

/-- The verdict and the metadata of the native transport. -/
structure HostKeyInfo where
  kind : HostKeyKind
  algorithm : Text
  keyAlgorithm : Text
  keyBase64 : Text
  fingerprintSha256 : Text
  caKeyBase64 : Option Text
  caAlgorithm : Option Text
  caFingerprintSha256 : Option Text
  certType : Option CertificateType
  principals : Option (List Text)
  caSignatureValid : Option Bool
  /-- `certificateValidation?.valid` -/
  certificateValid : Option Bool
deriving DecidableEq

structure EvidenceCommon where
  explicitPins : Bool
  host : Text
  port : Nat
  publicKey : Text
  revocations : List Text
deriving DecidableEq

/-- Trust established by one successful authenticated handshake. -/
inductive HostVerificationEvidence where
  | key (common : EvidenceCommon)
  | certificate (common : EvidenceCommon) (authorityPublicKey : Text)
deriving DecidableEq

structure HostVerifierOptions where
  expectedHostFingerprint : Option Text
  expectedHostPublicKey : Option Text
deriving DecidableEq

def noPins : HostVerifierOptions :=
  { expectedHostFingerprint := none, expectedHostPublicKey := none }

inductive StrictHostKeyChecking where
  | acceptNew
  | no
  | yes
deriving DecidableEq, Repr

/-! ### Fingerprints and formatted keys -/

def computeFingerprint (platform : Platform) (key : Buffer) : Text :=
  text "SHA256:" ++ (encodeBase64 (platform.sha256 key)).filter (· ≠ '=')

/-- `none` where the wire format is malformed. -/
def formatPresentedPublicKey (key : Buffer) : Option Text :=
  match extractAlgoFromKey key with
  | .ok algo => some (algo ++ ' ' :: encodeBase64 key)
  | .error _ => none

/-- The public keys of the revoking entries, each once. -/
def revokedPublicKeys (entries : List KnownHostEntry) : List Text :=
  ((entries.filter (·.marker = some REVOKED)).filterMap fun entry =>
    formatPresentedPublicKey (normalizeRevokedKey entry.key)).eraseDups

/-! ### Certificates -/

def nativeCertificateValid (info : HostKeyInfo) : Bool :=
  info.kind = .certificate && info.certificateValid = some true &&
    info.caSignatureValid = some true && info.certType = some .host

def certificateMetadataValid (platform : Platform) (info : HostKeyInfo) (key : Buffer)
    (host : Text) : Bool :=
  nativeCertificateValid info &&
    info.algorithm = info.keyAlgorithm ++ CERTIFICATE_SUFFIX &&
    info.keyBase64 = encodeBase64 key &&
    info.fingerprintSha256 = computeFingerprint platform key &&
    info.caAlgorithm.isSome &&
    (match info.caKeyBase64 with
      | none => false
      | some caKeyBase64 =>
          info.caFingerprintSha256 =
            some (computeFingerprint platform (decodeBase64 caKeyBase64))) &&
    (match info.principals with
      | none => false
      | some principals => principals.any (matchesHostPattern · host))

/-! ### Pins -/

def hasPinnedHostTrustAnchor (options : HostVerifierOptions) : Bool :=
  options.expectedHostFingerprint.isSome || options.expectedHostPublicKey.isSome

def normalizePinnedPublicKey (publicKey : Text) : Except Text Text :=
  match splitSpaces (trim publicKey) with
  | algorithm :: key :: _ =>
      if algorithm ∉ PINNED_HOST_KEY_ALGORITHMS then
        .error (text "Expected host public key uses unsupported algorithm '" ++ algorithm ++
          text "'. Supported algorithms: ssh-ed25519, ssh-rsa, ecdsa-sha2-nistp256, ecdsa-sha2-nistp384, ecdsa-sha2-nistp521.")
      else if isStrictBase64 key = false then
        .error (text "Expected host public key contains invalid base64 in the key field. Use the exact value from `ssh-keygen -y` or the second field of an OpenSSH known_hosts line.")
      else .ok (algorithm ++ ' ' :: key)
  | _ => .error (text "Expected host public key must use the format '<algorithm> <base64>'")

def verificationFailed (host reason : Text) : Text :=
  text "HOST KEY VERIFICATION FAILED for " ++ host ++ text ": " ++ reason

def normalizeExpectedPublicKey : Option Text → Except Text (Option Text)
  | none => .ok none
  | some publicKey => (normalizePinnedPublicKey publicKey).map some

def verifyPinnedHostKey (platform : Platform) (host : Text) (key : Buffer)
    (options : HostVerifierOptions) : Except Text Unit :=
  match normalizeExpectedPublicKey options.expectedHostPublicKey with
  | .error message => .error message
  | .ok normalizedExpectedPublicKey =>
      let publicKeyMatches := normalizedExpectedPublicKey = none ∨
        normalizedExpectedPublicKey = formatPresentedPublicKey key
      let fingerprintMatches := options.expectedHostFingerprint = none ∨
        options.expectedHostFingerprint = some (computeFingerprint platform key)
      if publicKeyMatches ∧ fingerprintMatches then .ok ()
      else
        .error (verificationFailed host
          (text "the remote host key does not match the configured trust anchor."))

/-- The pins are looked at only where there are some. -/
def verifyConfiguredPins (platform : Platform) (host : Text) (key : Buffer)
    (options : HostVerifierOptions) : Except Text Unit :=
  if hasPinnedHostTrustAnchor options then verifyPinnedHostKey platform host key options
  else .ok ()

/-- The key of the authority that vouches for the leaf. -/
def verifyHostCertificate (platform : Platform) (fileEntries : List KnownHostEntry) (host : Text)
    (info : HostKeyInfo) (key : Buffer) (options : HostVerifierOptions) :
    Except Text Buffer :=
  if certificateMetadataValid platform info key host = false then
    .error (verificationFailed host (text "certificate validation or principal failed."))
  else
    let authority := decodeBase64 (info.caKeyBase64.getD [])
    let formattedAuthority :=
      info.caAlgorithm.getD (text "undefined") ++ ' ' :: info.caKeyBase64.getD (text "undefined")
    if formatPresentedPublicKey key ≠ some (info.keyAlgorithm ++ ' ' :: info.keyBase64) ∨
        formatPresentedPublicKey authority ≠ some formattedAuthority ∨
        (findRevokedEntry fileEntries key).isSome ∨
        (findRevokedEntry fileEntries authority).isSome then
      .error (verificationFailed host (text "inconsistent or revoked certificate key."))
    else if fileEntries.any (fun entry => entry.marker = some CERT_AUTHORITY &&
        info.caAlgorithm = some entry.algo && entry.key = authority) = false then
      .error (verificationFailed host (text "certificate authority is not trusted."))
    else (verifyConfiguredPins platform host key options).map fun _ => authority

/-! ### The verifier -/

/-- What a verifier was built from. -/
structure HostVerifier where
  mode : StrictHostKeyChecking
  host : Text
  port : Nat
  options : HostVerifierOptions
  fileEntries : List KnownHostEntry
  cachedKey : Option Buffer

/-- What the calls of a verifier leave for the commit. -/
structure HostVerifierState where
  acceptedHostKey : Option Buffer
  evidence : Option HostVerificationEvidence
deriving DecidableEq

def HostVerifierState.initial : HostVerifierState := { acceptedHostKey := none, evidence := none }

/-- The verifier over the entries that were read. -/
def HostVerifier.over (platform : Platform) (mode : StrictHostKeyChecking) (host : Text)
    (port : Nat) (options : HostVerifierOptions) (cache : Text → Option Buffer)
    (entries : List KnownHostEntry) : HostVerifier where
  mode := mode
  host := host
  port := port
  options := options
  fileEntries := findMatchingEntries platform entries host port
  cachedKey := cache (formatHostNeedle host port)

/-- `none` stands for the empty result: without known hosts and pins nothing is verified. -/
def buildHostVerifier (platform : Platform) (mode : StrictHostKeyChecking) (host : Text)
    (port : Nat) (options : HostVerifierOptions) (cache : Text → Option Buffer)
    (file : Option Text) : Except Text (Option HostVerifier) :=
  if mode = .no ∧ hasPinnedHostTrustAnchor options = false then .ok none
  else do
    let entries ← loadKnownHostEntries false file
    pure (some (HostVerifier.over platform mode host port options cache entries))

namespace HostVerifier

def hostCertificates (verifier : HostVerifier) : Bool :=
  verifier.mode ≠ .no && verifier.fileEntries.any (·.marker = some CERT_AUTHORITY)

def recordEvidence (verifier : HostVerifier) (key : Buffer) (authority : Option Buffer)
    (state : HostVerifierState) : Except Text HostVerifierState :=
  match formatPresentedPublicKey key with
  | none => .ok state
  | some publicKey =>
      let common : EvidenceCommon :=
        { explicitPins := hasPinnedHostTrustAnchor verifier.options
          host := verifier.host
          port := verifier.port
          publicKey := publicKey
          revocations := revokedPublicKeys verifier.fileEntries }
      match authority with
      | none => .ok { state with evidence := some (.key common) }
      | some authority => do
          let algo ← extractAlgoFromKey authority
          pure { state with
            evidence := some (.certificate common (algo ++ ' ' :: encodeBase64 authority)) }

def verifyCertificate (platform : Platform) (verifier : HostVerifier) (key : Buffer)
    (info : HostKeyInfo) (state : HostVerifierState) : Except Text HostVerifierState :=
  if verifier.hostCertificates = false then
    .error (verificationFailed verifier.host (text "no matching certificate authority."))
  else do
    let authority ← verifyHostCertificate platform verifier.fileEntries verifier.host info key
      verifier.options
    verifier.recordEvidence key (some authority) state

def unknownKeyMessage (host : Text) : Text :=
  text "Host key for " ++ host ++ text " not found in known_hosts. Set strictHostKeyChecking to \"accept-new\" for explicit TOFU or configure ssh.expectedHostFingerprint / ssh.expectedHostPublicKey."

/-- `hostVerifier`: it answers true, and the state is the one after the call, or throws. -/
def verify (platform : Platform) (verifier : HostVerifier) (key : Buffer)
    (info : Option HostKeyInfo) (state : HostVerifierState) : Except Text HostVerifierState :=
  match info.filter (·.kind = .certificate) with
  | some info => verifier.verifyCertificate platform key info state
  | none =>
      let known :=
        if verifier.mode = .no then .ok false
        else
          verifyHostKeyAgainstKnownEntries verifier.cachedKey verifier.fileEntries verifier.host key
      match known with
      | .error message => .error message
      | .ok known =>
          if known || hasPinnedHostTrustAnchor verifier.options then do
            verifyConfiguredPins platform verifier.host key verifier.options
            verifier.recordEvidence key none state
          else
            match verifier.mode with
            | .yes => .error (unknownKeyMessage verifier.host)
            | .no => .ok state
            | .acceptNew =>
                verifier.recordEvidence key none { state with acceptedHostKey := some key }

end HostVerifier

variable {platform : Platform} {host : Text} {key : Buffer} {options : HostVerifierOptions}
  {fileEntries : List KnownHostEntry}

/-- Every configured pin is the one of the key. -/
structure PinsMatch (platform : Platform) (key : Buffer) (options : HostVerifierOptions) :
    Prop where
  fingerprint : ∀ expected, options.expectedHostFingerprint = some expected →
    computeFingerprint platform key = expected
  publicKey : ∀ expected, options.expectedHostPublicKey = some expected →
    ∃ pinned, normalizePinnedPublicKey expected = .ok pinned ∧
      formatPresentedPublicKey key = some pinned

theorem pinsMatch_of_noPins (noPins : hasPinnedHostTrustAnchor options = false) :
    PinsMatch platform key options := by
  simp only [hasPinnedHostTrustAnchor, Bool.or_eq_false_iff, Option.isSome_eq_false_iff,
    Option.isNone_iff_eq_none] at noPins
  constructor
  · intro expected pinned
    rw [noPins.1] at pinned
    cases pinned
  · intro expected pinned
    rw [noPins.2] at pinned
    cases pinned

theorem verifyPinnedHostKey_ok
    (verified : verifyPinnedHostKey platform host key options = .ok ()) :
    PinsMatch platform key options := by
  unfold verifyPinnedHostKey at verified
  split at verified
  · cases verified
  next normalized isNormalized =>
    dsimp only at verified
    split at verified
    next matches_ =>
      obtain ⟨publicKeyMatches, fingerprintMatches⟩ := matches_
      refine ⟨fun expected isExpected => ?_, fun expected isExpected => ?_⟩
      · rcases fingerprintMatches with missing | same
        · rw [isExpected] at missing
          cases missing
        · rw [isExpected] at same
          exact (Option.some.inj same).symm
      · rw [isExpected, normalizeExpectedPublicKey] at isNormalized
        cases isPinned : normalizePinnedPublicKey expected with
        | error message =>
          rw [isPinned] at isNormalized
          cases isNormalized
        | ok pinned =>
          rw [isPinned] at isNormalized
          cases isNormalized
          rcases publicKeyMatches with missing | same
          · cases missing
          · exact ⟨pinned, rfl, same.symm⟩
    · cases verified

theorem verifyConfiguredPins_ok
    (verified : verifyConfiguredPins platform host key options = .ok ()) :
    PinsMatch platform key options := by
  unfold verifyConfiguredPins at verified
  split at verified
  · exact verifyPinnedHostKey_ok verified
  next noPins => exact pinsMatch_of_noPins (Bool.not_eq_true _ ▸ noPins)

/-- No matching entry revokes the key. -/
def NotRevoked (fileEntries : List KnownHostEntry) (key : Buffer) : Prop :=
  ∀ entry ∈ fileEntries, entry.marker = some REVOKED → normalizeRevokedKey entry.key ≠ key

theorem findRevokedEntry_eq_none_iff :
    findRevokedEntry fileEntries key = none ↔ NotRevoked fileEntries key := by
  rw [findRevokedEntry, List.find?_eq_none]
  refine forall₂_congr fun entry mem => ?_
  simp

/-- A raw key of the file or of the cache -/
def Trusted (cachedKey : Option Buffer) (fileEntries : List KnownHostEntry) (key : Buffer) :
    Prop :=
  cachedKey = some key ∨ ∃ entry ∈ fileEntries, entry.marker = none ∧ entry.key = key

theorem mem_rawHostKeyEntries {entry : KnownHostEntry} :
    entry ∈ rawHostKeyEntries fileEntries ↔ entry ∈ fileEntries ∧ entry.marker = none := by
  rw [rawHostKeyEntries, List.mem_filter, decide_eq_true_eq]

/-- Raw keys are trusted, or no raw key is. -/
theorem verifyHostKeyAgainstKnownEntries_ok {cachedKey : Option Buffer} {known : Bool}
    (verified : verifyHostKeyAgainstKnownEntries cachedKey fileEntries host key = .ok known) :
    NotRevoked fileEntries key ∧
      (if known then Trusted cachedKey fileEntries key
        else ∀ other, ¬Trusted cachedKey fileEntries other) := by
  unfold verifyHostKeyAgainstKnownEntries at verified
  split at verified
  · cases verified
  next notFound =>
    refine ⟨findRevokedEntry_eq_none_iff.1 notFound, ?_⟩
    split at verified
    next inFile =>
      cases verified
      obtain ⟨entry, mem, isKey⟩ := List.any_eq_true.1 inFile
      rw [mem_rawHostKeyEntries] at mem
      exact .inr ⟨entry, mem.1, mem.2, of_decide_eq_true isKey⟩
    · split at verified
      next isCached =>
        cases verified
        exact .inl isCached
      · split at verified
        · cases verified
        · cases verified
        next noRaw noCached =>
          cases verified
          rintro other (isCached | ⟨entry, mem, isRaw, _⟩)
          · cases isCached
          · have isMember := mem_rawHostKeyEntries.2 ⟨mem, isRaw⟩
            rw [noRaw] at isMember
            cases isMember

/-- The key of the authority that a certificate names -/
def HostKeyInfo.authority (info : HostKeyInfo) : Buffer := decodeBase64 (info.caKeyBase64.getD [])

/-- What vouches for an accepted certificate -/
structure CertificateTrusted (platform : Platform) (host : Text)
    (fileEntries : List KnownHostEntry) (key : Buffer) (info : HostKeyInfo) : Prop where
  metadata : certificateMetadataValid platform info key host = true
  authority : ∃ entry ∈ fileEntries, entry.marker = some CERT_AUTHORITY ∧
    info.caAlgorithm = some entry.algo ∧ entry.key = info.authority
  notRevoked : NotRevoked fileEntries info.authority

theorem verifyHostCertificate_ok {info : HostKeyInfo} {authority : Buffer}
    (verified : verifyHostCertificate platform fileEntries host info key options = .ok authority) :
    authority = info.authority ∧ CertificateTrusted platform host fileEntries key info ∧
      NotRevoked fileEntries key ∧ PinsMatch platform key options := by
  unfold verifyHostCertificate at verified
  split at verified
  · cases verified
  next metadata =>
    dsimp only at verified
    split at verified
    · cases verified
    next consistent =>
      rw [not_or, not_or, not_or] at consistent
      obtain ⟨_, _, keyKept, authorityKept⟩ := consistent
      rw [Option.not_isSome_iff_eq_none, findRevokedEntry_eq_none_iff] at keyKept authorityKept
      split at verified
      · cases verified
      next named =>
        rw [Bool.not_eq_false, List.any_eq_true] at named
        obtain ⟨entry, mem, isAuthority⟩ := named
        simp only [Bool.and_eq_true, decide_eq_true_eq] at isAuthority
        obtain ⟨⟨isMarked, isAlgorithm⟩, isKey⟩ := isAuthority
        cases pinned : verifyConfiguredPins platform host key options with
        | error message =>
          rw [pinned] at verified
          cases verified
        | ok _ =>
          rw [pinned] at verified
          cases verified
          exact ⟨rfl, ⟨Bool.not_eq_false _ ▸ metadata, ⟨entry, mem, isMarked, isAlgorithm, isKey⟩,
            authorityKept⟩, keyKept, verifyConfiguredPins_ok pinned⟩

/-! ### The verifier -/

/-- What holds of a key that the verifier of a host accepts. -/
structure AcceptedSoundly (platform : Platform) (mode : StrictHostKeyChecking) (host : Text)
    (options : HostVerifierOptions) (cachedKey : Option Buffer)
    (fileEntries : List KnownHostEntry) (key : Buffer) (info : Option HostKeyInfo) : Prop where
  notRevoked : NotRevoked fileEntries key
  pins : PinsMatch platform key options
  /-- Without pins a raw key is accepted in strict mode only if it is known. -/
  strict : mode = .yes → hasPinnedHostTrustAnchor options = false →
    (∀ metadata, info = some metadata → metadata.kind = .key) → Trusted cachedKey fileEntries key
  /-- A new raw key is accepted only where no raw key is known. -/
  firstUse : mode = .acceptNew → (∀ metadata, info = some metadata → metadata.kind = .key) →
    Trusted cachedKey fileEntries key ∨ ∀ other, ¬Trusted cachedKey fileEntries other
  certificate : ∀ metadata, info = some metadata → metadata.kind = .certificate →
    CertificateTrusted platform host fileEntries key metadata

theorem verifyCertificate_ok {verifier : HostVerifier} {info : HostKeyInfo}
    {state after : HostVerifierState}
    (accepted : verifier.verifyCertificate platform key info state = .ok after) :
    ∃ authority, authority = info.authority ∧
      CertificateTrusted platform verifier.host verifier.fileEntries key info ∧
      NotRevoked verifier.fileEntries key ∧ PinsMatch platform key verifier.options := by
  unfold HostVerifier.verifyCertificate at accepted
  split at accepted
  · cases accepted
  · cases verified : verifyHostCertificate platform verifier.fileEntries verifier.host info key
        verifier.options with
    | error message =>
      rw [verified] at accepted
      cases accepted
    | ok authority => exact ⟨authority, verifyHostCertificate_ok verified⟩

theorem pins_of_recorded {next : HostVerifierState → Except Text HostVerifierState}
    {state after : HostVerifierState}
    (accepted : (do
      verifyConfiguredPins platform host key options
      next state) = .ok after) : PinsMatch platform key options := by
  cases verified : verifyConfiguredPins platform host key options with
  | error message =>
    rw [verified] at accepted
    cases accepted
  | ok _ => exact verifyConfiguredPins_ok verified

theorem host_verifier_sound {platform : Platform} {mode : StrictHostKeyChecking}
    (verifying : mode ≠ .no) (host : Text) (port : Nat) (options : HostVerifierOptions)
    (cache : Text → Option Buffer) (entries : List KnownHostEntry) {key : Buffer}
    {info : Option HostKeyInfo} {state after : HostVerifierState}
    (accepted : (HostVerifier.over platform mode host port options cache entries).verify platform
      key info state = .ok after) :
    AcceptedSoundly platform mode host options (cache (formatHostNeedle host port))
      (findMatchingEntries platform entries host port) key info := by
  unfold HostVerifier.verify at accepted
  split at accepted
  next certificate isCertificate =>
    obtain ⟨isInfo, isKind⟩ := Option.filter_eq_some_iff.1 isCertificate
    obtain ⟨_, _, trusted, notRevoked, pins⟩ := verifyCertificate_ok accepted
    have notRaw : ¬∀ metadata, info = some metadata → metadata.kind = .key := fun isRaw => by
      rw [isRaw certificate isInfo] at isKind
      cases isKind
    refine ⟨notRevoked, pins, fun _ _ isRaw => absurd isRaw notRaw,
      fun _ isRaw => absurd isRaw notRaw, fun metadata isMetadata _ => ?_⟩
    rw [isInfo] at isMetadata
    cases isMetadata
    exact trusted
  next noCertificate =>
    have isRaw (metadata : HostKeyInfo) (isInfo : info = some metadata) :
        metadata.kind ≠ .certificate := fun isKind => by
      rw [isInfo, Option.filter_some, if_pos (decide_eq_true isKind)] at noCertificate
      cases noCertificate
    simp only [HostVerifier.over, verifying, if_false] at accepted
    split at accepted
    · cases accepted
    next known isKnown =>
      obtain ⟨notRevoked, trusted⟩ := verifyHostKeyAgainstKnownEntries_ok isKnown
      have pins : PinsMatch platform key options := by
        cases anchored : hasPinnedHostTrustAnchor options with
        | false => exact pinsMatch_of_noPins anchored
        | true =>
          simp only [anchored, Bool.or_true, if_true] at accepted
          exact pins_of_recorded accepted
      refine ⟨notRevoked, pins, fun isStrict noPins _ => ?_, fun isFirstUse _ => ?_,
        fun metadata isInfo isKind => absurd isKind (isRaw metadata isInfo)⟩
      · cases known with
        | true => exact trusted
        | false =>
          simp only [noPins, isStrict, Bool.or_false, Bool.false_eq_true, if_false] at accepted
          cases accepted
      · cases known with
        | true => exact .inl trusted
        | false => exact .inr trusted

/-! ### Two keys of one host -/

/-- Lower case of ASCII letters; no hashed host is looked up with it. -/
def asciiPlatform : Platform where
  toLowerCase value := value.map Char.toLower
  hmacSha1 _ _ := []
  sha256 _ := []

def firstKeyText : Text :=
  text "AAAAC3NzaC1lZDI1NTE5AAAAIAABAgMEBQYHCAkKCwwNDg8QERITFBUWFxgZGhscHR4f"

def secondKeyText : Text :=
  text "AAAAC3NzaC1lZDI1NTE5AAAAICAhIiMkJSYnKCkqKywtLi8wMTIzNDU2Nzg5Ojs8PT4/"

/-- known_hosts with both keys -/
def twoKeys : List KnownHostEntry :=
  parseKnownHosts (text "example.com ssh-ed25519 " ++ firstKeyText ++
    text "\nexample.com ssh-ed25519 " ++ secondKeyText)

def exampleVerifier : HostVerifier :=
  HostVerifier.over asciiPlatform .acceptNew (text "example.com") 22 noPins (fun _ => none) twoKeys

def secondKeyState : HostVerifierState where
  acceptedHostKey := none
  evidence := some (.key
    { explicitPins := false
      host := text "example.com"
      port := 22
      publicKey := text "ssh-ed25519 " ++ secondKeyText
      revocations := [] })

theorem second_key_verified :
    exampleVerifier.verify asciiPlatform (decodeBase64 secondKeyText) none .initial =
      .ok secondKeyState := by
  decide +kernel

theorem second_key_sound :
    AcceptedSoundly asciiPlatform .acceptNew (text "example.com") noPins none
      (findMatchingEntries asciiPlatform twoKeys (text "example.com") 22)
      (decodeBase64 secondKeyText) none :=
  host_verifier_sound (by decide : StrictHostKeyChecking.acceptNew ≠ .no) (text "example.com") 22 noPins (fun _ => none) twoKeys
    second_key_verified

/-- The second of two known keys is accepted although the first one is another key. -/
theorem other_key_known :
    ¬∀ (platform : Platform) (host : Text) (port : Nat) (options : HostVerifierOptions)
      (cache : Text → Option Buffer) (entries : List KnownHostEntry) (key : Buffer)
      (state after : HostVerifierState),
      (HostVerifier.over platform .acceptNew host port options cache entries).verify platform key
        none state = .ok after →
      ∀ entry ∈ findMatchingEntries platform entries host port, entry.marker = none →
        entry.key = key := by
  intro onlyKnown
  have accepted := onlyKnown asciiPlatform (text "example.com") 22 noPins (fun _ => none) twoKeys
    (decodeBase64 secondKeyText) .initial secondKeyState second_key_verified
  have differs : ¬∀ entry ∈ findMatchingEntries asciiPlatform twoKeys (text "example.com") 22,
      entry.marker = none → entry.key = decodeBase64 secondKeyText := by
    decide +kernel
  exact differs accepted

end Paratix.Keys
