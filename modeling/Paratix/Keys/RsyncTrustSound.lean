/-
Module: Paratix.Keys.RsyncTrustSound
Purpose: The trust of a session written out for the ssh process of rsync, under which ssh trusts
  what the session trusts, but for revoked keys that the file cannot name.
Main exports: createVerifiedKnownHostsFile, rsync_trusts_nothing_else_iff
-/
import Paratix.Keys.KnownHostsLines
import Paratix.Keys.VerifierSound

namespace Paratix.Keys

open Foundation Archive

/-! ### The written trust -/

def HostVerificationEvidence.common : HostVerificationEvidence → EvidenceCommon
  | .key common => common
  | .certificate common _ => common

def HostVerificationEvidence.isCertificate : HostVerificationEvidence → Bool
  | .key _ => false
  | .certificate _ _ => true

/-- Whether the session trusts an authority instead of a key -/
def HostVerificationEvidence.trustsAuthority (evidence : HostVerificationEvidence) : Bool :=
  evidence.isCertificate && !evidence.common.explicitPins

def HostVerificationEvidence.label (evidence : HostVerificationEvidence) : Text :=
  formatHostNeedle evidence.common.host evidence.common.port

/-- The first line of the file -/
def anchorLine (evidence : HostVerificationEvidence) : Text :=
  match evidence with
  | .certificate common authorityPublicKey =>
      if common.explicitPins then evidence.label ++ ' ' :: common.publicKey
      else text "@cert-authority " ++ evidence.label ++ ' ' :: authorityPublicKey
  | .key common => evidence.label ++ ' ' :: common.publicKey

def revokedLine (evidence : HostVerificationEvidence) (key : Text) : Text :=
  text "@revoked " ++ evidence.label ++ ' ' :: key

/-- The content of the file -/
def createVerifiedKnownHostsFile (evidence : HostVerificationEvidence) (revocations : List Text) :
    Text :=
  fileText '\n' (anchorLine evidence :: revocations.map (revokedLine evidence))

def HOST_KEY_ALGORITHMS_FLAG : Text := text " -o HostKeyAlgorithms="

def hostAlgorithmFlags (evidence : HostVerificationEvidence) : Text :=
  match evidence with
  | .key _ => []
  | .certificate common _ =>
      if common.explicitPins = false then []
      else
        let algorithm := (common.publicKey.splitOn ' ').head?.getD []
        HOST_KEY_ALGORITHMS_FLAG ++
          if algorithm = text "ssh-rsa" then text "rsa-sha2-512,rsa-sha2-256" else algorithm

def revokesAnchor (revoked : List Text) : HostVerificationEvidence → Bool
  | .key common => revoked.contains common.publicKey
  | .certificate common authorityPublicKey =>
      revoked.contains common.publicKey || revoked.contains authorityPublicKey

/-- The revoked keys of the host before a transfer -/
def loadRsyncTrustSnapshot (platform : Platform) (evidence : HostVerificationEvidence)
    (file : Option Text) : Except Text (List Text) :=
  match loadKnownHostEntries evidence.isCertificate file with
  | .error message => .error message
  | .ok entries =>
      let matching :=
        findMatchingEntries platform entries evidence.common.host evidence.common.port
      let revoked := revokedPublicKeys matching
      if revokesAnchor revoked evidence then
        .error (verificationFailed evidence.common.host
          (text "session trust anchor is revoked in known_hosts."))
      else .ok revoked

/-! ### What ssh does with it -/

/-- What a server presents to ssh. -/
inductive Presented where
  | key (algorithm : Text) (key : Buffer)
  | certificate (algorithm : Text) (leaf authority details : Buffer)
deriving DecidableEq

/-- The part of ssh that knows certificates. -/
structure OpenSsh where
  /-- Whether the certificate is a valid one of the host, of an algorithm ssh knows. -/
  validCertificate : (leaf authority details : Buffer) → (host : Text) → Bool

/-- Whether the flags leave the algorithm on offer. -/
def offersAlgorithm (flags algorithm : Text) : Bool :=
  flags = [] || ((flags.drop HOST_KEY_ALGORITHMS_FLAG.length).splitOn ',').contains algorithm

/-- What ssh accepts with a known_hosts file: an entry trusts its key, or the certificates of
its authority, and a revoking entry overrides both. -/
def OpenSsh.accepts (ssh : OpenSsh) (platform : Platform) (content flags host : Text) (port : Nat)
    (presented : Presented) : Bool :=
  let entries := findMatchingEntries platform (parseKnownHosts content) host port
  match presented with
  | .key algorithm key =>
      offersAlgorithm flags algorithm && (rawHostKeyEntries entries).any (·.key = key) &&
        (findRevokedEntry entries key).isNone
  | .certificate algorithm leaf authority details =>
      offersAlgorithm flags algorithm && ssh.validCertificate leaf authority details host &&
        entries.any (fun entry => entry.marker = some CERT_AUTHORITY && entry.key = authority) &&
        (findRevokedEntry entries leaf).isNone && (findRevokedEntry entries authority).isNone

/-! ### Evidence of a session -/

/-- The evidence that a session records for a key and perhaps an authority. -/
inductive SessionEvidence : HostVerificationEvidence → Buffer → Option Buffer → Prop where
  | key {common : EvidenceCommon} {key : Buffer}
      (valid : Orchestration.validateHostLabel common.host = none)
      (formatted : formatPresentedPublicKey key = some common.publicKey) :
      SessionEvidence (.key common) key none
  | certificate {common : EvidenceCommon} {authorityPublicKey : Text} {key authority : Buffer}
      (valid : Orchestration.validateHostLabel common.host = none)
      (formatted : formatPresentedPublicKey key = some common.publicKey)
      (authorityFormatted : formatPresentedPublicKey authority = some authorityPublicKey) :
      SessionEvidence (.certificate common authorityPublicKey) key (some authority)

theorem formatPresentedPublicKey_eq_some_iff {key : Buffer} {publicKey : Text} :
    formatPresentedPublicKey key = some publicKey ↔
      ∃ algo, extractAlgoFromKey key = .ok algo ∧ publicKey = algo ++ ' ' :: encodeBase64 key := by
  unfold formatPresentedPublicKey
  constructor
  · intro formatted
    split at formatted
    next algo isAlgo =>
      cases formatted
      exact ⟨algo, isAlgo, rfl⟩
    · cases formatted
  · rintro ⟨algo, isAlgo, rfl⟩
    rw [isAlgo]

/-- What the verifier records is evidence of the session. -/
theorem sessionEvidence_of_recorded {verifier : HostVerifier} {key : Buffer}
    {authority : Option Buffer} {state after : HostVerifierState}
    {evidence : HostVerificationEvidence}
    (valid : Orchestration.validateHostLabel verifier.host = none)
    (recorded : verifier.recordEvidence key authority state = .ok after)
    (fresh : state.evidence = none) (isEvidence : after.evidence = some evidence) :
    SessionEvidence evidence key authority := by
  unfold HostVerifier.recordEvidence at recorded
  split at recorded
  · cases recorded
    rw [fresh] at isEvidence
    cases isEvidence
  next publicKey formatted =>
    dsimp only at recorded
    cases authority with
    | none =>
      cases recorded
      cases isEvidence
      exact .key valid formatted
    | some authority =>
      dsimp only at recorded
      cases isAlgo : extractAlgoFromKey authority with
      | error message =>
        rw [isAlgo] at recorded
        cases recorded
      | ok algo =>
        rw [isAlgo] at recorded
        cases recorded
        cases isEvidence
        exact .certificate valid formatted
          (formatPresentedPublicKey_eq_some_iff.2 ⟨algo, isAlgo, rfl⟩)

theorem SessionEvidence.valid {evidence : HostVerificationEvidence} {key : Buffer}
    {authority : Option Buffer} (session : SessionEvidence evidence key authority) :
    Orchestration.validateHostLabel evidence.common.host = none := by
  cases session with
  | key valid _ => exact valid
  | certificate valid _ _ => exact valid

theorem SessionEvidence.formatted {evidence : HostVerificationEvidence} {key : Buffer}
    {authority : Option Buffer} (session : SessionEvidence evidence key authority) :
    formatPresentedPublicKey key = some evidence.common.publicKey := by
  cases session with
  | key _ formatted => exact formatted
  | certificate _ formatted _ => exact formatted

/-! ### Keys of a supported algorithm -/

/-- A key of a supported algorithm is no certificate. -/
theorem normalizeRevokedKey_of_extracted {key : Buffer} {algo : Text}
    (extracted : extractAlgoFromKey key = .ok algo) : normalizeRevokedKey key = key := by
  have noCertificate : certifiedLeaf key = none := by
    unfold extractAlgoFromKey at extracted
    split at extracted
    · cases extracted
    next longEnough =>
      dsimp only at extracted
      split at extracted
      · cases extracted
      next inside =>
        split at extracted
        next supported =>
          cases extracted
          have noSuffix : ∀ name ∈ PINNED_HOST_KEY_ALGORITHMS, ¬CERTIFICATE_SUFFIX <:+ name := by
            decide
          have name : readString key 0 = some
              (subarray key UINT32_SIZE (UINT32_SIZE + readUInt32BE key 0),
                UINT32_SIZE + readUInt32BE key 0) := by
            unfold readString
            rw [Nat.zero_add, if_neg longEnough]
            dsimp only
            rw [if_neg (by omega)]
          unfold certifiedLeaf
          rw [name]
          exact if_neg (noSuffix _ supported)
        · cases extracted
  rw [normalizeRevokedKey, noCertificate, Option.getD_none]

theorem mem_revokedPublicKeys {entries : List KnownHostEntry} {publicKey : Text} :
    publicKey ∈ revokedPublicKeys entries ↔
      ∃ entry ∈ entries, entry.marker = some REVOKED ∧
        formatPresentedPublicKey (normalizeRevokedKey entry.key) = some publicKey := by
  simp only [revokedPublicKeys, List.mem_eraseDups, List.mem_filterMap, List.mem_filter,
    decide_eq_true_eq, and_assoc]

/-! ### Entries of the written file -/

/-- The entry of a plain line; there is none where the label reads as a comment or a marker. -/
theorem eq_of_mem_plainLine {hostLabel algo : Text} {key : Buffer} {entry : KnownHostEntry}
    (labelWord : IsWord hostLabel) (algoWord : IsWord algo) (keyNonempty : key ≠ [])
    (noComma : ',' ∉ hostLabel)
    (mem : entry ∈ parseRawLine (joinWords [hostLabel, algo, encodeBase64 key])) :
    entry = appendedEntry hostLabel algo key := by
  have areWords := areWords_plain labelWord algoWord keyNonempty
  have isHead : (joinWords [hostLabel, algo, encodeBase64 key]).head? = hostLabel.head? :=
    List.head?_append_of_ne_nil _ labelWord.1
  by_cases comment : hostLabel.head? = some '#'
  · rw [parseRawLine] at mem
    simp only [trim_joinWords areWords, isHead, comment, or_true, if_true, List.not_mem_nil] at mem
  · by_cases marked : hostLabel.head? = some '@'
    · rw [parseRawLine, trim_joinWords areWords] at mem
      split at mem
      · cases mem
      · rw [parseKnownHostsLine, splitSpaces_joinWords (List.cons_ne_nil _ _) areWords] at mem
        simp [marked, MIN_KNOWN_HOSTS_FIELDS] at mem
    · rw [parseRawLine_plain labelWord algoWord keyNonempty comment marked noComma] at mem
      exact List.mem_singleton.1 mem

/-- The entry of a line with a marker -/
def markedEntry (marker hostLabel algo : Text) (key : Buffer) : KnownHostEntry :=
  { appendedEntry hostLabel algo key with marker := some marker }

section Written

variable {platform : Platform} {evidence : HostVerificationEvidence} {key : Buffer}
  {authority : Option Buffer} {revocations : List Text}
  (session : SessionEvidence evidence key authority)
include session

theorem SessionEvidence.label :
    IsWord evidence.label ∧ ',' ∉ evidence.label ∧ evidence.label.head? ≠ some '!' :=
  isWord_formatHostNeedle _ session.valid

theorem parseRawLine_revokedLine {revoked : Buffer} {publicKey : Text}
    (formatted : formatPresentedPublicKey revoked = some publicKey) :
    '\n' ∉ revokedLine evidence publicKey ∧
      ∃ algo, extractAlgoFromKey revoked = .ok algo ∧
        parseRawLine (revokedLine evidence publicKey) =
          [markedEntry REVOKED evidence.label algo revoked] := by
  obtain ⟨algo, isAlgo, rfl⟩ := formatPresentedPublicKey_eq_some_iff.1 formatted
  obtain ⟨labelWord, noComma, _⟩ := session.label
  have markerWord : IsWord REVOKED := by decide
  have algoWord := isWord_of_extracted isAlgo
  have nonempty := nonempty_of_extracted isAlgo
  have isLine : revokedLine evidence (algo ++ ' ' :: encodeBase64 revoked) =
      joinWords [REVOKED, evidence.label, algo, encodeBase64 revoked] := by
    simp only [joinWords, revokedLine, List.append_assoc]
    rfl
  rw [isLine]
  exact ⟨newline_notMem_joinWords
      (List.forall_mem_cons.2 ⟨markerWord, areWords_plain labelWord algoWord nonempty⟩),
    algo, isAlgo, parseRawLine_marked labelWord algoWord nonempty markerWord rfl noComma⟩

/-- The anchor line of a session that trusts its authority -/
theorem parseRawLine_authority {own : Buffer} (isOwn : authority = some own)
    (trusts : evidence.trustsAuthority = true) :
    '\n' ∉ anchorLine evidence ∧ ∃ algo, parseRawLine (anchorLine evidence) =
      [markedEntry CERT_AUTHORITY evidence.label algo own] := by
  obtain ⟨labelWord, noComma, _⟩ := session.label
  cases session with
  | key _ _ => cases isOwn
  | @certificate common authorityPublicKey _ authority _ _ authorityFormatted =>
    cases isOwn
    obtain ⟨algo, isAlgo, rfl⟩ := formatPresentedPublicKey_eq_some_iff.1 authorityFormatted
    have unpinned : common.explicitPins = false := by
      simpa only [HostVerificationEvidence.trustsAuthority, HostVerificationEvidence.isCertificate,
        HostVerificationEvidence.common, Bool.true_and, Bool.not_eq_true'] using trusts
    have markerWord : IsWord CERT_AUTHORITY := by decide
    have algoWord := isWord_of_extracted isAlgo
    have nonempty := nonempty_of_extracted isAlgo
    have isLine : anchorLine (.certificate common (algo ++ ' ' :: encodeBase64 own)) =
        joinWords [CERT_AUTHORITY, HostVerificationEvidence.label (.certificate common
          (algo ++ ' ' :: encodeBase64 own)), algo, encodeBase64 own] := by
      simp only [anchorLine, unpinned, joinWords, List.append_assoc]
      rfl
    rw [isLine]
    exact ⟨newline_notMem_joinWords
        (List.forall_mem_cons.2 ⟨markerWord, areWords_plain labelWord algoWord nonempty⟩),
      algo, parseRawLine_marked labelWord algoWord nonempty markerWord rfl noComma⟩

/-- The anchor line of a session that trusts its key -/
theorem parseRawLine_key (trustsKey : evidence.trustsAuthority = false) :
    '\n' ∉ anchorLine evidence ∧ ∃ algo, ∀ entry ∈ parseRawLine (anchorLine evidence),
      entry = appendedEntry evidence.label algo key := by
  obtain ⟨labelWord, noComma, _⟩ := session.label
  obtain ⟨algo, isAlgo, isPublicKey⟩ := formatPresentedPublicKey_eq_some_iff.1 session.formatted
  have algoWord := isWord_of_extracted isAlgo
  have nonempty := nonempty_of_extracted isAlgo
  have isLine : anchorLine evidence = joinWords [evidence.label, algo, encodeBase64 key] := by
    cases evidence with
    | key common => simp only [anchorLine, joinWords, ← isPublicKey, HostVerificationEvidence.common]
    | certificate common authorityPublicKey =>
      have pinned : common.explicitPins = true := by
        simpa only [HostVerificationEvidence.trustsAuthority,
          HostVerificationEvidence.isCertificate, HostVerificationEvidence.common, Bool.true_and,
          Bool.not_eq_false'] using trustsKey
      simp only [anchorLine, pinned, if_true, joinWords, ← isPublicKey,
        HostVerificationEvidence.common]
  rw [isLine]
  exact ⟨newline_notMem_joinWords (areWords_plain labelWord algoWord nonempty), algo,
    fun entry mem => eq_of_mem_plainLine labelWord algoWord nonempty noComma mem⟩

theorem newline_notMem_anchorLine : '\n' ∉ anchorLine evidence := by
  cases trusts : evidence.trustsAuthority with
  | false => exact (parseRawLine_key session trusts).1
  | true =>
    cases authority with
    | none =>
      cases session
      cases trusts
    | some own => exact (parseRawLine_authority session rfl trusts).1

variable (areKeys : ∀ publicKey ∈ revocations, ∃ revoked,
  formatPresentedPublicKey revoked = some publicKey)
include areKeys

theorem parseKnownHosts_written :
    parseKnownHosts (createVerifiedKnownHostsFile evidence revocations) =
      parseRawLine (anchorLine evidence) ++
        revocations.flatMap fun publicKey => parseRawLine (revokedLine evidence publicKey) := by
  have oneLine : ∀ line ∈ anchorLine evidence :: revocations.map (revokedLine evidence),
      '\n' ∉ line := by
    rw [List.forall_mem_cons, List.forall_mem_map]
    refine ⟨newline_notMem_anchorLine session, fun publicKey mem => ?_⟩
    obtain ⟨revoked, formatted⟩ := areKeys publicKey mem
    exact (parseRawLine_revokedLine session formatted).1
  have parsed := parseKnownHosts_fileText oneLine []
  rw [List.append_nil, show parseKnownHosts [] = [] from rfl, List.append_nil,
    List.flatMap_cons, List.flatMap_map] at parsed
  exact parsed

/-- What a revoking entry of the written file revokes -/
theorem mem_written_revocation {entry : KnownHostEntry} :
    entry ∈ revocations.flatMap (fun publicKey => parseRawLine (revokedLine evidence publicKey)) ↔
      ∃ revoked algo, extractAlgoFromKey revoked = .ok algo ∧
        algo ++ ' ' :: encodeBase64 revoked ∈ revocations ∧
        entry = markedEntry REVOKED evidence.label algo revoked := by
  rw [List.mem_flatMap]
  constructor
  · rintro ⟨publicKey, listed, mem⟩
    obtain ⟨revoked, formatted⟩ := areKeys publicKey listed
    obtain ⟨_, algo, isAlgo, parsed⟩ := parseRawLine_revokedLine session formatted
    obtain ⟨own, isOwn, rfl⟩ := formatPresentedPublicKey_eq_some_iff.1 formatted
    rw [isAlgo] at isOwn
    cases isOwn
    rw [parsed] at mem
    exact ⟨revoked, algo, isAlgo, listed, List.mem_singleton.1 mem⟩
  · rintro ⟨revoked, algo, isAlgo, listed, rfl⟩
    have formatted := formatPresentedPublicKey_eq_some_iff.2 ⟨algo, isAlgo, rfl⟩
    obtain ⟨_, own, isOwn, parsed⟩ := parseRawLine_revokedLine session formatted
    rw [isAlgo] at isOwn
    cases isOwn
    exact ⟨_, listed, parsed ▸ List.mem_singleton_self _⟩

/-- The label of the session matches itself as a pattern. -/
def SelfMatching (platform : Platform) (evidence : HostVerificationEvidence) : Prop :=
  matchesKnownHostPatternList platform [evidence.label] evidence.label = true

omit areKeys in
/-- The anchor trusts the key of the session or its authority. -/
theorem anchor_entry {entry : KnownHostEntry} (mem : entry ∈ parseRawLine (anchorLine evidence)) :
    entry.hostPatterns = [evidence.label] ∧
      ((evidence.trustsAuthority = false ∧ entry.marker = none ∧ entry.key = key) ∨
        (evidence.trustsAuthority = true ∧ entry.marker = some CERT_AUTHORITY ∧
          authority = some entry.key)) := by
  cases trusts : evidence.trustsAuthority with
  | false =>
    obtain ⟨algo, isEntry⟩ := (parseRawLine_key session trusts).2
    cases isEntry entry mem
    exact ⟨rfl, .inl ⟨rfl, rfl, rfl⟩⟩
  | true =>
    cases authority with
    | none =>
      cases session
      cases trusts
    | some own =>
      obtain ⟨algo, isEntry⟩ := (parseRawLine_authority session rfl trusts).2
      rw [isEntry, List.mem_singleton] at mem
      cases mem
      exact ⟨rfl, .inr ⟨rfl, rfl, rfl⟩⟩

/-- What ssh reads of the file for the host of the session -/
def writtenEntries (platform : Platform) (evidence : HostVerificationEvidence)
    (revocations : List Text) : List KnownHostEntry :=
  findMatchingEntries platform
    (parseKnownHosts (createVerifiedKnownHostsFile evidence revocations)) evidence.common.host
    evidence.common.port

theorem mem_writtenEntries {entry : KnownHostEntry} :
    entry ∈ writtenEntries platform evidence revocations ↔
      SelfMatching platform evidence ∧ (entry ∈ parseRawLine (anchorLine evidence) ∨
        ∃ revoked algo, extractAlgoFromKey revoked = .ok algo ∧
          algo ++ ' ' :: encodeBase64 revoked ∈ revocations ∧
          entry = markedEntry REVOKED evidence.label algo revoked) := by
  rw [writtenEntries, findMatchingEntries, List.mem_filter, parseKnownHosts_written session areKeys,
    List.mem_append, mem_written_revocation session areKeys, and_comm]
  refine and_congr_left fun mem => ?_
  have patterns : entry.hostPatterns = [evidence.label] := by
    rcases mem with isAnchor | ⟨revoked, algo, _, _, rfl⟩
    · exact (anchor_entry session isAnchor).1
    · rfl
  rw [matchesKnownHostEntry, patterns]
  rfl

/-- The written file revokes what the snapshot lists. -/
theorem notRevoked_written_iff {other : Buffer} (selfMatching : SelfMatching platform evidence) :
    NotRevoked (writtenEntries platform evidence revocations) other ↔
      ∀ publicKey ∈ revocations, formatPresentedPublicKey other ≠ some publicKey := by
  constructor
  · intro notRevoked publicKey listed formatted
    obtain ⟨algo, isAlgo, rfl⟩ := formatPresentedPublicKey_eq_some_iff.1 formatted
    have mem := (mem_writtenEntries session areKeys).2
      ⟨selfMatching, .inr ⟨other, algo, isAlgo, listed, rfl⟩⟩
    exact notRevoked _ mem rfl (normalizeRevokedKey_of_extracted isAlgo)
  · intro unlisted entry mem isMarked isOther
    rcases ((mem_writtenEntries session areKeys).1 mem).2 with isAnchor | revocation
    · rcases (anchor_entry session isAnchor).2 with ⟨_, isRaw, _⟩ | ⟨_, isAuthority, _⟩
      · rw [isRaw] at isMarked
        cases isMarked
      · rw [isAuthority] at isMarked
        cases isMarked
    · obtain ⟨revoked, algo, isAlgo, listed, rfl⟩ := revocation
      have isRevoked : revoked = other := by
        rw [← isOther]
        exact (normalizeRevokedKey_of_extracted isAlgo).symm
      subst isRevoked
      exact unlisted _ listed (formatPresentedPublicKey_eq_some_iff.2 ⟨algo, isAlgo, rfl⟩)

/-- The raw keys that the written file trusts -/
theorem key_of_written {entry : KnownHostEntry}
    (mem : entry ∈ writtenEntries platform evidence revocations) (isRaw : entry.marker = none) :
    evidence.trustsAuthority = false ∧ entry.key = key := by
  rcases ((mem_writtenEntries session areKeys).1 mem).2 with isAnchor | ⟨_, _, _, _, rfl⟩
  · rcases (anchor_entry session isAnchor).2 with ⟨trusts, _, isKey⟩ | ⟨_, isAuthority, _⟩
    · exact ⟨trusts, isKey⟩
    · rw [isRaw] at isAuthority
      cases isAuthority
  · cases isRaw

/-- The authorities that the written file trusts -/
theorem authority_of_written {entry : KnownHostEntry}
    (mem : entry ∈ writtenEntries platform evidence revocations)
    (isAuthority : entry.marker = some CERT_AUTHORITY) :
    evidence.trustsAuthority = true ∧ authority = some entry.key := by
  rcases ((mem_writtenEntries session areKeys).1 mem).2 with isAnchor | ⟨_, _, _, _, rfl⟩
  · rcases (anchor_entry session isAnchor).2 with ⟨_, isRaw, _⟩ | ⟨trusts, _, isOwn⟩
    · rw [isRaw] at isAuthority
      cases isAuthority
    · exact ⟨trusts, isOwn⟩
  · cases isAuthority

end Written

/-! ### The snapshot -/

/-- The entries of known_hosts for the host of a session -/
def sessionEntries (platform : Platform) (evidence : HostVerificationEvidence)
    (file : Option Text) : List KnownHostEntry :=
  findMatchingEntries platform (parseKnownHosts (file.getD [])) evidence.common.host
    evidence.common.port

section Snapshot

variable {platform : Platform} {evidence : HostVerificationEvidence} {key : Buffer}
  {authority : Option Buffer} {file : Option Text} {revocations : List Text}
  (session : SessionEvidence evidence key authority)
  (loaded : loadRsyncTrustSnapshot platform evidence file = .ok revocations)

include loaded in
/-- A snapshot lists the revoked keys, and neither the key of the session nor its authority. -/
theorem snapshot_ok : revocations = revokedPublicKeys (sessionEntries platform evidence file) ∧
      evidence.common.publicKey ∉ revocations ∧
      ∀ common authorityPublicKey, evidence = .certificate common authorityPublicKey →
        authorityPublicKey ∉ revocations := by
  unfold loadRsyncTrustSnapshot at loaded
  split at loaded
  · cases loaded
  next entries isLoaded =>
    have isParsed := entries_of_loaded isLoaded
    subst isParsed
    dsimp only at loaded
    split at loaded
    · cases loaded
    next kept =>
      cases loaded
      cases evidence with
      | key common =>
        refine ⟨rfl, fun listed => kept (List.contains_iff_mem.2 listed), nofun⟩
      | certificate common authorityPublicKey =>
        rw [revokesAnchor, Bool.or_eq_true, not_or] at kept
        refine ⟨rfl, fun listed => kept.1 (List.contains_iff_mem.2 listed), ?_⟩
        rintro _ _ ⟨⟩ listed
        exact kept.2 (List.contains_iff_mem.2 listed)

include loaded in
theorem areKeys_of_snapshot :
    ∀ publicKey ∈ revocations, ∃ revoked, formatPresentedPublicKey revoked = some publicKey := by
  intro publicKey listed
  rw [(snapshot_ok loaded).1, mem_revokedPublicKeys] at listed
  obtain ⟨entry, _, _, formatted⟩ := listed
  exact ⟨_, formatted⟩

include loaded in
/-- A key that ssh could be told about is revoked in the snapshot if it is in the file. -/
theorem notRevoked_of_unlisted {other : Buffer} {publicKey : Text}
    (formatted : formatPresentedPublicKey other = some publicKey)
    (unlisted : publicKey ∉ revocations) :
    NotRevoked (sessionEntries platform evidence file) other := by
  intro entry mem isMarked isOther
  refine unlisted ?_
  rw [(snapshot_ok loaded).1, mem_revokedPublicKeys]
  exact ⟨entry, mem, isMarked, isOther ▸ formatted⟩

include session loaded in
theorem session_notRevoked : NotRevoked (sessionEntries platform evidence file) key ∧
      ∀ own, authority = some own → NotRevoked (sessionEntries platform evidence file) own ∧
          ∀ publicKey ∈ revocations, formatPresentedPublicKey own ≠ some publicKey := by
  obtain ⟨_, keyUnlisted, authorityUnlisted⟩ := snapshot_ok loaded
  refine ⟨notRevoked_of_unlisted loaded session.formatted keyUnlisted, fun own isOwn => ?_⟩
  cases session with
  | key _ _ => cases isOwn
  | certificate _ _ authorityFormatted =>
    cases isOwn
    have unlisted := authorityUnlisted _ _ rfl
    refine ⟨notRevoked_of_unlisted loaded authorityFormatted unlisted, ?_⟩
    rintro publicKey listed formatted
    rw [authorityFormatted, Option.some.injEq] at formatted
    exact unlisted (formatted ▸ listed)

end Snapshot

/-! ### The law -/

/-- What a session trusts: its key, or the valid certificates of its authority. -/
def SessionTrusts (ssh : OpenSsh) (evidence : HostVerificationEvidence) (key : Buffer)
    (authority : Option Buffer) : Presented → Prop
  | .key _ presentedKey => evidence.trustsAuthority = false ∧ presentedKey = key
  | .certificate _ leaf presentedAuthority details =>
      evidence.trustsAuthority = true ∧ authority = some presentedAuthority ∧
        ssh.validCertificate leaf presentedAuthority details evidence.common.host = true

/-- No entry revokes the presented key, leaf or authority. -/
def PresentedNotRevoked (entries : List KnownHostEntry) : Presented → Prop
  | .key _ key => NotRevoked entries key
  | .certificate _ leaf authority _ => NotRevoked entries leaf ∧ NotRevoked entries authority

/-- ssh accepts under the written trust only what the session trusts and known_hosts leaves. -/
def TrustsNothingElse (ssh : OpenSsh) (platform : Platform) (evidence : HostVerificationEvidence)
    (key : Buffer) (authority : Option Buffer) (file : Option Text) (revocations : List Text) :
    Prop :=
  ∀ presented,
    ssh.accepts platform (createVerifiedKnownHostsFile evidence revocations)
      (hostAlgorithmFlags evidence) evidence.common.host evidence.common.port presented = true →
    SessionTrusts ssh evidence key authority presented ∧
      PresentedNotRevoked (sessionEntries platform evidence file) presented

/-- No valid certificate of the trusted authority has a revoked leaf whose algorithm the written
file leaves out. -/
def RevocationsWritten (ssh : OpenSsh) (platform : Platform) (evidence : HostVerificationEvidence)
    (authority : Option Buffer) (file : Option Text) : Prop :=
  evidence.trustsAuthority = true → SelfMatching platform evidence →
    ∀ entry ∈ sessionEntries platform evidence file, entry.marker = some REVOKED →
      (∀ algo, extractAlgoFromKey (normalizeRevokedKey entry.key) ≠ .ok algo) →
      ∀ own, authority = some own → ∀ details,
        ssh.validCertificate (normalizeRevokedKey entry.key) own details evidence.common.host =
          false

section Law

variable {ssh : OpenSsh} {platform : Platform} {evidence : HostVerificationEvidence}
  {key : Buffer} {authority : Option Buffer} {file : Option Text} {revocations : List Text}

theorem accepts_key_iff {content flags host algorithm : Text} {port : Nat} {presentedKey : Buffer} :
    ssh.accepts platform content flags host port (.key algorithm presentedKey) = true ↔
      offersAlgorithm flags algorithm = true ∧
        (∃ entry ∈ findMatchingEntries platform (parseKnownHosts content) host port,
          entry.marker = none ∧ entry.key = presentedKey) ∧
        NotRevoked (findMatchingEntries platform (parseKnownHosts content) host port)
          presentedKey := by
  simp only [OpenSsh.accepts, Bool.and_eq_true, List.any_eq_true, decide_eq_true_eq,
    Option.isNone_iff_eq_none, findRevokedEntry_eq_none_iff, mem_rawHostKeyEntries, and_assoc]

theorem accepts_certificate_iff {content flags host algorithm : Text} {port : Nat}
    {leaf own details : Buffer} :
    ssh.accepts platform content flags host port (.certificate algorithm leaf own details) = true ↔
      offersAlgorithm flags algorithm = true ∧
        ssh.validCertificate leaf own details host = true ∧
        (∃ entry ∈ findMatchingEntries platform (parseKnownHosts content) host port,
          entry.marker = some CERT_AUTHORITY ∧ entry.key = own) ∧
        NotRevoked (findMatchingEntries platform (parseKnownHosts content) host port) leaf ∧
        NotRevoked (findMatchingEntries platform (parseKnownHosts content) host port) own := by
  simp only [OpenSsh.accepts, Bool.and_eq_true, List.any_eq_true, decide_eq_true_eq,
    Option.isNone_iff_eq_none, findRevokedEntry_eq_none_iff, and_assoc]

/-- A leaf that the written file does not revoke is revoked in known_hosts only if its algorithm
is not a supported one. -/
theorem unsupported_of_unwritten {leaf : Buffer} {entry : KnownHostEntry}
    (loaded : loadRsyncTrustSnapshot platform evidence file = .ok revocations)
    (unlisted : ∀ publicKey ∈ revocations, formatPresentedPublicKey leaf ≠ some publicKey)
    (mem : entry ∈ sessionEntries platform evidence file) (isMarked : entry.marker = some REVOKED)
    (isLeaf : normalizeRevokedKey entry.key = leaf) :
    ∀ algo, extractAlgoFromKey leaf ≠ .ok algo := by
  intro algo isAlgo
  have formatted := formatPresentedPublicKey_eq_some_iff.2 ⟨algo, isAlgo, rfl⟩
  refine unlisted _ ?_ formatted
  rw [(snapshot_ok loaded).1, mem_revokedPublicKeys]
  exact ⟨entry, mem, isMarked, isLeaf ▸ formatted⟩

theorem hostAlgorithmFlags_of_trustsAuthority (trusts : evidence.trustsAuthority = true) :
    hostAlgorithmFlags evidence = [] := by
  cases evidence with
  | key common => rfl
  | certificate common authorityPublicKey =>
    have unpinned : common.explicitPins = false := by
      simpa only [HostVerificationEvidence.trustsAuthority, HostVerificationEvidence.isCertificate,
        HostVerificationEvidence.common, Bool.true_and, Bool.not_eq_true'] using trusts
    simp only [hostAlgorithmFlags, unpinned, if_true]

/-- ssh trusts no more than the session unless a valid certificate has a revoked leaf of an
unsupported algorithm. -/
theorem rsync_trusts_nothing_else_iff (session : SessionEvidence evidence key authority)
    (loaded : loadRsyncTrustSnapshot platform evidence file = .ok revocations) :
    TrustsNothingElse ssh platform evidence key authority file revocations ↔
      RevocationsWritten ssh platform evidence authority file := by
  have areKeys := areKeys_of_snapshot loaded
  obtain ⟨keyKept, authorityKept⟩ := session_notRevoked session loaded
  constructor
  · intro trustsNothingElse trusts selfMatching entry mem isMarked unsupported own isOwn details
    rw [← Bool.not_eq_true]
    intro isValid
    obtain ⟨algo, isAnchor⟩ := (parseRawLine_authority session isOwn trusts).2
    have isTrusted : markedEntry CERT_AUTHORITY evidence.label algo own ∈
        writtenEntries platform evidence revocations :=
      (mem_writtenEntries session areKeys).2
        ⟨selfMatching, .inl (isAnchor ▸ List.mem_singleton_self _)⟩
    have leafUnwritten : NotRevoked (writtenEntries platform evidence revocations)
        (normalizeRevokedKey entry.key) := by
      rw [notRevoked_written_iff session areKeys selfMatching]
      intro publicKey _ formatted
      obtain ⟨algo, isAlgo, _⟩ := formatPresentedPublicKey_eq_some_iff.1 formatted
      exact unsupported algo isAlgo
    have authorityUnwritten : NotRevoked (writtenEntries platform evidence revocations) own :=
      (notRevoked_written_iff session areKeys selfMatching).2 (authorityKept own isOwn).2
    have offered : offersAlgorithm (hostAlgorithmFlags evidence) [] = true := by
      rw [hostAlgorithmFlags_of_trustsAuthority trusts]
      rfl
    have accepted := accepts_certificate_iff.2
      ⟨offered, isValid, ⟨_, isTrusted, rfl, rfl⟩, leafUnwritten, authorityUnwritten⟩
    exact (trustsNothingElse _ accepted).2.1 entry mem isMarked rfl
  · intro written presented accepted
    cases presented with
    | key algorithm presentedKey =>
      obtain ⟨_, ⟨entry, mem, isRaw, isKey⟩, _⟩ := accepts_key_iff.1 accepted
      obtain ⟨trustsKey, isSession⟩ := key_of_written session areKeys mem isRaw
      rw [isKey] at isSession
      subst isSession
      exact ⟨⟨trustsKey, rfl⟩, keyKept⟩
    | certificate algorithm leaf presentedAuthority details =>
      obtain ⟨_, isValid, ⟨entry, mem, isMarked, isKey⟩, leafUnwritten, _⟩ :=
        accepts_certificate_iff.1 accepted
      obtain ⟨trusts, isOwn⟩ := authority_of_written session areKeys mem isMarked
      rw [isKey] at isOwn
      have selfMatching := ((mem_writtenEntries session areKeys).1 mem).1
      refine ⟨⟨trusts, isOwn, isValid⟩, ?_, (authorityKept _ isOwn).1⟩
      intro revoking isEntry isRevoking isLeaf
      have unlisted := (notRevoked_written_iff session areKeys selfMatching).1 leafUnwritten
      have unsupported := unsupported_of_unwritten loaded unlisted isEntry isRevoking isLeaf
      subst isLeaf
      have invalid := written trusts selfMatching revoking isEntry isRevoking unsupported _ isOwn
        details
      rw [isValid] at invalid
      cases invalid

end Law

/-! ### A revoked leaf that the file leaves out -/

def securityKeyText : Text :=
  text "AAAAGnNrLXNzaC1lZDI1NTE5QG9wZW5zc2guY29tAAAAIEBBQkNERUZHSElKS0xNTk9QUVJTVFVWV1hZWltcXV5fAAAABHNzaDo="

def authorityEvidence : HostVerificationEvidence :=
  .certificate
    { explicitPins := false
      host := text "example.com"
      port := 22
      publicKey := text "ssh-ed25519 " ++ secondKeyText
      revocations := [] }
    (text "ssh-ed25519 " ++ firstKeyText)

theorem authorityEvidence_session : SessionEvidence authorityEvidence (decodeBase64 secondKeyText)
      (some (decodeBase64 firstKeyText)) :=
  .certificate (by decide) (by decide +kernel) (by decide +kernel)

/-- known_hosts with the authority and a revoked key -/
def revokingFile (algorithm key : Text) : Text :=
  text "@cert-authority example.com ssh-ed25519 " ++ firstKeyText ++
    text "\n@revoked example.com " ++ algorithm ++ ' ' :: (key ++ text "\n")

/-- The one valid certificate is that of the leaf under the first key. -/
def certifying (leaf : Text) : OpenSsh where
  validCertificate presented authority _ host :=
    presented = decodeBase64 leaf && authority = decodeBase64 firstKeyText &&
      host = text "example.com"

def thirdKeyText : Text :=
  text "AAAAC3NzaC1lZDI1NTE5AAAAIEBBQkNERUZHSElKS0xNTk9QUVJTVFVWV1hZWltcXV5f"

/-- A revoked leaf of a supported algorithm is written, and ssh refuses it. -/
theorem written_revocation_refused :
    TrustsNothingElse (certifying thirdKeyText) asciiPlatform authorityEvidence
      (decodeBase64 secondKeyText) (some (decodeBase64 firstKeyText))
      (some (revokingFile (text "ssh-ed25519") thirdKeyText))
      [text "ssh-ed25519 " ++ thirdKeyText] := by
  have loaded : loadRsyncTrustSnapshot asciiPlatform authorityEvidence
      (some (revokingFile (text "ssh-ed25519") thirdKeyText)) =
        .ok [text "ssh-ed25519 " ++ thirdKeyText] := by
    decide +kernel
  have supported : ∀ entry ∈ sessionEntries asciiPlatform authorityEvidence
      (some (revokingFile (text "ssh-ed25519") thirdKeyText)), entry.marker = some REVOKED →
        extractAlgoFromKey (normalizeRevokedKey entry.key) = .ok (text "ssh-ed25519") := by
    decide +kernel
  refine (rsync_trusts_nothing_else_iff authorityEvidence_session loaded).2 ?_
  intro _ _ entry mem isMarked unsupported
  exact absurd (supported entry mem isMarked) (unsupported _)

/-- A revoked security key is not written, and ssh accepts its certificate. -/
theorem security_key_revocation_lost :
    ¬∀ (ssh : OpenSsh) (platform : Platform) (evidence : HostVerificationEvidence) (key : Buffer)
      (authority : Option Buffer) (file : Option Text) (revocations : List Text),
      SessionEvidence evidence key authority →
      loadRsyncTrustSnapshot platform evidence file = .ok revocations →
      TrustsNothingElse ssh platform evidence key authority file revocations := by
  intro trustsNothingElse
  let file := revokingFile (text "sk-ssh-ed25519@openssh.com") securityKeyText
  let presented := Presented.certificate (text "sk-ssh-ed25519-cert-v01@openssh.com")
    (decodeBase64 securityKeyText) (decodeBase64 firstKeyText) []
  have loaded : loadRsyncTrustSnapshot asciiPlatform authorityEvidence (some file) = .ok [] := by
    decide +kernel
  have accepted : (certifying securityKeyText).accepts asciiPlatform
      (createVerifiedKnownHostsFile authorityEvidence []) (hostAlgorithmFlags authorityEvidence)
      authorityEvidence.common.host authorityEvidence.common.port presented = true := by
    decide +kernel
  have revoked : ∃ entry ∈ sessionEntries asciiPlatform authorityEvidence (some file),
      entry.marker = some REVOKED ∧
        normalizeRevokedKey entry.key = decodeBase64 securityKeyText := by
    decide +kernel
  have kept := (trustsNothingElse (certifying securityKeyText) asciiPlatform authorityEvidence
    (decodeBase64 secondKeyText) (some (decodeBase64 firstKeyText)) (some file) []
    authorityEvidence_session loaded presented accepted).2.1
  obtain ⟨entry, mem, isMarked, isLeaf⟩ := revoked
  exact kept entry mem isMarked isLeaf

end Paratix.Keys
