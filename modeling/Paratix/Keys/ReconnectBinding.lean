/-
Module: Paratix.Keys.ReconnectBinding
Purpose: The host keys of a connection over its connect attempts; over every run of a connection
  its sessions stay bound to the first raw key.
Main exports: SshConnection, reconnect_host_key_binding
-/
import Paratix.Keys.VerifierSound
import Mathlib.Data.List.Chain

namespace Paratix.Keys

open Archive

/-! ### Attempts -/

/-- What an attempt fails with. -/
inductive ConnectError where
  | hostKeyVerification
  | permanentKey
  | aborted
  | other
deriving DecidableEq, Repr

/-- What the verifier of an attempt does with a key. -/
inductive VerifierAnswer where
  /-- It returns true, with the evidence after the call. -/
  | accepted (evidence : Option HostVerificationEvidence)
  | refused
  | threw (error : ConnectError)
deriving DecidableEq

structure VerifierCall where
  key : Buffer
  answer : VerifierAnswer
deriving DecidableEq

/-- Where an attempt ends. -/
inductive AttemptEnding where
  /-- Before a key was presented -/
  | unreachable (error : ConnectError)
  /-- Before the handshake completed -/
  | dropped (error : ConnectError)
  /-- Between the handshake and the commit -/
  | transitionFailed (error : ConnectError)
  /-- Between the commit and the registration of the client -/
  | notPersisted (error : ConnectError)
  | registered
deriving DecidableEq

/-- What an attempt meets: a key is presented at least once before a handshake completes. -/
structure AttemptScript where
  /-- Whether `buildHostVerifier` built a verifier, where it did not throw -/
  verifier : Except ConnectError Bool
  first : VerifierCall
  more : List VerifierCall
  ending : AttemptEnding

/-- A committed attempt: the keys that it accepted, in order, and its evidence. -/
structure CommittedAttempt where
  keys : List Buffer
  evidence : Option HostVerificationEvidence
deriving DecidableEq

structure SshConnection where
  host : Text
  ports : List Nat
  /-- The port of the registered client -/
  client : Option Nat
  verifiedHostKey : Option Buffer
  pinnedHostKey : Option Buffer
  hostVerificationEvidence : Option HostVerificationEvidence
  /-- The committed attempts so far -/
  committed : List CommittedAttempt
deriving DecidableEq

/-- A connection before its first attempt -/
def SshConnection.initial (host : Text) (ports : List Nat) : SshConnection where
  host := host
  ports := ports
  client := none
  verifiedHostKey := none
  pinnedHostKey := none
  hostVerificationEvidence := none
  committed := []

def isCertificateOnlyEvidence : Option HostVerificationEvidence → Bool
  | some (.certificate common _) => !common.explicitPins
  | _ => false

/-! ### One attempt -/

/-- The key that a handshake has to present -/
def reconnectKey (connection : SshConnection) (certificateOnly : Bool) : Option Buffer :=
  match connection.pinnedHostKey with
  | some pinned => some pinned
  | none =>
      if certificateOnly && isCertificateOnlyEvidence connection.hostVerificationEvidence then none
      else connection.verifiedHostKey

def assertReconnectHostKey (connection : SshConnection) (key : Buffer) (certificateOnly : Bool) :
    Except ConnectError Unit :=
  match reconnectKey connection certificateOnly with
  | none => .ok ()
  | some bound => if bound = key then .ok () else .error .hostKeyVerification

/-- The variables of a host key attempt -/
structure HostKeyAttempt where
  acceptedPinnedHostKey : Option Buffer
  acceptedVerifiedHostKey : Option Buffer
  /-- `verifier.evidence?.()` -/
  evidence : Option HostVerificationEvidence
  /-- The keys accepted so far -/
  keys : List Buffer
deriving DecidableEq

def HostKeyAttempt.initial : HostKeyAttempt where
  acceptedPinnedHostKey := none
  acceptedVerifiedHostKey := none
  evidence := none
  keys := []

/-- The answer of a missing verifier counts as acceptance without evidence. -/
def answerOf (verifying : Bool) (call : VerifierCall) : VerifierAnswer :=
  if verifying then call.answer else .accepted none

/-- `hostVerifier` of an attempt -/
def HostKeyAttempt.hostVerifier (connection : SshConnection) (verifying : Bool)
    (call : VerifierCall) (attempt : HostKeyAttempt) : Except ConnectError HostKeyAttempt :=
  match answerOf verifying call with
  | .threw error => .error error
  | .refused => .error .other
  | .accepted evidence =>
      let certificateOnly := isCertificateOnlyEvidence evidence
      match assertReconnectHostKey connection call.key certificateOnly with
      | .error error => .error error
      | .ok () =>
          .ok {
            acceptedPinnedHostKey :=
              if certificateOnly then attempt.acceptedPinnedHostKey
              else attempt.acceptedPinnedHostKey.or (some call.key)
            acceptedVerifiedHostKey :=
              if verifying then attempt.acceptedVerifiedHostKey.or (some call.key)
              else attempt.acceptedVerifiedHostKey
            evidence := evidence
            keys := attempt.keys ++ [call.key] }

/-- The calls of the transport; the first one that is not accepted ends the handshake. -/
def HostKeyAttempt.hostVerifierCalls (connection : SshConnection) (verifying : Bool) :
    List VerifierCall → HostKeyAttempt → Except ConnectError HostKeyAttempt
  | [], attempt => .ok attempt
  | call :: calls, attempt =>
      match attempt.hostVerifier connection verifying call with
      | .error error => .error error
      | .ok next => next.hostVerifierCalls connection verifying calls

def SshConnection.commit (connection : SshConnection) (attempt : HostKeyAttempt) : SshConnection :=
  { connection with
    verifiedHostKey := attempt.acceptedVerifiedHostKey
    hostVerificationEvidence := attempt.evidence
    pinnedHostKey := connection.pinnedHostKey.or attempt.acceptedPinnedHostKey
    committed := connection.committed ++ [{ keys := attempt.keys, evidence := attempt.evidence }] }

/-- The connection after the attempt, and its error -/
def performConnectAttemptOnPort (connection : SshConnection) (port : Nat)
    (script : AttemptScript) : SshConnection × Option ConnectError :=
  match script.verifier, script.ending with
  | .error error, _ => (connection, some error)
  | .ok _, .unreachable error => (connection, some error)
  | .ok verifying, ending =>
      match HostKeyAttempt.initial.hostVerifierCalls connection verifying
          (script.first :: script.more) with
      | .error error => (connection, some error)
      | .ok attempt =>
          match ending with
          | .unreachable error | .dropped error | .transitionFailed error =>
              (connection, some error)
          | .notPersisted error => (connection.commit attempt, some error)
          | .registered => ({ connection.commit attempt with client := some port }, none)

/-! ### Runs of a connection -/

/-- `handleTryConnectError` throws again, instead of letting the next port be tried. -/
def ConnectError.rethrown : ConnectError → Bool
  | .hostKeyVerification | .permanentKey | .aborted => true
  | .other => false

/-- Whether a port connected, or the error that ended the attempts -/
def tryConnectOnPorts : List (Nat × AttemptScript) → SshConnection →
    SshConnection × Except ConnectError Bool
  | [], connection => (connection, .ok false)
  | (port, script) :: rest, connection =>
      match performConnectAttemptOnPort connection port script with
      | (after, none) => (after, .ok true)
      | (after, some error) =>
          if error.rethrown then (after, .error error) else tryConnectOnPorts rest after

/-- What is done with a connection; `connect` and `reconnect` are made of the first two. -/
inductive Operation where
  /-- One script for each port that is tried before the deadline -/
  | tryConnectOnPorts (scripts : List AttemptScript)
  | disconnectTransport
  | updateHost (host : Text)
  | addPort (port : Nat)
  | removePort (port : Nat)

def runOperation (connection : SshConnection) : Operation → SshConnection
  | .tryConnectOnPorts scripts => (tryConnectOnPorts (connection.ports.zip scripts) connection).1
  | .disconnectTransport => { connection with client := none }
  | .updateHost host => { connection with host := host }
  | .addPort port =>
      if port ∈ connection.ports then connection
      else { connection with ports := connection.ports ++ [port] }
  | .removePort port => { connection with ports := connection.ports.filter (· ≠ port) }

def runOperations (connection : SshConnection) (operations : List Operation) : SshConnection :=
  operations.foldl runOperation connection

/-- The attempt presented this key, however often its verifier was called. -/
def CommittedAttempt.Presents (attempt : CommittedAttempt) (key : Buffer) : Prop :=
  attempt.keys ≠ [] ∧ ∀ own ∈ attempt.keys, own = key

def CommittedAttempt.certificateOnly (attempt : CommittedAttempt) : Bool :=
  isCertificateOnlyEvidence attempt.evidence

/-! ### The calls of one attempt -/

section Calls

variable {connection : SshConnection} {verifying : Bool} {attempt next : HostKeyAttempt}

/-- What an attempt has accepted, and how it is bound to the connection. -/
structure Accepts (connection : SshConnection) (attempt : HostKeyAttempt) : Prop where
  pinned : ∀ pinned, connection.pinnedHostKey = some pinned → ∀ key ∈ attempt.keys, key = pinned
  accepted : ∀ pinned, attempt.acceptedPinnedHostKey = some pinned → pinned ∈ attempt.keys
  /-- The last call tells what kind of evidence there is. -/
  raw : attempt.keys ≠ [] → isCertificateOnlyEvidence attempt.evidence = false →
    attempt.acceptedPinnedHostKey.isSome ∧
      ∀ bound, reconnectKey connection false = some bound → bound ∈ attempt.keys
  certificate : isCertificateOnlyEvidence attempt.evidence = true →
    attempt.acceptedVerifiedHostKey.isSome
  verified : ∀ verified, attempt.acceptedVerifiedHostKey = some verified →
    verified ∈ attempt.keys

theorem accepts_initial (connection : SshConnection) : Accepts connection .initial :=
  ⟨fun _ _ => nofun, nofun, fun nonempty => absurd rfl nonempty, nofun, nofun⟩

theorem assertReconnectHostKey_ok {key : Buffer} {certificateOnly : Bool}
    (accepted : assertReconnectHostKey connection key certificateOnly = .ok ()) :
    ∀ bound, reconnectKey connection certificateOnly = some bound → bound = key := by
  intro bound isBound
  unfold assertReconnectHostKey at accepted
  rw [isBound] at accepted
  dsimp only at accepted
  split at accepted
  next same => exact same
  · cases accepted

theorem mem_of_or_eq_some {accepted : Option Buffer} {keys : List Buffer} {key found : Buffer}
    (members : ∀ own, accepted = some own → own ∈ keys) (isFound : accepted.or (some key) = some found) :
    found ∈ keys ++ [key] := by
  rcases Option.or_eq_some_iff.1 isFound with isOld | ⟨_, isNew⟩
  · exact List.mem_append_left _ (members found isOld)
  · cases isNew
    exact List.mem_append_right _ (List.mem_singleton_self _)

theorem accepts_hostVerifier {call : VerifierCall} (accepts : Accepts connection attempt)
    (accepted : attempt.hostVerifier connection verifying call = .ok next) :
    Accepts connection next ∧ next.keys = attempt.keys ++ [call.key] := by
  unfold HostKeyAttempt.hostVerifier at accepted
  split at accepted
  · cases accepted
  · cases accepted
  next evidence isAnswer =>
    dsimp only at accepted
    split at accepted
    · cases accepted
    next asserted =>
      cases accepted
      have bound := assertReconnectHostKey_ok asserted
      refine ⟨⟨?_, ?_, ?_, ?_, ?_⟩, rfl⟩
      · intro pinned isPinned key mem
        rcases List.mem_append.1 mem with isOld | isNew
        · exact accepts.pinned pinned isPinned key isOld
        · rw [List.mem_singleton.1 isNew]
          refine (bound pinned ?_).symm
          rw [reconnectKey, isPinned]
      · intro pinned isPinned
        dsimp only at isPinned
        split at isPinned
        · exact List.mem_append_left _ (accepts.accepted pinned isPinned)
        · exact mem_of_or_eq_some accepts.accepted isPinned
      · intro _ isRaw
        dsimp only at isRaw ⊢
        rw [isRaw, if_neg Bool.false_ne_true, Option.isSome_or, Option.isSome_some, Bool.or_true]
        refine ⟨rfl, fun own isOwn => ?_⟩
        rw [isRaw] at bound
        rw [bound own isOwn]
        exact List.mem_append_right _ (List.mem_singleton_self _)
      · intro isCertificate
        dsimp only at isCertificate ⊢
        -- without a verifier there is no evidence
        cases verifying with
        | false =>
          cases isAnswer
          cases isCertificate
        | true => rw [if_pos rfl, Option.isSome_or, Option.isSome_some, Bool.or_true]
      · intro verified isVerified
        dsimp only at isVerified
        split at isVerified
        · exact mem_of_or_eq_some accepts.verified isVerified
        · exact List.mem_append_left _ (accepts.verified verified isVerified)

theorem accepts_hostVerifierCalls {calls : List VerifierCall} :
    ∀ {attempt : HostKeyAttempt}, Accepts connection attempt →
      attempt.hostVerifierCalls connection verifying calls = .ok next →
      Accepts connection next ∧ next.keys = attempt.keys ++ calls.map (·.key) := by
  induction calls with
  | nil =>
    intro attempt accepts accepted
    cases accepted
    exact ⟨accepts, (List.append_nil _).symm⟩
  | cons call calls ih =>
    intro attempt accepts accepted
    rw [HostKeyAttempt.hostVerifierCalls] at accepted
    split at accepted
    · cases accepted
    next middle isMiddle =>
      obtain ⟨middleAccepts, middleKeys⟩ := accepts_hostVerifier accepts isMiddle
      obtain ⟨nextAccepts, nextKeys⟩ := ih middleAccepts accepted
      refine ⟨nextAccepts, ?_⟩
      rw [nextKeys, middleKeys, List.map_cons, List.append_assoc]
      rfl

end Calls

/-! ### The history of a connection -/

/-- A committed attempt with a raw key binds every later one to that key. -/
def BindsRaw (earlier later : CommittedAttempt) : Prop :=
  earlier.certificateOnly = false → ∀ key, earlier.Presents key → later.Presents key

/-- After a session with a certificate only, another key takes another certificate. -/
def RotatesByCertificate (earlier later : CommittedAttempt) : Prop :=
  earlier.certificateOnly = true → later.certificateOnly = false →
    ∀ key laterKey, earlier.Presents key → later.Presents laterKey → laterKey = key

/-- What the fields of a connection say about its committed attempts. -/
structure Bound (connection : SshConnection) : Prop where
  pinned : ∀ earlier ∈ connection.committed, earlier.certificateOnly = false →
    ∀ key, earlier.Presents key → connection.pinnedHostKey = some key
  bindsRaw : connection.committed.Pairwise BindsRaw
  rotates : connection.committed.IsChain RotatesByCertificate
  last : ∀ last, connection.committed.getLast? = some last → ∀ key, last.Presents key →
    connection.pinnedHostKey = some key ∨
      (connection.pinnedHostKey = none ∧ connection.verifiedHostKey = some key)

theorem bound_initial (host : Text) (ports : List Nat) : Bound (.initial host ports) :=
  ⟨nofun, .nil, .nil, nofun⟩

section Commit

variable {connection : SshConnection} {attempt : HostKeyAttempt}

/-- The attempt as the history records it -/
def HostKeyAttempt.recorded (attempt : HostKeyAttempt) : CommittedAttempt :=
  { keys := attempt.keys, evidence := attempt.evidence }

theorem presents_of_pinned {pinned : Buffer} (accepts : Accepts connection attempt)
    (nonempty : attempt.keys ≠ []) (isPinned : connection.pinnedHostKey = some pinned) :
    attempt.recorded.Presents pinned :=
  ⟨nonempty, accepts.pinned pinned isPinned⟩

/-- A presented key is the pinned one after the commit, if there is one. -/
theorem pinned_commit {key pinned : Buffer} (accepts : Accepts connection attempt)
    (presents : attempt.recorded.Presents key)
    (isPinned : (connection.commit attempt).pinnedHostKey = some pinned) : pinned = key := by
  rcases Option.or_eq_some_iff.1 isPinned with isOld | ⟨_, isNew⟩
  · obtain ⟨own, mem⟩ := List.exists_mem_of_ne_nil _ presents.1
    rw [← accepts.pinned pinned isOld own mem]
    exact presents.2 own mem
  · exact presents.2 pinned (accepts.accepted pinned isNew)

theorem pinned_commit_of_raw {key : Buffer} (accepts : Accepts connection attempt)
    (isRaw : attempt.recorded.certificateOnly = false) (presents : attempt.recorded.Presents key) :
    (connection.commit attempt).pinnedHostKey = some key := by
  have isSome : (connection.commit attempt).pinnedHostKey.isSome = true := by
    have accepted := (accepts.raw presents.1 isRaw).1
    rw [SshConnection.commit, Option.isSome_or, accepted, Bool.or_true]
  obtain ⟨pinned, isPinned⟩ := Option.isSome_iff_exists.1 isSome
  rw [isPinned, pinned_commit accepts presents isPinned]

theorem last_commit {key : Buffer} (accepts : Accepts connection attempt)
    (presents : attempt.recorded.Presents key) :
    (connection.commit attempt).pinnedHostKey = some key ∨
      ((connection.commit attempt).pinnedHostKey = none ∧
        (connection.commit attempt).verifiedHostKey = some key) := by
  cases isPinned : (connection.commit attempt).pinnedHostKey with
  | some pinned =>
    rw [pinned_commit accepts presents isPinned]
    exact .inl rfl
  | none =>
    refine .inr ⟨rfl, ?_⟩
    have isCertificate : attempt.recorded.certificateOnly = true := by
      rw [← Bool.not_eq_false]
      intro isRaw
      rw [pinned_commit_of_raw accepts isRaw presents] at isPinned
      cases isPinned
    obtain ⟨verified, isVerified⟩ := Option.isSome_iff_exists.1 (accepts.certificate isCertificate)
    rw [SshConnection.commit, isVerified, presents.2 verified (accepts.verified verified isVerified)]

theorem bound_commit (bound : Bound connection) (accepts : Accepts connection attempt)
    (nonempty : attempt.keys ≠ []) : Bound (connection.commit attempt) := by
  have kept {key : Buffer} (isPinned : connection.pinnedHostKey = some key) :
      (connection.commit attempt).pinnedHostKey = some key := by
    rw [SshConnection.commit, isPinned, Option.some_or]
  refine ⟨?_, ?_, ?_, ?_⟩
  · intro earlier mem isRaw key presents
    rcases List.mem_append.1 mem with isOld | isNew
    · exact kept (bound.pinned earlier isOld isRaw key presents)
    · rw [List.mem_singleton.1 isNew] at isRaw presents
      exact pinned_commit_of_raw accepts isRaw presents
  · refine List.pairwise_append.2 ⟨bound.bindsRaw, List.pairwise_singleton _ _, ?_⟩
    intro earlier mem later isLater isRaw key presents
    rw [List.mem_singleton.1 isLater]
    exact presents_of_pinned accepts nonempty (bound.pinned earlier mem isRaw key presents)
  · refine List.isChain_append.2 ⟨bound.rotates, .singleton _, ?_⟩
    intro earlier isLast later isLater _ isRaw key laterKey presents laterPresents
    cases isLater
    rcases bound.last earlier isLast key presents with isPinned | ⟨noPin, isVerified⟩
    · obtain ⟨own, mem⟩ := List.exists_mem_of_ne_nil _ nonempty
      rw [← laterPresents.2 own mem, accepts.pinned key isPinned own mem]
    · have isBound : reconnectKey connection false = some key := by
        rw [reconnectKey, noPin]
        exact isVerified
      exact (laterPresents.2 key ((accepts.raw nonempty isRaw).2 key isBound)).symm
  · intro last isLast key presents
    rw [SshConnection.commit, List.getLast?_concat] at isLast
    cases isLast
    exact last_commit accepts presents

end Commit

/-! ### Runs -/

/-- The trust of a connection: its keys and its evidence -/
def SameTrust (connection after : SshConnection) : Prop :=
  after.verifiedHostKey = connection.verifiedHostKey ∧
    after.pinnedHostKey = connection.pinnedHostKey ∧
    after.hostVerificationEvidence = connection.hostVerificationEvidence ∧
    after.committed = connection.committed

/-- What one step does to the trust: nothing, or a commit of an attempt that it accepted. -/
def TrustStep (connection after : SshConnection) : Prop :=
  SameTrust connection after ∨ ∃ attempt, Accepts connection attempt ∧ attempt.keys ≠ [] ∧
    SameTrust (connection.commit attempt) after

theorem performConnectAttemptOnPort_trustStep (connection : SshConnection) (port : Nat)
    (script : AttemptScript) :
    TrustStep connection (performConnectAttemptOnPort connection port script).1 := by
  have same : TrustStep connection connection := .inl ⟨rfl, rfl, rfl, rfl⟩
  unfold performConnectAttemptOnPort
  split
  · exact same
  · exact same
  · split
    · exact same
    next attempt accepted =>
      obtain ⟨accepts, keys⟩ := accepts_hostVerifierCalls (accepts_initial connection) accepted
      have nonempty : attempt.keys ≠ [] := by
        rw [keys, List.map_cons]
        exact List.append_ne_nil_of_right_ne_nil _ (List.cons_ne_nil _ _)
      have committed (client : Option Nat) :
          TrustStep connection { connection.commit attempt with client := client } :=
        .inr ⟨attempt, accepts, nonempty, rfl, rfl, rfl, rfl⟩
      split
      · exact same
      · exact same
      · exact same
      · exact committed connection.client
      · exact committed (some port)

/-- A property of the trust that every commit keeps is kept by every run. -/
theorem runOperations_keeps {kept : SshConnection → Prop}
    (keeps : ∀ connection after, kept connection → TrustStep connection after → kept after)
    (operations : List Operation) :
    ∀ {connection : SshConnection}, kept connection → kept (runOperations connection operations) := by
  have attempts (scripts : List (Nat × AttemptScript)) :
      ∀ {connection : SshConnection}, kept connection →
        kept (tryConnectOnPorts scripts connection).1 := by
    induction scripts with
    | nil => exact id
    | cons first rest ih =>
      intro connection holds
      have step := performConnectAttemptOnPort_trustStep connection first.1 first.2
      rw [tryConnectOnPorts]
      split
      next after isAfter =>
        rw [isAfter] at step
        exact keeps connection after holds step
      next after error isAfter =>
        rw [isAfter] at step
        have holdsAfter := keeps connection after holds step
        split
        · exact holdsAfter
        · exact ih holdsAfter
  have same {connection after : SshConnection} (holds : kept connection)
      (sameTrust : SameTrust connection after) : kept after :=
    keeps connection after holds (.inl sameTrust)
  induction operations with
  | nil => exact id
  | cons operation operations ih =>
    intro connection holds
    refine ih ?_
    cases operation with
    | tryConnectOnPorts scripts => exact attempts _ holds
    | disconnectTransport => exact same holds ⟨rfl, rfl, rfl, rfl⟩
    | updateHost host => exact same holds ⟨rfl, rfl, rfl, rfl⟩
    | addPort port =>
      rw [runOperation]
      split
      · exact holds
      · exact same holds ⟨rfl, rfl, rfl, rfl⟩
    | removePort port => exact same holds ⟨rfl, rfl, rfl, rfl⟩

theorem Bound.sameTrust {connection after : SshConnection} (bound : Bound connection)
    (same : SameTrust connection after) : Bound after := by
  obtain ⟨verified, pinned, _, committed⟩ := same
  constructor
  · rw [committed, pinned]
    exact bound.pinned
  · rw [committed]
    exact bound.bindsRaw
  · rw [committed]
    exact bound.rotates
  · rw [committed, pinned, verified]
    exact bound.last

theorem Bound.trustStep {connection after : SshConnection} (bound : Bound connection)
    (step : TrustStep connection after) : Bound after := by
  rcases step with same | ⟨attempt, accepts, nonempty, same⟩
  · exact bound.sameTrust same
  · exact (bound_commit bound accepts nonempty).sameTrust same

theorem pinned_trustStep {connection after : SshConnection} {pinned : Buffer}
    (isPinned : connection.pinnedHostKey = some pinned) (step : TrustStep connection after) :
    after.pinnedHostKey = some pinned := by
  rcases step with ⟨_, same, _⟩ | ⟨attempt, _, _, _, same, _⟩
  · rw [same, isPinned]
  · rw [same, SshConnection.commit, isPinned, Option.some_or]

/-! ### Attempts that fail -/

/-- The attempt is rejected, or it fails before its handshake completes. -/
inductive FailsBeforeHandshake (connection : SshConnection) (script : AttemptScript) : Prop where
  | unverifiable (error : ConnectError) (isError : script.verifier = .error error)
  | unreachable (error : ConnectError) (isEnding : script.ending = .unreachable error)
  | dropped (error : ConnectError) (isEnding : script.ending = .dropped error)
  | rejected (call : VerifierCall) (mem : call ∈ script.first :: script.more)
      (isVerifier : script.verifier = .ok true)
      (isRejected : ∀ evidence, call.answer ≠ .accepted evidence)
  | changed (call : VerifierCall) (mem : call ∈ script.first :: script.more) (verifying : Bool)
      (isVerifier : script.verifier = .ok verifying)
      (evidence : Option HostVerificationEvidence)
      (isAccepted : answerOf verifying call = .accepted evidence) (bound : Buffer)
      (isBound : reconnectKey connection (isCertificateOnlyEvidence evidence) = some bound)
      (differs : bound ≠ call.key)

/-- Every call of a handshake that went on was accepted. -/
theorem accepted_of_hostVerifierCalls {connection : SshConnection} {verifying : Bool}
    {calls : List VerifierCall} {next : HostKeyAttempt} : ∀ {attempt : HostKeyAttempt},
      attempt.hostVerifierCalls connection verifying calls = .ok next →
      ∀ call ∈ calls, ∃ evidence, answerOf verifying call = .accepted evidence ∧
        ∀ bound, reconnectKey connection (isCertificateOnlyEvidence evidence) = some bound →
          bound = call.key := by
  induction calls with
  | nil => exact fun _ _ => nofun
  | cons first calls ih =>
    intro attempt accepted call mem
    rw [HostKeyAttempt.hostVerifierCalls] at accepted
    split at accepted
    · cases accepted
    next middle isMiddle =>
      rcases List.mem_cons.1 mem with rfl | isLater
      · unfold HostKeyAttempt.hostVerifier at isMiddle
        split at isMiddle
        · cases isMiddle
        · cases isMiddle
        next evidence isAnswer =>
          refine ⟨evidence, isAnswer, ?_⟩
          dsimp only at isMiddle
          split at isMiddle
          · cases isMiddle
          next asserted => exact assertReconnectHostKey_ok asserted
      · exact ih accepted call isLater

theorem unchanged_of_failsBeforeHandshake {connection : SshConnection} {script : AttemptScript}
    (port : Nat) (fails : FailsBeforeHandshake connection script) :
    (performConnectAttemptOnPort connection port script).1 = connection := by
  unfold performConnectAttemptOnPort
  split
  · rfl
  · rfl
  next verifying isVerifier reachable =>
    split
    · rfl
    next attempt accepted =>
      have isAccepted := accepted_of_hostVerifierCalls accepted
      cases fails with
      | unverifiable error isError =>
        rw [isVerifier] at isError
        cases isError
      | unreachable error isEnding => exact absurd isEnding (reachable error)
      | dropped error isEnding => rw [isEnding]
      | rejected call mem isTrue isRejected =>
        obtain ⟨evidence, isAnswer, _⟩ := isAccepted call mem
        rw [isVerifier] at isTrue
        cases isTrue
        exact absurd isAnswer (isRejected evidence)
      | changed call mem own isOwn evidence isAnswer bound isBound differs =>
        rw [isVerifier] at isOwn
        cases isOwn
        obtain ⟨found, isFound, same⟩ := isAccepted call mem
        rw [isAnswer] at isFound
        cases isFound
        exact absurd (same bound isBound) differs

/-! ### The law -/

/-- The binding of a connection to its host key -/
structure ReconnectBinding (connection : SshConnection) : Prop where
  bindsRaw : connection.committed.Pairwise BindsRaw
  rotates : connection.committed.IsChain RotatesByCertificate
  pinnedForever : ∀ pinned, connection.pinnedHostKey = some pinned → ∀ operations,
    (runOperations connection operations).pinnedHostKey = some pinned
  failuresLeaveTrust : ∀ port script, FailsBeforeHandshake connection script →
    SameTrust connection (performConnectAttemptOnPort connection port script).1

theorem reconnect_host_key_binding (host : Text) (ports : List Nat)
    (operations : List Operation) :
    ReconnectBinding (runOperations (.initial host ports) operations) := by
  have bound : Bound (runOperations (.initial host ports) operations) :=
    runOperations_keeps (fun _ _ => Bound.trustStep) operations (bound_initial host ports)
  refine ⟨bound.bindsRaw, bound.rotates, fun pinned isPinned more => ?_,
    fun port script fails => ?_⟩
  · exact runOperations_keeps (fun _ _ => pinned_trustStep) more isPinned
  · rw [unchanged_of_failsBeforeHandshake port fails]
    exact ⟨rfl, rfl, rfl, rfl⟩

end Paratix.Keys
