/-
Module: Paratix.Keys.PublicKey
Purpose: The host patterns of known_hosts: globs, negations and hashed hosts; the wire format of
  public keys and the values that `ssh.authorizedKeys` accepts.
Main exports: Platform, oneLine_of_accepted
-/
import Paratix.Archive.Member
import Paratix.Foundation.Base64
import Paratix.Foundation.Words

namespace Paratix.Keys

open Foundation Archive

abbrev Buffer := List UInt8

/-- What the runtime provides. -/
structure Platform where
  /-- `text.toLowerCase()` -/
  toLowerCase : Text → Text
  /-- `createHmac("sha1", salt).update(text).digest()` -/
  hmacSha1 : Buffer → Text → Buffer
  /-- `createHash("sha256").update(buffer).digest()` -/
  sha256 : Buffer → Buffer

/-! ### Globs -/

structure HostPatternMatchState where
  needleIndex : Nat
  patternIndex : Nat
  /-- The last star; `none` stands for -1. -/
  starIndex : Option Nat
  starNeedleIndex : Nat
deriving DecidableEq

def HostPatternMatchState.initial : HostPatternMatchState :=
  { needleIndex := 0, patternIndex := 0, starIndex := none, starNeedleIndex := 0 }

section Globs

variable {α : Type*} [DecidableEq α] (star any : α)

/-- One round of the loop, with the characters that `*` and `?` are. -/
def advanceHostPatternMatch (pattern needle : List α) (state : HostPatternMatchState) :
    Option HostPatternMatchState :=
  let patternCharacter := pattern[state.patternIndex]?
  if patternCharacter = some any ∨ patternCharacter = needle[state.needleIndex]? then
    some { state with
      needleIndex := state.needleIndex + 1
      patternIndex := state.patternIndex + 1 }
  else if patternCharacter = some star then
    some { state with
      patternIndex := state.patternIndex + 1
      starIndex := some state.patternIndex
      starNeedleIndex := state.needleIndex }
  else
    match state.starIndex with
    | none => none
    | some starIndex =>
        let starNeedleIndex := state.starNeedleIndex + 1
        some { state with
          needleIndex := starNeedleIndex
          patternIndex := starIndex + 1
          starNeedleIndex := starNeedleIndex }

/-- The first loop of the source, for as many rounds as there is fuel. -/
def matchNeedle (pattern needle : List α) :
    Nat → HostPatternMatchState → Option HostPatternMatchState
  | 0, _ => none
  | fuel + 1, state =>
      if state.needleIndex < needle.length then
        match advanceHostPatternMatch star any pattern needle state with
        | none => none
        | some nextState => matchNeedle pattern needle fuel nextState
      else some state

/-- More rounds than the first loop takes. -/
def matchFuel (pattern needle : List α) : Nat :=
  (pattern.length + 2) * ((needle.length + 1) * (needle.length + 1))

/-- `matchesHostPattern` over any characters, such as the code units of a string -/
def matchesHostPatternOver (pattern needle : List α) : Bool :=
  match matchNeedle star any pattern needle (matchFuel pattern needle) .initial with
  | none => false
  | some state => (pattern.drop state.patternIndex).all (· = star)

end Globs

def matchesHostPattern (pattern needle : Text) : Bool :=
  matchesHostPatternOver '*' '?' pattern needle

/-! ### Pattern lists -/

def HASHED_MARK : Text := "|1|".toList

def HASHED_HOST_PARTS : Nat := 4

def matchesHashedHost (platform : Platform) (pattern needle : Text) : Bool :=
  if HASHED_MARK.isPrefixOf pattern = false then false
  else
    let parts := pattern.splitOn '|'
    if parts.length ≠ HASHED_HOST_PARTS ∨ parts[1]? ≠ some ['1'] then false
    else
      let salt := decodeBase64 (parts[2]?.getD [])
      let expectedHash := decodeBase64 (parts[3]?.getD [])
      if salt = [] ∨ expectedHash = [] then false
      else platform.hmacSha1 salt needle = expectedHash

def matchesPlainHostPattern (platform : Platform) (pattern needle : Text) : Bool :=
  if HASHED_MARK.isPrefixOf pattern then false
  else matchesHostPattern (platform.toLowerCase pattern) (platform.toLowerCase needle)

/-- A pattern of the list without its negation -/
def positivePattern (rawPattern : Text) : Bool × Text :=
  match rawPattern with
  | '!' :: pattern => (true, pattern)
  | pattern => (false, pattern)

def matchesPatternsFrom (platform : Platform) (needle : Text) : Bool → List Text → Bool
  | matchedPositivePattern, [] => matchedPositivePattern
  | matchedPositivePattern, rawPattern :: patterns =>
      let (negated, pattern) := positivePattern rawPattern
      if pattern = [] then matchesPatternsFrom platform needle matchedPositivePattern patterns
      else if matchesHashedHost platform pattern needle ||
          matchesPlainHostPattern platform pattern needle then
        if negated then false else matchesPatternsFrom platform needle true patterns
      else matchesPatternsFrom platform needle matchedPositivePattern patterns

def matchesKnownHostPatternList (platform : Platform) (patterns : List Text) (needle : Text) :
    Bool :=
  matchesPatternsFrom platform needle false patterns

/-! ### A text as its own pattern -/

theorem matchNeedle_self (text : Text) :
    ∀ fuel index, index ≤ text.length → text.length - index < fuel →
      matchNeedle '*' '?' text text fuel
          { needleIndex := index, patternIndex := index, starIndex := none, starNeedleIndex := 0 } =
        some { needleIndex := text.length, patternIndex := text.length, starIndex := none,
               starNeedleIndex := 0 } := by
  intro fuel
  induction fuel with
  | zero => intro index _ enough; omega
  | succ fuel ih =>
    intro index inside enough
    by_cases more : index < text.length
    · rw [matchNeedle, if_pos more, advanceHostPatternMatch]
      simp only [or_true, if_true]
      exact ih (index + 1) more (by omega)
    · have atEnd : index = text.length := by omega
      subst atEnd
      rw [matchNeedle, if_neg more]

theorem matchesHostPattern_self (text : Text) : matchesHostPattern text text = true := by
  have enough : text.length - 0 < matchFuel text text := by
    unfold matchFuel
    have square : 1 ≤ (text.length + 1) * (text.length + 1) := Nat.mul_pos (by omega) (by omega)
    calc text.length - 0 < text.length + 2 := by omega
      _ ≤ (text.length + 2) * ((text.length + 1) * (text.length + 1)) :=
        Nat.le_mul_of_pos_right _ square
  have matched := matchNeedle_self text (matchFuel text text) 0 (Nat.zero_le _) enough
  rw [matchesHostPattern, matchesHostPatternOver, HostPatternMatchState.initial, matched]
  simp

/-- A needle that is neither negated nor hashed matches itself. -/
theorem matchesKnownHostPatternList_needle {platform : Platform} {needle : Text}
    (nonempty : needle ≠ []) (notNegated : needle.head? ≠ some '!')
    (notHashed : ¬HASHED_MARK <+: needle) :
    matchesKnownHostPatternList platform [needle] needle = true := by
  have isPositive : positivePattern needle = (false, needle) := by
    unfold positivePattern
    split
    · exact absurd rfl notNegated
    · rfl
  have plain : matchesPlainHostPattern platform needle needle = true := by
    have noMark : HASHED_MARK.isPrefixOf needle = false := by
      rw [← Bool.not_eq_true, List.isPrefixOf_iff_prefix]
      exact notHashed
    rw [matchesPlainHostPattern, noMark]
    exact matchesHostPattern_self _
  simp [matchesKnownHostPatternList, matchesPatternsFrom, isPositive, nonempty, plain]

def UINT32_SIZE : Nat := 4

/-- `buffer.readUInt32BE(offset)`, where the buffer is long enough. -/
def readUInt32BE (buffer : Buffer) (offset : Nat) : Nat :=
  ((buffer.drop offset).take UINT32_SIZE).foldl (fun value byte => value * 256 + byte.toNat) 0

/-- `buffer.subarray(start, finish)` -/
def subarray (buffer : Buffer) (start finish : Nat) : Buffer :=
  (buffer.drop start).take (finish - start)

/-- `buffer.toString("ascii")` -/
def asciiText (buffer : Buffer) : Text := buffer.map fun byte => Char.ofNat (byte.toNat % 128)

/-! ### Algorithms -/

/-- The names that `PINNED_HOST_KEY_ALGORITHM_PATTERN` matches. -/
def PINNED_HOST_KEY_ALGORITHMS : List Text :=
  [text "ssh-ed25519", text "ssh-rsa", text "ecdsa-sha2-nistp256", text "ecdsa-sha2-nistp384",
    text "ecdsa-sha2-nistp521"]

def extractAlgoFromKey (keyBuffer : Buffer) : Except Text Text :=
  if keyBuffer.length < UINT32_SIZE then
    .error (text "Invalid SSH key buffer: too short to contain algorithm length")
  else
    let algoLength := readUInt32BE keyBuffer 0
    if algoLength = 0 ∨ keyBuffer.length < UINT32_SIZE + algoLength then
      .error (text "Invalid SSH key buffer: algorithm length exceeds buffer size")
    else
      let algo := asciiText (subarray keyBuffer UINT32_SIZE (UINT32_SIZE + algoLength))
      if algo ∈ PINNED_HOST_KEY_ALGORITHMS then .ok algo
      else .error (text "Invalid SSH key buffer: unsupported algorithm '" ++ algo ++ text "'")

def SK_ECDSA_SHA2_NISTP256_ALGORITHM : Text := text "sk-ecdsa-sha2-nistp256@openssh.com"

def SK_SSH_ED25519_ALGORITHM : Text := text "sk-ssh-ed25519@openssh.com"

def SSH_ED25519_ALGORITHM : Text := text "ssh-ed25519"

def AUTHORIZED_KEY_ALGORITHMS : List Text :=
  [text "ecdsa-sha2-nistp256", text "ecdsa-sha2-nistp384", text "ecdsa-sha2-nistp521",
    SK_ECDSA_SHA2_NISTP256_ALGORITHM, SK_SSH_ED25519_ALGORITHM, SSH_ED25519_ALGORITHM,
    text "ssh-rsa"]

/-! ### The shape of a key blob -/

def ED25519_PUBLIC_KEY_SIZE : Nat := 32

structure SshStringField where
  nextOffset : Nat
  value : Buffer

def readSshStringField (buffer : Buffer) (offset : Nat) : Except Text SshStringField :=
  if buffer.length < offset + UINT32_SIZE then .error (text "truncated SSH string length")
  else
    let length := readUInt32BE buffer offset
    let valueStart := offset + UINT32_SIZE
    let valueEnd := valueStart + length
    if buffer.length < valueEnd then .error (text "truncated SSH string value")
    else .ok { nextOffset := valueEnd, value := subarray buffer valueStart valueEnd }

def assertNoTrailingKeyBlobData (buffer : Buffer) (offset : Nat) : Except Text Unit :=
  if offset ≠ buffer.length then .error (text "unexpected trailing key data") else .ok ()

def assertEd25519KeyBlobShape (algorithm : Text) (keyBuffer : Buffer) (offset : Nat) :
    Except Text Unit := do
  let keyField ← readSshStringField keyBuffer offset
  if keyField.value.length ≠ ED25519_PUBLIC_KEY_SIZE then
    .error (algorithm ++ text " key payload must be 32 bytes")
  else if algorithm = SK_SSH_ED25519_ALGORITHM then
    let application ← readSshStringField keyBuffer keyField.nextOffset
    assertNoTrailingKeyBlobData keyBuffer application.nextOffset
  else assertNoTrailingKeyBlobData keyBuffer keyField.nextOffset

def assertEcdsaKeyBlobShape (algorithm : Text) (keyBuffer : Buffer) (offset : Nat) :
    Except Text Unit := do
  let curveField ← readSshStringField keyBuffer offset
  let keyField ← readSshStringField keyBuffer curveField.nextOffset
  if curveField.value = [] ∨ keyField.value = [] then
    .error (algorithm ++ text " key payload is incomplete")
  else if text "sk-ecdsa-sha2-" <+: algorithm then
    let application ← readSshStringField keyBuffer keyField.nextOffset
    assertNoTrailingKeyBlobData keyBuffer application.nextOffset
  else assertNoTrailingKeyBlobData keyBuffer keyField.nextOffset

def assertRsaKeyBlobShape (algorithm : Text) (keyBuffer : Buffer) (offset : Nat) :
    Except Text Unit := do
  let exponentField ← readSshStringField keyBuffer offset
  let modulusField ← readSshStringField keyBuffer exponentField.nextOffset
  if exponentField.value = [] ∨ modulusField.value = [] then
    .error (algorithm ++ text " key payload is incomplete")
  else assertNoTrailingKeyBlobData keyBuffer modulusField.nextOffset

def assertEncodedAlgorithm (algorithm encodedAlgorithm : Text) : Except Text Unit :=
  if encodedAlgorithm ≠ algorithm then
    .error (text "algorithm " ++ algorithm ++ text " does not match encoded key algorithm " ++
      encodedAlgorithm)
  else .ok ()

def assertAuthorizedKeyBlobShape (algorithm : Text) (keyBuffer : Buffer) : Except Text Unit := do
  let firstField ← readSshStringField keyBuffer 0
  assertEncodedAlgorithm algorithm (asciiText firstField.value)
  if algorithm = SSH_ED25519_ALGORITHM ∨ algorithm = SK_SSH_ED25519_ALGORITHM then
    assertEd25519KeyBlobShape algorithm keyBuffer firstField.nextOffset
  else if text "ecdsa-sha2-" <+: algorithm ∨ text "sk-ecdsa-sha2-" <+: algorithm then
    assertEcdsaKeyBlobShape algorithm keyBuffer firstField.nextOffset
  else assertRsaKeyBlobShape algorithm keyBuffer firstField.nextOffset

/-! ### Accepted values -/

structure KeyError where
  message : Text
  cause : Option Text
deriving DecidableEq

/-- `throw new Error(message)` -/
def keyError {α : Type} (message : Text) : Except KeyError α :=
  .error { message := message, cause := none }

def parseAuthorizedKeyParts (value : Text) : Except KeyError (Text × Text) :=
  match splitSpaces (trim value) with
  | algorithm :: base64Key :: _ => .ok (algorithm, base64Key)
  | _ =>
      keyError
        (text "ssh.authorizedKeys requires a full public key in the format '<algorithm> <base64>'")

def assertAuthorizedKeyValue (value : Text) : Except KeyError Unit :=
  if value = [] then keyError (text "ssh.authorizedKeys: key must not be empty")
  else if '\n' ∈ value ∨ '\r' ∈ value then
    keyError (text "ssh.authorizedKeys: key must not contain newlines: " ++ jsonStringify value)
  else do
    let (algorithm, base64Key) ← parseAuthorizedKeyParts value
    if algorithm ∉ AUTHORIZED_KEY_ALGORITHMS then
      keyError (text "ssh.authorizedKeys: unsupported public key algorithm: " ++ algorithm)
    else if isStrictBase64 base64Key = false then
      keyError (text "ssh.authorizedKeys: key field must be strict base64")
    else
      let keyBuffer := decodeBase64 base64Key
      let shape : Except Text Unit := do
        let _ ← extractAlgoFromKey keyBuffer
        assertAuthorizedKeyBlobShape algorithm keyBuffer
      shape.mapError fun cause =>
        { message := text "ssh.authorizedKeys: key field is not a valid OpenSSH public key"
          cause := some cause }

/-- An accepted value is one line with something in it. -/
theorem oneLine_of_accepted {value : Text} (accepted : assertAuthorizedKeyValue value = .ok ()) :
    value ≠ [] ∧ '\n' ∉ value := by
  unfold assertAuthorizedKeyValue at accepted
  split at accepted
  · cases accepted
  next nonempty =>
    split at accepted
    · cases accepted
    next noBreak => exact ⟨nonempty, fun mem => noBreak (.inl mem)⟩

end Paratix.Keys
