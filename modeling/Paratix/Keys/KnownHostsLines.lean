/-
Module: Paratix.Keys.KnownHostsLines
Purpose: The entries of known_hosts: reading, looking up, appending, and reading back.
Main exports: appendHostKey, parseRawLine_marked
-/
import Paratix.Foundation.LinePattern
import Paratix.Foundation.Separator
import Paratix.Foundation.Utf8
import Paratix.Keys.PublicKey
import Paratix.Orchestration.Environment
import Paratix.Foundation.Lines

namespace Paratix.Keys

open Foundation Archive

/-! ### Entries -/

structure KnownHostEntry where
  algo : Text
  host : Text
  hostPatterns : List Text
  key : Buffer
  marker : Option Text
deriving DecidableEq

def MIN_KNOWN_HOSTS_FIELDS : Nat := 3

def DEFAULT_SSH_PORT : Nat := 22

def parseKnownHostsLine (line : Text) : List KnownHostEntry :=
  let parts := splitSpaces line
  let first := parts[0]?.getD []
  let offset := if first.head? = some '@' then 1 else 0
  if parts.length < MIN_KNOWN_HOSTS_FIELDS + offset then []
  else
    let marker := if offset = 1 then some first else none
    let hostsPart := parts[offset]?.getD []
    let algo := parts[offset + 1]?.getD []
    let base64Key := parts[offset + 2]?.getD []
    if isStrictBase64 base64Key = false then []
    else
      let key := decodeBase64 base64Key
      let hostPatterns := hostsPart.splitOn ','
      hostPatterns.map fun host =>
        { algo := algo, host := host, hostPatterns := hostPatterns, key := key, marker := marker }

/-- What one line of the file adds. -/
def parseRawLine (raw : Text) : List KnownHostEntry :=
  let line := trim raw
  if line = [] ∨ line.head? = some '#' then [] else parseKnownHostsLine line

def parseKnownHosts (content : Text) : List KnownHostEntry :=
  (content.splitOn '\n').flatMap parseRawLine

def formatHostNeedle (host : Text) (port : Nat) : Text :=
  if port = DEFAULT_SSH_PORT then host else '[' :: (host ++ (']' :: ':' :: decimal port))

def matchesKnownHostEntry (platform : Platform) (entry : KnownHostEntry) (needle : Text) : Bool :=
  matchesKnownHostPatternList platform entry.hostPatterns needle

def findMatchingEntries (platform : Platform) (entries : List KnownHostEntry) (host : Text)
    (port : Nat) : List KnownHostEntry :=
  entries.filter (matchesKnownHostEntry platform · (formatHostNeedle host port))

/-! ### Revoked keys -/

def CERTIFICATE_SUFFIX : Text := text "-cert-v01@openssh.com"

/-- The value at the offset and the offset behind it; `none` is a throw. -/
def readString (key : Buffer) (offset : Nat) : Option (Buffer × Nat) :=
  if key.length < offset + UINT32_SIZE then none
  else
    let length := readUInt32BE key offset
    let start := offset + UINT32_SIZE
    if key.length - start < length then none
    else some (subarray key start (start + length), start + length)

def readStrings (key : Buffer) : Nat → Nat → Option (List Buffer)
  | 0, _ => some []
  | count + 1, offset => do
      let (value, next) ← readString key offset
      let rest ← readStrings key count next
      pure (value :: rest)

/-- The value behind its length. -/
def lengthPrefixed (value : Buffer) : Buffer :=
  let length := value.length
  [UInt8.ofNat (length / 16777216), UInt8.ofNat (length / 65536), UInt8.ofNat (length / 256),
    UInt8.ofNat length] ++ value

/-- The certified leaf of a certificate blob; `none` is any other blob. -/
def certifiedLeaf (key : Buffer) : Option Buffer := do
  let (name, afterName) ← readString key 0
  let algorithm := asciiText name
  if CERTIFICATE_SUFFIX <:+ algorithm then
    let rawAlgorithm := match cutFirst CERTIFICATE_SUFFIX algorithm with
      | none => algorithm
      | some (front, back) => front ++ back
    let (_, afterNonce) ← readString key afterName
    let fieldCount := if rawAlgorithm = text "ssh-ed25519" then 1 else 2
    if rawAlgorithm ∉ PINNED_HOST_KEY_ALGORITHMS then none
    else
      let fields ← readStrings key fieldCount afterNonce
      pure ((utf8Bytes rawAlgorithm :: fields).flatMap lengthPrefixed)
  else none

def normalizeRevokedKey (key : Buffer) : Buffer := (certifiedLeaf key).getD key

def REVOKED : Text := text "@revoked"

def CERT_AUTHORITY : Text := text "@cert-authority"

def findRevokedEntry (entries : List KnownHostEntry) (key : Buffer) : Option KnownHostEntry :=
  entries.find? fun entry => entry.marker = some REVOKED && normalizeRevokedKey entry.key = key

/-! ### Known keys -/

def describeAlgoForDiagnostics (keyBuffer : Buffer) : Text :=
  match extractAlgoFromKey keyBuffer with
  | .ok algo => algo
  | .error _ => text "<unknown>"

def hostKeyMismatchMessage (host : Text) (presentedKey existingKey : Buffer) : Text :=
  text "HOST KEY VERIFICATION FAILED for " ++ host ++ text ": remote host key (" ++
    describeAlgoForDiagnostics presentedKey ++
    text ") does not match the key in known_hosts (" ++ describeAlgoForDiagnostics existingKey ++
    text "). This could indicate a man-in-the-middle attack."

def revokedKeyMessage (host : Text) (revokedKey : Buffer) : Text :=
  text "HOST KEY VERIFICATION FAILED for " ++ host ++ text ": remote host key (" ++
    describeAlgoForDiagnostics revokedKey ++ text ") is marked as revoked in known_hosts."

def rawHostKeyEntries (fileEntries : List KnownHostEntry) : List KnownHostEntry :=
  fileEntries.filter (·.marker = none)

def verifyHostKeyAgainstKnownEntries (cachedKey : Option Buffer)
    (fileEntries : List KnownHostEntry) (host : Text) (key : Buffer) : Except Text Bool :=
  match findRevokedEntry fileEntries key with
  | some revokedKey => .error (revokedKeyMessage host revokedKey.key)
  | none =>
      if (rawHostKeyEntries fileEntries).any (·.key = key) then .ok true
      else if cachedKey = some key then .ok true
      else
        match rawHostKeyEntries fileEntries, cachedKey with
        | first :: _, _ => .error (hostKeyMismatchMessage host key first.key)
        | [], some cachedKey => .error (hostKeyMismatchMessage host key cachedKey)
        | [], none => .ok false

/-! ### Appending -/

def KNOWN_HOSTS_FILE_BYTE_LIMIT : Nat := 16 * (1024 * 1024)

/-- `none` is a missing file. -/
def loadKnownHostEntries (requireExisting : Bool) (file : Option Text) :
    Except Text (List KnownHostEntry) :=
  match file with
  | none =>
      if requireExisting then .error (text "Could not read known_hosts: ENOENT") else .ok []
  | some content =>
      if KNOWN_HOSTS_FILE_BYTE_LIMIT < (utf8Bytes content).length then
        .error (text "Refusing to read known_hosts: size exceeds the cap")
      else .ok (parseKnownHosts content)

def describeHostValidationFailure : Orchestration.HostValidationFailure → Text
  | .control => text "must not contain control characters"
  | .empty => text "must be a non-empty string"
  | .metacharacter => text "must not contain OpenSSH known_hosts pattern metacharacters"
  | .whitespace => text "must not contain whitespace"

def assertSafeHostForKnownHosts (host : Text) : Except Text Unit :=
  match Orchestration.validateHostLabel host with
  | none => .ok ()
  | some failure =>
      .error (text "Refusing to persist known_hosts entry: host label " ++
        describeHostValidationFailure failure)

def assertNoWhitespace (field value : Text) : Except Text Unit :=
  if value.any isJsSpace then
    .error (text "Refusing to persist known_hosts entry: " ++ field ++
      text " contains whitespace")
  else .ok ()

def knownHostsLine (hostLabel algo base64Key : Text) : Text :=
  hostLabel ++ ' ' :: (algo ++ ' ' :: (base64Key ++ ['\n']))

/-- The file after the call; an error leaves it as it is. -/
def appendHostKey (platform : Platform) (host : Text) (port : Nat) (keyBuffer : Buffer)
    (file : Option Text) : Except Text (Option Text) := do
  assertSafeHostForKnownHosts host
  let hostLabel := formatHostNeedle host port
  let algo ← extractAlgoFromKey keyBuffer
  let base64Key := encodeBase64 keyBuffer
  assertNoWhitespace (text "host label") hostLabel
  assertNoWhitespace (text "algorithm") algo
  assertNoWhitespace (text "base64 key") base64Key
  let existingEntries ← loadKnownHostEntries false file
  let matchingRawHostEntries := existingEntries.filter fun entry =>
    entry.marker = none && matchesKnownHostEntry platform entry hostLabel
  let alreadyTrusted := matchingRawHostEntries.any fun entry =>
    entry.algo = algo && entry.key = keyBuffer
  if alreadyTrusted then pure file
  else
    match matchingRawHostEntries.find? (·.key ≠ keyBuffer) with
    | some conflictingEntry =>
        .error (hostKeyMismatchMessage host keyBuffer conflictingEntry.key)
    | none => pure (some (file.getD [] ++ knownHostsLine hostLabel algo base64Key))

/-! ### Reading an appended line -/

theorem parseKnownHosts_fileText {lines : List Text} (oneLine : ∀ line ∈ lines, '\n' ∉ line)
    (rest : Text) : parseKnownHosts (fileText '\n' lines ++ rest) =
      lines.flatMap parseRawLine ++ parseKnownHosts rest := by
  rw [parseKnownHosts, splitOn_fileText_append oneLine, List.flatMap_append, parseKnownHosts]

/-- The text behind the last newline is white space. -/
def BlankEnd (content : Text) : Prop :=
  ∀ lines last, content = fileText '\n' lines ++ last → '\n' ∉ last →
    ∀ char ∈ last, isJsSpace char = true

theorem parseRawLine_blank {blank : Text} (isBlank : ∀ char ∈ blank, isJsSpace char = true) :
    parseRawLine blank = [] := by
  rw [parseRawLine, trim_blank isBlank]
  rfl

/-- A line behind a blank end is read as a line of its own. -/
theorem parseKnownHosts_append {content line : Text} (blankEnd : BlankEnd content)
    (oneLine : '\n' ∉ line) : parseKnownHosts (content ++ (line ++ ['\n'])) =
      parseKnownHosts content ++ parseRawLine line := by
  obtain ⟨lines, last, whole, lastLine, rfl⟩ := exists_fileText '\n' content
  have isBlank := blankEnd lines last rfl lastLine
  have single {text : Text} (own : '\n' ∉ text) : parseKnownHosts text = parseRawLine text := by
    rw [parseKnownHosts, List.splitOn_eq_singleton own, List.flatMap_singleton]
  have ended {text : Text} (own : '\n' ∉ text) :
      parseKnownHosts (text ++ ['\n']) = parseRawLine text := by
    rw [parseKnownHosts, List.splitOn_append_cons_self_of_not_mem own, List.splitOn_nil,
      List.flatMap_cons, List.flatMap_singleton]
    exact List.append_nil _
  have joined : '\n' ∉ last ++ line := by
    rw [List.mem_append, not_or]
    exact ⟨lastLine, oneLine⟩
  have sameLine : parseRawLine (last ++ line) = parseRawLine line := by
    rw [parseRawLine, trim_append isBlank, parseRawLine]
  rw [List.append_assoc, ← List.append_assoc last, parseKnownHosts_fileText whole, ended joined,
    parseKnownHosts_fileText whole, single lastLine, parseRawLine_blank isBlank, List.append_nil,
    sameLine]

/-- A file that was loaded holds the entries of its content; a missing one holds none. -/
theorem entries_of_loaded {requireExisting : Bool} {file : Option Text}
    {entries : List KnownHostEntry}
    (loaded : loadKnownHostEntries requireExisting file = .ok entries) :
    entries = parseKnownHosts (file.getD []) := by
  unfold loadKnownHostEntries at loaded
  split at loaded
  · split at loaded
    · cases loaded
    · cases loaded
      rfl
  · split at loaded
    · cases loaded
    · cases loaded
      rfl

/-! ### The written line -/

/-- The entry of the written line -/
def appendedEntry (hostLabel algo : Text) (key : Buffer) : KnownHostEntry where
  algo := algo
  host := hostLabel
  hostPatterns := [hostLabel]
  key := key
  marker := none

/-- A label that known_hosts reads as a plain host. -/
structure PlainLabel (hostLabel : Text) : Prop where
  noComment : hostLabel.head? ≠ some '#'
  noMarker : hostLabel.head? ≠ some '@'
  notHashed : ¬HASHED_MARK <+: hostLabel

/-! ### Words of a line -/

theorem isWord_encodeBase64 {key : Buffer} (nonempty : key ≠ []) : IsWord (encodeBase64 key) := by
  refine ⟨fun empty => ?_, fun char mem => ?_⟩
  · have decoded := decodeBase64_encodeBase64 key
    rw [empty] at decoded
    exact nonempty decoded.symm
  · have noSpace : ∀ own ∈ base64Alphabet, isJsSpace own = false :=
      forall_mem_of_all (by decide +kernel)
    rcases mem_encodeBase64 mem with inAlphabet | rfl
    · exact noSpace char inAlphabet
    · rfl

theorem nonempty_of_extracted {key : Buffer} {algo : Text}
    (extracted : extractAlgoFromKey key = .ok algo) : key ≠ [] := fun empty => by
  subst empty
  cases extracted

theorem isWord_of_extracted {key : Buffer} {algo : Text}
    (extracted : extractAlgoFromKey key = .ok algo) : IsWord algo := by
  unfold extractAlgoFromKey at extracted
  split at extracted
  · cases extracted
  · dsimp only at extracted
    split at extracted
    · cases extracted
    · split at extracted
      next known =>
        cases extracted
        have areWords : ∀ name ∈ PINNED_HOST_KEY_ALGORITHMS, IsWord name := by decide
        exact areWords _ known
      · cases extracted

/-- What host validation guarantees for the label of a line -/
theorem isWord_formatHostNeedle {host : Text} (port : Nat)
    (valid : Orchestration.validateHostLabel host = none) :
    IsWord (formatHostNeedle host port) ∧ ',' ∉ formatHostNeedle host port ∧
      (formatHostNeedle host port).head? ≠ some '!' := by
  unfold Orchestration.validateHostLabel at valid
  split at valid
  · cases valid
  next nonempty =>
    split at valid
    · cases valid
    · split at valid
      · cases valid
      next noSpace =>
        have hostNoSpace (char : Char) (mem : char ∈ host) : isJsSpace char = false := by
          rw [← Bool.not_eq_true]
          exact fun isSpace => noSpace (List.any_eq_true.2 ⟨char, mem, isSpace⟩)
        split at valid
        · cases valid
        next plain =>
          have noMeta (char : Char) (isMeta : char = ',' ∨ char = '!') : char ∉ host := fun mem => by
            refine plain (List.any_eq_true.2 ⟨char, mem, ?_⟩)
            rcases isMeta with rfl | rfl <;> rfl
          unfold formatHostNeedle
          split
          · exact ⟨⟨nonempty, hostNoSpace⟩, noMeta ',' (.inl rfl), fun isHead =>
              noMeta '!' (.inr rfl) (List.mem_of_mem_head? isHead)⟩
          · refine ⟨⟨List.cons_ne_nil _ _, fun char mem => ?_⟩, ?_, nofun⟩
            · simp only [List.mem_cons, List.mem_append] at mem
              rcases mem with rfl | inHost | rfl | rfl | inPort
              · rfl
              · exact hostNoSpace char inHost
              · rfl
              · rfl
              · exact isJsSpace_of_isDigit (isDigit_of_mem_decimal inPort)
            · simp only [List.mem_cons, List.mem_append, not_or]
              refine ⟨by decide, noMeta ',' (.inl rfl), by decide, by decide, fun inPort => ?_⟩
              have isDigit := isDigit_of_mem_decimal inPort
              revert isDigit
              decide

/-! ### Written lines -/

section Written

variable {hostLabel algo : Text} {key : Buffer} (labelWord : IsWord hostLabel)
  (algoWord : IsWord algo) (keyNonempty : key ≠ [])
include labelWord algoWord keyNonempty

theorem areWords_plain :
    ∀ word ∈ [hostLabel, algo, encodeBase64 key], IsWord word := by
  simp only [List.forall_mem_cons]
  exact ⟨labelWord, algoWord, isWord_encodeBase64 keyNonempty, nofun⟩

/-- A line without a marker is read as one raw entry. -/
theorem parseRawLine_plain (noComment : hostLabel.head? ≠ some '#')
    (noMarker : hostLabel.head? ≠ some '@') (noComma : ',' ∉ hostLabel) :
    parseRawLine (joinWords [hostLabel, algo, encodeBase64 key]) =
      [appendedEntry hostLabel algo key] := by
  have areWords := areWords_plain labelWord algoWord keyNonempty
  have isHead : (joinWords [hostLabel, algo, encodeBase64 key]).head? = hostLabel.head? :=
    List.head?_append_of_ne_nil _ labelWord.1
  have lineNonempty : joinWords [hostLabel, algo, encodeBase64 key] ≠ [] :=
    List.append_ne_nil_of_left_ne_nil labelWord.1 _
  rw [parseRawLine]
  simp only [trim_joinWords areWords, lineNonempty, isHead, noComment, or_self, if_false]
  rw [parseKnownHostsLine, splitSpaces_joinWords (List.cons_ne_nil _ _) areWords]
  simp only [List.getElem?_cons_zero, Option.getD_some, noMarker, if_false,
    List.getElem?_cons_succ, isStrictBase64_encodeBase64 keyNonempty, decodeBase64_encodeBase64,
    List.splitOn_eq_singleton noComma]
  rfl

/-- A marked line is read as one entry with its marker. -/
theorem parseRawLine_marked {marker : Text} (markerWord : IsWord marker)
    (isMarker : marker.head? = some '@') (noComma : ',' ∉ hostLabel) :
    parseRawLine (joinWords [marker, hostLabel, algo, encodeBase64 key]) =
      [{ appendedEntry hostLabel algo key with marker := some marker }] := by
  have areWords : ∀ word ∈ [marker, hostLabel, algo, encodeBase64 key], IsWord word :=
    List.forall_mem_cons.2 ⟨markerWord, areWords_plain labelWord algoWord keyNonempty⟩
  have isHead : (joinWords [marker, hostLabel, algo, encodeBase64 key]).head? = some '@' := by
    rw [← isMarker]
    exact List.head?_append_of_ne_nil _ markerWord.1
  have lineNonempty : joinWords [marker, hostLabel, algo, encodeBase64 key] ≠ [] :=
    List.append_ne_nil_of_left_ne_nil markerWord.1 _
  have noComment : some '@' ≠ some '#' := by decide
  rw [parseRawLine]
  simp only [trim_joinWords areWords, lineNonempty, isHead, noComment, or_self, if_false]
  rw [parseKnownHostsLine, splitSpaces_joinWords (List.cons_ne_nil _ _) areWords]
  simp only [List.getElem?_cons_zero, Option.getD_some, isMarker, if_true,
    List.getElem?_cons_succ, isStrictBase64_encodeBase64 keyNonempty, decodeBase64_encodeBase64,
    List.splitOn_eq_singleton noComma]
  rfl

end Written

end Paratix.Keys
