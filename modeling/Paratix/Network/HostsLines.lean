/-
Module: Paratix.Network.HostsLines
Purpose: The entries of `/etc/hosts`: how lines are read, merged and removed, and what `net.hosts`
  makes of them.
Main exports: validateHostsOptions, words_of_validHosts
-/
import Paratix.Archive.Member
import Paratix.Foundation.AssocList
import Paratix.Foundation.Lines
import Paratix.Foundation.Words
import Paratix.Template.Template
import Paratix.Foundation.Result

namespace Paratix.Network

open Foundation Archive

/-! ### Options -/

def MAX_HOSTNAME_LENGTH : Nat := 253

def MAX_HOSTNAME_LABEL_LENGTH : Nat := 63

/-- `/[a-z0-9]/i`: without case the long s and the Kelvin sign are letters too. -/
def isHostnameLetter (char : Char) : Bool :=
  char.isAlphanum || char.toNat = 0x17f || char.toNat = 0x212a

def hostsError (label reason : Text) : Except Text Unit :=
  .error (text "[net.hosts] invalid " ++ label ++ text ": " ++ reason)

def validateHostsToken (label value : Text) : Except Text Unit :=
  if value = [] ∨ value.any isJsSpace then
    hostsError label (text "value must be a non-empty single token")
  else .ok ()

def isValidHostnameLabel (label : Text) : Bool :=
  label ≠ [] && label.length ≤ MAX_HOSTNAME_LABEL_LENGTH &&
    label.all (fun char => isHostnameLetter char || char = '-') &&
    label.head?.any isHostnameLetter && label.getLast?.any isHostnameLetter

def validateHostsHostname (hostname : Text) : Except Text Unit := do
  validateHostsToken (text "hostname") hostname
  if MAX_HOSTNAME_LENGTH < (Template.utf16Units hostname).length then
    hostsError (text "hostname") (text "value is too long")
  else if (hostname.splitOn '.').any fun label => !isValidHostnameLabel label then
    hostsError (text "hostname") (text "value must be a valid hostname")
  else .ok ()

/-- `isIP` of the runtime is zero for what is not an address. -/
def validateHostsOptions (isIP : Text → Nat) (ip : Text) (hostnames : List Text) :
    Except Text Unit := do
  validateHostsToken (text "IP address") ip
  if isIP ip = 0 then
    hostsError (text "IP address") (text "value must be a valid IPv4 or IPv6 address")
  else if hostnames = [] then
    hostsError (text "hostnames") (text "at least one hostname is required")
  else hostnames.forM validateHostsHostname

/-! ### Lines -/

def buildHostsLine (ip : Text) (hostnames : List Text) (comment : Option Text) : Text :=
  let entry := ip ++ ' ' :: joinWords hostnames
  match comment with
  | none => entry
  | some comment => entry ++ ' ' :: comment

structure ParsedHostsLine where
  comment : Option Text
  hostnames : List Text
  ip : Text
deriving DecidableEq

def parseHostsLine (line : Text) : Option ParsedHostsLine :=
  let content := line.takeWhile (· ≠ '#')
  let comment := if '#' ∈ line then some (trim (line.dropWhile (· ≠ '#'))) else none
  let trimmed := trim content
  if trimmed = [] ∨ trimmed.head? = some '#' then none
  else
    match splitSpaces trimmed with
    | [] => none
    | ip :: hostnames =>
        if ip = [] then none else some { comment := comment, hostnames := hostnames, ip := ip }

/-- The sizes are those of sets. -/
def hostnameSetsEqual (actual expected : List Text) : Bool :=
  if actual = [] ∨ expected = [] then false
  else actual.dedup.length = expected.dedup.length && actual.all (· ∈ expected)

def mergeHostnames (existing desired : List Text) : List Text :=
  (existing ++ desired).foldl setAdd []

section Entry

variable (ip : Text) (hostnames : List Text)

def isSameIpLine (line : Text) : Bool := ((parseHostsLine line).map (·.ip)) = some ip

def matchesAbsentTarget (line : Text) : Bool :=
  match parseHostsLine line with
  | none => false
  | some parsed => parsed.ip = ip && hostnameSetsEqual parsed.hostnames hostnames

def expectedLine : Text := buildHostsLine ip hostnames none

def buildMergedHostsLine (lines : List Text) : Text :=
  let sameIpEntries := (lines.filter (isSameIpLine ip)).filterMap parseHostsLine
  let existingHostnames := sameIpEntries.flatMap (·.hostnames)
  let ip := ((expectedLine ip hostnames).splitOn ' ').headD []
  let comment := (sameIpEntries.find? (·.comment.isSome)).bind (·.comment)
  if existingHostnames = [] then buildHostsLine ip hostnames comment
  else buildHostsLine ip (mergeHostnames existingHostnames hostnames) comment

/-! ### The file -/

/-- `/etc/hosts`: what is read at the path, and whether the path is a link. -/
structure HostsFile where
  content : Option Text
  symlink : Bool
deriving DecidableEq

structure HostsFileSnapshot where
  content : Text
  existed : Bool
  lines : List Text

def captureHostsFileSnapshot (file : HostsFile) : HostsFileSnapshot :=
  let content := file.content.getD []
  { content := content, existed := file.content.isSome, lines := content.splitOn '\n' }

inductive HostsState where
  | absent
  | present
deriving DecidableEq

inductive ComputedHostsContent where
  | unchanged
  | changed (existed : Bool) (newContent : Text)

/-- Exactly one line is for the address, and it is the merged one. -/
def alreadyCanonical (lines : List Text) : Bool :=
  ((lines.filter (isSameIpLine ip)).map trim) = [buildMergedHostsLine ip hostnames lines]

/-- `if (filtered.length > 0 && filtered.at(-1) === "") filtered.pop()` -/
def popBlank (lines : List Text) : List Text :=
  if lines.getLast? = some [] then lines.dropLast else lines

/-- `${lines.join("\n")}\n` -/
def joinHosts (lines : List Text) : Text := ['\n'].intercalate lines ++ ['\n']

def computeHostsPresentContent (snapshot : HostsFileSnapshot) : ComputedHostsContent :=
  let mergedLine := buildMergedHostsLine ip hostnames snapshot.lines
  if snapshot.existed = false then .changed false (mergedLine ++ ['\n'])
  else if alreadyCanonical ip hostnames snapshot.lines then .unchanged
  else
    let filtered := popBlank (snapshot.lines.filter fun line => !isSameIpLine ip line)
    .changed true (joinHosts (filtered ++ [mergedLine]))

inductive HostsResult where
  | ok
  | changed
  | failed (message : Text)
deriving DecidableEq

/-- Links are not written through. -/
def writeHosts (file : HostsFile) (newContent : Text) : HostsResult × HostsFile :=
  if file.symlink then
    (.failed (text "[net.hosts] refuses to write through symlink at /etc/hosts"), file)
  else (.changed, { file with content := some newContent })

def applyHostsPresent (file : HostsFile) (snapshot : HostsFileSnapshot) : HostsResult × HostsFile :=
  match computeHostsPresentContent ip hostnames snapshot with
  | .unchanged => (.ok, file)
  | .changed _ newContent => writeHosts file newContent

/-- What is left without the lines that match. -/
def withoutTarget (lines : List Text) : Text :=
  ['\n'].intercalate (lines.filter fun line => !matchesAbsentTarget ip hostnames line)

def applyHostsAbsent (file : HostsFile) (snapshot : HostsFileSnapshot) : HostsResult × HostsFile :=
  if snapshot.existed = false then (.ok, file)
  else if snapshot.lines.any (matchesAbsentTarget ip hostnames) = false then (.ok, file)
  else writeHosts file (withoutTarget ip hostnames snapshot.lines)

/-- Nothing else writes the file between the snapshot and the write. -/
def applyHostsState (state : HostsState) (file : HostsFile) : HostsResult × HostsFile :=
  match state with
  | .present => applyHostsPresent ip hostnames file (captureHostsFileSnapshot file)
  | .absent => applyHostsAbsent ip hostnames file (captureHostsFileSnapshot file)

/-- True is `"ok"`, false is `"needs-apply"`. -/
def checkHostsState (state : HostsState) (file : HostsFile) : Bool :=
  match file.content with
  | none => false
  | some content =>
      if file.symlink then false
      else
        let lines := content.splitOn '\n'
        match state with
        | .present => alreadyCanonical ip hostnames lines
        | .absent => !lines.any (matchesAbsentTarget ip hostnames)

/-- The content that a dry run shows, if it differs. -/
def dryRunHostsContent (state : HostsState) (file : HostsFile) : Option Text :=
  let snapshot := captureHostsFileSnapshot file
  match state with
  | .present =>
      match computeHostsPresentContent ip hostnames snapshot with
      | .unchanged => none
      | .changed _ newContent => some newContent
  | .absent =>
      if snapshot.existed = false then none
      else if snapshot.lines.any (matchesAbsentTarget ip hostnames) = false then none
      else some (withoutTarget ip hostnames snapshot.lines)

end Entry

/-! ### Words and comments -/

/-- A word that does not start a comment either. -/
def HostsWord (word : Text) : Prop := IsWord word ∧ '#' ∉ word

/-- A comment as it is kept. -/
structure InlineComment (comment : Text) : Prop where
  starts : comment.head? = some '#'
  trimmed : trim comment = comment

theorem notHash_of_blank {blank : Text} (isBlank : ∀ char ∈ blank, isJsSpace char = true) :
    '#' ∉ blank := fun mem => absurd (isBlank '#' mem) (by decide)

theorem ne_hash_of_notMem {text : Text} (noHash : '#' ∉ text) :
    ∀ char ∈ text, decide (char ≠ '#') = true := by
  intro char mem
  apply decide_eq_true
  rintro rfl
  exact noHash mem

theorem hash_notMem_takeWhile (line : Text) : '#' ∉ line.takeWhile (· ≠ '#') := by
  intro mem
  have kept := List.mem_takeWhile_imp mem
  rw [decide_eq_true_eq] at kept
  exact kept rfl

/-- What is kept of a comment starts where it does. -/
theorem inlineComment_of_hash {line : Text} (hash : '#' ∈ line) :
    InlineComment (trim (line.dropWhile (· ≠ '#'))) := by
  obtain ⟨front, back, rfl, notMem⟩ := List.eq_append_cons_of_mem hash
  have isRest : (front ++ '#' :: back).dropWhile (· ≠ '#') = '#' :: back := by
    rw [List.dropWhile_append_of_pos (ne_hash_of_notMem notMem),
      List.dropWhile_cons_of_neg (by decide)]
  have isEnd : trim ('#' :: back) = trimEnd ('#' :: back) := by
    have starts : ('#' :: back).dropWhile isJsSpace = '#' :: back :=
      List.dropWhile_cons_of_neg (by decide)
    exact congrArg trimEnd starts
  refine ⟨?_, trim_trim _⟩
  obtain ⟨behind, split⟩ := isPrefix_trimEnd ('#' :: back)
  have nonempty : trimEnd ('#' :: back) ≠ [] := by
    intro empty
    exact absurd (trimEnd_eq_nil_iff.1 empty '#' List.mem_cons_self) (by decide)
  have isHead := congrArg List.head? split
  rw [List.head?_append_of_ne_nil _ nonempty] at isHead
  rw [isRest, isEnd, isHead]
  rfl

/-- What a line is read as holds words, and its comment is one. -/
theorem parseHostsLine_parts {line : Text} {parsed : ParsedHostsLine}
    (isParsed : parseHostsLine line = some parsed) :
    HostsWord parsed.ip ∧ (∀ hostname ∈ parsed.hostnames, HostsWord hostname) ∧
      ∀ comment, parsed.comment = some comment →
        InlineComment comment ∧ ∀ char ∈ comment, char ∈ line := by
  rw [parseHostsLine] at isParsed
  split at isParsed
  · cases isParsed
  next someText =>
    rw [not_or] at someText
    split at isParsed
    · cases isParsed
    next ip hostnames split =>
      split at isParsed
      · cases isParsed
      cases isParsed
      have areWords : ∀ word ∈ ip :: hostnames, HostsWord word := by
        intro word mem
        rw [← split] at mem
        refine ⟨isWord_of_mem_splitSpaces_trim someText.1 mem, ?_⟩
        intro hash
        exact hash_notMem_takeWhile line (mem_of_mem_trim (mem_of_mem_splitSpaces mem hash))
      rw [List.forall_mem_cons] at areWords
      refine ⟨areWords.1, areWords.2, ?_⟩
      intro comment isComment
      split at isComment
      · next hash =>
        obtain rfl := Option.some.inj isComment
        refine ⟨inlineComment_of_hash hash, ?_⟩
        intro char mem
        exact (List.dropWhile_suffix _).subset (mem_of_mem_trim mem)
      · cases isComment

/-! ### Lines that are written -/

section Written

variable {ip : Text} {hostnames : List Text}

theorem joinWords_cons {word : Text} {words : List Text} (nonempty : words ≠ []) :
    joinWords (word :: words) = word ++ ' ' :: joinWords words := by
  rw [joinWords]
  exact nonempty

theorem buildHostsLine_none (nonempty : hostnames ≠ []) :
    buildHostsLine ip hostnames none = joinWords (ip :: hostnames) :=
  (joinWords_cons nonempty).symm

theorem buildHostsLine_some (nonempty : hostnames ≠ []) (comment : Text) :
    buildHostsLine ip hostnames (some comment) =
      (joinWords (ip :: hostnames) ++ [' ']) ++ comment := by
  rw [joinWords_cons nonempty, buildHostsLine]
  simp only [List.append_assoc, List.cons_append, List.nil_append]

/-- A written line is read back. -/
theorem parse_buildHostsLine {comment : Option Text} (nonempty : hostnames ≠ [])
    (areWords : ∀ word ∈ ip :: hostnames, HostsWord word)
    (isComment : ∀ text, comment = some text → InlineComment text) :
    parseHostsLine (buildHostsLine ip hostnames comment) =
      some { comment := comment, hostnames := hostnames, ip := ip } := by
  have words : ∀ word ∈ ip :: hostnames, IsWord word := fun word mem => (areWords word mem).1
  have noHash : '#' ∉ joinWords (ip :: hostnames) :=
    notMem_joinWords (by decide) fun word mem => (areWords word mem).2
  have kept := ne_hash_of_notMem noHash
  have ipNonempty := (words ip List.mem_cons_self).1
  have lineNonempty : joinWords (ip :: hostnames) ≠ [] := by
    rw [joinWords_cons nonempty]
    exact List.append_ne_nil_of_left_ne_nil ipNonempty _
  have starts : (joinWords (ip :: hostnames)).head? ≠ some '#' := fun isHead =>
    noHash (List.mem_of_mem_head? isHead)
  have trimmed := trim_joinWords words
  have split := splitSpaces_joinWords (List.cons_ne_nil ip hostnames) words
  have whole : ∀ blank, (∀ char ∈ blank, isJsSpace char = true) →
      trim (joinWords (ip :: hostnames) ++ blank) = joinWords (ip :: hostnames) := by
    intro blank isBlank
    rw [trim_append_blank _ isBlank, trimmed]
  cases comment with
  | none =>
    have isContent := List.takeWhile_eq_self_iff.2 kept
    rw [buildHostsLine_none nonempty, parseHostsLine]
    simp only [isContent, trimmed, split, noHash, lineNonempty, starts, ipNonempty, or_self,
      if_false]
  | some text =>
    obtain ⟨starts', isTrimmed⟩ := isComment text rfl
    obtain ⟨rest, rfl⟩ := List.head?_eq_some_iff.1 starts'
    have keptBlank : ∀ char ∈ joinWords (ip :: hostnames) ++ [' '],
        decide (char ≠ '#') = true := by
      rw [List.forall_mem_append, List.forall_mem_singleton]
      exact ⟨kept, by decide⟩
    have isContent : ((joinWords (ip :: hostnames) ++ [' ']) ++ '#' :: rest).takeWhile
        (· ≠ '#') = joinWords (ip :: hostnames) ++ [' '] := by
      rw [List.takeWhile_append_of_pos keptBlank, List.takeWhile_cons_of_neg (by decide),
        List.append_nil]
    have isRest : ((joinWords (ip :: hostnames) ++ [' ']) ++ '#' :: rest).dropWhile
        (· ≠ '#') = '#' :: rest := by
      rw [List.dropWhile_append_of_pos keptBlank, List.dropWhile_cons_of_neg (by decide)]
    have hash : '#' ∈ (joinWords (ip :: hostnames) ++ [' ']) ++ '#' :: rest :=
      List.mem_append_right _ List.mem_cons_self
    have isLine := whole [' '] (List.forall_mem_singleton.2 rfl)
    rw [buildHostsLine_some nonempty, parseHostsLine]
    simp only [isContent, isRest, isLine, isTrimmed, split, hash, lineNonempty, starts,
      ipNonempty, or_self, if_false, if_true]

/-- A written line is trimmed. -/
theorem trim_buildHostsLine {comment : Option Text} (nonempty : hostnames ≠ [])
    (areWords : ∀ word ∈ ip :: hostnames, HostsWord word)
    (isComment : ∀ text, comment = some text → InlineComment text) :
    trim (buildHostsLine ip hostnames comment) = buildHostsLine ip hostnames comment := by
  have words : ∀ word ∈ ip :: hostnames, IsWord word := fun word mem => (areWords word mem).1
  cases comment with
  | none =>
    rw [buildHostsLine_none nonempty]
    exact trim_joinWords words
  | some text =>
    obtain ⟨starts, isTrimmed⟩ := isComment text rfl
    have textNonempty : text ≠ [] := by
      rintro rfl
      cases starts
    apply trim_eq_self
    · intro head isHead
      have isWord := words ip List.mem_cons_self
      rw [buildHostsLine, List.append_assoc] at isHead
      exact isWord.head _ head isHead
    · intro last isLast
      rw [buildHostsLine_some nonempty, List.getLast?_append_of_ne_nil _ textNonempty,
        ← isTrimmed] at isLast
      exact trim_last isLast

theorem newline_notMem_buildHostsLine {comment : Option Text}
    (areWords : ∀ word ∈ ip :: hostnames, HostsWord word)
    (oneLine : ∀ text, comment = some text → '\n' ∉ text) :
    '\n' ∉ buildHostsLine ip hostnames comment := by
  have entry : '\n' ∉ ip ++ ' ' :: joinWords hostnames := by
    rw [List.forall_mem_cons] at areWords
    rw [List.mem_append, List.mem_cons, not_or, not_or]
    exact ⟨areWords.1.1.newline_notMem, by decide,
      newline_notMem_joinWords fun word mem => (areWords.2 word mem).1⟩
  cases comment with
  | none => exact entry
  | some text =>
    rw [buildHostsLine, List.mem_append, List.mem_cons, not_or, not_or]
    exact ⟨entry, by decide, oneLine text rfl⟩

end Written

/-- White space around a line is not read. -/
theorem parseHostsLine_blank {before behind : Text} (line : Text)
    (beforeBlank : ∀ char ∈ before, isJsSpace char = true)
    (behindBlank : ∀ char ∈ behind, isJsSpace char = true) :
    parseHostsLine (before ++ (line ++ behind)) = parseHostsLine line := by
  have keptBefore := ne_hash_of_notMem (notHash_of_blank beforeBlank)
  have keptBehind := ne_hash_of_notMem (notHash_of_blank behindBlank)
  have hash : '#' ∈ before ++ (line ++ behind) ↔ '#' ∈ line := by
    rw [List.mem_append, List.mem_append, or_iff_right (notHash_of_blank beforeBlank),
      or_iff_left (notHash_of_blank behindBlank)]
  have parts : trim ((before ++ (line ++ behind)).takeWhile (· ≠ '#')) =
        trim (line.takeWhile (· ≠ '#')) ∧
      ('#' ∈ line → trim ((before ++ (line ++ behind)).dropWhile (· ≠ '#')) =
        trim (line.dropWhile (· ≠ '#'))) := by
    rw [List.takeWhile_append_of_pos keptBefore, trim_append beforeBlank,
      List.dropWhile_append_of_pos keptBefore]
    by_cases isHash : '#' ∈ line
    · obtain ⟨front, back, rfl, notMem⟩ := List.eq_append_cons_of_mem isHash
      have keptFront := ne_hash_of_notMem notMem
      rw [List.append_assoc, List.cons_append, List.takeWhile_append_of_pos keptFront,
        List.takeWhile_append_of_pos keptFront, List.takeWhile_cons_of_neg (by decide),
        List.takeWhile_cons_of_neg (by decide), List.dropWhile_append_of_pos keptFront,
        List.dropWhile_append_of_pos keptFront, List.dropWhile_cons_of_neg (by decide),
        List.dropWhile_cons_of_neg (by decide), ← List.cons_append,
        trim_append_blank _ behindBlank]
      exact ⟨rfl, fun _ => rfl⟩
    · have keptLine := ne_hash_of_notMem isHash
      have all : ∀ char ∈ line ++ behind, decide (char ≠ '#') = true :=
        List.forall_mem_append.2 ⟨keptLine, keptBehind⟩
      rw [List.takeWhile_eq_self_iff.2 all, List.takeWhile_eq_self_iff.2 keptLine,
        trim_append_blank _ behindBlank]
      exact ⟨rfl, fun mem => absurd mem isHash⟩
  rw [parseHostsLine, parseHostsLine]
  by_cases isHash : '#' ∈ line
  · simp only [parts.1, hash, isHash, if_true, parts.2 isHash]
  · simp only [parts.1, hash, isHash, if_false]

theorem parseHostsLine_trim (line : Text) : parseHostsLine (trim line) = parseHostsLine line := by
  obtain ⟨before, behind, split, beforeBlank, behindBlank⟩ := exists_trim line
  have same := parseHostsLine_blank (trim line) beforeBlank behindBlank
  rw [← split] at same
  exact same.symm

/-! ### Merged names -/

theorem nodup_mergeHostnames (existing desired : List Text) :
    (mergeHostnames existing desired).Nodup :=
  (foldl_setAdd_spec (existing ++ desired) [] List.nodup_nil).1

theorem mem_mergeHostnames {existing desired : List Text} {name : Text} :
    name ∈ mergeHostnames existing desired ↔ name ∈ existing ∨ name ∈ desired := by
  rw [mergeHostnames, (foldl_setAdd_spec (existing ++ desired) [] List.nodup_nil).2,
    List.mem_append]
  exact or_iff_right List.not_mem_nil

/-- Merging names that are known changes them exactly if one stands twice. -/
theorem mergeHostnames_eq_iff {names desired : List Text} (known : ∀ name ∈ desired, name ∈ names) :
    mergeHostnames names desired = names ↔ names.Nodup := by
  constructor
  · intro same
    rw [← same]
    exact nodup_mergeHostnames names desired
  · intro nodup
    have unchanged : names.foldl setAdd [] = names := @foldl_setAdd_nodup _ _ _ names [] nodup
    rw [mergeHostnames, List.foldl_append, unchanged, foldl_setAdd_known known]

/-! ### Accepted options -/

theorem isWord_of_token {label value : Text} (valid : validateHostsToken label value = .ok ()) :
    IsWord value := by
  rw [validateHostsToken] at valid
  split at valid
  · cases valid
  next accepted =>
    rw [not_or, List.any_eq_true] at accepted
    refine ⟨accepted.1, fun char mem => ?_⟩
    rw [Bool.eq_false_iff]
    exact fun isSpace => accepted.2 ⟨char, mem, isSpace⟩

theorem notMem_of_splitOn {char separator : Char} {value : Text} (other : char ≠ separator)
    (outside : ∀ part ∈ value.splitOn separator, char ∉ part) : char ∉ value := by
  have joined : [separator].intercalate (value.splitOn separator) = value :=
    List.intercalate_splitOn separator
  obtain ⟨first, parts, split⟩ := List.exists_cons_of_ne_nil (List.splitOn_ne_nil separator value)
  rw [split, List.forall_mem_cons] at outside
  rw [← joined, split, intercalate_cons, List.mem_append, not_or]
  refine ⟨outside.1, ?_⟩
  intro mem
  obtain ⟨part, isPart, inPart⟩ := List.mem_flatMap.1 mem
  rcases List.mem_append.1 inPart with isSeparator | inside
  · exact other (List.mem_singleton.1 isSeparator)
  · exact outside.2 part isPart inside

theorem hostsWord_of_hostname {hostname : Text} (valid : validateHostsHostname hostname = .ok ()) :
    HostsWord hostname := by
  obtain ⟨_, isToken, checked⟩ := ok_of_bind valid
  refine ⟨isWord_of_token isToken, ?_⟩
  split at checked
  · cases checked
  split at checked
  · cases checked
  next allValid =>
    apply notMem_of_splitOn (show '#' ≠ '.' by decide)
    intro label isLabel hash
    apply allValid
    rw [List.any_eq_true]
    refine ⟨label, isLabel, ?_⟩
    rw [Bool.not_eq_true', Bool.eq_false_iff]
    intro isValid
    simp only [isValidHostnameLabel, Bool.and_eq_true, List.all_eq_true] at isValid
    exact absurd (isValid.1.1.2 '#' hash) (by decide)

/-- Accepted options are words; `isIP` takes no text with a hash sign for an address. -/
theorem words_of_validHosts {isIP : Text → Nat} {ip : Text} {hostnames : List Text}
    (noHash : ∀ value, isIP value ≠ 0 → '#' ∉ value)
    (valid : validateHostsOptions isIP ip hostnames = .ok ()) :
    hostnames ≠ [] ∧ ∀ word ∈ ip :: hostnames, HostsWord word := by
  obtain ⟨_, isToken, checked⟩ := ok_of_bind valid
  split at checked
  · cases checked
  next isAddress =>
    split at checked
    · cases checked
    next nonempty =>
      have areNames : ∀ hostname ∈ hostnames, HostsWord hostname := fun hostname mem =>
        hostsWord_of_hostname (ok_of_forM checked hostname mem)
      exact ⟨nonempty, List.forall_mem_cons.2
        ⟨⟨isWord_of_token isToken, noHash ip isAddress⟩, areNames⟩⟩

end Paratix.Network
