/-
Module: Paratix.Keys.KnownHostsCaExact
Purpose: The edit of known_hosts is exact for one CA key, unless a record is taken for one of the
  key through white space inside a field.
Main exports: ReconciledExactly, known_hosts_ca_exact_iff
-/
import Paratix.Keys.KnownHostsCaRecords
import Paratix.Foundation.LineEdit

namespace Paratix.Keys

open Foundation Archive

/-! ### Patterns -/

/-- The patterns are the given ones, each once, ordered by code units. -/
structure SortedDistinct (given patterns : List Text) : Prop where
  members : ∀ pattern, pattern ∈ patterns ↔ pattern ∈ given
  distinct : patterns.Nodup
  ordered : patterns.Pairwise fun first second =>
    Template.utf16Units first ≤ Template.utf16Units second

/-- The bytes of a pattern, as the file is read. -/
def patternBytes (pattern : Text) : Text := latin1 (utf8Bytes pattern)

/-- The second field of a record, split at its commas -/
def recordPatterns (record : Text) : List Text :=
  match caFields record with
  | _ :: patterns :: _ => patterns.splitOn ','
  | _ => []

/-! ### Texts read as bytes -/

theorem latin1_append (first second : Buffer) :
    latin1 (first ++ second) = latin1 first ++ latin1 second := List.map_append

theorem patternBytes_append (first second : Text) :
    patternBytes (first ++ second) = patternBytes first ++ patternBytes second := by
  rw [patternBytes, utf8Bytes_append, latin1_append]
  rfl

theorem patternBytes_ascii {value : Text} (ascii : ∀ char ∈ value, char.toNat < 128) :
    patternBytes value = value := by
  induction value with
  | nil => rfl
  | cons char value ih =>
    rw [List.forall_mem_cons] at ascii
    have small : char.toNat ≤ 0x7f := by have := ascii.1; omega
    have one : patternBytes [char] = [char] := by
      rw [patternBytes, utf8Bytes_cons, utf8Bytes_nil, utf8EncodeChar_of_ascii small, latin1]
      simp only [List.append_nil, List.map_cons, List.map_nil, UInt8.toNat_ofNat']
      rw [Nat.mod_eq_of_lt (by omega), Char.ofNat_toNat]
    rw [← List.singleton_append, patternBytes_append, one, ih ascii.2]

/-- An ASCII character of the bytes stands in the text. -/
theorem mem_of_mem_patternBytes {value : Text} {char : Char} (mem : char ∈ patternBytes value)
    (ascii : char.toNat < 128) : char ∈ value := by
  obtain ⟨byte, inBytes, rfl⟩ := List.mem_map.1 mem
  obtain ⟨own, inValue, inEncoded⟩ := List.mem_flatMap.1 inBytes
  have toNat : (Char.ofNat byte.toNat).toNat = byte.toNat := by
    have all : ∀ code < 256, (Char.ofNat code).toNat = code := by decide +kernel
    exact all _ byte.toNat_lt
  rw [toNat] at ascii
  obtain ⟨same, _⟩ := ascii_of_mem_utf8EncodeChar ascii inEncoded
  rwa [← same, Char.ofNat_toNat]

theorem patternBytes_intercalate (patterns : List Text) :
    patternBytes ([','].intercalate patterns) = [','].intercalate (patterns.map patternBytes) := by
  cases patterns with
  | nil => rfl
  | cons first patterns =>
    have comma : patternBytes [','] = [','] :=
      patternBytes_ascii (List.forall_mem_singleton.2 (by decide))
    have behind : patternBytes (patterns.flatMap ([','] ++ ·)) =
        (patterns.map patternBytes).flatMap ([','] ++ ·) := by
      induction patterns with
      | nil => rfl
      | cons pattern patterns ih =>
        rw [List.flatMap_cons, patternBytes_append, patternBytes_append, comma,
          ih, List.map_cons, List.flatMap_cons]
    rw [List.map_cons, intercalate_cons, intercalate_cons, patternBytes_append, behind]

theorem ascii_of_keyBlob {algorithm : Text} {bytes : Buffer} (isBlob : IsKeyBlob algorithm bytes) :
    ∀ char ∈ algorithm, char.toNat < 128 := by
  obtain ⟨fields, areChecked, _⟩ := isBlob
  have all : ∀ name ∈ PINNED_HOST_KEY_ALGORITHMS,
      (name.all fun char => decide (char.toNat < 128)) = true :=
    forall_mem_of_all (by decide)
  intro char mem
  exact of_decide_eq_true (List.all_eq_true.1 (all algorithm areChecked.pinned) char mem)

theorem ascii_of_mem_encodeBase64 {bytes : Buffer} {char : Char}
    (mem : char ∈ encodeBase64 bytes) : char.toNat < 128 := by
  have all : ∀ own ∈ base64Alphabet, own.toNat < 128 := forall_mem_of_all (by decide +kernel)
  rcases mem_encodeBase64 mem with inAlphabet | rfl
  · exact all char inAlphabet
  · decide

/-! ### Accepted params -/

theorem isJsSpace_of_isFieldBlank {char : Char} (isBlank : isFieldBlank char = true) :
    isJsSpace char = true ∧ char.toNat < 128 := by
  simp only [isFieldBlank, isLeadingBlank, Bool.or_eq_true, decide_eq_true_eq] at isBlank
  rcases isBlank with ((rfl | rfl) | rfl) | rfl <;> exact ⟨rfl, by decide⟩

/-- What validation says of a pattern. -/
structure PlainPattern (pattern : Text) : Prop where
  nonempty : pattern ≠ []
  allowed : ∀ char ∈ pattern, isForbiddenInPattern char = false

theorem plainPattern_of_accepted {isIP : Text → Nat} {pattern : Text}
    (accepted : assertHostPattern isIP pattern = .ok ()) : PlainPattern pattern := by
  rw [assertHostPattern] at accepted
  split at accepted
  · cases accepted
  · next allowed =>
    rw [not_or, not_or, List.length_eq_zero_iff, List.any_eq_true, not_exists] at allowed
    refine ⟨allowed.1, fun char mem => ?_⟩
    rw [← Bool.not_eq_true]
    exact fun forbidden => allowed.2.1 char ⟨mem, forbidden⟩

structure AcceptedCa (hosts : List Text) (params : KnownHostsCaParameters) : Prop where
  key : CaKey params.key
  plain : ∀ pattern ∈ params.patterns, PlainPattern pattern
  nonempty : params.state = .present → params.patterns ≠ []
  sorted : SortedDistinct hosts params.patterns

theorem sortedDistinct_sortedPatterns (patterns : List Text) :
    SortedDistinct patterns (sortedPatterns patterns) := by
  have total : Std.Total fun first second : Text =>
      Template.utf16Units first ≤ Template.utf16Units second :=
    ⟨fun _ _ => List.le_total _ _⟩
  have transitive : IsTrans Text fun first second =>
      Template.utf16Units first ≤ Template.utf16Units second :=
    ⟨fun _ _ _ => List.le_trans⟩
  obtain ⟨distinct, members⟩ := foldl_setAdd_spec patterns [] List.nodup_nil
  have permuted : (sortedPatterns patterns).Perm (patterns.foldl setAdd []) :=
    List.perm_insertionSort _ _
  refine ⟨fun pattern => ?_, permuted.nodup_iff.2 distinct, List.pairwise_insertionSort _ _⟩
  rw [permuted.mem_iff, members]
  exact or_iff_right List.not_mem_nil

theorem acceptedCa_of_parameters {isIP : Text → Nat} {user : Text}
    {options : KnownHostsCertAuthorityOptions} {params : KnownHostsCaParameters}
    (accepted : knownHostsCaParameters isIP user options = .ok params) :
    AcceptedCa (options.hosts.getD []) params := by
  obtain ⟨_, _, accepted⟩ := ok_of_bind accepted
  obtain ⟨key, isKey, accepted⟩ := ok_of_bind accepted
  obtain ⟨patterns, arePatterns, accepted⟩ := ok_of_bind accepted
  obtain ⟨_, checked, same⟩ := ok_of_bind arePatterns
  cases same
  split at accepted
  · cases accepted
  · next someHost =>
    cases accepted
    have sorted := sortedDistinct_sortedPatterns (options.hosts.getD [])
    refine ⟨caKey_of_canonical isKey, fun pattern mem => ?_, fun isPresent empty => ?_, sorted⟩
    · exact plainPattern_of_accepted (ok_of_forM checked pattern ((sorted.members pattern).1 mem))
    · refine someHost ⟨isPresent, List.length_eq_zero_iff.2 (List.eq_nil_iff_forall_not_mem.2 ?_)⟩
      intro pattern mem
      have inSorted : pattern ∈ sortedPatterns (options.hosts.getD []) :=
        (sorted.members pattern).2 mem
      have isEmpty : sortedPatterns (options.hosts.getD []) = [] := empty
      rw [isEmpty] at inSorted
      cases inSorted

/-! ### The canonical line -/

section CanonicalLine

variable {hosts : List Text} {params : KnownHostsCaParameters}
  (accepted : AcceptedCa hosts params)

include accepted

theorem canonicalCaLine_eq : canonicalCaLine params = CERT_AUTHORITY_MARKER ++
      ' ' :: ([','].intercalate (params.patterns.map patternBytes) ++
        ' ' :: (params.key ++ ['\n'])) := by
  obtain ⟨algorithm, bytes, isBlob, isKey⟩ := accepted.key
  have asciiKey : patternBytes (' ' :: params.key) = ' ' :: params.key := by
    rw [isKey]
    refine patternBytes_ascii (List.forall_mem_cons.2 ⟨by decide, fun char mem => ?_⟩)
    rw [List.mem_append, List.mem_cons] at mem
    rcases mem with inAlgorithm | rfl | inBase64
    · exact ascii_of_keyBlob isBlob char inAlgorithm
    · decide
    · exact ascii_of_mem_encodeBase64 inBase64
  have marker : patternBytes (text "@cert-authority ") = CERT_AUTHORITY_MARKER ++ [' '] :=
    patternBytes_ascii (forall_mem_of_all (by decide))
  have newline : patternBytes ['\n'] = ['\n'] :=
    patternBytes_ascii (List.forall_mem_singleton.2 (by decide))
  calc canonicalCaLine params
      = patternBytes (text "@cert-authority " ++ [','].intercalate params.patterns ++
          ' ' :: params.key ++ ['\n']) := rfl
    _ = _ := by
      rw [patternBytes_append, patternBytes_append, patternBytes_append, marker,
        patternBytes_intercalate, asciiKey, newline]
      simp only [List.append_assoc, List.cons_append, List.nil_append]

/-- No pattern brings a blank or a comma into the line. -/
theorem notMem_patternBytes {pattern : Text} (mem : pattern ∈ params.patterns) {char : Char}
    (forbidden : isForbiddenInPattern char = true) (ascii : char.toNat < 128) :
    char ∉ patternBytes pattern := by
  intro inBytes
  have allowed := (accepted.plain pattern mem).allowed char (mem_of_mem_patternBytes inBytes ascii)
  rw [forbidden] at allowed
  cases allowed

theorem joined_patterns (someHost : params.patterns ≠ []) :
    let joined := [','].intercalate (params.patterns.map patternBytes)
    joined ≠ [] ∧ (∀ char ∈ joined, isFieldBlank char = false) ∧
      joined.splitOn ',' = params.patterns.map patternBytes := by
  have noBlank (pattern : Text) (mem : pattern ∈ params.patterns) :
      ∀ char ∈ patternBytes pattern, isFieldBlank char = false := by
    intro char inBytes
    rw [← Bool.not_eq_true]
    intro isBlank
    obtain ⟨isSpace, ascii⟩ := isJsSpace_of_isFieldBlank isBlank
    have forbidden : isForbiddenInPattern char = true := by
      rw [isForbiddenInPattern, isSpace]
      rfl
    exact notMem_patternBytes accepted mem forbidden ascii inBytes
  have noComma (pattern : Text) (mem : pattern ∈ params.patterns) : ',' ∉ patternBytes pattern :=
    notMem_patternBytes accepted mem (by decide) (by decide)
  cases patterns : params.patterns with
  | nil => exact absurd patterns someHost
  | cons first rest =>
    rw [patterns] at noBlank noComma
    dsimp only
    rw [List.map_cons, intercalate_cons]
    refine ⟨?_, ?_, splitOn_flatMap_cons ?_ (noComma first List.mem_cons_self)⟩
    · refine List.append_ne_nil_of_left_ne_nil (fun empty => ?_) _
      have noBytes : utf8Bytes first = utf8Bytes [] := List.map_eq_nil_iff.1 empty
      have isFirst : first ∈ params.patterns := by rw [patterns]; exact List.mem_cons_self
      exact (accepted.plain first isFirst).nonempty (utf8Bytes_injective noBytes)
    · rw [List.forall_mem_append, List.forall_mem_flatMap]
      refine ⟨noBlank first List.mem_cons_self, List.forall_mem_map.2 fun pattern mem => ?_⟩
      exact List.forall_mem_cons.2 ⟨rfl, noBlank pattern (List.mem_cons_of_mem _ mem)⟩
    · exact List.forall_mem_map.2 fun pattern mem =>
        noComma pattern (List.mem_cons_of_mem _ mem)

/-- The canonical line is a whole record of the key, with the patterns of the params. -/
theorem canonicalCaLine_spec (someHost : params.patterns ≠ []) :
    (∃ line, '\n' ∉ line ∧ canonicalCaLine params = line ++ ['\n']) ∧
      isCaRecord params.key (canonicalCaLine params) = true ∧
      recordPatterns (canonicalCaLine params) = params.patterns.map patternBytes := by
  obtain ⟨algorithm, bytes, isBlob, isKey⟩ := accepted.key
  obtain ⟨isWord, someBytes, isDecoded⟩ := decodedKey_eq isBlob
  obtain ⟨someJoined, noBlank, split⟩ := joined_patterns accepted someHost
  have isBase64 := isWord_encodeBase64 someBytes
  have whole := canonicalCaLine_eq accepted
  rw [isKey] at whole
  generalize [','].intercalate (params.patterns.map patternBytes) = joined at *
  have field {word : Text} (isWord : IsWord word) : ∀ char ∈ word, isFieldBlank char = false := by
    intro char mem
    rw [← Bool.not_eq_true]
    intro isBlank
    have isSpace := (isJsSpace_of_isFieldBlank isBlank).1
    rw [isWord.2 char mem] at isSpace
    cases isSpace
  have marker : ∀ char ∈ CERT_AUTHORITY_MARKER, isFieldBlank char = false :=
    forall_mem_of_all (by decide)
  have starts {word : Text} (nonempty : word ≠ [])
      (noBlank : ∀ char ∈ word, isFieldBlank char = false) (rest : Text) :
      ∀ head, (word ++ rest).head? = some head → isFieldBlank head = false := by
    intro head isHead
    rw [List.head?_append_of_ne_nil _ nonempty] at isHead
    exact noBlank head (List.mem_of_head? isHead)
  have fields : caFields (canonicalCaLine params) =
      [CERT_AUTHORITY_MARKER, joined, algorithm, encodeBase64 bytes, []] := by
    rw [whole]
    calc caFields _
        = splitRuns isFieldBlank (CERT_AUTHORITY_MARKER ++
            ' ' :: (joined ++ ' ' :: (algorithm ++ ' ' :: encodeBase64 bytes ++ ['\n']))) := rfl
      _ = _ := by
        rw [splitRuns_append marker rfl (starts someJoined noBlank _),
          splitRuns_append noBlank rfl, List.append_assoc, List.cons_append,
          splitRuns_append (field isWord) rfl (starts isBase64.1 (field isBase64) _),
          splitRuns_append (field isBase64) rfl]
        · rfl
        · intro head isHead
          cases isHead
        · rw [List.append_assoc]
          exact starts isWord.1 (field isWord) _
  refine ⟨?_, ?_, ?_⟩
  · refine ⟨CERT_AUTHORITY_MARKER ++
      ' ' :: (joined ++ ' ' :: (algorithm ++ ' ' :: encodeBase64 bytes)), ?_, ?_⟩
    · have noBreak {word : Text} (noBlank : ∀ char ∈ word, isFieldBlank char = false) :
          '\n' ∉ word := fun mem => Bool.noConfusion (noBlank _ mem)
      simp only [List.mem_append, List.mem_cons, not_or]
      exact ⟨noBreak marker, by decide, noBreak noBlank, by decide, noBreak (field isWord),
        by decide, noBreak (field isBase64)⟩
    · simp only [whole, List.append_assoc, List.cons_append]
  · rw [isCaRecord_fields fields, isKey, spellsKey, isDecoded, decodeBase64_encodeBase64,
      isStrictBase64_encodeBase64 someBytes]
    simp
  · rw [recordPatterns, fields]
    exact split

end CanonicalLine

/-! ### The edit -/

/-- The loop sees one empty text more where the last record has its newline. -/
theorem splitRecords_eq (content : Text) : ∃ tail, (tail = [] ∨ tail = [[]]) ∧
    splitRecords content = fileRecords '\n' content ++ tail := by
  obtain ⟨lines, last, whole, lastLine, rfl⟩ := exists_fileText '\n' content
  have split : (fileText '\n' lines ++ last).splitOn '\n' = lines ++ [last] := by
    rw [splitOn_fileText_append whole, List.splitOn_eq_singleton lastLine]
  have terminated : lines.mapIdx
      (fun index line => if index = (lines ++ [last]).length - 1 then line else line ++ ['\n']) =
        lines.map (· ++ ['\n']) := by
    apply List.ext_getElem?
    intro index
    rw [List.getElem?_mapIdx, List.getElem?_map]
    cases found : lines[index]? with
    | none => rfl
    | some line =>
      obtain ⟨inside, _⟩ := List.getElem?_eq_some_iff.1 found
      rw [Option.map_some, Option.map_some, if_neg]
      rw [List.length_append, List.length_singleton]
      omega
  have records : splitRecords (fileText '\n' lines ++ last) =
      lines.map (· ++ ['\n']) ++ [last] := by
    rw [splitRecords]
    simp only [split]
    rw [List.mapIdx_append, terminated, List.mapIdx_cons, List.mapIdx_nil, if_pos]
    rw [List.length_append, List.length_singleton]
    omega
  rw [records, fileRecords_fileText_append whole]
  by_cases empty : last = []
  · refine ⟨[[]], .inr rfl, ?_⟩
    rw [empty, fileRecords, List.append_nil]
  · refine ⟨[], .inl rfl, ?_⟩
    rw [fileRecords_last empty lastLine, List.append_nil]

section Loop

variable {params : KnownHostsCaParameters}

/-- The record is taken for one of the key. -/
abbrev taken (params : KnownHostsCaParameters) (record : Text) : Bool :=
  lineHasCaIdentity record params.key

theorem preserveRecords_append (front back : List Text) (inserted : Bool) :
    preserveRecords params inserted (front ++ back) =
      let first := preserveRecords params inserted front
      let second := preserveRecords params first.2 back
      (first.1 ++ second.1, second.2) := by
  induction front generalizing inserted with
  | nil => rfl
  | cons record front ih =>
    rw [List.cons_append, preserveRecords, preserveRecords]
    split
    · rw [ih]
      rfl
    · split
      · rw [ih]
        rfl
      · rw [ih]

theorem preserveRecords_untaken {records : List Text}
    (untaken : ∀ record ∈ records, taken params record = false) (inserted : Bool) :
    preserveRecords params inserted records = (records, inserted) := by
  induction records with
  | nil => rfl
  | cons record records ih =>
    rw [List.forall_mem_cons] at untaken
    rw [preserveRecords, if_pos untaken.1, ih untaken.2]

/-- Nothing is inserted where the state is `absent`, or a second time. -/
theorem preserveRecords_removing {inserted : Bool}
    (removes : ¬(params.state = .present ∧ inserted = false)) (records : List Text) :
    preserveRecords params inserted records =
      (records.filter fun record => !taken params record, inserted) := by
  induction records with
  | nil => rfl
  | cons record records ih =>
    by_cases untaken : taken params record = false
    · rw [preserveRecords, if_pos untaken, ih, List.filter_cons_of_pos]
      rw [untaken]
      rfl
    · rw [preserveRecords, if_neg untaken, if_neg removes, ih, List.filter_cons_of_neg]
      rw [Bool.not_eq_false] at untaken
      rw [untaken]
      exact Bool.false_ne_true

theorem preserveRecords_replacing {front back : List Text} {record : Text}
    (untaken : ∀ record ∈ front, taken params record = false)
    (isTaken : taken params record = true) (isPresent : params.state = .present) :
    preserveRecords params false (front ++ record :: back) =
      (front ++ canonicalCaLine params :: back.filter fun record => !taken params record,
        true) := by
  rw [preserveRecords_append, preserveRecords_untaken untaken]
  dsimp only
  rw [preserveRecords, if_neg (ne_false_of_eq_true isTaken), if_pos ⟨isPresent, rfl⟩,
    preserveRecords_removing fun both => Bool.noConfusion both.2]

/-- The empty text behind the last newline changes nothing. -/
theorem preserveRecords_split (content : Text) :
    let (preserved, inserted) := preserveRecords params false (splitRecords content)
    let (kept, insertedThere) := preserveRecords params false (fileRecords '\n' content)
    preserved.flatten = kept.flatten ∧ inserted = insertedThere := by
  obtain ⟨tail, rfl | rfl, split⟩ := splitRecords_eq content
  · rw [split, List.append_nil]
    exact ⟨rfl, rfl⟩
  · have untaken : ∀ record ∈ [[]], taken params record = false := List.forall_mem_singleton.2 rfl
    rw [split, preserveRecords_append]
    dsimp only
    rw [preserveRecords_untaken untaken]
    dsimp only
    rw [List.flatten_append, List.flatten_cons, List.flatten_nil, List.append_nil, List.append_nil]
    exact ⟨rfl, rfl⟩

theorem reconcileKnownHostsCa_eq (content : Text) : reconcileKnownHostsCa content params =
      let (preserved, inserted) := preserveRecords params false (fileRecords '\n' content)
      if params.state = .absent ∨ inserted = true then preserved.flatten
      else preserved.flatten ++ missingNewline preserved.flatten ++ canonicalCaLine params := by
  obtain ⟨same, sameInserted⟩ := @preserveRecords_split params content
  rw [reconcileKnownHostsCa]
  simp only [same, sameInserted]

/-! ### What the edit leaves -/

theorem reconcile_absent (isAbsent : params.state = .absent) (content : Text) :
    fileRecords '\n' (reconcileKnownHostsCa content params) =
      (fileRecords '\n' content).filter fun record => !taken params record := by
  have notPresent : ¬(params.state = .present ∧ false = false) := by
    rw [isAbsent]
    exact fun both => KeysState.noConfusion both.1
  rw [reconcileKnownHostsCa_eq, preserveRecords_removing notPresent]
  dsimp only
  rw [if_pos (.inl isAbsent)]
  exact fileRecords_flatten ((isRecords_fileRecords content).sublist List.filter_sublist)

/-- The first record that is taken for one of the key makes way for the canonical line. -/
theorem reconcile_replaced {content : Text} {front back : List Text} {record line : Text}
    (isPresent : params.state = .present)
    (records : fileRecords '\n' content = front ++ record :: back)
    (untaken : ∀ record ∈ front, taken params record = false)
    (isTaken : taken params record = true) (oneLine : '\n' ∉ line)
    (isLine : canonicalCaLine params = line ++ ['\n']) :
    fileRecords '\n' (reconcileKnownHostsCa content params) = front ++ canonicalCaLine params ::
        back.filter fun record => !taken params record := by
  rw [reconcileKnownHostsCa_eq, records, preserveRecords_replacing untaken isTaken isPresent]
  dsimp only
  rw [if_pos (.inr rfl), fileRecords_flatten]
  have areRecords := @isRecords_fileRecords _ _ '\n' content
  rw [records] at areRecords
  rw [isLine]
  refine (areRecords.replaced oneLine).sublist ?_
  exact List.Sublist.append_left (List.filter_sublist.cons_cons _) _

theorem reconcile_appended {content : Text} (isPresent : params.state = .present)
    (untaken : ∀ record ∈ fileRecords '\n' content, taken params record = false) :
    reconcileKnownHostsCa content params =
      content ++ missingNewline content ++ canonicalCaLine params := by
  have notAbsent : ¬(params.state = .absent ∨ false = true) := by
    rw [isPresent]
    exact fun either => either.elim KeysState.noConfusion Bool.noConfusion
  rw [reconcileKnownHostsCa_eq, preserveRecords_untaken untaken]
  dsimp only
  rw [if_neg notAbsent, flatten_fileRecords]

end Loop

/-! ### What exactness means -/

/-- The records of the key. -/
def ownRecords (key content : Text) : List Text :=
  (fileRecords '\n' content).filter (isCaRecord key)

/-- The records that are none of the key. -/
def foreignRecords (key content : Text) : List Text :=
  (fileRecords '\n' content).filter fun record => !isCaRecord key record

/-- Nothing but the records of the key changes, and a newline that the canonical line needs. -/
def ForeignKept (params : KnownHostsCaParameters) (content : Text) : Prop :=
  let result := reconcileKnownHostsCa content params
  foreignRecords params.key result = foreignRecords params.key content ∨
    ¬Terminated '\n' content ∧ result = content ++ '\n' :: canonicalCaLine params ∧
      foreignRecords params.key result = foreignRecords params.key (content ++ ['\n'])

structure ReconciledExactly (hosts : List Text) (params : KnownHostsCaParameters)
    (content : Text) : Prop where
  idempotent : reconcileKnownHostsCa (reconcileKnownHostsCa content params) params =
    reconcileKnownHostsCa content params
  kept : ForeignKept params content
  present : params.state = .present → ∃ record patterns,
    ownRecords params.key (reconcileKnownHostsCa content params) = [record] ∧
      recordPatterns record = patterns.map patternBytes ∧ SortedDistinct hosts patterns
  absent : params.state = .absent →
    ownRecords params.key (reconcileKnownHostsCa content params) = []
  restored : params.state = .present → Terminated '\n' content →
    ownRecords params.key content = [] → ∀ removing : KnownHostsCaParameters,
      removing.key = params.key → removing.state = .absent →
        reconcileKnownHostsCa (reconcileKnownHostsCa content params) removing = content

/-- The canonical line is put behind the records. -/
def AppendsLine (params : KnownHostsCaParameters) (content : Text) : Prop :=
  params.state = .present ∧ ownRecords params.key content = []

instance (params : KnownHostsCaParameters) (content : Text) :
    Decidable (AppendsLine params content) :=
  inferInstanceAs (Decidable (_ ∧ _))

/-- No record is stray, the last one with its newline where the canonical line follows it. -/
def NoStray (params : KnownHostsCaParameters) (content : Text) : Prop :=
  let completed :=
    if AppendsLine params content then content ++ missingNewline content else content
  ∀ record ∈ fileRecords '\n' completed, isStrayRecord params.key record = false

/-! ### Exactness -/

theorem missingNewline_cases (content : Text) :
    (Terminated '\n' content ∧ missingNewline content = []) ∨
      (¬Terminated '\n' content ∧ missingNewline content = ['\n']) := by
  by_cases terminated : Terminated '\n' content
  · refine .inl ⟨terminated, if_neg ?_⟩
    rw [← not_or, not_not]
    exact terminated
  · exact .inr ⟨terminated, if_pos (not_or.1 terminated)⟩

theorem terminated_completed (content : Text) :
    Terminated '\n' (content ++ missingNewline content) := by
  rcases missingNewline_cases content with ⟨terminated, missing⟩ | ⟨_, missing⟩
  · rwa [missing, List.append_nil]
  · rw [missing]
    exact terminated_append_newline content

section Exactness

variable {hosts : List Text} {params : KnownHostsCaParameters} {content : Text}

/-- Records with a newline added to the last one -/
theorem completed_records (content : Text) : ∀ record ∈ fileRecords '\n' content,
      record ∈ fileRecords '\n' (content ++ missingNewline content) ∨
        record ++ ['\n'] ∈ fileRecords '\n' (content ++ missingNewline content) := by
  intro record mem
  rcases missingNewline_cases content with ⟨_, missing⟩ | ⟨unterminated, missing⟩
  · rw [missing, List.append_nil]
    exact .inl mem
  · obtain ⟨front, last, records, completed⟩ := fileRecords_append_newline unterminated
    rw [missing, completed]
    rw [records] at mem
    rcases List.mem_append.1 mem with inFront | isLast
    · exact .inl (List.mem_append_left _ inFront)
    · rw [List.mem_singleton.1 isLast]
      exact .inr (List.mem_append_right _ (List.mem_singleton_self _))

theorem notStray_of_noStray (noStray : NoStray params content) :
    ∀ record ∈ fileRecords '\n' content, isStrayRecord params.key record = false := by
  intro record mem
  rw [NoStray] at noStray
  split at noStray
  · rcases completed_records content record mem with same | completed
    · exact noStray record same
    · rw [← Bool.not_eq_true]
      intro stray
      have strayThere := isStrayRecord_concat stray
      rw [noStray _ completed] at strayThere
      cases strayThere
  · exact noStray record mem

/-- Whether the last record has its newline does not decide which records are foreign. -/
theorem isCaRecord_completed (own : ∀ record ∈ fileRecords '\n' content,
    isCaRecord params.key record = false) :
    ∀ record ∈ fileRecords '\n' (content ++ missingNewline content),
      isCaRecord params.key record = false := by
  rcases missingNewline_cases content with ⟨_, missing⟩ | ⟨unterminated, missing⟩
  · rwa [missing, List.append_nil]
  · obtain ⟨front, last, records, completed⟩ := fileRecords_append_newline unterminated
    rw [records, List.forall_mem_append, List.forall_mem_singleton] at own
    rw [missing, completed, List.forall_mem_append, List.forall_mem_singleton, isCaRecord_concat]
    exact own

variable (accepted : AcceptedCa hosts params)

include accepted

theorem taken_eq_isCaRecord {record : Text} (notStray : isStrayRecord params.key record = false) :
    taken params record = isCaRecord params.key record := by
  rw [taken, lineHasCaIdentity_eq accepted.key, notStray, Bool.or_false]

theorem isTaken_canonicalCaLine (isPresent : params.state = .present) :
    taken params (canonicalCaLine params) = true := by
  obtain ⟨_, isOwn, _⟩ := canonicalCaLine_spec accepted (accepted.nonempty isPresent)
  rw [taken, lineHasCaIdentity_eq accepted.key, isOwn, Bool.true_or]

/-- Without stray records the records of the key are the taken ones. -/
theorem filter_taken {records : List Text}
    (notStray : ∀ record ∈ records, isStrayRecord params.key record = false) :
    (records.filter fun record => !taken params record) =
      records.filter fun record => !isCaRecord params.key record :=
  List.filter_congr fun record mem => by
    rw [taken_eq_isCaRecord accepted (notStray record mem)]

/-! ### The three edits -/

theorem exact_absent (noStray : NoStray params content)
    (isAbsent : params.state = .absent) : ReconciledExactly hosts params content := by
  have notPresent : params.state ≠ .present := by
    rw [isAbsent]
    exact KeysState.noConfusion
  have records := reconcile_absent isAbsent content
  have foreign : foreignRecords params.key (reconcileKnownHostsCa content params) =
      foreignRecords params.key content := by
    rw [foreignRecords, records, filter_taken accepted (notStray_of_noStray noStray),
      List.filter_filter]
    simp only [Bool.and_self]
    rfl
  refine ⟨fileRecords_injective '\n' ?_, .inl foreign, fun isPresent => absurd isPresent notPresent,
    fun _ => ?_, fun isPresent => absurd isPresent notPresent⟩
  · rw [reconcile_absent isAbsent, records, List.filter_filter]
    simp only [Bool.and_self]
  · rw [ownRecords, records, filter_taken accepted (notStray_of_noStray noStray),
      List.filter_filter]
    simp only [Bool.and_not_self, List.filter_false]

theorem exact_replaced (noStray : NoStray params content)
    (isPresent : params.state = .present) {front back : List Text} {record : Text}
    (records : fileRecords '\n' content = front ++ record :: back)
    (untaken : ∀ record ∈ front, taken params record = false)
    (isTaken : taken params record = true) :
    ReconciledExactly hosts params content := by
  obtain ⟨⟨line, oneLine, isLine⟩, isOwn, patterns⟩ :=
    canonicalCaLine_spec accepted (accepted.nonempty isPresent)
  have isTakenLine := isTaken_canonicalCaLine accepted isPresent
  have notStray := notStray_of_noStray noStray
  have replaced := reconcile_replaced isPresent records untaken isTaken oneLine isLine
  rw [records, List.forall_mem_append, List.forall_mem_cons] at notStray
  have isOwnRecord : isCaRecord params.key record = true := by
    rw [← taken_eq_isCaRecord accepted notStray.2.1, isTaken]
  have noneOwn : ∀ record ∈ front, isCaRecord params.key record = false := fun record mem => by
    rw [← taken_eq_isCaRecord accepted (notStray.1 record mem), untaken record mem]
  refine ⟨fileRecords_injective '\n' ?_, .inl ?_, fun _ => ?_, fun isAbsent => ?_,
    fun _ _ noOwn => ?_⟩
  · rw [reconcile_replaced isPresent replaced untaken isTakenLine oneLine isLine, replaced,
      List.filter_filter]
    simp only [Bool.and_self]
  · rw [foreignRecords, foreignRecords, replaced, records, filter_taken accepted notStray.2.2,
      List.filter_append, List.filter_append, List.filter_cons_of_neg, List.filter_cons_of_neg,
      List.filter_filter]
    · simp only [Bool.and_self]
    · simp [isOwnRecord]
    · simp [isOwn]
  · refine ⟨canonicalCaLine params, params.patterns, ?_, patterns, accepted.sorted⟩
    rw [ownRecords, replaced, filter_taken accepted notStray.2.2, List.filter_append,
      List.filter_cons_of_pos isOwn, List.filter_filter, List.filter_eq_nil_iff.2]
    · simp only [Bool.and_not_self, List.filter_false, List.nil_append]
    · simpa using noneOwn
  · rw [isPresent] at isAbsent
    cases isAbsent
  · rw [ownRecords, records, List.filter_eq_nil_iff] at noOwn
    exact absurd isOwnRecord (noOwn record (List.mem_append_right _ List.mem_cons_self))

theorem exact_appended (noStray : NoStray params content) (isPresent : params.state = .present)
    (untaken : ∀ record ∈ fileRecords '\n' content, taken params record = false) :
    ReconciledExactly hosts params content := by
  obtain ⟨⟨line, oneLine, isLine⟩, isOwn, patterns⟩ :=
    canonicalCaLine_spec accepted (accepted.nonempty isPresent)
  have isTakenLine := isTaken_canonicalCaLine accepted isPresent
  have notStray := notStray_of_noStray noStray
  have noneOwn : ∀ record ∈ fileRecords '\n' content,
      isCaRecord params.key record = false := fun record mem => by
    rw [← taken_eq_isCaRecord accepted (notStray record mem), untaken record mem]
  have appends : AppendsLine params content := by
    refine ⟨isPresent, List.filter_eq_nil_iff.2 fun record mem => ?_⟩
    rw [noneOwn record mem]
    exact Bool.false_ne_true
  rw [NoStray, if_pos appends] at noStray
  have noneOwnThere := isCaRecord_completed noneOwn
  have untakenThere : ∀ record ∈ fileRecords '\n' (content ++ missingNewline content),
      taken params record = false := fun record mem => by
    rw [taken_eq_isCaRecord accepted (noStray record mem), noneOwnThere record mem]
  have appended := reconcile_appended isPresent untaken
  have records : fileRecords '\n' (reconcileKnownHostsCa content params) =
      fileRecords '\n' (content ++ missingNewline content) ++ [canonicalCaLine params] := by
    rw [appended, isLine, fileRecords_append_record (terminated_completed content) oneLine]
  have foreign : foreignRecords params.key (reconcileKnownHostsCa content params) =
      foreignRecords params.key (content ++ missingNewline content) := by
    rw [foreignRecords, records, List.filter_append, List.filter_cons_of_neg, List.filter_nil,
      List.append_nil]
    · rfl
    · simp [isOwn]
  refine ⟨fileRecords_injective '\n' ?_, ?_, fun _ => ?_, fun isAbsent => ?_,
    fun _ terminated _ removing sameKey removes => fileRecords_injective '\n' ?_⟩
  · rw [reconcile_replaced isPresent records untakenThere isTakenLine oneLine isLine, records]
    rfl
  · rcases missingNewline_cases content with ⟨_, missing⟩ | ⟨unterminated, missing⟩
    · rw [missing, List.append_nil] at foreign
      exact .inl foreign
    · rw [missing] at foreign appended
      rw [List.append_assoc] at appended
      exact .inr ⟨unterminated, appended, foreign⟩
  · refine ⟨canonicalCaLine params, params.patterns, ?_, patterns, accepted.sorted⟩
    rw [ownRecords, records, List.filter_append, List.filter_cons_of_pos isOwn, List.filter_nil,
      List.filter_eq_nil_iff.2]
    · rfl
    · simpa using noneOwnThere
  · rw [isPresent] at isAbsent
    cases isAbsent
  · have missing : missingNewline content = [] := by
      rcases missingNewline_cases content with ⟨_, missing⟩ | ⟨unterminated, _⟩
      · exact missing
      · exact absurd terminated unterminated
    have sameTaken : taken removing = taken params := by
      funext record
      rw [taken, sameKey]
    rw [reconcile_absent removes, records, missing, List.append_nil, sameTaken,
      List.filter_append, List.filter_cons_of_neg, List.filter_nil, List.append_nil,
      List.filter_eq_self]
    · intro record mem
      rw [untaken record mem]
      rfl
    · simp [isTakenLine]

theorem exact_of_noStray (noStray : NoStray params content) :
    ReconciledExactly hosts params content := by
  cases state : params.state with
  | absent => exact exact_absent accepted noStray state
  | present =>
    rcases findIdx?_cases (taken params) (fileRecords '\n' content) with
      ⟨_, untaken⟩ | ⟨front, record, back, records, untaken, isTaken, _⟩
    · exact exact_appended accepted noStray state untaken
    · exact exact_replaced accepted noStray state records untaken isTaken

/-! ### Stray records -/

omit accepted in
theorem length_foreign_newline (unterminated : ¬Terminated '\n' content) (key : Text) :
    (foreignRecords key (content ++ ['\n'])).length = (foreignRecords key content).length := by
  obtain ⟨front, last, records, completed⟩ := fileRecords_append_newline unterminated
  simp only [foreignRecords, records, completed, List.filter_append, List.length_append,
    List.filter_cons, isCaRecord_concat]
  split <;> rfl

/-- Where some record is taken, all taken ones go. -/
theorem foreign_of_taken {record : Text} (mem : record ∈ fileRecords '\n' content)
    (isTaken : taken params record = true) :
    foreignRecords params.key (reconcileKnownHostsCa content params) =
      (foreignRecords params.key content).filter fun record => !taken params record := by
  have swap : ∀ records : List Text,
      (records.filter fun record => !isCaRecord params.key record).filter
          (fun record => !taken params record) =
        (records.filter fun record => !taken params record).filter
          fun record => !isCaRecord params.key record := fun records => by
    rw [List.filter_filter, List.filter_filter]
    simp only [Bool.and_comm]
  rw [foreignRecords, foreignRecords, swap]
  cases state : params.state with
  | absent => rw [reconcile_absent state]
  | present =>
    obtain ⟨⟨line, oneLine, isLine⟩, isOwn, _⟩ :=
      canonicalCaLine_spec accepted (accepted.nonempty state)
    rcases findIdx?_cases (taken params) (fileRecords '\n' content) with
      ⟨_, untaken⟩ | ⟨front, first, back, records, untaken, isFirst, _⟩
    · rw [untaken record mem] at isTaken
      cases isTaken
    · have keptFront : (front.filter fun record => !taken params record) = front := by
        rw [List.filter_eq_self]
        intro own inFront
        rw [untaken own inFront]
        rfl
      rw [reconcile_replaced state records untaken isFirst oneLine isLine, records,
        List.filter_append, List.filter_append, keptFront, List.filter_cons_of_neg,
        List.filter_cons_of_neg, List.filter_append]
      · simp [isFirst]
      · simp [isOwn]

/-- A stray record of the file is lost. -/
theorem not_kept_of_stray {record : Text} (mem : record ∈ fileRecords '\n' content)
    (stray : isStrayRecord params.key record = true) : ¬ForeignKept params content := by
  have isTaken : taken params record = true := by
    rw [taken, lineHasCaIdentity_eq accepted.key, stray, Bool.or_true]
  have inForeign : record ∈ foreignRecords params.key content := by
    refine List.mem_filter.2 ⟨mem, ?_⟩
    rw [not_isCaRecord_of_stray accepted.key stray]
    rfl
  have fewer :
      (foreignRecords params.key (reconcileKnownHostsCa content params)).length <
        (foreignRecords params.key content).length := by
    rw [foreign_of_taken accepted mem isTaken, List.length_filter_lt_length_iff_exists]
    exact ⟨record, inForeign, by simp [isTaken]⟩
  rintro (same | ⟨unterminated, _, same⟩)
  · rw [same] at fewer
    exact absurd fewer (Nat.lt_irrefl _)
  · rw [same, length_foreign_newline unterminated] at fewer
    exact absurd fewer (Nat.lt_irrefl _)

/-- A last record that is stray with its newline is lost in the second round. -/
theorem not_idempotent_of_stray (isPresent : params.state = .present)
    (untaken : ∀ record ∈ fileRecords '\n' content, taken params record = false)
    {record : Text} (mem : record ∈ fileRecords '\n' (content ++ missingNewline content))
    (stray : isStrayRecord params.key record = true) :
    reconcileKnownHostsCa (reconcileKnownHostsCa content params) params ≠
      reconcileKnownHostsCa content params := by
  obtain ⟨⟨line, oneLine, isLine⟩, _⟩ := canonicalCaLine_spec accepted (accepted.nonempty isPresent)
  have isTakenLine := isTaken_canonicalCaLine accepted isPresent
  have isTaken : taken params record = true := by
    rw [taken, lineHasCaIdentity_eq accepted.key, stray, Bool.or_true]
  have records : fileRecords '\n' (reconcileKnownHostsCa content params) =
      fileRecords '\n' (content ++ missingNewline content) ++ [canonicalCaLine params] := by
    rw [reconcile_appended isPresent untaken, isLine,
      fileRecords_append_record (terminated_completed content) oneLine]
  rcases findIdx?_cases (taken params)
      (fileRecords '\n' (content ++ missingNewline content)) with
    ⟨_, untakenThere⟩ | ⟨front, first, back, split, untakenFront, isFirst, _⟩
  · rw [untakenThere record mem] at isTaken
    cases isTaken
  · rw [split, List.append_assoc, List.cons_append] at records
    intro same
    have again := reconcile_replaced isPresent records untakenFront isFirst oneLine isLine
    rw [same, records] at again
    -- the canonical line behind the replaced record is removed
    have fewer : ((back ++ [canonicalCaLine params]).filter
        fun record => !taken params record).length <
          (back ++ [canonicalCaLine params]).length := by
      rw [List.length_filter_lt_length_iff_exists]
      exact ⟨_, List.mem_append_right _ (List.mem_singleton_self _), by simp [isTakenLine]⟩
    have tails := (List.cons.inj (List.append_cancel_left again)).2
    rw [← tails] at fewer
    exact absurd fewer (Nat.lt_irrefl _)

theorem noStray_of_exact (isExact : ReconciledExactly hosts params content) :
    NoStray params content := by
  have notStray : ∀ record ∈ fileRecords '\n' content, isStrayRecord params.key record = false := by
    intro record mem
    rw [← Bool.not_eq_true]
    exact fun stray => not_kept_of_stray accepted mem stray isExact.kept
  rw [NoStray]
  split
  · next appends =>
    intro record mem
    rw [← Bool.not_eq_true]
    intro stray
    refine not_idempotent_of_stray accepted appends.1 (fun own inContent => ?_) mem stray
      isExact.idempotent
    rw [taken_eq_isCaRecord accepted (notStray own inContent), ← Bool.not_eq_true]
    exact List.filter_eq_nil_iff.1 appends.2 own inContent
  · exact notStray

end Exactness

/-- The edit of known_hosts is exact if and only if no record is stray. -/
theorem known_hosts_ca_exact_iff (isIP : Text → Nat) {user : Text}
    {options : KnownHostsCertAuthorityOptions} {params : KnownHostsCaParameters}
    (accepted : knownHostsCaParameters isIP user options = .ok params) (content : Text) :
    ReconciledExactly (options.hosts.getD []) params content ↔ NoStray params content :=
  ⟨noStray_of_exact (acceptedCa_of_parameters accepted),
    exact_of_noStray (acceptedCa_of_parameters accepted)⟩

/-- An old record of the key makes way for the new patterns between foreign records. -/
theorem old_record_replaced :
    let options : KnownHostsCertAuthorityOptions :=
      { hosts := some [text "*.example.org", text "[git.example.org]:2222", text "*.example.org"]
        publicKey := ed25519Line ++ text " ca@example.org"
        state := none }
    let params : KnownHostsCaParameters :=
      { key := ed25519Line
        patterns := [text "*.example.org", text "[git.example.org]:2222"]
        state := .present
        user := text "deploy" }
    let content := text "# hosts\n@cert-authority *.example.com " ++ ed25519Line ++
      text " old\n@revoked * ssh-rsa AAAA"
    knownHostsCaParameters (fun _ => 0) (text "deploy") options = .ok params ∧
      ReconciledExactly (options.hosts.getD []) params content := by
  have accepted : knownHostsCaParameters (fun _ => 0) (text "deploy")
      { hosts := some [text "*.example.org", text "[git.example.org]:2222", text "*.example.org"]
        publicKey := ed25519Line ++ text " ca@example.org"
        state := none } =
      .ok
        { key := ed25519Line
          patterns := [text "*.example.org", text "[git.example.org]:2222"]
          state := .present
          user := text "deploy" } := by
    decide +kernel
  refine ⟨accepted, (known_hosts_ca_exact_iff (fun _ => 0) accepted _).2 ?_⟩
  exact forall_mem_of_all (by decide +kernel)

/-- A no-break space in the field of the algorithm: the record is no line of the key, and it is
removed. -/
theorem record_with_space_lost :
    ¬∀ (isIP : Text → Nat) (user : Text) (options : KnownHostsCertAuthorityOptions)
      (params : KnownHostsCaParameters) (content : Text),
      knownHostsCaParameters isIP user options = .ok params →
        ReconciledExactly (options.hosts.getD []) params content := by
  intro always
  have accepted : knownHostsCaParameters (fun _ => 0) (text "deploy")
      { hosts := none, publicKey := ed25519Line, state := some .absent } =
      .ok { key := ed25519Line, patterns := [], state := .absent, user := text "deploy" } := by
    decide +kernel
  let spaced := ed25519Line.map fun char => if char = ' ' then Char.ofNat 0xa0 else char
  have isExact := always _ _ _ _
    (text "@cert-authority *.example.com " ++ spaced ++ text " retired\n") accepted
  rcases isExact.kept with same | ⟨unterminated, _⟩
  · revert same
    decide +kernel
  · exact unterminated (.inr (by decide +kernel))

end Paratix.Keys
