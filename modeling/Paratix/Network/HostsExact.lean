/-
Module: Paratix.Network.HostsExact
Purpose: When `net.hosts` is done with its entry: present on one line, absent, and undone.
Main exports: hosts_present_iff, hosts_absent_iff
-/
import Paratix.Network.HostsLines
import Mathlib.Data.List.Dedup

namespace Paratix.Network

open Foundation Archive

/-! ### What a file maps -/

section Names

variable (ip : Text) (hostnames : List Text) (lines : List Text)

/-- The names on the lines of the address. -/
def mappedHostnames : List Text :=
  ((lines.filter (isSameIpLine ip)).filterMap parseHostsLine).flatMap (·.hostnames)

/-- The names of the merged line. -/
def mergedNames : List Text :=
  if mappedHostnames ip lines = [] then hostnames
  else mergeHostnames (mappedHostnames ip lines) hostnames

def mergedComment : Option Text :=
  (((lines.filter (isSameIpLine ip)).filterMap parseHostsLine).find? (·.comment.isSome)).bind
    (·.comment)

end Names

section Merged

variable {ip : Text} {hostnames lines : List Text}

theorem buildMergedHostsLine_eq (areWords : ∀ word ∈ ip :: hostnames, HostsWord word) :
    buildMergedHostsLine ip hostnames lines =
      buildHostsLine ip (mergedNames ip hostnames lines) (mergedComment ip lines) := by
  have first : ((expectedLine ip hostnames).splitOn ' ').headD [] = ip := by
    have noBlank : ' ' ∉ ip := by
      intro mem
      exact absurd ((areWords ip List.mem_cons_self).1.2 ' ' mem) (by decide)
    have split : expectedLine ip hostnames = ip ++ ' ' :: joinWords hostnames := rfl
    rw [split, List.splitOn_append_cons_self_of_not_mem noBlank]
    rfl
  rw [buildMergedHostsLine]
  simp only [first, mergedNames]
  split
  · next empty =>
    rw [if_pos (show mappedHostnames ip lines = [] from empty)]
    rfl
  · next nonempty =>
    rw [if_neg (show mappedHostnames ip lines ≠ [] from nonempty)]
    rfl

theorem mem_mappedHostnames {name : Text} : name ∈ mappedHostnames ip lines ↔
    ∃ line ∈ lines, ∃ parsed, parseHostsLine line = some parsed ∧ parsed.ip = ip ∧
      name ∈ parsed.hostnames := by
  rw [mappedHostnames, List.mem_flatMap]
  constructor
  · rintro ⟨parsed, isParsed, mem⟩
    obtain ⟨line, isLine, reads⟩ := List.mem_filterMap.1 isParsed
    obtain ⟨inLines, same⟩ := List.mem_filter.1 isLine
    rw [isSameIpLine, reads, decide_eq_true_eq, Option.map_some, Option.some.injEq] at same
    exact ⟨line, inLines, parsed, reads, same, mem⟩
  · rintro ⟨line, inLines, parsed, reads, same, mem⟩
    refine ⟨parsed, List.mem_filterMap.2 ⟨line, List.mem_filter.2 ⟨inLines, ?_⟩, reads⟩, mem⟩
    rw [isSameIpLine, reads, Option.map_some, same, decide_eq_true_eq]

theorem mem_mergedNames {name : Text} : name ∈ mergedNames ip hostnames lines ↔
    name ∈ mappedHostnames ip lines ∨ name ∈ hostnames := by
  rw [mergedNames]
  split
  · next empty =>
    rw [empty]
    exact (or_iff_right List.not_mem_nil).symm
  · exact mem_mergeHostnames

theorem nodup_mergedNames_iff : (mergedNames ip hostnames lines).Nodup ↔
    mappedHostnames ip lines ≠ [] ∨ hostnames.Nodup := by
  rw [mergedNames]
  split
  · next empty => exact (or_iff_right (not_not.2 empty)).symm
  · next nonempty => exact iff_of_true (nodup_mergeHostnames _ _) (.inl nonempty)

theorem mergedNames_words (nonempty : hostnames ≠ [])
    (areWords : ∀ word ∈ ip :: hostnames, HostsWord word) : mergedNames ip hostnames lines ≠ [] ∧
      ∀ word ∈ ip :: mergedNames ip hostnames lines, HostsWord word := by
  rw [List.forall_mem_cons] at areWords ⊢
  refine ⟨?_, areWords.1, ?_⟩
  · obtain ⟨name, mem⟩ := List.exists_mem_of_ne_nil _ nonempty
    exact List.ne_nil_of_mem (mem_mergedNames.2 (.inr mem))
  · intro name mem
    rcases mem_mergedNames.1 mem with mapped | desired
    · obtain ⟨line, _, parsed, reads, _, inNames⟩ := mem_mappedHostnames.1 mapped
      exact (parseHostsLine_parts reads).2.1 name inNames
    · exact areWords.2 name desired

theorem mergedComment_spec {comment : Text} (isComment : mergedComment ip lines = some comment) :
    InlineComment comment ∧ ((∀ line ∈ lines, '\n' ∉ line) → '\n' ∉ comment) := by
  obtain ⟨parsed, found, isOwn⟩ := Option.bind_eq_some_iff.1 isComment
  obtain ⟨line, isLine, reads⟩ := List.mem_filterMap.1 (List.mem_of_find?_eq_some found)
  obtain ⟨kept, ofLine⟩ := (parseHostsLine_parts reads).2.2 comment isOwn
  refine ⟨kept, fun whole mem => ?_⟩
  exact whole line (List.mem_filter.1 isLine).1 (ofLine '\n' mem)

/-- The merged line is read back, trimmed, and one line. -/
theorem mergedLine_spec (nonempty : hostnames ≠ [])
    (areWords : ∀ word ∈ ip :: hostnames, HostsWord word) :
    parseHostsLine (buildMergedHostsLine ip hostnames lines) = some
        { comment := mergedComment ip lines, hostnames := mergedNames ip hostnames lines,
          ip := ip } ∧
      trim (buildMergedHostsLine ip hostnames lines) = buildMergedHostsLine ip hostnames lines ∧
      ((∀ line ∈ lines, '\n' ∉ line) → '\n' ∉ buildMergedHostsLine ip hostnames lines) := by
  obtain ⟨someName, words⟩ := @mergedNames_words ip hostnames lines nonempty areWords
  have comments : ∀ text, mergedComment ip lines = some text → InlineComment text :=
    fun text isComment => (mergedComment_spec isComment).1
  rw [buildMergedHostsLine_eq areWords]
  refine ⟨parse_buildHostsLine someName words comments,
    trim_buildHostsLine someName words comments, fun whole => ?_⟩
  exact newline_notMem_buildHostsLine words fun text isComment =>
    (mergedComment_spec isComment).2 whole

theorem mergedLine_same (nonempty : hostnames ≠ [])
    (areWords : ∀ word ∈ ip :: hostnames, HostsWord word) :
    isSameIpLine ip (buildMergedHostsLine ip hostnames lines) = true := by
  rw [isSameIpLine, (mergedLine_spec nonempty areWords).1]
  exact decide_eq_true rfl

/-! ### One line of the address -/

/-- Where one line is for the address, its names and its comment are all. -/
theorem mapped_of_single {line : Text} {parsed : ParsedHostsLine}
    (single : lines.filter (isSameIpLine ip) = [line]) (reads : parseHostsLine line = some parsed) :
    mappedHostnames ip lines = parsed.hostnames ∧ mergedComment ip lines = parsed.comment := by
  have entries : (lines.filter (isSameIpLine ip)).filterMap parseHostsLine = [parsed] := by
    rw [single, List.filterMap_cons, reads, List.filterMap_nil]
  constructor
  · rw [mappedHostnames, entries, List.flatMap_singleton]
  · rw [mergedComment, entries, List.find?_singleton]
    cases isComment : parsed.comment with
    | none => rfl
    | some comment =>
      rw [if_pos (show (some comment).isSome = true from rfl)]
      exact isComment

/-- The merged line as the one line of the address is stable exactly if no name stands twice. -/
theorem canonical_of_merged (nonempty : hostnames ≠ [])
    (areWords : ∀ word ∈ ip :: hostnames, HostsWord word) {others : List Text}
    (single : others.filter (isSameIpLine ip) = [buildMergedHostsLine ip hostnames lines]) :
    alreadyCanonical ip hostnames others = true ↔
      mappedHostnames ip lines ≠ [] ∨ hostnames.Nodup := by
  obtain ⟨reads, trimmed, _⟩ := @mergedLine_spec ip hostnames lines nonempty areWords
  obtain ⟨sameNames, sameComment⟩ := mapped_of_single single reads
  obtain ⟨someName, words⟩ := @mergedNames_words ip hostnames lines nonempty areWords
  have known : ∀ name ∈ hostnames, name ∈ mergedNames ip hostnames lines := fun name mem =>
    mem_mergedNames.2 (.inr mem)
  have merged : mergedNames ip hostnames others =
      mergeHostnames (mergedNames ip hostnames lines) hostnames := by
    rw [mergedNames, sameNames, if_neg someName]
  rw [← nodup_mergedNames_iff, ← mergeHostnames_eq_iff known, alreadyCanonical, single,
    List.map_singleton, trimmed, decide_eq_true_eq, List.cons.injEq, and_iff_left rfl]
  constructor
  · intro same
    have read := (@mergedLine_spec ip hostnames others nonempty areWords).1
    rw [← same, reads, Option.some.injEq, ParsedHostsLine.mk.injEq, merged] at read
    exact read.2.1.symm
  · intro same
    rw [buildMergedHostsLine_eq areWords, buildMergedHostsLine_eq areWords, merged, same,
      sameComment]

end Merged

/-! ### What is applied -/

section Applied

variable (ip : Text) (hostnames : List Text) (file : Option Text)

def linesOf : List Text := fileLines '\n' (file.getD [])

/-- The segments between newlines. -/
def segmentsOf : List Text := (file.getD []).splitOn '\n'

def otherLines (lines : List Text) : List Text := lines.filter fun line => !isSameIpLine ip line

/-- The regular file of a content, or none. -/
def regular : HostsFile := { content := file, symlink := false }

/-- What `apply` leaves. -/
def presentAfter : HostsFile := (applyHostsState ip hostnames .present (regular file)).2

/-- After `apply` the names of the address are joined on one line, the other lines are kept, and
`check`, a second `apply` and the dry run agree with that. -/
structure PresentConverges : Prop where
  union : ∀ name, name ∈ mappedHostnames ip (linesOf (presentAfter ip hostnames file).content) ↔
    name ∈ mappedHostnames ip (linesOf file) ∨ name ∈ hostnames
  oneLine : ((linesOf (presentAfter ip hostnames file).content).filter
    (isSameIpLine ip)).length = 1
  frame : otherLines ip (linesOf (presentAfter ip hostnames file).content) =
    otherLines ip (linesOf file)
  checked : checkHostsState ip hostnames .present (presentAfter ip hostnames file) = true
  again : applyHostsState ip hostnames .present (presentAfter ip hostnames file) =
    (.ok, presentAfter ip hostnames file)
  dryRun : (presentAfter ip hostnames file).content =
    (dryRunHostsContent ip hostnames .present (regular file)).or file

/-- No name of the entry stands twice, unless the file has names for the address; and the file is
not written, or ends with a newline, or what is left of it does not end with an empty line. -/
structure JoinsCleanly : Prop where
  names : mappedHostnames ip (linesOf file) ≠ [] ∨ hostnames.Nodup
  blank : alreadyCanonical ip hostnames (segmentsOf file) = true ∨
    Terminated '\n' (file.getD []) ∨ (otherLines ip (linesOf file)).getLast? ≠ some []

end Applied

section Applying

variable {ip : Text} {hostnames : List Text} {file : Option Text}

theorem segmentsOf_cases :
    (Terminated '\n' (file.getD []) ∧ segmentsOf file = linesOf file ++ [[]]) ∨
    (¬Terminated '\n' (file.getD []) ∧ segmentsOf file = linesOf file) :=
  splitOn_cases '\n' (file.getD [])

theorem isSameIpLine_nil : isSameIpLine ip [] = false := rfl

/-- An empty segment at the end is not read. -/
theorem filter_segmentsOf :
    (segmentsOf file).filter (isSameIpLine ip) = (linesOf file).filter (isSameIpLine ip) := by
  rcases @segmentsOf_cases file with ⟨_, split⟩ | ⟨_, split⟩
  · rw [split, List.filter_append, List.filter_cons_of_neg (by rw [isSameIpLine_nil]; nofun),
      List.filter_nil, List.append_nil]
  · rw [split]

theorem mapped_segmentsOf :
    mappedHostnames ip (segmentsOf file) = mappedHostnames ip (linesOf file) := by
  rw [mappedHostnames, filter_segmentsOf, mappedHostnames]

/-- The lines that are kept are all other lines unless an empty one is taken for the end. -/
theorem popBlank_eq_iff :
    popBlank (otherLines ip (segmentsOf file)) = otherLines ip (linesOf file) ↔
    Terminated '\n' (file.getD []) ∨ (otherLines ip (linesOf file)).getLast? ≠ some [] := by
  rcases @segmentsOf_cases file with ⟨terminated, split⟩ | ⟨unterminated, split⟩
  · refine iff_of_true ?_ (.inl terminated)
    have kept : otherLines ip (segmentsOf file) = otherLines ip (linesOf file) ++ [[]] := by
      rw [otherLines, split, List.filter_append]
      rfl
    rw [kept, popBlank, List.getLast?_concat, if_pos rfl, List.dropLast_concat]
  · rw [or_iff_right unterminated, split, popBlank]
    split
    · next isBlank =>
      refine iff_of_false ?_ (not_not.2 isBlank)
      intro same
      have length := congrArg List.length same
      have nonempty : otherLines ip (linesOf file) ≠ [] := by
        intro empty
        rw [empty] at isBlank
        cases isBlank
      have positive := List.length_pos_iff.2 nonempty
      rw [List.length_dropLast] at length
      omega
    · next notBlank => exact iff_of_true rfl notBlank

/-- The lines of the file that is written. -/
def rewrittenLines (ip : Text) (hostnames : List Text) (file : Option Text) : List Text :=
  popBlank (otherLines ip (segmentsOf file)) ++
    [buildMergedHostsLine ip hostnames (segmentsOf file)]

theorem computeHostsPresentContent_eq :
    computeHostsPresentContent ip hostnames (captureHostsFileSnapshot (regular file)) =
      if alreadyCanonical ip hostnames (segmentsOf file) then .unchanged
      else .changed file.isSome (fileText '\n' (rewrittenLines ip hostnames file)) := by
  cases file with
  | none =>
    have nothing : alreadyCanonical ip hostnames (segmentsOf none) = false := rfl
    rw [nothing, computeHostsPresentContent, rewrittenLines, fileText_append]
    exact congrArg _ (List.append_nil _).symm
  | some content =>
    have joined : joinHosts (rewrittenLines ip hostnames (some content)) =
        fileText '\n' (rewrittenLines ip hostnames (some content)) :=
      intercalate_newline (List.append_ne_nil_of_right_ne_nil _ (List.cons_ne_nil _ _))
    rw [computeHostsPresentContent, ← joined]
    rfl

theorem presentAfter_canonical
    (canonical : alreadyCanonical ip hostnames (segmentsOf file) = true) :
    presentAfter ip hostnames file = regular file ∧
      dryRunHostsContent ip hostnames .present (regular file) = none := by
  simp only [presentAfter, applyHostsState, applyHostsPresent, dryRunHostsContent,
    computeHostsPresentContent_eq, canonical, if_true, and_self]

theorem presentAfter_rewritten
    (rewritten : alreadyCanonical ip hostnames (segmentsOf file) = false) :
    presentAfter ip hostnames file =
        regular (some (fileText '\n' (rewrittenLines ip hostnames file))) ∧
      dryRunHostsContent ip hostnames .present (regular file) =
        some (fileText '\n' (rewrittenLines ip hostnames file)) := by
  simp only [presentAfter, applyHostsState, applyHostsPresent, dryRunHostsContent,
    computeHostsPresentContent_eq, rewritten, Bool.false_eq_true, if_false]
  exact ⟨rfl, trivial⟩

theorem oneLine_of_segmentsOf : ∀ line ∈ segmentsOf file, '\n' ∉ line := fun _ mem =>
  separator_notMem_of_mem_splitOn mem

theorem mem_of_mem_popBlank {line : Text} {lines : List Text} (mem : line ∈ popBlank lines) :
    line ∈ lines := by
  rw [popBlank] at mem
  split at mem
  · exact List.mem_of_mem_dropLast mem
  · exact mem

/-- The written file is the lines that are kept and the merged one. -/
theorem rewritten_spec (nonempty : hostnames ≠ [])
    (areWords : ∀ word ∈ ip :: hostnames, HostsWord word) :
    linesOf (some (fileText '\n' (rewrittenLines ip hostnames file))) =
        rewrittenLines ip hostnames file ∧
      segmentsOf (some (fileText '\n' (rewrittenLines ip hostnames file))) =
        rewrittenLines ip hostnames file ++ [[]] ∧
      (rewrittenLines ip hostnames file).filter (isSameIpLine ip) =
        [buildMergedHostsLine ip hostnames (segmentsOf file)] ∧
      otherLines ip (rewrittenLines ip hostnames file) =
        popBlank (otherLines ip (segmentsOf file)) := by
  have others : ∀ line ∈ popBlank (otherLines ip (segmentsOf file)),
      line ∈ segmentsOf file ∧ isSameIpLine ip line = false := by
    intro line mem
    obtain ⟨inFile, notSame⟩ := List.mem_filter.1 (mem_of_mem_popBlank mem)
    rw [Bool.not_eq_true'] at notSame
    exact ⟨inFile, notSame⟩
  have same := @mergedLine_same ip hostnames (segmentsOf file) nonempty areWords
  have whole : ∀ line ∈ rewrittenLines ip hostnames file, '\n' ∉ line := by
    rw [rewrittenLines, List.forall_mem_append, List.forall_mem_singleton]
    exact ⟨fun line mem => oneLine_of_segmentsOf line (others line mem).1,
      (mergedLine_spec nonempty areWords).2.2 oneLine_of_segmentsOf⟩
  have read := @splitOn_fileText_append _ _ '\n' _ whole []
  rw [List.append_nil] at read
  refine ⟨fileLines_fileText whole, read, ?_, ?_⟩
  · rw [rewrittenLines, List.filter_append, List.filter_eq_nil_iff.2, List.nil_append,
      List.filter_cons_of_pos same, List.filter_nil]
    intro line mem
    rw [(others line mem).2]
    exact Bool.noConfusion
  · rw [otherLines, rewrittenLines, List.filter_append, List.filter_eq_self.2,
      List.filter_cons_of_neg, List.filter_nil, List.append_nil]
    · rw [same]
      exact Bool.noConfusion
    · intro line mem
      rw [(others line mem).2]
      rfl

/-- The line of the address in a canonical file has all names. -/
theorem canonical_line (nonempty : hostnames ≠ [])
    (areWords : ∀ word ∈ ip :: hostnames, HostsWord word)
    (canonical : alreadyCanonical ip hostnames (segmentsOf file) = true) :
    ∃ line, (segmentsOf file).filter (isSameIpLine ip) = [line] ∧
      parseHostsLine line = some
        { comment := mergedComment ip (segmentsOf file),
          hostnames := mergedNames ip hostnames (segmentsOf file), ip := ip } := by
  obtain ⟨reads, _, _⟩ := @mergedLine_spec ip hostnames (segmentsOf file) nonempty areWords
  have trimmed := of_decide_eq_true canonical
  obtain ⟨line, single, isMerged⟩ := List.map_eq_singleton_iff.1 trimmed
  exact ⟨line, single, by rw [← parseHostsLine_trim, isMerged, reads]⟩

/-- After `apply` one line is for the address, with the names of the file and of the entry. -/
theorem presentAfter_line (nonempty : hostnames ≠ [])
    (areWords : ∀ word ∈ ip :: hostnames, HostsWord word) :
    ∃ after line parsed, presentAfter ip hostnames file = regular (some after) ∧
      (segmentsOf (some after)).filter (isSameIpLine ip) = [line] ∧
      parseHostsLine line = some parsed ∧ parsed.ip = ip ∧
      ∀ name, name ∈ parsed.hostnames ↔
        name ∈ mappedHostnames ip (segmentsOf file) ∨ name ∈ hostnames := by
  cases canonical : alreadyCanonical ip hostnames (segmentsOf file) with
  | true =>
    obtain ⟨line, single, reads⟩ := canonical_line nonempty areWords canonical
    cases file with
    | none => cases canonical
    | some content =>
      exact ⟨content, line, _, (presentAfter_canonical canonical).1, single, reads, rfl,
        fun name => mem_mergedNames⟩
  | false =>
    obtain ⟨_, isSegments, single, _⟩ := @rewritten_spec ip hostnames file nonempty areWords
    refine ⟨_, _, _, (presentAfter_rewritten canonical).1, ?_,
      (@mergedLine_spec ip hostnames (segmentsOf file) nonempty areWords).1, rfl,
      fun name => mem_mergedNames⟩
    rw [isSegments, List.filter_append, single]
    rfl

/-- A canonical file has its names, and is done. -/
theorem converges_of_canonical (nonempty : hostnames ≠ [])
    (areWords : ∀ word ∈ ip :: hostnames, HostsWord word)
    (canonical : alreadyCanonical ip hostnames (segmentsOf file) = true) :
    PresentConverges ip hostnames file ∧ mappedHostnames ip (linesOf file) ≠ [] := by
  obtain ⟨isAfter, shown⟩ := presentAfter_canonical canonical
  have applied : applyHostsState ip hostnames .present (regular file) = (.ok, regular file) := by
    simp only [applyHostsState, applyHostsPresent, computeHostsPresentContent_eq, canonical,
      if_true]
  obtain ⟨line, single, lineReads⟩ := canonical_line nonempty areWords canonical
  have names := (mapped_of_single single lineReads).1
  have someName := (@mergedNames_words ip hostnames (segmentsOf file) nonempty areWords).1
  have mapped : mappedHostnames ip (linesOf file) = mergedNames ip hostnames (segmentsOf file) := by
    rw [← mapped_segmentsOf]
    exact names
  refine ⟨⟨?_, ?_, ?_, ?_, ?_, ?_⟩, by rw [mapped]; exact someName⟩
  · intro name
    rw [isAfter]
    show name ∈ mappedHostnames ip (linesOf file) ↔ _
    refine (or_iff_left_of_imp fun desired => ?_).symm
    rw [mapped]
    exact mem_mergedNames.2 (.inr desired)
  · rw [isAfter]
    show ((linesOf file).filter (isSameIpLine ip)).length = 1
    rw [← filter_segmentsOf, single]
    rfl
  · rw [isAfter]
    rfl
  · rw [isAfter]
    cases file with
    | none => cases canonical
    | some content => exact canonical
  · rw [isAfter]
    exact applied
  · rw [isAfter, shown]
    rfl

end Applying

/-- For every file and every accepted entry: `apply` joins the names and is done exactly if no name
stands twice and no empty line is taken for the end of the file. -/
theorem hosts_present_iff {isIP : Text → Nat} {ip : Text} {hostnames : List Text}
    (noHash : ∀ value, isIP value ≠ 0 → '#' ∉ value)
    (valid : validateHostsOptions isIP ip hostnames = .ok ()) (file : Option Text) :
    PresentConverges ip hostnames file ↔ JoinsCleanly ip hostnames file := by
  obtain ⟨nonempty, areWords⟩ := words_of_validHosts noHash valid
  cases canonical : alreadyCanonical ip hostnames (segmentsOf file) with
  | true =>
    obtain ⟨converges, mapped⟩ := converges_of_canonical nonempty areWords canonical
    exact iff_of_true converges ⟨.inl mapped, .inl canonical⟩
  | false =>
    obtain ⟨isAfter, shown⟩ := presentAfter_rewritten canonical
    obtain ⟨isLines, isSegments, single, kept⟩ :=
      @rewritten_spec ip hostnames file nonempty areWords
    have read := (@mergedLine_spec ip hostnames (segmentsOf file) nonempty areWords).1
    have singleSegment : (rewrittenLines ip hostnames file ++ [[]]).filter (isSameIpLine ip) =
        [buildMergedHostsLine ip hostnames (segmentsOf file)] := by
      rw [List.filter_append, single]
      rfl
    have stable := canonical_of_merged nonempty areWords singleSegment
    rw [mapped_segmentsOf] at stable
    constructor
    · intro converges
      constructor
      · have checked := converges.checked
        rw [isAfter] at checked
        rw [← stable, ← isSegments]
        exact checked
      · have frame := converges.frame
        rw [isAfter] at frame
        rw [regular, isLines, kept] at frame
        exact .inr (popBlank_eq_iff.1 frame)
    · rintro ⟨names, blank⟩
      have again : alreadyCanonical ip hostnames
          (segmentsOf (some (fileText '\n' (rewrittenLines ip hostnames file)))) = true := by
        rw [isSegments]
        exact stable.2 names
      refine ⟨fun name => ?_, ?_, ?_, ?_, ?_, ?_⟩
      · rw [isAfter, regular, isLines, (mapped_of_single single read).1, mem_mergedNames,
          mapped_segmentsOf]
      · rw [isAfter, regular, isLines, single]
        rfl
      · rw [isAfter, regular, isLines, kept, popBlank_eq_iff]
        exact blank.resolve_left (by rw [canonical]; exact Bool.noConfusion)
      · rw [isAfter]
        exact again
      · rw [isAfter]
        simp only [applyHostsState, applyHostsPresent, computeHostsPresentContent_eq, again,
          if_true]
      · rw [isAfter, shown]
        rfl

/-! ### Files that are joined and others -/

/-- The address of the samples, as the runtime judges it. -/
def sampleIsIP (value : Text) : Nat := if value = text "10.0.0.1" then 4 else 0

theorem sampleIsIP_noHash : ∀ value, sampleIsIP value ≠ 0 → '#' ∉ value := by
  intro value isAddress
  rw [sampleIsIP] at isAddress
  split at isAddress
  · next same =>
    rw [same]
    decide
  · exact absurd rfl isAddress

theorem second_name_joins :
    PresentConverges (text "10.0.0.1") [text "b"] (some (text "10.0.0.1 a # first\n")) :=
  (@hosts_present_iff sampleIsIP _ _ sampleIsIP_noHash (by decide +kernel) _).2
    ⟨.inr (by decide), .inr (.inl (by decide))⟩

/-- A name that stands twice in the entry is written twice and then found to differ; an empty line
before a replaced last line without a newline is lost. -/
theorem repeated_name_differs :
    validateHostsOptions sampleIsIP (text "10.0.0.1") [text "a", text "a"] = .ok () ∧
      presentAfter (text "10.0.0.1") [text "a", text "a"] none =
        regular (some (text "10.0.0.1 a a\n")) ∧
      checkHostsState (text "10.0.0.1") [text "a", text "a"] .present
        (regular (some (text "10.0.0.1 a a\n"))) = false ∧
      presentAfter (text "10.0.0.1") [text "b"] (some (text "::1 localhost\n\n10.0.0.1 a")) =
        regular (some (text "::1 localhost\n10.0.0.1 a b\n")) := by
  decide +kernel

/-! ### Lines that are taken away -/

/-- The line maps the address to all of the names. -/
def MapsAll (ip : Text) (hostnames : List Text) (line : Text) : Prop :=
  ∃ parsed, parseHostsLine line = some parsed ∧ parsed.ip = ip ∧
    ∀ hostname ∈ hostnames, hostname ∈ parsed.hostnames

theorem hostnameSetsEqual_iff {actual expected : List Text} (nonempty : expected ≠ []) :
    hostnameSetsEqual actual expected = true ↔ ∀ name, name ∈ actual ↔ name ∈ expected := by
  rw [hostnameSetsEqual]
  split
  · next empty =>
    obtain rfl := empty.resolve_right nonempty
    refine iff_of_false nofun fun same => ?_
    obtain ⟨name, mem⟩ := List.exists_mem_of_ne_nil _ nonempty
    exact List.not_mem_nil ((same name).2 mem)
  · rw [Bool.and_eq_true, decide_eq_true_eq, List.all_eq_true]
    constructor
    · rintro ⟨size, known⟩
      have included : ∀ name ∈ actual, name ∈ expected := fun name mem =>
        of_decide_eq_true (known name mem)
      have subperm : actual.dedup.Subperm expected.dedup := by
        apply List.subperm_of_subset (List.nodup_dedup actual)
        intro name mem
        exact List.mem_dedup.2 (included name (List.mem_dedup.1 mem))
      have perm := subperm.perm_of_length_le (Nat.le_of_eq size.symm)
      intro name
      rw [← List.mem_dedup, perm.mem_iff, List.mem_dedup]
    · intro same
      have perm : actual.dedup.Perm expected.dedup := by
        rw [List.perm_ext_iff_of_nodup (List.nodup_dedup _) (List.nodup_dedup _)]
        intro name
        rw [List.mem_dedup, List.mem_dedup, same name]
      exact ⟨perm.length_eq, fun name mem => decide_eq_true ((same name).1 mem)⟩

section Targets

variable {ip : Text} {hostnames : List Text}

theorem matchesAbsentTarget_iff (nonempty : hostnames ≠ []) {line : Text} :
    matchesAbsentTarget ip hostnames line = true ↔ ∃ parsed, parseHostsLine line = some parsed ∧
      parsed.ip = ip ∧ ∀ name, name ∈ parsed.hostnames ↔ name ∈ hostnames := by
  rw [matchesAbsentTarget]
  cases parseHostsLine line with
  | none =>
    apply iff_of_false Bool.noConfusion
    rintro ⟨parsed, found, _⟩
    cases found
  | some parsed =>
    show (decide (parsed.ip = ip) && hostnameSetsEqual parsed.hostnames hostnames) = true ↔ _
    rw [Bool.and_eq_true, decide_eq_true_eq, hostnameSetsEqual_iff nonempty]
    constructor
    · rintro ⟨same, names⟩
      exact ⟨parsed, rfl, same, names⟩
    · rintro ⟨own, isOwn, same, names⟩
      obtain rfl := Option.some.inj isOwn
      exact ⟨same, names⟩

theorem same_of_matches (nonempty : hostnames ≠ []) {line : Text}
    (isTarget : matchesAbsentTarget ip hostnames line = true) : isSameIpLine ip line = true := by
  obtain ⟨parsed, reads, same, _⟩ := (matchesAbsentTarget_iff nonempty).1 isTarget
  rw [isSameIpLine, reads, Option.map_some, same, decide_eq_true_eq]

theorem same_of_mapsAll {line : Text} (mapsAll : MapsAll ip hostnames line) :
    isSameIpLine ip line = true := by
  obtain ⟨parsed, reads, same, _⟩ := mapsAll
  rw [isSameIpLine, reads, Option.map_some, same, decide_eq_true_eq]

end Targets

/-! ### What is applied -/

section Applied

variable (ip : Text) (hostnames : List Text) (file : Option Text)

/-- What `apply` leaves. -/
def absentAfter : HostsFile := (applyHostsState ip hostnames .absent (regular file)).2

/-- After `apply` `check` answers ok and no line maps the address to all names; and of the names
that the state present adds none is mapped after it. -/
structure AbsentUndoes : Prop where
  checked : checkHostsState ip hostnames .absent (absentAfter ip hostnames file) = true
  unmapped : ∀ line ∈ segmentsOf (absentAfter ip hostnames file).content,
    ¬MapsAll ip hostnames line
  undone : ∀ hostname ∈ hostnames, hostname ∉ mappedHostnames ip (segmentsOf file) →
    hostname ∉ mappedHostnames ip
      (segmentsOf (absentAfter ip hostnames (presentAfter ip hostnames file).content).content)

/-- The file exists; a line of the address with all names has no other; and of the names of the
address in the file and those of the entry, one set includes the other. -/
structure TakenAway : Prop where
  isFile : file ≠ none
  alone : ∀ line ∈ segmentsOf file, ∀ parsed, parseHostsLine line = some parsed →
    parsed.ip = ip → (∀ hostname ∈ hostnames, hostname ∈ parsed.hostnames) →
      ∀ hostname ∈ parsed.hostnames, hostname ∈ hostnames
  nested : (∀ hostname ∈ mappedHostnames ip (segmentsOf file), hostname ∈ hostnames) ∨
    ∀ hostname ∈ hostnames, hostname ∈ mappedHostnames ip (segmentsOf file)

end Applied

section Absent

variable {ip : Text} {hostnames : List Text} {content : Text}

/-- The lines of the address that are left are those that do not match. -/
theorem absentAfter_some : ∃ after, absentAfter ip hostnames (some content) = regular (some after) ∧
      ∀ line, isSameIpLine ip line = true → (line ∈ segmentsOf (some after) ↔
        line ∈ segmentsOf (some content) ∧ matchesAbsentTarget ip hostnames line = false) := by
  cases found : (segmentsOf (some content)).any (matchesAbsentTarget ip hostnames) with
  | false =>
    refine ⟨content, ?_, fun line _ => (and_iff_left_of_imp fun mem => ?_).symm⟩
    · show (applyHostsAbsent ip hostnames (regular (some content)) _).2 = _
      rw [applyHostsAbsent, if_neg Bool.noConfusion]
      exact congrArg Prod.snd (if_pos found)
    · rw [List.any_eq_false] at found
      exact Bool.eq_false_iff.2 (found line mem)
  | true =>
    refine ⟨withoutTarget ip hostnames (segmentsOf (some content)), ?_, fun line same => ?_⟩
    · show (applyHostsAbsent ip hostnames (regular (some content)) _).2 = _
      rw [applyHostsAbsent, if_neg Bool.noConfusion, if_neg]
      · rfl
      · show ¬(segmentsOf (some content)).any (matchesAbsentTarget ip hostnames) = false
        rw [found]
        exact Bool.noConfusion
    · have kept : line ∈ (segmentsOf (some content)).filter
          (fun line => !matchesAbsentTarget ip hostnames line) ↔
            line ∈ segmentsOf (some content) ∧ matchesAbsentTarget ip hostnames line = false := by
        rw [List.mem_filter, Bool.not_eq_true']
      rw [← kept, withoutTarget]
      cases left : (segmentsOf (some content)).filter
          (fun line => !matchesAbsentTarget ip hostnames line) with
      | nil =>
        have empty : segmentsOf (some (['\n'].intercalate [])) = [[]] := rfl
        rw [empty, List.mem_singleton]
        refine iff_of_false ?_ List.not_mem_nil
        rintro rfl
        rw [isSameIpLine_nil] at same
        cases same
      | cons first rest =>
        have whole : ∀ line ∈ first :: rest, '\n' ∉ line := by
          intro line mem
          rw [← left] at mem
          exact oneLine_of_segmentsOf line (List.mem_filter.1 mem).1
        have read : segmentsOf (some (['\n'].intercalate (first :: rest))) = first :: rest :=
          List.splitOn_intercalate _ whole (List.cons_ne_nil _ _)
        rw [read]

end Absent

/-- What the state present adds is taken away again exactly if the names are nested. -/
theorem undone_iff {ip : Text} {hostnames : List Text} (nonempty : hostnames ≠ [])
    (areWords : ∀ word ∈ ip :: hostnames, HostsWord word) (file : Option Text) :
    (∀ hostname ∈ hostnames, hostname ∉ mappedHostnames ip (segmentsOf file) →
      hostname ∉ mappedHostnames ip
        (segmentsOf (absentAfter ip hostnames (presentAfter ip hostnames file).content).content)) ↔
      (∀ hostname ∈ mappedHostnames ip (segmentsOf file), hostname ∈ hostnames) ∨
        ∀ hostname ∈ hostnames, hostname ∈ mappedHostnames ip (segmentsOf file) := by
  obtain ⟨content, line, parsed, isPresent, single, reads, same, names⟩ :=
    @presentAfter_line ip hostnames file nonempty areWords
  obtain ⟨after, isAfter, left⟩ := @absentAfter_some ip hostnames content
  have mapped : ∀ name, name ∈ mappedHostnames ip (segmentsOf (some after)) ↔
      matchesAbsentTarget ip hostnames line = false ∧ name ∈ parsed.hostnames := by
    intro name
    have inFile : line ∈ segmentsOf (some content) ∧ isSameIpLine ip line = true := by
      rw [← List.mem_filter, single]
      exact List.mem_singleton_self line
    rw [mem_mappedHostnames]
    constructor
    · rintro ⟨other, mem, own, ownReads, ownIp, inNames⟩
      have isSame : isSameIpLine ip other = true := by
        rw [isSameIpLine, ownReads, Option.map_some, ownIp, decide_eq_true_eq]
      obtain ⟨inContent, notTarget⟩ := (left other isSame).1 mem
      have isLine : other ∈ (segmentsOf (some content)).filter (isSameIpLine ip) :=
        List.mem_filter.2 ⟨inContent, isSame⟩
      rw [single, List.mem_singleton] at isLine
      rw [isLine] at notTarget ownReads
      rw [reads, Option.some.injEq] at ownReads
      rw [ownReads]
      exact ⟨notTarget, inNames⟩
    · rintro ⟨notTarget, inNames⟩
      exact ⟨line, (left line inFile.2).2 ⟨inFile.1, notTarget⟩, parsed, reads, same, inNames⟩
  have target : matchesAbsentTarget ip hostnames line = true ↔
      ∀ hostname ∈ mappedHostnames ip (segmentsOf file), hostname ∈ hostnames := by
    rw [matchesAbsentTarget_iff nonempty]
    constructor
    · rintro ⟨own, ownReads, _, isSet⟩ hostname mem
      rw [reads, Option.some.injEq] at ownReads
      rw [← ownReads] at isSet
      exact (isSet hostname).1 ((names hostname).2 (.inl mem))
    · intro included
      refine ⟨parsed, reads, same, fun name => ?_⟩
      rw [names]
      exact or_iff_right_of_imp (included name)
  rw [isPresent]
  show (∀ hostname ∈ hostnames, hostname ∉ mappedHostnames ip (segmentsOf file) →
    hostname ∉ mappedHostnames ip
      (segmentsOf (absentAfter ip hostnames (some content)).content)) ↔ _
  rw [isAfter]
  constructor
  · intro gone
    by_cases included : ∀ hostname ∈ mappedHostnames ip (segmentsOf file), hostname ∈ hostnames
    · exact .inl included
    · rw [← target, Bool.not_eq_true] at included
      refine .inr fun hostname mem => ?_
      by_contra added
      exact gone hostname mem added ((mapped hostname).2 ⟨included, (names hostname).2 (.inr mem)⟩)
  · rintro (included | all) hostname mem added stays
    · have notTarget := ((mapped hostname).1 stays).1
      rw [target.2 included] at notTarget
      cases notTarget
    · exact added (all hostname mem)

theorem absentUndoes_iff {ip : Text} {hostnames : List Text} (nonempty : hostnames ≠ [])
    (areWords : ∀ word ∈ ip :: hostnames, HostsWord word) (file : Option Text) :
    AbsentUndoes ip hostnames file ↔ TakenAway ip hostnames file := by
  cases file with
  | none =>
    apply iff_of_false
    · intro undoes
      cases undoes.checked
    · intro taken
      exact taken.isFile rfl
  | some content =>
    obtain ⟨after, isAfter, left⟩ := @absentAfter_some ip hostnames content
    have unmapped : (∀ line ∈ segmentsOf (some after), ¬MapsAll ip hostnames line) ↔
        ∀ line ∈ segmentsOf (some content), ∀ parsed, parseHostsLine line = some parsed →
          parsed.ip = ip → (∀ hostname ∈ hostnames, hostname ∈ parsed.hostnames) →
            ∀ hostname ∈ parsed.hostnames, hostname ∈ hostnames := by
      constructor
      · intro free line mem parsed reads same all
        have mapsAll : MapsAll ip hostnames line := ⟨parsed, reads, same, all⟩
        have isTarget : matchesAbsentTarget ip hostnames line = true := by
          by_contra other
          rw [Bool.not_eq_true] at other
          exact free line ((left line (same_of_mapsAll mapsAll)).2 ⟨mem, other⟩) mapsAll
        obtain ⟨own, ownReads, _, names⟩ := (matchesAbsentTarget_iff nonempty).1 isTarget
        rw [reads, Option.some.injEq] at ownReads
        intro hostname inLine
        rw [ownReads] at inLine
        exact (names hostname).1 inLine
      · intro alone line mem mapsAll
        obtain ⟨inFile, other⟩ := (left line (same_of_mapsAll mapsAll)).1 mem
        obtain ⟨parsed, reads, same, all⟩ := mapsAll
        have isTarget := (matchesAbsentTarget_iff nonempty).2
          ⟨parsed, reads, same,
            fun name => ⟨alone line inFile parsed reads same all name, all name⟩⟩
        rw [isTarget] at other
        cases other
    have checked : checkHostsState ip hostnames .absent (regular (some after)) = true := by
      show (!(segmentsOf (some after)).any (matchesAbsentTarget ip hostnames)) = true
      rw [Bool.not_eq_true', List.any_eq_false]
      intro line mem isTarget
      have other := ((left line (same_of_matches nonempty isTarget)).1 mem).2
      rw [isTarget] at other
      cases other
    have undone := undone_iff nonempty areWords (some content)
    constructor
    · intro undoes
      have free := undoes.unmapped
      rw [isAfter] at free
      exact ⟨Option.some_ne_none _, unmapped.1 free, undone.1 undoes.undone⟩
    · intro taken
      refine ⟨?_, ?_, undone.2 taken.nested⟩
      · rw [isAfter]
        exact checked
      · rw [isAfter]
        exact unmapped.2 taken.alone

/-- For every file and every accepted entry: what is absent stays away exactly if the file exists,
no line of the address with all names has another, and the names of the address are nested in
those of the entry or the other way round. -/
theorem hosts_absent_iff {isIP : Text → Nat} {ip : Text} {hostnames : List Text}
    (noHash : ∀ value, isIP value ≠ 0 → '#' ∉ value)
    (valid : validateHostsOptions isIP ip hostnames = .ok ()) (file : Option Text) :
    AbsentUndoes ip hostnames file ↔ TakenAway ip hostnames file := by
  obtain ⟨nonempty, areWords⟩ := words_of_validHosts noHash valid
  exact absentUndoes_iff nonempty areWords file

/-! ### Entries that are taken away and others -/

theorem exact_line_taken_away :
    AbsentUndoes (text "10.0.0.1") [text "b", text "a"] (some (text "10.0.0.1 a b\n::1 c\n")) := by
  have entries : ∀ line ∈ segmentsOf (some (text "10.0.0.1 a b\n::1 c\n")),
      ∀ parsed ∈ (parseHostsLine line).toList, parsed.ip = text "10.0.0.1" →
        ∀ hostname ∈ parsed.hostnames, hostname ∈ [text "b", text "a"] := by
    decide +kernel
  apply (@hosts_absent_iff sampleIsIP _ _ sampleIsIP_noHash (by decide +kernel) _).2
  refine ⟨Option.some_ne_none _, ?_, .inl (by decide +kernel)⟩
  intro line mem parsed reads same _
  exact entries line mem parsed (by rw [reads]; exact List.mem_singleton_self _) same

/-- A missing file is never ok, and a name that was merged into a line with others stays. -/
theorem merged_name_stays :
    validateHostsOptions sampleIsIP (text "10.0.0.1") [text "b"] = .ok () ∧
      checkHostsState (text "10.0.0.1") [text "b"] .absent
        (absentAfter (text "10.0.0.1") [text "b"] none) = false ∧
      (presentAfter (text "10.0.0.1") [text "b"] (some (text "10.0.0.1 a\n"))).content =
        some (text "10.0.0.1 a b\n") ∧
      (absentAfter (text "10.0.0.1") [text "b"] (some (text "10.0.0.1 a b\n"))).content =
        some (text "10.0.0.1 a b\n") := by
  decide +kernel

end Paratix.Network
