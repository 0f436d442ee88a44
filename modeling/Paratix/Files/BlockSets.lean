/-
Module: Paratix.Files.BlockSets
Purpose: The blocks that `file.block` keeps between two marker lines, and when several of them live
  in one file in whatever order their modules are applied.
Main exports: BlockOptions, blocks_managed_iff
-/
import Mathlib.Data.List.Infix
import Paratix.Archive.Member
import Paratix.Foundation.MarkedBlock
import Paratix.Orchestration.Environment

namespace Paratix.Files

open Foundation Archive Orchestration

/-! ### Markers -/

structure BlockOptions where
  content : Text
  name : Text
  commentPrefix : Option Text
deriving DecidableEq

/-- `options.prefix ?? "#"` -/
def BlockOptions.markerPrefix (options : BlockOptions) : Text :=
  options.commentPrefix.getD (text "#")

def BlockOptions.beginMarker (options : BlockOptions) : Text :=
  options.markerPrefix ++ text " BEGIN paratix: " ++ options.name

def BlockOptions.endMarker (options : BlockOptions) : Text :=
  options.markerPrefix ++ text " END paratix: " ++ options.name

def BlockOptions.fullBlock (options : BlockOptions) : Text :=
  options.beginMarker ++ ['\n'] ++ options.content ++ ['\n'] ++ options.endMarker

structure BlockMarkers where
  beginMarker : Text
  endMarker : Text
  full : Text

def BlockOptions.markers (options : BlockOptions) : BlockMarkers where
  beginMarker := options.beginMarker
  endMarker := options.endMarker
  full := options.fullBlock

def assertSingleLineBlockMarkerPart (label value : Text) : Except Text Unit :=
  if value.length = 0 then
    .error (text "file.block " ++ label ++ text " must not be empty")
  else if '\x00' ∈ value ∨ '\r' ∈ value ∨ '\n' ∈ value then
    .error (text "file.block " ++ label ++ text " must not contain NUL, CR, or LF")
  else .ok ()

/-! ### Parsing and replacing -/

inductive ParsedManagedBlock where
  | present (content : Text) (startIndex endIndex : Nat)
  | invalid (reason : Text)
  | absent
deriving DecidableEq

/-- `line.includes(marker)` -/
def parseManagedBlock (contents : Text) (markers : BlockMarkers) : ParsedManagedBlock :=
  let lines := contents.splitOn '\n'
  match indexesWhere (markers.beginMarker <:+: ·) 0 lines,
    indexesWhere (markers.endMarker <:+: ·) 0 lines with
  | [], [] => .absent
  | [startIndex], [endIndex] =>
      if startIndex ≥ endIndex then .invalid (text "begin marker must appear before end marker")
      else
        .present (['\n'].intercalate ((lines.take endIndex).drop (startIndex + 1))) startIndex
          endIndex
  | _, _ => .invalid (text "expected exactly one begin marker and one end marker")

def replaceBlock (contents : Text) (markers : BlockMarkers) : ParsedManagedBlock → Text
  | .present _ startIndex endIndex =>
      let lines := contents.splitOn '\n'
      ['\n'].intercalate
        (lines.take startIndex ++ [markers.full] ++ lines.drop (endIndex + 1))
  | .invalid _ => contents
  | .absent => contents

/-- The new content of the file, or the message of the failure. -/
def applyBlockToExistingFile (existing fullBlock : Text) (markers : BlockMarkers)
    (resourceLabel : Text) : Except Text Text :=
  match parseManagedBlock existing markers with
  | .invalid reason =>
      .error (text "[file.block: " ++ resourceLabel ++ text "] invalid marker pair: " ++ reason)
  | .present content startIndex endIndex =>
      .ok (replaceBlock existing markers (.present content startIndex endIndex))
  | .absent =>
      .ok (existing ++ (if ['\n'] <:+ existing then [] else ['\n']) ++ fullBlock ++ ['\n'])

/-! ### The module -/

/-- A module that `block` returns: both parts of its markers are accepted. -/
structure BlockModule where
  remotePath : Text
  options : BlockOptions
  nameAccepted : assertSingleLineBlockMarkerPart (text "name") options.name = .ok ()
  prefixAccepted : assertSingleLineBlockMarkerPart (text "prefix") options.markerPrefix = .ok ()
deriving DecidableEq

def block (remotePath : Text) (options : BlockOptions) : Except Text BlockModule :=
  match nameAccepted : assertSingleLineBlockMarkerPart (text "name") options.name with
  | .error error => .error error
  | .ok () =>
      match prefixAccepted :
          assertSingleLineBlockMarkerPart (text "prefix") options.markerPrefix with
      | .error error => .error error
      | .ok () => .ok ⟨remotePath, options, nameAccepted, prefixAccepted⟩

/-- `apply`; the file is missing or a regular file, and its new content is written. -/
def applyBlock (module : BlockModule) : Option Text → Except Text Text
  | some existing =>
      applyBlockToExistingFile existing module.options.fullBlock module.options.markers
        (module.remotePath ++ text " (" ++ module.options.name ++ text ")")
  | none => .ok (module.options.fullBlock ++ ['\n'])

/-- `grep -qF argument file`: a line holds the text that grep searches for, if it does not
refuse the argument. -/
def grepFinds (searched : Text → Option Text) (argument file : Text) : Bool :=
  match searched argument with
  | none => false
  | some pattern => (fileLines '\n' file).any (pattern <:+: ·)

/-- `check` -/
def checkBlock (searched : Text → Option Text) (module : BlockModule) :
    Option Text → CheckResult
  | none => .needsApply
  | some fileContent =>
      let hasBeginMarker := grepFinds searched module.options.beginMarker fileContent
      let hasEndMarker := grepFinds searched module.options.endMarker fileContent
      if !hasBeginMarker && !hasEndMarker then .needsApply
      else
        match parseManagedBlock fileContent module.options.markers with
        | .present content _ _ =>
            if content = module.options.content then .ok else .needsApply
        | .invalid _ => .needsApply
        | .absent => .needsApply

/-- The modules are applied one after the other to one file. -/
def applyBlocks : List BlockModule → Option Text → Except Text (Option Text)
  | [], file => .ok file
  | module :: modules, file =>
      match applyBlock module file with
      | .error error => .error error
      | .ok after => applyBlocks modules (some after)

/-! ### Lines of a text -/

section SplitLines

variable {content : Text} {lines : List Text}

/-- What `split` shows behind the lines: an empty text, unless the last line has no newline. -/
def SplitTail (lines tail : List Text) : Prop :=
  tail = [[]] ∨ tail = [] ∧ ∃ front last, lines = front ++ [last] ∧ last ≠ []

theorem splitOn_eq_fileLines (content : Text) :
    ∃ tail, content.splitOn '\n' = fileLines '\n' content ++ tail ∧
      SplitTail (fileLines '\n' content) tail := by
  rcases splitOn_cases '\n' content with ⟨_, split⟩ | ⟨unterminated, split⟩
  · exact ⟨[[]], split, .inl rfl⟩
  · obtain ⟨front, last, nonempty, lines, _⟩ :=
      @fileLines_append_glued _ _ _ _ [] unterminated List.not_mem_nil
    exact ⟨[], by rw [split, List.append_nil], .inr ⟨rfl, front, last, lines, nonempty⟩⟩

theorem fileLines_of_splitOn {tail : List Text}
    (split : content.splitOn '\n' = lines ++ tail) (isTail : SplitTail lines tail) :
    fileLines '\n' content = lines := by
  obtain ⟨tail', split', isTail'⟩ := splitOn_eq_fileLines content
  rw [split] at split'
  rcases isTail with rfl | ⟨rfl, front, last, rfl, nonempty⟩
  · rcases isTail' with rfl | ⟨rfl, front', last', lines', nonempty'⟩
    · exact (List.append_inj_left' split' rfl).symm
    · rw [List.append_nil, lines'] at split'
      exact absurd (List.append_inj_right' split' rfl) (by simpa using nonempty'.symm)
  · rcases isTail' with rfl | ⟨rfl, _⟩
    · rw [List.append_nil] at split'
      exact absurd (List.append_inj_right' split' rfl) (by simpa using nonempty)
    · rw [List.append_nil, List.append_nil] at split'
      exact split'.symm

theorem fileLines_intercalate {tail : List Text} (oneLine : ∀ line ∈ lines, '\n' ∉ line)
    (isTail : SplitTail lines tail) :
    fileLines '\n' (['\n'].intercalate (lines ++ tail)) = lines := by
  have whole : ∀ line ∈ lines ++ tail, '\n' ∉ line := by
    intro line mem
    rcases List.mem_append.1 mem with inLines | inTail
    · exact oneLine line inLines
    · rcases isTail with rfl | ⟨rfl, _⟩
      · rw [List.mem_singleton.1 inTail]
        exact List.not_mem_nil
      · cases inTail
  have nonempty : lines ++ tail ≠ [] := by
    rcases isTail with rfl | ⟨rfl, front, last, rfl, _⟩
    · simp
    · simp
  exact fileLines_of_splitOn (List.splitOn_intercalate '\n' whole nonempty) isTail

/-- A joined part may be joined with the whole. -/
theorem intercalate_joined {front part back : List Text} (nonempty : part ≠ []) :
    ['\n'].intercalate (front ++ [['\n'].intercalate part] ++ back) =
      ['\n'].intercalate (front ++ part ++ back) := by
  have ended : ∀ {lines : List Text}, lines ≠ [] →
      ['\n'].intercalate lines ++ ['\n'] = fileText '\n' lines := intercalate_newline
  apply @List.append_cancel_right _ _ ['\n']
  rw [ended (by simp), ended (by simp [nonempty]), fileText_append, fileText_append,
    fileText_append, fileText_append, ← ended nonempty, fileText_cons]
  simp [fileText]

end SplitLines

/-! ### Markers -/

theorem part_accepted {label value : Text}
    (accepted : assertSingleLineBlockMarkerPart label value = .ok ()) :
    value ≠ [] ∧ '\n' ∉ value := by
  unfold assertSingleLineBlockMarkerPart at accepted
  split at accepted
  · cases accepted
  · next nonempty =>
    split at accepted
    · cases accepted
    · next oneLine =>
      push Not at oneLine
      exact ⟨fun isEmpty => nonempty (List.length_eq_zero_iff.2 isEmpty), oneLine.2.2⟩

theorem newline_notMem_words :
    '\n' ∉ text " BEGIN paratix: " ∧ '\n' ∉ text " END paratix: " := by
  decide

variable {m : BlockModule}

namespace BlockModule

theorem newline_notMem_beginMarker (m : BlockModule) : '\n' ∉ m.options.beginMarker := by
  rw [BlockOptions.beginMarker, List.mem_append, List.mem_append, not_or, not_or]
  exact ⟨⟨(part_accepted m.prefixAccepted).2, newline_notMem_words.1⟩,
    (part_accepted m.nameAccepted).2⟩

theorem newline_notMem_endMarker (m : BlockModule) : '\n' ∉ m.options.endMarker := by
  rw [BlockOptions.endMarker, List.mem_append, List.mem_append, not_or, not_or]
  exact ⟨⟨(part_accepted m.prefixAccepted).2, newline_notMem_words.2⟩,
    (part_accepted m.nameAccepted).2⟩

theorem beginMarker_ne_nil (m : BlockModule) : m.options.beginMarker ≠ [] := by
  rw [BlockOptions.beginMarker, Ne, List.append_eq_nil_iff, not_and]
  exact fun _ => (part_accepted m.nameAccepted).1

theorem endMarker_ne_nil (m : BlockModule) : m.options.endMarker ≠ [] := by
  rw [BlockOptions.endMarker, Ne, List.append_eq_nil_iff, not_and]
  exact fun _ => (part_accepted m.nameAccepted).1

/-- The line would be taken for the begin marker. -/
abbrev Opens (m : BlockModule) (line : Text) : Prop := m.options.beginMarker <:+: line

/-- The line would be taken for the end marker. -/
abbrev Closes (m : BlockModule) (line : Text) : Prop := m.options.endMarker <:+: line

def contentLines (m : BlockModule) : List Text := m.options.content.splitOn '\n'

/-- The lines of the managed block. -/
def lines (m : BlockModule) : List Text :=
  m.options.beginMarker :: (m.contentLines ++ [m.options.endMarker])

/-- No line would be taken for a marker of the module. -/
def Absent (m : BlockModule) (lines : List Text) : Prop := Unmarked m.Opens m.Closes lines

instance (m : BlockModule) (lines : List Text) : Decidable (m.Absent lines) :=
  inferInstanceAs (Decidable (Unmarked m.Opens m.Closes lines))

/-- The module finds its block between the other lines. -/
def Stands (m : BlockModule) (front old back : List Text) : Prop :=
  BlockBetween m.Opens m.Closes front old back

theorem lines_ne_nil (m : BlockModule) : m.lines ≠ [] := List.cons_ne_nil _ _

theorem newline_notMem_lines (m : BlockModule) : ∀ line ∈ m.lines, '\n' ∉ line := by
  rw [lines, List.forall_mem_cons, List.forall_mem_append, List.forall_mem_singleton]
  exact ⟨m.newline_notMem_beginMarker,
    fun line mem => separator_notMem_of_mem_splitOn mem, m.newline_notMem_endMarker⟩

theorem fullBlock_eq (m : BlockModule) : m.options.fullBlock = ['\n'].intercalate m.lines := by
  have content : ['\n'].intercalate m.contentLines = m.options.content := List.intercalate_splitOn _
  have nonempty : m.contentLines ≠ [] := List.splitOn_ne_nil _ _
  have joined : ['\n'].intercalate ([m.options.beginMarker] ++ [m.options.content] ++
      [m.options.endMarker]) = ['\n'].intercalate m.lines := by
    rw [← content, intercalate_joined nonempty]
    rfl
  rw [← joined, BlockOptions.fullBlock]
  simp [List.intercalate]

theorem absent_emptyLine (m : BlockModule) : m.Absent [[]] := by
  rintro line (_ | ⟨_, mem⟩)
  · exact ⟨fun opens => m.beginMarker_ne_nil (List.infix_nil.1 opens),
      fun closes => m.endMarker_ne_nil (List.infix_nil.1 closes)⟩
  · cases mem

theorem absent_tail {lines tail : List Text} (isTail : SplitTail lines tail) : m.Absent tail := by
  rcases isTail with rfl | ⟨rfl, _⟩
  · exact m.absent_emptyLine
  · exact fun line mem => absurd mem List.not_mem_nil

/-- An occurrence of the end marker in the begin marker would have to start at most two
characters late, and differs from it there. -/
theorem endMarker_notIn_beginMarker (front back markerPrefix name : Text)
    (short : front.length ≤ 2) :
    front ++ (markerPrefix ++ (text " END paratix: " ++ name)) ++ back ≠
      markerPrefix ++ (text " BEGIN paratix: " ++ name) := by
  intro same
  rcases front with _ | ⟨first, _ | ⟨second, _ | ⟨third, front⟩⟩⟩
  · rw [List.nil_append, List.append_assoc] at same
    have words := List.append_cancel_left same
    exact absurd (List.cons.inj (List.cons.inj words).2).1 (by decide)
  · have there := congrArg (·[markerPrefix.length + 1]?) same
    simp [text] at there
  · have there := congrArg (·[markerPrefix.length + 2]?) same
    simp [text] at there
  · simp only [List.length_cons] at short
    omega

/-- The begin marker is no part of the end marker, nor the other way round. -/
theorem markers_apart (m : BlockModule) :
    ¬m.Opens m.options.endMarker ∧ ¬m.Closes m.options.beginMarker := by
  have lengths : m.options.beginMarker.length = m.options.endMarker.length + 2 := by
    simp only [BlockOptions.beginMarker, BlockOptions.endMarker, List.length_append]
    have words : (text " BEGIN paratix: ").length = (text " END paratix: ").length + 2 := rfl
    omega
  constructor
  · intro opens
    have short := opens.length_le
    omega
  · rintro ⟨front, back, same⟩
    have total := congrArg List.length same
    simp only [List.length_append] at total
    rw [BlockOptions.beginMarker, BlockOptions.endMarker,
      List.append_assoc m.options.markerPrefix, List.append_assoc m.options.markerPrefix] at same
    exact endMarker_notIn_beginMarker front back _ _ (by omega) same

/-- The block that the module writes is one that it finds, if its content looks like no
marker. -/
theorem isBlock_lines (absent : m.Absent m.contentLines) : IsBlock m.Opens m.Closes m.lines :=
  ⟨_, m.contentLines, _, rfl, ⟨List.infix_refl _, m.markers_apart.2⟩, absent,
    List.infix_refl _, m.markers_apart.1⟩

end BlockModule

/-! ### Parsing -/

theorem parse_absent {contents : Text} (absent : m.Absent (fileLines '\n' contents)) :
    parseManagedBlock contents m.options.markers = .absent := by
  obtain ⟨tail, split, isTail⟩ := splitOn_eq_fileLines contents
  have unmarked : m.Absent (contents.splitOn '\n') := by
    rw [split]
    exact unmarked_append.2 ⟨absent, m.absent_tail isTail⟩
  have opens : indexesWhere (m.options.markers.beginMarker <:+: ·) 0
      (contents.splitOn '\n') = [] := indexesWhere_eq_nil (fun line mem => (unmarked line mem).1) 0
  have closes : indexesWhere (m.options.markers.endMarker <:+: ·) 0
      (contents.splitOn '\n') = [] := indexesWhere_eq_nil (fun line mem => (unmarked line mem).2) 0
  simp only [parseManagedBlock, opens, closes]

/-- The lines that `split` shows, round the block that stands among them. -/
theorem parse_stands {contents : Text} {front middle back : List Text} {first last : Text}
    (split : contents.splitOn '\n' = front ++ (first :: (middle ++ [last])) ++ back)
    (stands : m.Stands front (first :: (middle ++ [last])) back) :
    parseManagedBlock contents m.options.markers =
      .present (['\n'].intercalate middle) front.length (front.length + 1 + middle.length) := by
  obtain ⟨⟨first', middle', last', block, opening, unmarked, closing⟩, absentFront, absentBack⟩ :=
    stands
  obtain ⟨rfl, same⟩ := List.cons.inj block
  obtain ⟨rfl, sameLast⟩ := List.append_inj' same rfl
  cases List.cons.inj sameLast |>.1
  have opens : indexesWhere (m.options.markers.beginMarker <:+: ·) 0 (contents.splitOn '\n') =
      [front.length] := by
    rw [split, List.append_assoc, List.cons_append]
    refine indexesWhere_eq_singleton (fun line mem => (absentFront line mem).1) opening.1 ?_
    rw [List.forall_mem_append, List.forall_mem_append, List.forall_mem_singleton]
    exact ⟨⟨fun line mem => (unmarked line mem).1, closing.2⟩,
      fun line mem => (absentBack line mem).1⟩
  have closes : indexesWhere (m.options.markers.endMarker <:+: ·) 0 (contents.splitOn '\n') =
      [front.length + 1 + middle.length] := by
    have regrouped : front ++ (first :: (middle ++ [last])) ++ back =
        (front ++ first :: middle) ++ last :: back := by simp
    have place : front.length + 1 + middle.length = (front ++ first :: middle).length := by
      rw [List.length_append, List.length_cons]
      omega
    rw [split, regrouped, place]
    refine indexesWhere_eq_singleton ?_ closing.1 fun line mem => (absentBack line mem).2
    rw [List.forall_mem_append, List.forall_mem_cons]
    exact ⟨fun line mem => (absentFront line mem).2, opening.2,
      fun line mem => (unmarked line mem).2⟩
  have between : (front ++ (first :: (middle ++ [last])) ++ back).take
      (front.length + 1 + middle.length) = front ++ first :: middle := by
    have regrouped : front ++ (first :: (middle ++ [last])) ++ back =
        (front ++ first :: middle) ++ last :: back := by simp
    rw [regrouped]
    exact List.take_left' (by simp; omega)
  simp only [parseManagedBlock, opens, closes]
  rw [if_neg (by omega), split, between]
  have inner : (front ++ first :: middle).drop (front.length + 1) = middle := by
    rw [List.drop_append]
    simp
  rw [inner]

/-- A block is only found where one line opens it and one line closes it. -/
theorem counts_of_parse {contents content : Text} {startIndex endIndex : Nat}
    (found : parseManagedBlock contents m.options.markers = .present content startIndex endIndex) :
    (fileLines '\n' contents).countP (m.Opens ·) = 1 ∧
      (fileLines '\n' contents).countP (m.Closes ·) = 1 := by
  obtain ⟨tail, split, isTail⟩ := splitOn_eq_fileLines contents
  have absent := m.absent_tail isTail
  have opensTail : tail.countP (m.Opens ·) = 0 :=
    List.countP_eq_zero.2 fun line mem => by simpa using (absent line mem).1
  have closesTail : tail.countP (m.Closes ·) = 0 :=
    List.countP_eq_zero.2 fun line mem => by simpa using (absent line mem).2
  simp only [parseManagedBlock] at found
  split at found
  · cases found
  · next opens closes =>
    have opensCount : (contents.splitOn '\n').countP (m.Opens ·) = 1 :=
      (length_indexesWhere 0 _).symm.trans (congrArg List.length opens)
    have closesCount : (contents.splitOn '\n').countP (m.Closes ·) = 1 :=
      (length_indexesWhere 0 _).symm.trans (congrArg List.length closes)
    rw [split, List.countP_append, opensTail] at opensCount
    rw [split, List.countP_append, closesTail] at closesCount
    exact ⟨opensCount, closesCount⟩
  · cases found

/-! ### Applying -/

def linesOf (file : Option Text) : List Text := fileLines '\n' (file.getD [])

theorem fileText_lines (m : BlockModule) :
    m.options.fullBlock ++ ['\n'] = fileText '\n' m.lines := by
  rw [m.fullBlock_eq, intercalate_newline m.lines_ne_nil]

/-- What is written behind a text that is not empty starts on a line of its own. -/
theorem fileLines_appended {existing : Text} (notEmpty : existing ≠ []) {more : List Text}
    (oneLine : ∀ line ∈ more, '\n' ∉ line) :
    fileLines '\n' (existing ++ (if ['\n'] <:+ existing then [] else ['\n']) ++
      fileText '\n' more) = fileLines '\n' existing ++ more := by
  obtain ⟨lines, last, whole, lastLine, rfl⟩ := exists_fileText '\n' existing
  by_cases ended : last = []
  · subst ended
    rw [List.append_nil] at notEmpty ⊢
    have terminated : ['\n'] <:+ fileText '\n' lines := by
      rcases @terminated_fileText _ '\n' lines with isEmpty | ends
      · exact absurd isEmpty notEmpty
      · obtain ⟨front, same⟩ := List.getLast?_eq_some_iff.1 ends
        exact ⟨front, same.symm⟩
    rw [if_pos terminated, List.append_nil, ← fileText_append, fileLines_fileText,
      fileLines_fileText whole]
    rw [List.forall_mem_append]
    exact ⟨whole, oneLine⟩
  · have unterminated : ¬['\n'] <:+ fileText '\n' lines ++ last := by
      rintro ⟨front, same⟩
      have ends := congrArg List.getLast? same
      rw [List.getLast?_concat, List.getLast?_append_of_ne_nil _ ended] at ends
      exact lastLine (List.mem_of_getLast? ends.symm)
    have newline : fileText '\n' lines ++ last ++ ['\n'] = fileText '\n' (lines ++ [last]) := by
      rw [fileText_append, fileText_cons, List.append_assoc]
      rfl
    rw [if_neg unterminated, newline, ← fileText_append, fileLines_fileText,
      fileLines_fileText_append whole, fileLines_last lastLine ended]
    rw [List.forall_mem_append, List.forall_mem_append, List.forall_mem_singleton]
    exact ⟨⟨whole, lastLine⟩, oneLine⟩

/-- A file that is not empty gains the block at its end. -/
theorem applyBlock_absent {file : Option Text} (absent : m.Absent (linesOf file))
    (notEmpty : file ≠ some []) : ∃ after, applyBlock m file = .ok after ∧
      fileLines '\n' after = linesOf file ++ m.lines := by
  cases file with
  | none =>
    refine ⟨_, rfl, ?_⟩
    rw [fileText_lines, fileLines_fileText m.newline_notMem_lines]
    rfl
  | some existing =>
    have notFound : parseManagedBlock existing m.options.markers = .absent := parse_absent absent
    refine ⟨_, by rw [applyBlock, applyBlockToExistingFile, notFound], ?_⟩
    rw [List.append_assoc _ m.options.fullBlock, fileText_lines]
    exact fileLines_appended (fun isEmpty => notEmpty (congrArg some isEmpty))
      m.newline_notMem_lines

/-- A block that stands in the file is replaced. -/
theorem applyBlock_stands {existing : Text} {front old back : List Text}
    (lines : fileLines '\n' existing = front ++ old ++ back) (stands : m.Stands front old back) :
    ∃ tail, existing.splitOn '\n' = front ++ old ++ (back ++ tail) ∧
      applyBlock m (some existing) = .ok (['\n'].intercalate (front ++ m.lines ++ (back ++ tail))) ∧
      fileLines '\n' (['\n'].intercalate (front ++ m.lines ++ (back ++ tail))) =
        front ++ m.lines ++ back := by
  obtain ⟨tail, split, isTail⟩ := splitOn_eq_fileLines existing
  have absentBack : m.Absent (back ++ tail) :=
    unmarked_append.2 ⟨stands.unmarkedBack, m.absent_tail isTail⟩
  rw [lines, List.append_assoc] at split
  refine ⟨tail, split, ?_, ?_⟩
  · obtain ⟨first, middle, last, rfl, _⟩ := stands.isBlock
    have found := parse_stands split ⟨stands.isBlock, stands.unmarkedFront, absentBack⟩
    have before : (front ++ (first :: (middle ++ [last])) ++ (back ++ tail)).take front.length =
        front := by
      rw [List.append_assoc]
      exact List.take_left
    have behind : (front ++ (first :: (middle ++ [last])) ++ (back ++ tail)).drop
        (front.length + 1 + middle.length + 1) = back ++ tail := by
      refine List.drop_left' ?_
      simp only [List.length_append, List.length_cons, List.length_nil]
      omega
    rw [applyBlock, applyBlockToExistingFile, found]
    dsimp only [replaceBlock]
    rw [split, before, behind]
    dsimp only [BlockOptions.markers]
    rw [m.fullBlock_eq, intercalate_joined m.lines_ne_nil]
  · have oneLine : ∀ line ∈ front ++ m.lines ++ back, '\n' ∉ line := by
      have whole : ∀ line ∈ front ++ old ++ back, '\n' ∉ line := by
        rw [← lines]
        exact fun line mem => oneLine_of_mem_fileLines mem
      rw [List.forall_mem_append, List.forall_mem_append] at whole ⊢
      exact ⟨⟨whole.1.1, m.newline_notMem_lines⟩, whole.2⟩
    rw [← List.append_assoc]
    refine fileLines_intercalate oneLine ?_
    rcases isTail with rfl | ⟨rfl, start, last, ends, nonempty⟩
    · exact .inl rfl
    · refine .inr ⟨rfl, ?_⟩
      rcases List.eq_nil_or_concat back with rfl | ⟨back, final, rfl⟩
      · exact ⟨front ++ m.options.beginMarker :: m.contentLines, _, by
          simp [BlockModule.lines], m.endMarker_ne_nil⟩
      · rw [lines, List.concat_eq_append, ← List.append_assoc] at ends
        cases List.append_inj_right' ends rfl
        exact ⟨front ++ m.lines ++ back, _, by
          rw [List.concat_eq_append, ← List.append_assoc], nonempty⟩

/-- Where the block already stands, an apply writes the same text. -/
theorem applyBlock_again {existing : Text} {front back : List Text}
    (lines : fileLines '\n' existing = front ++ m.lines ++ back)
    (stands : m.Stands front m.lines back) : applyBlock m (some existing) = .ok existing := by
  obtain ⟨tail, split, applied, _⟩ := applyBlock_stands lines stands
  rw [applied, ← split, List.intercalate_splitOn]

/-! ### Checking -/

/-- What `grep` does with its first argument: one that is no option is searched for as it is,
and of one that begins like an option at most the rest is searched for. -/
structure GrepArguments (searched : Text → Option Text) : Prop where
  plain : ∀ argument, argument.head? ≠ some '-' → searched argument = some argument
  option : ∀ argument pattern, searched argument = some pattern → pattern <:+ argument

/-- `grep` refuses not both markers. -/
def BlockModule.Searchable (m : BlockModule) (searched : Text → Option Text) : Prop :=
  searched m.options.beginMarker ≠ none ∨ searched m.options.endMarker ≠ none

variable {searched : Text → Option Text}

theorem grepFinds_of_mem (grep : GrepArguments searched) {argument contents : Text}
    (mem : argument ∈ fileLines '\n' contents) (accepted : searched argument ≠ none) :
    grepFinds searched argument contents = true := by
  obtain ⟨pattern, reads⟩ := Option.ne_none_iff_exists'.1 accepted
  rw [grepFinds, reads]
  exact List.any_eq_true.2
    ⟨argument, mem, decide_eq_true (grep.option argument pattern reads).isInfix⟩

theorem checkBlock_stands (grep : GrepArguments searched) (searchable : m.Searchable searched)
    {contents : Text} {front back : List Text}
    (lines : fileLines '\n' contents = front ++ m.lines ++ back)
    (stands : m.Stands front m.lines back) : checkBlock searched m (some contents) = .ok := by
  obtain ⟨tail, split, isTail⟩ := splitOn_eq_fileLines contents
  have absentBack : m.Absent (back ++ tail) :=
    unmarked_append.2 ⟨stands.unmarkedBack, m.absent_tail isTail⟩
  rw [lines, List.append_assoc] at split
  have found := parse_stands split ⟨stands.isBlock, stands.unmarkedFront, absentBack⟩
  have content : ['\n'].intercalate m.contentLines = m.options.content := List.intercalate_splitOn _
  have seen : grepFinds searched m.options.beginMarker contents = true ∨
      grepFinds searched m.options.endMarker contents = true := by
    rcases searchable with begins | ends
    · refine .inl (grepFinds_of_mem grep ?_ begins)
      rw [lines]
      simp [BlockModule.lines]
    · refine .inr (grepFinds_of_mem grep ?_ ends)
      rw [lines]
      simp [BlockModule.lines]
  rw [checkBlock, found]
  dsimp only
  rw [content, if_pos rfl, if_neg]
  rcases seen with begins | ends
  · simp [begins]
  · simp [ends]

/-- Where the check answers `ok`, the block is the only one and `grep` reads a marker. -/
theorem of_checkBlock {file : Text} (checked : checkBlock searched m (some file) = .ok) :
    (fileLines '\n' file).countP (m.Opens ·) = 1 ∧
      (fileLines '\n' file).countP (m.Closes ·) = 1 ∧ m.Searchable searched := by
  simp only [checkBlock] at checked
  split at checked
  · cases checked
  · next seen =>
    split at checked
    · next found =>
      obtain ⟨opens, closes⟩ := counts_of_parse found
      refine ⟨opens, closes, ?_⟩
      by_contra refused
      rw [BlockModule.Searchable, not_or, not_ne_iff, not_ne_iff] at refused
      simp [grepFinds, refused] at seen
    · cases checked
    · cases checked

/-! ### What managing asks for -/

/-- The block is added behind all lines or takes the place of the module's own block, which
holds no marker of another module; the other lines stay. -/
def Manages (modules : List BlockModule) (m : BlockModule) (before : Option Text)
    (after : Text) : Prop :=
  ∃ front old back, linesOf before = front ++ old ++ back ∧
    fileLines '\n' after = front ++ m.lines ++ back ∧
    (old = [] ∧ back = [] ∨ m.Stands front old back) ∧
    ∀ other ∈ modules, other ≠ m → other.Absent old

/-- In whatever order the modules are applied, each apply succeeds and changes its own block
only; then every module applied so far checks `ok` and changes nothing if applied again. -/
def BlocksManaged (searched : Text → Option Text) (modules : List BlockModule)
    (file : Option Text) : Prop :=
  ∀ order, order.Perm modules → ∀ applied m rest, order = applied ++ m :: rest →
    ∃ before after, applyBlocks applied file = .ok before ∧ applyBlock m before = .ok after ∧
      Manages modules m before after ∧
      ∀ own ∈ applied ++ [m], checkBlock searched own (some after) = .ok ∧
        applyBlock own (some after) = .ok after

/-! ### When it holds -/

/-- No line of a block but its own markers would be taken for a marker. -/
structure BlocksApart (modules : List BlockModule) : Prop where
  ownContent : ∀ m ∈ modules, m.Absent m.contentLines
  others : ∀ m ∈ modules, ∀ other ∈ modules, other ≠ m → m.Absent other.lines

/-- Each module finds nothing of its own in the file, or one block without markers of the
others. -/
def BlocksReady (modules : List BlockModule) (lines : List Text) : Prop :=
  ∀ m ∈ modules, m.Absent lines ∨
    ∃ front old back, lines = front ++ old ++ back ∧ m.Stands front old back ∧
      ∀ other ∈ modules, other ≠ m → other.Absent old

/-- The file is ready for all modules, and holds the blocks of those that were applied. -/
structure BlocksSettled (modules applied : List BlockModule) (lines : List Text) : Prop where
  ready : BlocksReady modules lines
  stands : ∀ m ∈ applied, ∃ front back, lines = front ++ m.lines ++ back ∧
    m.Stands front m.lines back

variable {searched : Text → Option Text} {modules applied : List BlockModule} {m : BlockModule}

/-- The blocks are apart, the file is ready for them and not empty, and `grep` reads a marker
of each. -/
structure BlocksCompatible (searched : Text → Option Text) (modules : List BlockModule)
    (file : Option Text) : Prop where
  apart : BlocksApart modules
  ready : BlocksReady modules (linesOf file)
  notEmpty : modules ≠ [] → file ≠ some []
  searchable : ∀ m ∈ modules, m.Searchable searched

/-! ### One apply -/

/-- An apply finds the stretch that it replaces, which holds no marker of another module. -/
theorem exists_applied (apart : BlocksApart modules) (memModules : m ∈ modules)
    {file : Option Text} (ready : BlocksReady modules (linesOf file)) (notEmpty : file ≠ some []) :
    ∃ front old back after, linesOf file = front ++ old ++ back ∧
      applyBlock m file = .ok after ∧ fileLines '\n' after = front ++ m.lines ++ back ∧
      (old = [] ∧ back = [] ∨ m.Stands front old back) ∧ m.Stands front m.lines back ∧
      ∀ other ∈ modules, other ≠ m → other.Absent old := by
  have isBlock := m.isBlock_lines (apart.ownContent m memModules)
  rcases ready m memModules with absent | ⟨front, old, back, lines, stands, foreign⟩
  · obtain ⟨after, applied, lines⟩ := applyBlock_absent absent notEmpty
    have nothing : ∀ other ∈ modules, other ≠ m → other.Absent [] :=
      fun _ _ _ line mem => absurd mem List.not_mem_nil
    exact ⟨linesOf file, [], [], after, by simp, applied, by rw [lines, List.append_nil],
      .inl ⟨rfl, rfl⟩, ⟨isBlock, absent, fun line mem => absurd mem List.not_mem_nil⟩, nothing⟩
  · cases file with
    | none =>
      obtain ⟨first, middle, rfl, _⟩ := stands.isBlock.exists_opening
      exact absurd lines.symm (by simp [linesOf, fileLines])
    | some existing =>
      obtain ⟨tail, _, applied, newLines⟩ := applyBlock_stands lines stands
      exact ⟨front, old, back, _, lines, applied, newLines, .inr stands,
        ⟨isBlock, stands.unmarkedFront, stands.unmarkedBack⟩, foreign⟩

/-- Another module's block is where it was. -/
theorem stands_of_replaced {other : BlockModule} {front old back new : List Text}
    (place : old = [] ∧ back = [] ∨ m.Stands front old back) (foreign : other.Absent old)
    (foreignNew : other.Absent new) {front' block' back' : List Text}
    (same : front ++ old ++ back = front' ++ block' ++ back')
    (stands : other.Stands front' block' back') (foreign' : m.Absent block') :
    ∃ before behind, front ++ new ++ back = before ++ block' ++ behind ∧
      other.Stands before block' behind := by
  rcases place with ⟨rfl, rfl⟩ | standsHere
  · refine ⟨front', back' ++ new, ?_, stands.isBlock, stands.unmarkedFront,
      unmarked_append.2 ⟨stands.unmarkedBack, foreignNew⟩⟩
    rw [List.append_nil, List.append_nil] at same
    rw [List.append_nil, same, List.append_assoc]
  · exact standsHere.replaced stands same foreign foreign' foreignNew

/-- An apply keeps the file settled, now with the module's own block. -/
theorem applyBlock_settled (apart : BlocksApart modules) (memModules : m ∈ modules)
    (appliedModules : ∀ own ∈ applied, own ∈ modules) {file : Option Text}
    (settled : BlocksSettled modules applied (linesOf file)) (notEmpty : file ≠ some []) :
    ∃ after, applyBlock m file = .ok after ∧ Manages modules m file after ∧
      BlocksSettled modules (applied ++ [m]) (fileLines '\n' after) := by
  obtain ⟨front, old, back, after, lines, isApplied, newLines, place, stands, foreign⟩ :=
    exists_applied apart memModules settled.ready notEmpty
  have foreignLines : ∀ other ∈ modules, other ≠ m → other.Absent m.lines :=
    fun other memOther different => apart.others other memOther m memModules different.symm
  refine ⟨after, isApplied, ⟨front, old, back, lines, newLines, place, foreign⟩, ?_, ?_⟩
  · intro other memOther
    by_cases different : other = m
    · subst different
      exact .inr ⟨front, _, back, newLines, stands, foreignLines⟩
    · have absentNew := foreignLines other memOther different
      rcases settled.ready other memOther with
        absent | ⟨front', block', back', same, stands', foreign'⟩
      · refine .inl ?_
        rw [lines, BlockModule.Absent, unmarked_append, unmarked_append] at absent
        rw [newLines, BlockModule.Absent, unmarked_append, unmarked_append]
        exact ⟨⟨absent.1.1, absentNew⟩, absent.2⟩
      · rw [lines] at same
        obtain ⟨before, behind, newSame, newStands⟩ :=
          stands_of_replaced place (foreign other memOther different) absentNew same stands'
            (foreign' m memModules (Ne.symm different))
        exact .inr ⟨before, block', behind, newLines.trans newSame, newStands, foreign'⟩
  · intro own memOwn
    by_cases different : own = m
    · subst different
      exact ⟨front, back, newLines, stands⟩
    · have before := (List.mem_append.1 memOwn).resolve_right (by simpa using different)
      have memOther := appliedModules own before
      obtain ⟨front', back', same, stands'⟩ := settled.stands own before
      rw [lines] at same
      obtain ⟨before', behind, newSame, newStands⟩ :=
        stands_of_replaced place (foreign own memOther different)
          (foreignLines own memOther different) same stands'
          (apart.others m memModules own memOther different)
      exact ⟨before', behind, newLines.trans newSame, newStands⟩

/-! ### A run -/

/-- A settled file is not empty once a module was applied. -/
theorem notEmpty_of_lines {after : Text} {front back : List Text}
    (lines : fileLines '\n' after = front ++ m.lines ++ back) : some after ≠ some [] := by
  rintro isEmpty
  cases isEmpty
  have nothing := congrArg List.length lines
  simp [fileLines, BlockModule.lines] at nothing

theorem applyBlocks_settled (apart : BlocksApart modules) {file : Option Text}
    (ready : BlocksReady modules (linesOf file)) (notEmpty : file ≠ some [])
    (appliedModules : ∀ own ∈ applied, own ∈ modules) :
    ∃ before, applyBlocks applied file = .ok before ∧ before ≠ some [] ∧
      BlocksSettled modules applied (linesOf before) := by
  -- the run is taken from its front, so the modules applied before it are carried along
  suffices general : ∀ (earlier : List BlockModule) (file : Option Text),
      (∀ own ∈ earlier ++ applied, own ∈ modules) → file ≠ some [] →
      BlocksSettled modules earlier (linesOf file) →
      ∃ before, applyBlocks applied file = .ok before ∧ before ≠ some [] ∧
        BlocksSettled modules (earlier ++ applied) (linesOf before) by
    exact general [] file appliedModules notEmpty
      ⟨ready, fun own mem => absurd mem List.not_mem_nil⟩
  clear appliedModules notEmpty ready file
  induction applied with
  | nil =>
    intro earlier file _ notEmpty settled
    exact ⟨file, rfl, notEmpty, by rwa [List.append_nil]⟩
  | cons m applied ih =>
    intro earlier file memModules notEmpty settled
    have regrouped : earlier ++ m :: applied = earlier ++ [m] ++ applied := by simp
    obtain ⟨after, isApplied, ⟨front, _, back, _, lines, _⟩, settledAfter⟩ :=
      applyBlock_settled apart (memModules m (by simp))
        (fun own mem => memModules own (List.mem_append_left _ mem)) settled notEmpty
    obtain ⟨before, run, notEmptyBefore, settledBefore⟩ :=
      ih (earlier ++ [m]) (some after) (by rwa [← regrouped])
        (notEmpty_of_lines lines) settledAfter
    refine ⟨before, ?_, notEmptyBefore, by rwa [regrouped]⟩
    rw [applyBlocks, isApplied]
    exact run

theorem blocksManaged_of_compatible (grep : GrepArguments searched) {file : Option Text}
    (compatible : BlocksCompatible searched modules file) :
    BlocksManaged searched modules file := by
  rintro order perm applied m rest rfl
  have memModules : ∀ own ∈ applied ++ [m], own ∈ modules := by
    intro own mem
    have inOrder : own ∈ applied ++ [m] ++ rest := List.mem_append_left _ mem
    rw [List.append_assoc] at inOrder
    exact perm.subset inOrder
  have memApplied : ∀ own ∈ applied, own ∈ modules :=
    fun own mem => memModules own (List.mem_append_left _ mem)
  have mem : m ∈ modules := memModules m (by simp)
  obtain ⟨before, run, notEmpty, settled⟩ := applyBlocks_settled compatible.apart compatible.ready
    (compatible.notEmpty (List.ne_nil_of_mem mem)) memApplied
  obtain ⟨after, isApplied, manages, settledAfter⟩ :=
    applyBlock_settled compatible.apart mem memApplied settled notEmpty
  refine ⟨before, after, run, isApplied, manages, ?_⟩
  intro own memOwn
  obtain ⟨front, back, lines, stands⟩ := settledAfter.stands own memOwn
  exact ⟨checkBlock_stands grep (compatible.searchable own (memModules own memOwn)) lines stands,
    applyBlock_again lines stands⟩

/-! ### What managing needs -/

theorem absent_of_counts {lines : List Text} (opens : lines.countP (m.Opens ·) = 0)
    (closes : lines.countP (m.Closes ·) = 0) : m.Absent lines := by
  rw [List.countP_eq_zero] at opens closes
  exact fun line mem => ⟨by simpa using opens line mem, by simpa using closes line mem⟩

theorem Absent.counts {lines : List Text} (absent : m.Absent lines) :
    lines.countP (m.Opens ·) = 0 ∧ lines.countP (m.Closes ·) = 0 :=
  ⟨List.countP_eq_zero.2 fun line mem => by simpa using (absent line mem).1,
    List.countP_eq_zero.2 fun line mem => by simpa using (absent line mem).2⟩

/-- A block that is the only one of its module leaves no further marker line. -/
theorem absent_around {front back : List Text}
    (opens : (front ++ m.lines ++ back).countP (m.Opens ·) = 1)
    (closes : (front ++ m.lines ++ back).countP (m.Closes ·) = 1) :
    m.Absent front ∧ m.Absent m.contentLines ∧ m.Absent back := by
  have opensElsewhere : front.countP (m.Opens ·) + m.contentLines.countP (m.Opens ·) +
      back.countP (m.Opens ·) = 0 := by
    have noBegin : ¬m.options.beginMarker <:+: m.options.endMarker := m.markers_apart.1
    simp only [BlockModule.lines, List.countP_append, List.countP_cons, List.countP_nil, noBegin,
      BlockModule.Opens, List.infix_refl, decide_true, decide_false, if_true] at opens ⊢
    omega
  have closesElsewhere : front.countP (m.Closes ·) + m.contentLines.countP (m.Closes ·) +
      back.countP (m.Closes ·) = 0 := by
    have noEnd : ¬m.options.endMarker <:+: m.options.beginMarker := m.markers_apart.2
    simp only [BlockModule.lines, List.countP_append, List.countP_cons, List.countP_nil, noEnd,
      BlockModule.Closes, List.infix_refl, decide_true, decide_false, if_true] at closes ⊢
    omega
  rw [Nat.add_eq_zero_iff, Nat.add_eq_zero_iff] at opensElsewhere closesElsewhere
  obtain ⟨⟨opensFront, opensContent⟩, opensBack⟩ := opensElsewhere
  obtain ⟨⟨closesFront, closesContent⟩, closesBack⟩ := closesElsewhere
  exact ⟨absent_of_counts opensFront closesFront, absent_of_counts opensContent closesContent,
    absent_of_counts opensBack closesBack⟩

/-- The lines that the step of one module leaves, and what the check then shows of them. -/
theorem step_facts {file : Option Text} (managed : BlocksManaged searched modules file)
    (applied : List BlockModule) {rest : List BlockModule}
    (perm : (applied ++ m :: rest).Perm modules) :
    ∃ before after, applyBlocks applied file = .ok before ∧ applyBlock m before = .ok after ∧
      Manages modules m before after ∧
      ∀ own ∈ applied ++ [m], (fileLines '\n' after).countP (own.Opens ·) = 1 ∧
        (fileLines '\n' after).countP (own.Closes ·) = 1 ∧ own.Searchable searched := by
  obtain ⟨before, after, run, isApplied, manages, settled⟩ := managed _ perm applied m rest rfl
  exact ⟨before, after, run, isApplied, manages, fun own mem => of_checkBlock (settled own mem).1⟩

/-- The step of the module that is applied first. -/
theorem first_step {file : Option Text} (managed : BlocksManaged searched modules file)
    (mem : m ∈ modules) : ∃ after front old back, applyBlock m file = .ok after ∧
      linesOf file = front ++ old ++ back ∧ fileLines '\n' after = front ++ m.lines ++ back ∧
      (old = [] ∧ back = [] ∨ m.Stands front old back) ∧
      (∀ other ∈ modules, other ≠ m → other.Absent old) ∧ m.Absent front ∧
      m.Absent m.contentLines ∧ m.Absent back ∧ m.Searchable searched := by
  obtain ⟨before, after, run, isApplied, ⟨front, old, back, lines, newLines, place, foreign⟩,
    facts⟩ := step_facts managed [] (List.perm_cons_erase mem).symm
  cases run
  obtain ⟨opens, closes, searchable⟩ := facts m (by simp)
  rw [newLines] at opens closes
  obtain ⟨absentFront, absentContent, absentBack⟩ := absent_around opens closes
  exact ⟨after, front, old, back, isApplied, lines, newLines, place, foreign, absentFront,
    absentContent, absentBack, searchable⟩

/-- A block that is written second must leave the first one the only one of its module. -/
theorem absent_lines_of_managed {file : Option Text}
    (managed : BlocksManaged searched modules file) {other : BlockModule} (mem : m ∈ modules)
    (memOther : other ∈ modules) (different : other ≠ m) : m.Absent other.lines := by
  have perm : (m :: other :: (modules.erase m).erase other).Perm modules :=
    ((List.perm_cons_erase ((List.mem_erase_of_ne different).2 memOther)).symm.cons m).trans
      (List.perm_cons_erase mem).symm
  obtain ⟨_, first, run, isFirst, _, factsFirst⟩ := step_facts managed [] perm
  cases run
  obtain ⟨before, second, run, _, ⟨front, old, back, lines, newLines, _, foreign⟩, factsSecond⟩ :=
    step_facts managed [m] perm
  have isBefore : before = some first := by
    simp only [applyBlocks, isFirst, Except.ok.injEq] at run
    exact run.symm
  subst isBefore
  obtain ⟨noOpening, noClosing⟩ := Absent.counts (foreign m mem different.symm)
  obtain ⟨opensFirst, closesFirst, _⟩ := factsFirst m (by simp)
  obtain ⟨opensSecond, closesSecond, _⟩ := factsSecond m (by simp)
  have sameFirst : fileLines '\n' first = front ++ old ++ back := lines
  rw [sameFirst, List.countP_append, List.countP_append] at opensFirst closesFirst
  rw [newLines, List.countP_append, List.countP_append] at opensSecond closesSecond
  exact absent_of_counts (by omega) (by omega)

theorem compatible_of_blocksManaged {file : Option Text}
    (managed : BlocksManaged searched modules file) : BlocksCompatible searched modules file where
  apart :=
    { ownContent := by
        intro m mem
        obtain ⟨_, _, _, _, _, _, _, _, _, _, absent, _⟩ := first_step managed mem
        exact absent
      others := fun m mem other memOther different =>
        absent_lines_of_managed managed mem memOther different }
  ready := by
    intro m mem
    obtain ⟨_, front, old, back, _, lines, _, place, foreign, absentFront, _⟩ :=
      first_step managed mem
    rcases place with ⟨rfl, rfl⟩ | stands
    · refine .inl ?_
      rw [lines, List.append_nil, List.append_nil]
      exact absentFront
    · exact .inr ⟨front, old, back, lines, stands, foreign⟩
  notEmpty := by
    rintro nonempty rfl
    obtain ⟨m, rest, rfl⟩ := List.exists_cons_of_ne_nil nonempty
    obtain ⟨after, front, old, back, isApplied, lines, newLines, _⟩ :=
      first_step managed List.mem_cons_self
    -- the newline that is set between the file and the block is a line of its own
    have notFound : parseManagedBlock [] m.options.markers = .absent :=
      parse_absent fun line mem => absurd mem List.not_mem_nil
    have written : after = '\n' :: fileText '\n' m.lines := by
      rw [applyBlock, applyBlockToExistingFile, notFound] at isApplied
      rw [← fileText_lines]
      simpa using (Except.ok.inj isApplied).symm
    have nothing : front ++ old ++ back = [] := lines.symm
    rw [List.append_eq_nil_iff, List.append_eq_nil_iff] at nothing
    rw [written, fileLines, if_pos rfl, fileLines_fileText m.newline_notMem_lines,
      nothing.1.1, nothing.2] at newLines
    have lengths := congrArg List.length newLines
    simp at lengths
  searchable := by
    intro m mem
    obtain ⟨_, _, _, _, _, _, _, _, _, _, _, _, searchable⟩ := first_step managed mem
    exact searchable

/-- Applied in any order, modules of blocks manage their blocks in a file exactly where no line
of a block but its markers looks like a marker, the file is not empty and holds at most one
block of each, apart from the others, and `grep` reads a marker of each. -/
theorem blocks_managed_iff (grep : GrepArguments searched) (modules : List BlockModule)
    (file : Option Text) :
    BlocksManaged searched modules file ↔ BlocksCompatible searched modules file :=
  ⟨compatible_of_blocksManaged, blocksManaged_of_compatible grep⟩

theorem grepArguments_some : GrepArguments some where
  plain := fun _ _ => rfl
  option := by
    intro argument pattern reads
    obtain rfl := Option.some.inj reads
    exact List.suffix_refl _

theorem two_blocks_managed :
    let web : BlockModule := ⟨text "/etc/motd", ⟨text "on\n", text "web", none⟩, rfl, rfl⟩
    let db : BlockModule := ⟨text "/etc/motd", ⟨text "off", text "db", some (text "//")⟩, rfl, rfl⟩
    BlocksManaged some [web, db] (some (text "welcome")) := by
  intro web db
  refine (blocks_managed_iff grepArguments_some [web, db] (some (text "welcome"))).2
    ⟨⟨?_, ?_⟩, ?_, fun _ => by decide, ?_⟩
  · decide +kernel
  · decide +kernel
  · intro m mem
    refine .inl ?_
    revert m
    decide +kernel
  · intro m _
    exact .inl (Option.some_ne_none _)

/-- A block whose name continues the name of another one makes the other one's markers
ambiguous. -/
theorem contained_name_unmanaged :
    let app : BlockModule := ⟨text "/etc/motd", ⟨text "a", text "app", none⟩, rfl, rfl⟩
    let app2 : BlockModule := ⟨text "/etc/motd", ⟨text "b", text "app2", none⟩, rfl, rfl⟩
    GrepArguments some ∧ ([app, app2].map (·.options.name)).Nodup ∧
      (∀ m ∈ [app, app2], ∀ other ∈ [app, app2],
        m.options.beginMarker ∉ other.contentLines ∧
          m.options.endMarker ∉ other.contentLines) ∧
      ¬BlocksManaged some [app, app2] none := by
  intro app app2
  refine ⟨grepArguments_some, by decide, by decide +kernel, ?_⟩
  intro managed
  obtain ⟨before, after, run, isApplied, _, settled⟩ :=
    managed [app, app2] (List.Perm.refl _) [app] app2 [] rfl
  have checked : ((applyBlocks [app] none).toOption.bind fun file =>
      (applyBlock app2 file).toOption.map fun text => checkBlock some app (some text)) =
        some .needsApply := by
    decide +kernel
  rw [run] at checked
  simp only [Except.toOption, Option.bind_some, isApplied, Option.map_some,
    (settled app (by simp)).1] at checked
  cases checked

end Paratix.Files
