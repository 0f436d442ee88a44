/-
Module: Paratix.Files.LineConverges
Purpose: The line that `file.line` keeps in a file, and when one apply of it brings the file to a
  state that the check accepts and that a further apply leaves.
Main exports: splitLines, line_converges_iff
-/
import Paratix.Files.Metadata
import Paratix.Sshd.Config
import Paratix.Foundation.Lines

namespace Paratix.Files

open Foundation Archive Orchestration

/-! ### Lines of a file -/

/-- `content.split(/\r?\n/v)` -/
def splitLines (content : Text) : List Text := Sshd.splitLines content

/-- `/\r?\n$/v.test(content)` -/
def hasTrailingNewline (content : Text) : Bool := content.getLast? = some '\n'

def findFirstMatchingLineIndex (lines : List Text) (pattern : Text → Bool) : Option Nat :=
  lines.findIdx? pattern

def splitLinesPreservingTrailingNewline (content : Text) : List Text :=
  let lines := splitLines content
  if hasTrailingNewline content ∧ lines.getLast? = some [] then lines.dropLast else lines

def joinLinesPreservingTrailingNewline (hasTrailingNewline : Bool) (lines : List Text) : Text :=
  let joined := ['\n'].intercalate lines
  if hasTrailingNewline then joined ++ ['\n'] else joined

/-! ### The module -/

/-- A module that `line` returns: the line is one line. -/
structure LineModule where
  remotePath : Text
  line : Text
  pattern : Option Text
  oneLine : '\r' ∉ line ∧ '\n' ∉ line
deriving DecidableEq

def line (remotePath line : Text) (pattern : Option Text) : Except Text LineModule :=
  if oneLine : '\r' ∉ line ∧ '\n' ∉ line then .ok ⟨remotePath, line, pattern, oneLine⟩
  else
    .error
      (text "file.line: line must not contain CR/LF; use file.block() for multi-line content")

def notRegular (remotePath : Text) : Text :=
  text "[file.line: " ++ remotePath ++ text "] path must be a regular file and not a symlink"

/-- The file is missing or a regular file. -/
def applyLineAppend (line : Text) : Option Text → ApplyOutcome
  | none => .changed (line ++ ['\n'])
  | some existingContent =>
      if line ∈ splitLines existingContent then .ok
      else
        let separator :=
          if hasTrailingNewline existingContent ∨ existingContent.length = 0 then [] else ['\n']
        .changed (existingContent ++ separator ++ line ++ ['\n'])

section Pattern

/- A compiled expression is the test that it makes of a line. -/
variable (newRegExp : Text → Text → Except Text (Text → Bool))

def compileLinePattern (remotePath pattern : Text) : Except Text (Text → Bool) :=
  compileUserRegex newRegExp (text "[file.line: " ++ remotePath ++ text "]") pattern (text "mu")

def lineMatchesPattern (remotePath line pattern : Text) (lines : List Text) : CheckResult :=
  match compileLinePattern newRegExp remotePath pattern with
  | .error _ => .needsApply
  | .ok compiledPattern =>
      let matchedLine :=
        (findFirstMatchingLineIndex lines compiledPattern).bind fun index => lines[index]?
      if matchedLine = some line then .ok else .needsApply

def applyLineReplace (remotePath line pattern : Text) : Option Text → ApplyOutcome
  | none => .failed (notRegular remotePath)
  | some content =>
      match compileLinePattern newRegExp remotePath pattern with
      | .error message => .failed message
      | .ok compiledPattern =>
          let lines := splitLinesPreservingTrailingNewline content
          match findFirstMatchingLineIndex lines compiledPattern with
          | none =>
              .failed (text "[file.line: " ++ remotePath ++ text "] No line matching " ++ pattern ++
                text " found for replacement")
          | some matchingLineIndex =>
              if lines[matchingLineIndex]? = some line then .ok
              else
                .changed (joinLinesPreservingTrailingNewline (hasTrailingNewline content)
                  (lines.set matchingLineIndex line))

/-- `apply` -/
def applyLine (module : LineModule) (file : Option Text) : ApplyOutcome :=
  match module.pattern with
  | none => applyLineAppend module.line file
  | some pattern => applyLineReplace newRegExp module.remotePath module.line pattern file

/-- `check` -/
def checkLine (module : LineModule) : Option Text → CheckResult
  | none => .needsApply
  | some content =>
      let lines := splitLines content
      match module.pattern with
      | some pattern => lineMatchesPattern newRegExp module.remotePath module.line pattern lines
      | none => if module.line ∈ lines then .ok else .needsApply

end Pattern

/-! ### Carriage returns before a newline -/

/-- A carriage return at the end goes. -/
def stripReturn (segment : Text) : Text :=
  if segment.getLast? = some '\r' then segment.dropLast else segment

/-- It goes wherever a newline follows. -/
def stripReturns : List Text → List Text
  | [] => []
  | [last] => [last]
  | segment :: next :: segments => stripReturn segment :: stripReturns (next :: segments)

/-- The line of this number ends with CR LF. -/
def EndsCrLf (content : Text) (index : Nat) : Prop :=
  ∃ segment, (content.splitOn '\n')[index]? = some segment ∧ segment.getLast? = some '\r' ∧
    index + 1 < (content.splitOn '\n').length

theorem stripReturn_of_notMem {segment : Text} (absent : '\r' ∉ segment) :
    stripReturn segment = segment :=
  if_neg fun last => absent (List.mem_of_getLast? last)

theorem stripReturn_eq_self_iff {segment : Text} :
    stripReturn segment = segment ↔ segment.getLast? ≠ some '\r' := by
  rw [stripReturn]
  split
  · next last =>
    obtain ⟨front, rfl⟩ := List.getLast?_eq_some_iff.1 last
    simp
  · next other => simp [other]

theorem stripReturns_cons {segment : Text} {segments : List Text} (nonempty : segments ≠ []) :
    stripReturns (segment :: segments) = stripReturn segment :: stripReturns segments := by
  obtain ⟨next, rest, rfl⟩ := List.exists_cons_of_ne_nil nonempty
  rfl

theorem length_stripReturns (segments : List Text) :
    (stripReturns segments).length = segments.length := by
  fun_induction stripReturns segments with
  | case1 => rfl
  | case2 => rfl
  | case3 segment next segments ih =>
    rw [List.length_cons, ih]
    rfl

theorem getElem?_stripReturns (segments : List Text) (index : Nat) :
    (stripReturns segments)[index]? =
      if index + 1 < segments.length then segments[index]?.map stripReturn
      else segments[index]? := by
  fun_induction stripReturns segments generalizing index with
  | case1 => rfl
  | case2 last =>
    rw [if_neg (by simp)]
  | case3 segment next segments ih =>
    cases index with
    | zero => simp
    | succ index =>
      rw [List.getElem?_cons_succ, ih, List.getElem?_cons_succ]
      simp only [List.length_cons, Nat.add_lt_add_iff_right]

theorem stripReturn_cons {char : Char} {segment : Text} (kept : segment ≠ [] ∨ char ≠ '\r') :
    stripReturn (char :: segment) = char :: stripReturn segment := by
  cases segment with
  | nil =>
    have other : char ≠ '\r' := kept.resolve_left fun nonempty => nonempty rfl
    exact if_neg (by simpa using other)
  | cons next segment =>
    rw [stripReturn, stripReturn, List.getLast?_cons_cons]
    split
    · rfl
    · rfl

/-- A first segment that is empty, with another one behind it, ends at a newline. -/
theorem exists_of_splitOn_nil {content : Text} {segments : List Text} (nonempty : segments ≠ [])
    (split : content.splitOn '\n' = [] :: segments) : ∃ rest, content = '\n' :: rest := by
  cases content with
  | nil =>
    cases split
    exact absurd rfl nonempty
  | cons char rest =>
    rw [List.splitOn_cons_eq_if_modifyHead] at split
    split at split
    · next newline => exact ⟨rest, by rw [beq_iff_eq.1 newline]⟩
    · obtain ⟨first, others, isSplit⟩ := List.exists_cons_of_ne_nil (List.splitOn_ne_nil '\n' rest)
      rw [isSplit, List.modifyHead_cons] at split
      cases (List.cons.inj split).1

/-- `content.split(/\r?\n/v)` splits at each newline and then takes the carriage returns. -/
theorem splitLines_eq (content : Text) :
    splitLines content = stripReturns (content.splitOn '\n') := by
  rw [splitLines]
  fun_induction Sshd.splitLines content with
  | case1 => rfl
  | case2 rest ih =>
    have split : (['\r'] ++ '\n' :: rest).splitOn '\n' = ['\r'] :: rest.splitOn '\n' :=
      List.splitOn_append_cons_self_of_not_mem (by decide) rest
    rw [List.singleton_append] at split
    rw [split, stripReturns_cons (List.splitOn_ne_nil _ _), ih]
    rfl
  | case3 rest ih =>
    have split : ([] ++ '\n' :: rest).splitOn '\n' = [] :: rest.splitOn '\n' :=
      List.splitOn_append_cons_self_of_not_mem List.not_mem_nil rest
    rw [List.nil_append] at split
    rw [split, stripReturns_cons (List.splitOn_ne_nil _ _), ih]
    rfl
  | case4 char rest notPair notNewline noLines ih =>
    have isEmpty := congrArg List.length (noLines ▸ ih)
    rw [length_stripReturns, List.length_nil, eq_comm, List.length_eq_zero_iff] at isEmpty
    exact absurd isEmpty (List.splitOn_ne_nil _ _)
  | case5 char rest notPair notNewline line lines isLines ih =>
    obtain ⟨first, others, split⟩ := List.exists_cons_of_ne_nil (List.splitOn_ne_nil '\n' rest)
    rw [isLines, split] at ih
    rw [List.splitOn_cons_eq_if_modifyHead, if_neg (by simpa using notNewline), split,
      List.modifyHead_cons]
    by_cases single : others = []
    · subst single
      cases ih
      rfl
    · rw [stripReturns_cons single] at ih ⊢
      cases ih
      rw [stripReturn_cons]
      by_contra notKept
      rw [not_or, not_ne_iff, not_ne_iff] at notKept
      obtain ⟨more, rfl⟩ := exists_of_splitOn_nil single (notKept.1 ▸ split)
      exact notPair more notKept.2 rfl

/-! ### What convergence asks for -/

/-- Nothing changes, or the line is written behind the whole content on a line of its own, or
one line is exchanged and all others keep their bytes. -/
def EditsOneLine (line before after : Text) : Prop :=
  after = before ∨
    (∃ separator, after = before ++ separator ++ line ++ ['\n'] ∧
      separator = if Terminated '\n' before then [] else ['\n']) ∨
    ∃ index new, index < (before.splitOn '\n').length ∧
      after.splitOn '\n' = (before.splitOn '\n').set index new ∧
      (new = line ∨ new = line ++ ['\r'])

section Converges

variable (newRegExp : Text → Text → Except Text (Text → Bool)) (module : LineModule)

/-- Whenever an apply succeeds, the check accepts its file, a second apply writes nothing and
one line was edited. -/
def LineConverges (file : Option Text) : Prop :=
  ∀ after, (applyLine newRegExp module file).file file = some after →
    checkLine newRegExp module after = .ok ∧ applyLine newRegExp module after = .ok ∧
      EditsOneLine module.line (file.getD []) (after.getD [])

/-- Where a pattern selects a line that must be replaced, it matches the new line too, no other
line ends with CR LF, and no empty line takes the place of a last line without newline that
stands behind others. -/
def LineSettles (file : Option Text) : Prop :=
  ∀ pattern compiledPattern content index, module.pattern = some pattern →
    compileLinePattern newRegExp module.remotePath pattern = .ok compiledPattern →
    file = some content →
    findFirstMatchingLineIndex (splitLinesPreservingTrailingNewline content) compiledPattern =
      some index →
    (splitLinesPreservingTrailingNewline content)[index]? ≠ some module.line →
    compiledPattern module.line = true ∧ (∀ other, other ≠ index → ¬EndsCrLf content other) ∧
      ¬(module.line = [] ∧ 0 < index ∧ index + 1 = (splitLines content).length)

end Converges

/-! ### Appending -/

theorem hasTrailingNewline_iff (content : Text) :
    hasTrailingNewline content = true ∨ content.length = 0 ↔ Terminated '\n' content := by
  rw [hasTrailingNewline, decide_eq_true_iff, List.length_eq_zero_iff, or_comm]
  rfl

/-- An appended line is one of the lines that are split off. -/
theorem splitOn_appended (content : Text) {line : Text} (oneLine : '\n' ∉ line) :
    ∃ front, (content ++ (if Terminated '\n' content then [] else ['\n']) ++ line ++
      ['\n']).splitOn '\n' = front ++ [line, []] ∧
      (content.splitOn '\n').length ≤ front.length + 1 := by
  obtain ⟨lines, last, whole, lastLine, rfl⟩ := exists_fileText '\n' content
  rw [splitOn_fileText_append whole, List.splitOn_eq_singleton lastLine]
  by_cases ended : last = []
  · subst ended
    have written : fileText '\n' lines ++ [] ++ [] ++ line ++ ['\n'] =
        fileText '\n' (lines ++ [line]) ++ [] := by
      rw [fileText_append, fileText_cons]
      simp [fileText]
    rw [if_pos ((terminated_iff lastLine).2 rfl), written, splitOn_fileText_append]
    · exact ⟨lines, by simp, by simp⟩
    · rw [List.forall_mem_append, List.forall_mem_singleton]
      exact ⟨whole, oneLine⟩
  · have written : fileText '\n' lines ++ last ++ ['\n'] ++ line ++ ['\n'] =
        fileText '\n' (lines ++ [last, line]) ++ [] := by
      rw [fileText_append, fileText_cons, fileText_cons]
      simp [fileText]
    rw [if_neg fun terminated => ended ((terminated_iff lastLine).1 terminated), written,
      splitOn_fileText_append]
    · exact ⟨lines ++ [last], by simp, by simp⟩
    · rw [List.forall_mem_append, List.forall_mem_cons, List.forall_mem_singleton]
      exact ⟨whole, lastLine, oneLine⟩

theorem mem_stripReturns {front back : List Text} {line : Text} (absent : '\r' ∉ line)
    (nonempty : back ≠ []) : line ∈ stripReturns (front ++ line :: back) := by
  have there := getElem?_stripReturns (front ++ line :: back) front.length
  have followed : front.length + 1 < (front ++ line :: back).length := by
    have := List.length_pos_iff.2 nonempty
    rw [List.length_append, List.length_cons]
    omega
  rw [if_pos followed, List.getElem?_append_right (Nat.le_refl _), Nat.sub_self,
    List.getElem?_cons_zero, Option.map_some, stripReturn_of_notMem absent] at there
  exact List.mem_of_getElem? there

variable {newRegExp : Text → Text → Except Text (Text → Bool)} {module : LineModule}

theorem append_converges (appends : module.pattern = none) (file : Option Text) :
    LineConverges newRegExp module file := by
  have settled : ∀ content, module.line ∈ splitLines content →
      checkLine newRegExp module (some content) = .ok ∧
        applyLine newRegExp module (some content) = .ok := by
    intro content mem
    rw [checkLine, applyLine, applyLineAppend, appends]
    exact ⟨if_pos mem, if_pos mem⟩
  have written : ∀ content, module.line ∈ splitLines (content ++
      (if Terminated '\n' content then [] else ['\n']) ++ module.line ++ ['\n']) := by
    intro content
    obtain ⟨front, split, _⟩ := splitOn_appended content module.oneLine.2
    rw [splitLines_eq, split]
    exact mem_stripReturns module.oneLine.1 (List.cons_ne_nil _ _)
  intro after applied
  cases file with
  | none =>
    rw [applyLine, appends] at applied
    cases applied
    have mem := written []
    rw [if_pos (.inl rfl)] at mem
    obtain ⟨checked, again⟩ := settled _ mem
    exact ⟨checked, again, .inr (.inl ⟨[], rfl, (if_pos (.inl rfl)).symm⟩)⟩
  | some content =>
    simp only [applyLine, appends, applyLineAppend] at applied
    split at applied
    · next mem =>
      cases applied
      obtain ⟨checked, again⟩ := settled content mem
      exact ⟨checked, again, .inl rfl⟩
    · cases applied
      simp only [hasTrailingNewline_iff]
      obtain ⟨checked, again⟩ := settled _ (written content)
      exact ⟨checked, again, .inr (.inl ⟨_, rfl, rfl⟩)⟩

/-! ### Replacing -/

theorem oneLine_splitLines (content : Text) : ∀ line ∈ splitLines content, '\n' ∉ line := by
  rw [splitLines_eq]
  intro line mem
  obtain ⟨index, _, there⟩ := List.mem_iff_getElem.1 mem
  have read := List.getElem?_eq_some_iff.2 ⟨_, there⟩
  rw [getElem?_stripReturns] at read
  have whole : ∀ segment ∈ content.splitOn '\n', '\n' ∉ segment :=
    fun segment mem => separator_notMem_of_mem_splitOn mem
  split at read
  · obtain ⟨segment, isSegment, rfl⟩ := Option.map_eq_some_iff.1 read
    have absent := whole segment (List.mem_of_getElem? isSegment)
    rw [stripReturn]
    split
    · exact fun inFront => absent (List.dropLast_subset segment inFront)
    · exact absent
  · exact whole line (List.mem_of_getElem? read)

/-- The lines that apply works on, what the split shows behind them, and how other lines in
their place are written. -/
theorem exists_preserved (content : Text) :
    ∃ back, splitLines content = splitLinesPreservingTrailingNewline content ++ back ∧
      ∀ lines, lines ≠ [] → (∀ line ∈ lines, '\n' ∉ line) →
        (joinLinesPreservingTrailingNewline (hasTrailingNewline content) lines).splitOn '\n' =
          lines ++ back := by
  by_cases trailing : hasTrailingNewline content = true
  · obtain ⟨front, rfl⟩ := List.getLast?_eq_some_iff.1 (of_decide_eq_true trailing)
    obtain ⟨segments, last, whole, lastLine, same⟩ := exists_fileText '\n' front
    have content : front ++ ['\n'] = fileText '\n' (segments ++ [last]) ++ [] := by
      rw [same, fileText_append, fileText_cons]
      simp [fileText]
    have split : splitLines (front ++ ['\n']) = stripReturns (segments ++ [last] ++ [[]]) := by
      rw [splitLines_eq, content, splitOn_fileText_append]
      · rfl
      · rw [List.forall_mem_append, List.forall_mem_singleton]
        exact ⟨whole, lastLine⟩
    have endsEmpty : (splitLines (front ++ ['\n'])).getLast? = some [] := by
      rw [split, List.getLast?_eq_getElem?, length_stripReturns, getElem?_stripReturns]
      simp
    refine ⟨[[]], ?_, ?_⟩
    · rw [splitLinesPreservingTrailingNewline, if_pos ⟨trailing, endsEmpty⟩]
      obtain ⟨lines, isLines⟩ := List.getLast?_eq_some_iff.1 endsEmpty
      rw [isLines, List.dropLast_concat]
    · intro lines nonempty oneLine
      rw [joinLinesPreservingTrailingNewline, if_pos trailing, intercalate_newline nonempty,
        ← List.append_nil (fileText '\n' lines), splitOn_fileText_append oneLine]
      rfl
  · refine ⟨[], ?_, ?_⟩
    · rw [splitLinesPreservingTrailingNewline, if_neg fun both => trailing both.1, List.append_nil]
    · intro lines nonempty oneLine
      rw [joinLinesPreservingTrailingNewline, if_neg trailing,
        List.splitOn_intercalate '\n' oneLine nonempty, List.append_nil]

theorem hasTrailingNewline_of_splitOn {content : Text} {lines : List Text}
    (split : content.splitOn '\n' = lines) (endsEmpty : lines.getLast? = some [])
    (long : 1 < lines.length) : hasTrailingNewline content = true := by
  obtain ⟨segments, last, whole, lastLine, rfl⟩ := exists_fileText '\n' content
  rw [splitOn_fileText_append whole, List.splitOn_eq_singleton lastLine] at split
  subst split
  rw [List.getLast?_concat, Option.some.injEq] at endsEmpty
  subst endsEmpty
  rcases List.eq_nil_or_concat segments with rfl | ⟨front, segment, rfl⟩
  · simp at long
  · refine decide_eq_true ?_
    rw [List.concat_eq_append, fileText_append, fileText_cons, List.append_nil, ← List.append_assoc]
    exact List.getLast?_concat ..

/-- What an apply with a pattern does, in the lines that the check sees. -/
theorem applyLine_matched {pattern : Text} {compiledPattern : Text → Bool}
    (replaces : module.pattern = some pattern)
    (compiles : compileLinePattern newRegExp module.remotePath pattern = .ok compiledPattern)
    {content : Text} {index : Nat}
    (found : findFirstMatchingLineIndex (splitLinesPreservingTrailingNewline content)
      compiledPattern = some index) :
    (splitLines content).findIdx? compiledPattern = some index ∧
      (splitLinesPreservingTrailingNewline content)[index]? = (splitLines content)[index]? ∧
      index < (splitLines content).length ∧
      if (splitLines content)[index]? = some module.line then
        applyLine newRegExp module (some content) = .ok
      else ∃ newContent, applyLine newRegExp module (some content) = .changed newContent ∧
          newContent.splitOn '\n' = (splitLines content).set index module.line := by
  obtain ⟨back, split, joined⟩ := exists_preserved content
  have inLines : index < (splitLinesPreservingTrailingNewline content).length :=
    (List.findIdx?_eq_some_iff_getElem.1 found).1
  have same : (splitLinesPreservingTrailingNewline content)[index]? =
      (splitLines content)[index]? := by
    rw [split, List.getElem?_append_left inLines]
  refine ⟨?_, same, ?_, ?_⟩
  · rw [findFirstMatchingLineIndex] at found
    rw [split, List.findIdx?_append, found]
    rfl
  · rw [split, List.length_append]
    omega
  · rw [applyLine, replaces]
    dsimp only
    rw [applyLineReplace, compiles]
    dsimp only
    rw [found]
    dsimp only
    rw [same]
    split
    · rfl
    · refine ⟨_, rfl, ?_⟩
      rw [joined, split, List.set_append_left _ _ inLines]
      · intro isEmpty
        have lengths := congrArg List.length isEmpty
        rw [List.length_set, List.length_nil] at lengths
        omega
      · intro line mem
        rcases List.mem_or_eq_of_mem_set mem with inOld | rfl
        · exact oneLine_splitLines content line (by
            rw [split]
            exact List.mem_append_left _ inOld)
        · exact module.oneLine.2

/-- The check reads the first line that the pattern matches. -/
theorem checkLine_matched {pattern : Text} {compiledPattern : Text → Bool}
    (replaces : module.pattern = some pattern)
    (compiles : compileLinePattern newRegExp module.remotePath pattern = .ok compiledPattern)
    (content : Text) : checkLine newRegExp module (some content) = .ok ↔
      ∃ index, (splitLines content).findIdx? compiledPattern = some index ∧
        (splitLines content)[index]? = some module.line := by
  rw [checkLine, replaces]
  dsimp only
  rw [lineMatchesPattern, compiles]
  dsimp only
  rw [← Option.bind_eq_some_iff, findFirstMatchingLineIndex]
  split
  · next matched => exact iff_of_true rfl matched
  · next unmatched => exact iff_of_false nofun unmatched

/-- Where no other line ends with CR LF, the split sees the other lines as they are written. -/
theorem set_stripReturns {segments : List Text} {index : Nat} {line : Text} (absent : '\r' ∉ line)
    (kept : ∀ other, other ≠ index → ∀ segment, segments[other]? = some segment →
      other + 1 < segments.length → segment.getLast? ≠ some '\r') :
    (stripReturns segments).set index line = segments.set index line ∧
      stripReturns (segments.set index line) = segments.set index line := by
  constructor
  · refine List.ext_getElem? fun other => ?_
    by_cases here : index = other
    · subst here
      rw [List.getElem?_set_self', List.getElem?_set_self', getElem?_stripReturns]
      split
      · cases segments[index]? with
        | none => rfl
        | some segment => rfl
      · rfl
    · rw [List.getElem?_set_ne here, List.getElem?_set_ne here, getElem?_stripReturns]
      split
      · next followed =>
        cases there : segments[other]? with
        | none => rfl
        | some segment =>
          rw [Option.map_some, stripReturn_eq_self_iff.2]
          exact kept other (Ne.symm here) segment there followed
      · rfl
  · refine List.ext_getElem? fun other => ?_
    rw [getElem?_stripReturns, List.length_set]
    split
    · next followed =>
      by_cases here : index = other
      · subst here
        rw [List.getElem?_set_self (by omega), Option.map_some, stripReturn_of_notMem absent]
      · rw [List.getElem?_set_ne here]
        cases there : segments[other]? with
        | none => rfl
        | some segment =>
          rw [Option.map_some, stripReturn_eq_self_iff.2]
          exact kept other (Ne.symm here) segment there followed
    · rfl

/-- A pattern that matches the new line finds it where it was set. -/
theorem findIdx?_set {lines : List Text} {compiledPattern : Text → Bool} {index : Nat}
    {line : Text} (found : lines.findIdx? compiledPattern = some index)
    (matched : compiledPattern line = true) :
    (lines.set index line).findIdx? compiledPattern = some index := by
  rw [List.findIdx?_eq_some_iff_getElem] at found ⊢
  obtain ⟨inLines, _, before⟩ := found
  refine ⟨by rwa [List.length_set], by rwa [List.getElem_set_self], ?_⟩
  intro other earlier
  rw [List.getElem_set_ne (by omega)]
  exact before other earlier

/-- The lines that a second apply works on are those that the check sees, but for an empty one
behind the last newline. -/
theorem preserved_cases (content : Text) :
    splitLinesPreservingTrailingNewline content = splitLines content ∨
      splitLinesPreservingTrailingNewline content = (splitLines content).dropLast ∧
        (splitLines content).getLast? = some [] ∧ 1 < (splitLines content).length := by
  rw [splitLinesPreservingTrailingNewline]
  split
  · next both =>
    refine .inr ⟨rfl, both.2, ?_⟩
    obtain ⟨front, rfl⟩ := List.getLast?_eq_some_iff.1 (of_decide_eq_true both.1)
    obtain ⟨segments, last, whole, lastLine, rfl⟩ := exists_fileText '\n' front
    rw [splitLines_eq, length_stripReturns, List.append_assoc, splitOn_fileText_append whole,
      List.splitOn_append_cons_self_of_not_mem lastLine]
    simp
  · exact .inl rfl

theorem findIdx?_dropLast {lines : List Text} {compiledPattern : Text → Bool} {index : Nat} :
    lines.dropLast.findIdx? compiledPattern = some index ↔
      lines.findIdx? compiledPattern = some index ∧ index + 1 < lines.length := by
  simp only [List.findIdx?_eq_some_iff_getElem, List.length_dropLast, List.getElem_dropLast]
  constructor
  · rintro ⟨inLines, found⟩
    exact ⟨⟨by omega, found⟩, by omega⟩
  · rintro ⟨⟨_, found⟩, inLines⟩
    exact ⟨by omega, found⟩

/-- Without CR LF elsewhere, what is written is read back, and only one line is exchanged. -/
theorem splitLines_replaced {content newContent line : Text} {index : Nat} (absent : '\r' ∉ line)
    (split : newContent.splitOn '\n' = (splitLines content).set index line)
    (kept : ∀ other, other ≠ index → ¬EndsCrLf content other) :
    splitLines newContent = (splitLines content).set index line ∧
      newContent.splitOn '\n' = (content.splitOn '\n').set index line := by
  obtain ⟨same, unchanged⟩ := set_stripReturns absent fun other different segment there followed =>
    fun last => kept other different ⟨segment, there, last, followed⟩
  rw [splitLines_eq content] at split ⊢
  rw [splitLines_eq newContent, split, same, unchanged]
  exact ⟨rfl, rfl⟩

/-- The line that was set is found again. -/
theorem found_again {content : Text} {compiledPattern : Text → Bool} {index : Nat} {line : Text}
    (finds : (splitLines content).findIdx? compiledPattern = some index)
    (there : (splitLines content)[index]? = some line)
    (notLast : ¬(line = [] ∧ 0 < index ∧ index + 1 = (splitLines content).length)) :
    findFirstMatchingLineIndex (splitLinesPreservingTrailingNewline content) compiledPattern =
      some index := by
  rw [findFirstMatchingLineIndex]
  rcases preserved_cases content with whole | ⟨dropped, endsEmpty, long⟩
  · rw [whole, finds]
  · rw [dropped, findIdx?_dropLast]
    refine ⟨finds, ?_⟩
    have inLines := (List.findIdx?_eq_some_iff_getElem.1 finds).1
    by_contra last
    have isLast : index + 1 = (splitLines content).length := by omega
    have isEmpty : line = [] := by
      rw [List.getLast?_eq_getElem?, ← isLast, Nat.add_sub_cancel, there] at endsEmpty
      exact Option.some.inj endsEmpty
    exact notLast ⟨isEmpty, by omega, isLast⟩

/-- An apply that fails or writes nothing, and one that replaces a line. -/
theorem applyLineReplace_cases {pattern : Text} (replaces : module.pattern = some pattern)
    {file after : Option Text}
    (applied : (applyLine newRegExp module file).file file = some after) :
    ∃ content compiledPattern index, file = some content ∧
      compileLinePattern newRegExp module.remotePath pattern = .ok compiledPattern ∧
      findFirstMatchingLineIndex (splitLinesPreservingTrailingNewline content) compiledPattern =
        some index := by
  cases file with
  | none => simp [applyLine, replaces, applyLineReplace, ApplyOutcome.file] at applied
  | some content =>
    cases compiles : compileLinePattern newRegExp module.remotePath pattern with
    | error message =>
      simp [applyLine, replaces, applyLineReplace, compiles, ApplyOutcome.file] at applied
    | ok compiledPattern =>
      cases found : findFirstMatchingLineIndex (splitLinesPreservingTrailingNewline content)
          compiledPattern with
      | none =>
        simp [applyLine, replaces, applyLineReplace, compiles, found, ApplyOutcome.file] at applied
      | some index => exact ⟨content, compiledPattern, index, rfl, rfl, found⟩

theorem converges_of_settles {file : Option Text}
    (settles : LineSettles newRegExp module file) : LineConverges newRegExp module file := by
  cases replaces : module.pattern with
  | none => exact append_converges replaces file
  | some pattern =>
    intro after applied
    obtain ⟨content, compiledPattern, index, rfl, compiles, found⟩ :=
      applyLineReplace_cases replaces applied
    obtain ⟨finds, same, inLines, outcome⟩ := applyLine_matched replaces compiles found
    by_cases there : (splitLines content)[index]? = some module.line
    · rw [if_pos there] at outcome
      rw [outcome] at applied
      cases applied
      exact ⟨(checkLine_matched replaces compiles content).2 ⟨index, finds, there⟩, outcome,
        .inl rfl⟩
    · rw [if_neg there] at outcome
      obtain ⟨newContent, changed, split⟩ := outcome
      obtain ⟨matched, kept, notLast⟩ := settles pattern compiledPattern content index
        replaces compiles rfl found (by rwa [same])
      rw [changed] at applied
      cases applied
      obtain ⟨seen, edited⟩ := splitLines_replaced module.oneLine.1 split kept
      have findsAgain := findIdx?_set finds matched
      have thereNow : (splitLines newContent)[index]? = some module.line := by
        rw [seen, List.getElem?_set_self inLines]
      rw [← seen] at findsAgain
      have foundAgain := found_again findsAgain thereNow (by rwa [seen, List.length_set])
      obtain ⟨_, _, _, again⟩ := applyLine_matched replaces compiles foundAgain
      rw [if_pos thereNow] at again
      rw [splitLines_eq, length_stripReturns] at inLines
      exact ⟨(checkLine_matched replaces compiles newContent).2 ⟨index, findsAgain, thereNow⟩,
        again, .inr (.inr ⟨index, module.line, inLines, edited, .inl rfl⟩)⟩

/-! ### What convergence needs -/

/-- The edit of a replaced line is the exchange of that line. -/
theorem edited_at {content newContent line : Text} {index : Nat} (oneLine : '\n' ∉ line)
    (absent : '\r' ∉ line) (inLines : index < (splitLines content).length)
    (different : (splitLines content)[index]? ≠ some line)
    (split : newContent.splitOn '\n' = (splitLines content).set index line)
    (edits : EditsOneLine line content newContent) :
    ∀ other, other ≠ index → (splitLines content)[other]? = (content.splitOn '\n')[other]? := by
  -- the segment in whose place the line was set is not the line itself
  have notThere : (content.splitOn '\n')[index]? ≠ some line := by
    intro there
    rw [splitLines_eq, getElem?_stripReturns, there] at different
    split at different
    · rw [Option.map_some, stripReturn_of_notMem absent] at different
      exact different rfl
    · exact different rfl
  rcases edits with same | ⟨separator, appended, isSeparator⟩ | ⟨place, new, inSegments, edited, _⟩
  · subst same
    exact absurd (by rw [split, List.getElem?_set_self inLines]) notThere
  · obtain ⟨front, isSplit, longer⟩ := splitOn_appended content oneLine
    rw [isSeparator] at appended
    rw [appended, isSplit] at split
    have lengths := congrArg List.length split
    rw [List.length_set, splitLines_eq, length_stripReturns, List.length_append] at lengths
    simp only [List.length_cons, List.length_nil] at lengths
    omega
  · have isPlace : place = index := by
      by_contra elsewhere
      rw [edited] at split
      have there := congrArg (·[index]?) split
      rw [List.getElem?_set_ne elsewhere, List.getElem?_set_self inLines] at there
      exact notThere there
    subst isPlace
    intro other elsewhere
    rw [edited] at split
    have there := congrArg (·[other]?) split
    rw [List.getElem?_set_ne elsewhere.symm, List.getElem?_set_ne elsewhere.symm] at there
    exact there.symm

theorem settles_of_converges {file : Option Text}
    (converges : LineConverges newRegExp module file) : LineSettles newRegExp module file := by
  rintro pattern compiledPattern content index replaces compiles rfl found different
  obtain ⟨finds, same, inLines, outcome⟩ := applyLine_matched replaces compiles found
  rw [same] at different
  rw [if_neg different] at outcome
  obtain ⟨newContent, changed, split⟩ := outcome
  obtain ⟨checked, again, edits⟩ := converges (some newContent) (by rw [changed]; rfl)
  have unchanged := edited_at module.oneLine.2 module.oneLine.1 inLines different split edits
  have kept : ∀ other, other ≠ index → ¬EndsCrLf content other := by
    rintro other elsewhere ⟨segment, there, last, followed⟩
    have stripped := unchanged other elsewhere
    rw [splitLines_eq, getElem?_stripReturns, if_pos followed, there, Option.map_some,
      Option.some.injEq, stripReturn_eq_self_iff] at stripped
    exact stripped last
  obtain ⟨place, findsAgain, isLine⟩ := (checkLine_matched replaces compiles newContent).1 checked
  have matched : compiledPattern module.line = true := by
    obtain ⟨inNew, matches_, _⟩ := List.findIdx?_eq_some_iff_getElem.1 findsAgain
    rw [List.getElem?_eq_getElem inNew] at isLine
    rwa [Option.some.inj isLine] at matches_
  refine ⟨matched, kept, ?_⟩
  rintro ⟨isEmpty, behind, isLast⟩
  obtain ⟨seen, _⟩ := splitLines_replaced module.oneLine.1 split kept
  have finds' := findIdx?_set finds matched
  -- the empty line ends the text behind a newline, so a second apply does not see it
  have endsEmpty : (splitLines newContent).getLast? = some [] := by
    rw [List.getLast?_eq_getElem?, seen, List.length_set, ← isLast, Nat.add_sub_cancel,
      List.getElem?_set_self inLines, isEmpty]
  have dropped : splitLinesPreservingTrailingNewline newContent =
      (splitLines newContent).dropLast := by
    refine if_pos ⟨hasTrailingNewline_of_splitOn (split.trans seen.symm) endsEmpty ?_, endsEmpty⟩
    rw [seen, List.length_set]
    omega
  have stays : (applyLine newRegExp module (some newContent)).file (some newContent) =
      some (some newContent) := by
    rw [again]
    rfl
  obtain ⟨_, compiledAgain, place', same', compiles', found'⟩ :=
    applyLineReplace_cases replaces stays
  cases same'
  rw [compiles] at compiles'
  cases compiles'
  rw [findFirstMatchingLineIndex, dropped, findIdx?_dropLast, seen, finds', List.length_set]
    at found'
  obtain ⟨isPlace, inFront⟩ := found'
  cases isPlace
  omega

/-- One apply brings the file to rest with one line edited, exactly where a replaced line is
matched by its own pattern and stands in a file whose other lines do not end with CR LF, and
is not an empty one at the very end. -/
theorem line_converges_iff (newRegExp : Text → Text → Except Text (Text → Bool))
    (module : LineModule) (file : Option Text) :
    LineConverges newRegExp module file ↔ LineSettles newRegExp module file :=
  ⟨settles_of_converges, converges_of_settles⟩

/-- A replaced line that its pattern does not match, and lines that end with CR LF. -/
theorem replaced_line_unsettled :
    let newRegExp : Text → Text → Except Text (Text → Bool) :=
      fun _ _ => .ok fun line => (text "FOO").isPrefixOf line
    let commented : LineModule := ⟨text "/etc/conf", text "# off", some (text "^FOO"), by decide⟩
    let changed : LineModule := ⟨text "/etc/conf", text "FOO=2", some (text "^FOO"), by decide⟩
    ¬LineConverges newRegExp commented (some (text "FOO=1\n")) ∧
      ¬LineConverges newRegExp changed (some (text "A=1\r\nFOO=1\r\n")) := by
  intro newRegExp commented changed
  refine ⟨fun converges => ?_, fun converges => ?_⟩
  · have checked := (converges (some (text "# off\n")) (by decide +kernel)).1
    revert checked
    decide +kernel
  · have settles := settles_of_converges converges (text "^FOO") _ _ 1 rfl rfl rfl
      (by decide +kernel) (by decide +kernel)
    exact settles.2.1 0 (by decide) ⟨text "A=1\r", by decide +kernel, by decide, by decide +kernel⟩

end Paratix.Files
