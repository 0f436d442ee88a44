/-
Module: Paratix.Diff.UnifiedDiffExact
Purpose: How a patch reader takes the hunks out of a rendered diff, and that it finds the rendered
  ones; a rendered diff is a patch from the current to the desired lines, but for diffs without
  context lines whose changes are not in one piece.
Main exports: readHeader, printsPatch_iff
-/
import Paratix.Diff.UnifiedDiff
import Paratix.Foundation.Lines

namespace Paratix.Diff

open Foundation Archive

/-! ### The reader -/

/-- The rest behind a word. -/
def skipWord : Text → Text → Option Text
  | [], rest => some rest
  | char :: word, head :: rest => if char = head then skipWord word rest else none
  | _ :: _, [] => none

/-- The number in front, and the rest. -/
def readNumber (rest : Text) : Nat × Text :=
  (Nat.ofDigitChars 10 (rest.takeWhile Char.isDigit) 0, rest.dropWhile Char.isDigit)

structure PatchHeader where
  oldStart : Nat
  oldCount : Nat
  newStart : Nat
  newCount : Nat

/-- `@@ -oldStart,oldCount +newStart,newCount @@` -/
def readHeader (line : Text) : Option PatchHeader := do
  let oldStart := readNumber (← skipWord (text "@@ -") line)
  let oldCount := readNumber (← skipWord (text ",") oldStart.2)
  let newStart := readNumber (← skipWord (text " +") oldCount.2)
  let newCount := readNumber (← skipWord (text ",") newStart.2)
  let rest ← skipWord (text " @@") newCount.2
  if rest = [] then
    some
      { oldStart := oldStart.1
        oldCount := oldCount.1
        newStart := newStart.1
        newCount := newCount.1 }
  else none

def readLine : Text → Option DiffLine
  | ' ' :: line => some (.context line)
  | '-' :: line => some (.delete line)
  | '+' :: line => some (.insert line)
  | _ => none

/-- The counts of the header say where the body ends. -/
def readBody (oldCount newCount : Nat) : List Text → Option (List DiffLine × List Text)
  | [] => if oldCount = 0 ∧ newCount = 0 then some ([], []) else none
  | line :: rest =>
      if oldCount = 0 ∧ newCount = 0 then some ([], line :: rest)
      else
        (readLine line).bind fun edit =>
          let old := edit.old?.toList.length
          let new := edit.new?.toList.length
          if old ≤ oldCount ∧ new ≤ newCount then
            (readBody (oldCount - old) (newCount - new) rest).map fun read =>
              (edit :: read.1, read.2)
          else none

/-- At most `fuel` hunks. -/
def readHunks : Nat → List Text → Option (List (PatchHunk Text))
  | _, [] => some []
  | 0, _ :: _ => none
  | fuel + 1, line :: rest =>
      (readHeader line).bind fun header =>
        (readBody header.oldCount header.newCount rest).bind fun read =>
          (readHunks fuel read.2).map fun hunks =>
            { oldStart := header.oldStart
              oldCount := header.oldCount
              newStart := header.newStart
              newCount := header.newCount
              body := read.1 } :: hunks

/-- The two lines above the hunks. -/
def labelLines (options : UnifiedDiffOptions) : Text :=
  text "--- " ++ options.currentLabelText ++ '\n' :: (text "+++ " ++ options.desiredLabelText)

/-- The hunks of a diff with known labels; the empty text has none. -/
def readUnifiedDiff (options : UnifiedDiffOptions) (output : Text) :
    Option (List (PatchHunk Text)) :=
  if output = [] then some []
  else
    (skipWord (labelLines options) output).bind fun rest =>
      let lines := (rest.splitOn '\n').tail
      readHunks lines.length lines

/-! ### Reading what was rendered -/

@[simp] theorem skipWord_append (word rest : Text) : skipWord word (word ++ rest) = some rest := by
  induction word with
  | nil => rfl
  | cons char word ih =>
    rw [List.cons_append, skipWord, if_pos rfl, ih]

theorem readNumber_decimal (value : Nat) {rest : Text} {separator : Char}
    (notDigit : separator.isDigit = false) :
    readNumber (decimal value ++ separator :: rest) = (value, separator :: rest) := by
  have digits : ∀ char ∈ decimal value, char.isDigit := fun _ => isDigit_of_mem_decimal
  have noMore : (separator :: rest).takeWhile Char.isDigit = [] := by
    rw [List.takeWhile_cons_of_neg (by rw [notDigit]; exact Bool.false_ne_true)]
  have allLeft : (separator :: rest).dropWhile Char.isDigit = separator :: rest := by
    rw [List.dropWhile_cons_of_neg (by rw [notDigit]; exact Bool.false_ne_true)]
  rw [readNumber, List.takeWhile_append_of_pos digits, List.dropWhile_append_of_pos digits,
    noMore, allLeft, List.append_nil, decimal,
    Nat.ofDigitChars_toDigits (by decide) (Nat.le_refl _)]

theorem readHeader_renderHeader (oldStart oldCount newStart newCount : Nat) :
    readHeader (renderHeader oldStart oldCount newStart newCount) = some
        { oldStart := oldStart
          oldCount := oldCount
          newStart := newStart
          newCount := newCount } := by
  have spelled : renderHeader oldStart oldCount newStart newCount =
      text "@@ -" ++ (decimal oldStart ++ (text "," ++ (decimal oldCount ++ (text " +" ++
        (decimal newStart ++ (text "," ++ (decimal newCount ++ (text " @@" ++ [])))))))) := by
    simp only [renderHeader, List.append_assoc, List.append_nil]
  have comma (value : Nat) (rest : Text) :
      readNumber (decimal value ++ (text "," ++ rest)) = (value, text "," ++ rest) :=
    readNumber_decimal value rfl
  have blankPlus (value : Nat) (rest : Text) :
      readNumber (decimal value ++ (text " +" ++ rest)) = (value, text " +" ++ rest) :=
    readNumber_decimal value rfl
  have blankAt (value : Nat) (rest : Text) :
      readNumber (decimal value ++ (text " @@" ++ rest)) = (value, text " @@" ++ rest) :=
    readNumber_decimal value rfl
  rw [spelled]
  simp only [readHeader, skipWord_append, comma, blankPlus, blankAt, Option.bind_eq_bind,
    Option.bind_some, if_pos]

theorem readLine_renderLine (edit : DiffLine) : readLine (renderLine edit) = some edit := by
  cases edit with
  | context line => rfl
  | delete line => rfl
  | insert line => rfl

/-- A body is read up to its end. -/
theorem readBody_renderLine (body : List DiffLine) (rest : List Text) :
    readBody (oldLines body).length (newLines body).length (body.map renderLine ++ rest) =
      some (body, rest) := by
  induction body with
  | nil =>
    cases rest with
    | nil => rfl
    | cons line rest => exact if_pos ⟨rfl, rfl⟩
  | cons edit body ih =>
    have oldCount : (oldLines (edit :: body)).length =
        edit.old?.toList.length + (oldLines body).length := by
      rw [← List.singleton_append, oldLines_append, List.length_append, oldLines_singleton]
    have newCount : (newLines (edit :: body)).length =
        edit.new?.toList.length + (newLines body).length := by
      rw [← List.singleton_append, newLines_append, List.length_append, newLines_singleton]
    have someLine : ¬((oldLines (edit :: body)).length = 0 ∧
        (newLines (edit :: body)).length = 0) := by
      cases edit with
      | context line => simp
      | delete line => simp
      | insert line => simp
    rw [List.map_cons, List.cons_append, readBody, if_neg someLine, readLine_renderLine,
      Option.bind_some]
    dsimp only
    rw [oldCount, newCount, if_pos ⟨Nat.le_add_right _ _, Nat.le_add_right _ _⟩,
      Nat.add_sub_cancel_left, Nat.add_sub_cancel_left, ih]
    rfl

theorem foldl_countLine (lines : List DiffLine) (counts : Nat × Nat) :
    lines.foldl countLine counts =
      (counts.1 + (oldLines lines).length, counts.2 + (newLines lines).length) := by
  induction lines generalizing counts with
  | nil => rfl
  | cons line lines ih =>
    rw [List.foldl_cons, ih]
    cases line with
    | context line => simp [countLine, Nat.add_assoc, Nat.add_comm 1]
    | delete line => simp [countLine, Nat.add_assoc, Nat.add_comm 1]
    | insert line => simp [countLine, Nat.add_assoc, Nat.add_comm 1]

theorem countHunkLines_eq (hunk : Hunk) :
    countHunkLines hunk = ((oldLines hunk.lines).length, (newLines hunk.lines).length) := by
  rw [countHunkLines, foldl_countLine, Nat.zero_add, Nat.zero_add]

/-- The rendered hunks are read back, with the counts of their bodies. -/
theorem readHunks_renderHunk (hunks : List Hunk) {fuel : Nat} (enough : hunks.length ≤ fuel) :
    readHunks fuel (hunks.flatMap renderHunk) = some (hunks.map Hunk.toPatch) := by
  induction hunks generalizing fuel with
  | nil =>
    cases fuel with
    | zero => rfl
    | succ fuel => rfl
  | cons hunk hunks ih =>
    cases fuel with
    | zero => exact absurd enough (Nat.not_succ_le_zero _)
    | succ fuel =>
      have rest := ih (Nat.le_of_succ_le_succ enough)
      rw [List.flatMap_cons, renderHunk, List.cons_append, readHunks, readHeader_renderHeader,
        Option.bind_some, countHunkLines_eq, readBody_renderLine, Option.bind_some, rest, Option.map_some,
        List.map_cons]
      rfl

theorem length_le_length_flatMap_renderHunk (hunks : List Hunk) :
    hunks.length ≤ (hunks.flatMap renderHunk).length := by
  induction hunks with
  | nil => exact Nat.le_refl _
  | cons hunk hunks ih =>
    rw [List.flatMap_cons, List.length_append, List.length_cons, renderHunk, List.length_cons]
    omega

/-! ### Whole lines -/

theorem newline_notMem_renderHeader (oldStart oldCount newStart newCount : Nat) :
    '\n' ∉ renderHeader oldStart oldCount newStart newCount := by
  have noDigit (value : Nat) : '\n' ∉ decimal value := fun mem =>
    absurd (isDigit_of_mem_decimal mem) (by decide)
  simp only [renderHeader, List.mem_append, noDigit, or_false]
  decide

theorem newline_notMem_renderLine {edit : DiffLine}
    (whole : ∀ line, edit.old? = some line ∨ edit.new? = some line → '\n' ∉ line) :
    '\n' ∉ renderLine edit := by
  cases edit with
  | context line => simpa [renderLine] using whole line (.inl rfl)
  | delete line => simpa [renderLine] using whole line (.inl rfl)
  | insert line => simpa [renderLine] using whole line (.inr rfl)

/-- A rendered diff is read back, whatever its labels are. -/
theorem readUnifiedDiff_rendered (options : UnifiedDiffOptions) {hunks : List Hunk}
    (whole : ∀ hunk ∈ hunks, ∀ edit ∈ hunk.lines, ∀ line,
      edit.old? = some line ∨ edit.new? = some line → '\n' ∉ line) :
    readUnifiedDiff options ((text "\n").intercalate
      ([text "--- " ++ options.currentLabelText, text "+++ " ++ options.desiredLabelText] ++
        hunks.flatMap renderHunk)) = some (hunks.map Hunk.toPatch) := by
  have joined (lines : List Text) :
      (text "\n").intercalate
        ([text "--- " ++ options.currentLabelText, text "+++ " ++ options.desiredLabelText] ++
          lines) = labelLines options ++ lines.flatMap ('\n' :: ·) := by
    simp [text, labelLines, intercalate_cons]
  have wholeLines : ∀ line ∈ hunks.flatMap renderHunk, '\n' ∉ line := by
    intro line mem
    obtain ⟨hunk, isHunk, isLine⟩ := List.mem_flatMap.1 mem
    rcases List.mem_cons.1 isLine with rfl | inBody
    · exact newline_notMem_renderHeader _ _ _ _
    · obtain ⟨edit, isEdit, rfl⟩ := List.mem_map.1 inBody
      exact newline_notMem_renderLine (whole hunk isHunk edit isEdit)
  have split : ((hunks.flatMap renderHunk).flatMap ('\n' :: ·)).splitOn '\n' =
      [] :: hunks.flatMap renderHunk := by
    simpa using splitOn_flatMap_cons wholeLines List.not_mem_nil
  have nonempty : labelLines options ++ (hunks.flatMap renderHunk).flatMap ('\n' :: ·) ≠ [] := by
    simp [labelLines]
  rw [joined, readUnifiedDiff, if_neg nonempty, skipWord_append, Option.bind_some]
  dsimp only
  rw [split, List.tail_cons]
  exact readHunks_renderHunk hunks (length_le_length_flatMap_renderHunk hunks)

/-! ### The law -/

/-- Hunks that turn the current lines into the desired ones, one behind the other,
counted as their headers say and with no context far from a change. A range is placed by
the number of its first line, also if it is empty. -/
structure IsPatch (contextLines : Nat) (currentLines desiredLines : List Text)
    (hunks : List (PatchHunk Text)) : Prop where
  applies : applyHunks 1 1 hunks currentLines = some desiredLines
  counted : ∀ hunk ∈ hunks, hunk.oldCount = (oldLines hunk.body).length ∧
    hunk.newCount = (newLines hunk.body).length
  ordered : hunks.Pairwise fun first second =>
    first.oldStart + first.oldCount ≤ second.oldStart ∧
      first.newStart + first.newCount ≤ second.newStart
  near : ∀ hunk ∈ hunks, ContextNear contextLines hunk.body

def normalizedLines (content : Text) : List Text := splitLines (normalizeLineEndings content)

def PrintsPatch (current desired : Text) (options : UnifiedDiffOptions) : Prop :=
  ∃ hunks, readUnifiedDiff options (buildUnifiedDiff current desired options) = some hunks ∧
    IsPatch options.clampedContextLines (normalizedLines current) (normalizedLines desired) hunks

/-! ### Reading the diff back -/

/-- A diff is all context, or has a first change. -/
theorem allContext_or_change (diff : List DiffLine) :
    AllContext diff ∨ ∃ gap change rest, diff = gap ++ change :: rest ∧ AllContext gap ∧
      ¬change.isContext := by
  induction diff with
  | nil => exact .inl (by simp [AllContext])
  | cons line diff ih =>
    by_cases isContext : line.isContext
    · rcases ih with allContext | ⟨gap, change, rest, rfl, allContext, isChange⟩
      · exact .inl (List.forall_mem_cons.2 ⟨isContext, allContext⟩)
      · exact .inr ⟨line :: gap, change, rest, rfl, List.forall_mem_cons.2 ⟨isContext, allContext⟩,
          isChange⟩
    · exact .inr ⟨[], line, diff, rfl, by simp [AllContext], isContext⟩

theorem mem_diff_of_mem_buildHunks {diff : List DiffLine} {contextLines : Nat} {hunk : Hunk}
    (isHunk : hunk ∈ buildHunks diff contextLines) {edit : DiffLine}
    (isEdit : edit ∈ hunk.lines) : edit ∈ diff := by
  cases contextLines with
  | zero =>
    rcases allContext_or_change diff with allContext | ⟨gap, change, rest, rfl, allContext,
      isChange⟩
    · rw [buildHunks_zero_context allContext] at isHunk
      cases isHunk
    · rw [buildHunks_zero allContext isChange, List.mem_singleton] at isHunk
      subst isHunk
      refine List.mem_append_right _ ?_
      rcases List.mem_cons.1 isEdit with rfl | later
      · exact List.mem_cons_self
      · exact List.mem_cons_of_mem _ (List.mem_of_mem_filter later)
  | succ contextLines =>
    obtain ⟨script, tail, rfl, -, covers, -⟩ := buildHunks_covers (Nat.succ_pos contextLines) diff
    exact List.mem_append_left _
      (covers.subset (List.mem_map_of_mem isHunk) isEdit)

theorem newline_notMem_normalizedLines {content line : Text}
    (mem : line ∈ normalizedLines content) : '\n' ∉ line := by
  unfold normalizedLines splitLines at mem
  split at mem
  · cases mem
  · exact separator_notMem_of_mem_splitOn mem

/-- The hunks of the diff; none if the texts are the same. -/
def printedHunks (current desired : Text) (options : UnifiedDiffOptions) : List Hunk :=
  if normalizeLineEndings current = normalizeLineEndings desired then []
  else
    buildHunks (computeLineDiff (normalizedLines current) (normalizedLines desired))
      options.clampedContextLines

theorem readUnifiedDiff_buildUnifiedDiff (current desired : Text) (options : UnifiedDiffOptions) :
    readUnifiedDiff options (buildUnifiedDiff current desired options) =
      some ((printedHunks current desired options).map Hunk.toPatch) := by
  unfold buildUnifiedDiff printedHunks
  dsimp only
  split
  · rfl
  · refine readUnifiedDiff_rendered options fun hunk isHunk edit isEdit line isLine => ?_
    have inDiff := mem_diff_of_mem_buildHunks isHunk isEdit
    have sides := computeLineDiff_sides (normalizedLines current) (normalizedLines desired)
    rcases isLine with isOld | isNew
    · have mem : line ∈ oldLines (computeLineDiff (normalizedLines current)
          (normalizedLines desired)) := List.mem_filterMap.2 ⟨edit, inDiff, isOld⟩
      rw [sides.1] at mem
      exact newline_notMem_normalizedLines mem
    · have mem : line ∈ newLines (computeLineDiff (normalizedLines current)
          (normalizedLines desired)) := List.mem_filterMap.2 ⟨edit, inDiff, isNew⟩
      rw [sides.2] at mem
      exact newline_notMem_normalizedLines mem

/-! ### Diffs that are patches -/

theorem isPatch_nil (contextLines : Nat) (lines : List Text) :
    IsPatch contextLines lines lines [] where
  applies := rfl
  counted := by simp
  ordered := .nil
  near := by simp

theorem isPatch_of_covers {contextLines : Nat} {script tail : List DiffLine} {hunks : List Hunk}
    (covers : Covers 1 1 (hunks.map Hunk.toPatch) script) (allContext : AllContext tail)
    (near : ∀ hunk ∈ hunks, ContextNear contextLines hunk.lines) :
    IsPatch contextLines (oldLines (script ++ tail)) (newLines (script ++ tail))
      (hunks.map Hunk.toPatch) where
  applies := covers.apply allContext
  counted := fun _ mem => covers.counted mem
  ordered := covers.ordered
  near := by
    intro patch mem
    obtain ⟨hunk, isHunk, rfl⟩ := List.mem_map.1 mem
    exact near hunk isHunk

/-- With context lines, every line diff is rendered as a patch. -/
theorem isPatch_of_positive {contextLines : Nat} (positive : 0 < contextLines)
    (diff : List DiffLine) : IsPatch contextLines (oldLines diff) (newLines diff)
      ((buildHunks diff contextLines).map Hunk.toPatch) := by
  obtain ⟨script, tail, isDiff, allContext, covers, near⟩ := buildHunks_covers positive diff
  have patch := isPatch_of_covers covers allContext near
  rwa [← isDiff] at patch

theorem changesOf_append (diff more : List DiffLine) :
    changesOf (diff ++ more) = changesOf diff ++ changesOf more :=
  List.filter_append ..

theorem changesOf_noContext {diff : List DiffLine} (noContext : NoContext diff) :
    changesOf diff = diff :=
  List.filter_eq_self.2 fun line mem => by simpa using noContext line mem

theorem changesOf_allContext {diff : List DiffLine} (allContext : AllContext diff) :
    changesOf diff = [] :=
  List.filter_eq_nil_iff.2 fun line mem => by simpa using allContext line mem

theorem isPatch_of_contiguous {diff : List DiffLine} (contiguous : Contiguous diff) :
    IsPatch 0 (oldLines diff) (newLines diff) ((buildHunks diff 0).map Hunk.toPatch) := by
  obtain ⟨before, changes, behind, rfl, allBefore, noContext, allBehind⟩ := contiguous
  cases changes with
  | nil =>
    have allContext : AllContext (before ++ [] ++ behind) := by
      rw [List.append_nil]
      exact List.forall_mem_append.2 ⟨allBefore, allBehind⟩
    rw [buildHunks_zero_context allContext, allContext.sameLines]
    exact isPatch_nil _ _
  | cons change more =>
    obtain ⟨isChange, noMore⟩ := List.forall_mem_cons.1 noContext
    have spelled : before ++ change :: more ++ behind = before ++ change :: (more ++ behind) := by
      simp only [List.append_assoc, List.cons_append]
    have lines : changesOf (more ++ behind) = more := by
      rw [changesOf_append, changesOf_noContext noMore, changesOf_allContext allBehind,
        List.append_nil]
    have last : Covers (1 + before.length + (oldLines (change :: more)).length)
      (1 + before.length + (newLines (change :: more)).length) ([] : List (PatchHunk Text)) [] :=
      .nil
    have covers := Covers.cons allBefore last
    rw [List.append_nil] at covers
    rw [spelled, buildHunks_zero allBefore isChange, lines, ← spelled]
    refine isPatch_of_covers covers allBehind fun hunk mem => ?_
    rw [List.mem_singleton.1 mem]
    exact .of_noContext 0 noContext

/-! ### Diffs that are none -/

/-- The last change, with the context behind it. -/
theorem exists_last_change {diff : List DiffLine} (someChange : ¬AllContext diff) :
    ∃ before change behind, diff = before ++ change :: behind ∧ ¬change.isContext ∧
      AllContext behind := by
  rcases allContext_or_change diff.reverse with allContext | ⟨gap, change, rest, isReverse,
    allContext, isChange⟩
  · exact absurd (fun line mem => allContext line (List.mem_reverse.2 mem)) someChange
  · refine ⟨rest.reverse, change, gap.reverse, ?_, isChange, fun line mem =>
      allContext line (List.mem_reverse.1 mem)⟩
    rw [← List.reverse_reverse diff, isReverse]
    simp

/-- Equal sides traced from the end show no change. -/
theorem allContext_of_sameLines {diff : List DiffLine} (fromTheEnd : FromTheEnd diff)
    (same : oldLines diff = newLines diff) : AllContext diff := by
  by_contra someChange
  obtain ⟨before, change, behind, rfl, isChange, allContext⟩ := exists_last_change someChange
  have spelled : before ++ change :: behind = before ++ [change] ++ behind := by simp
  rw [spelled, oldLines_append, newLines_append, allContext.sameLines] at same
  have sameFront := List.append_cancel_right same
  have notContext : change.isContext = false := by simpa using isChange
  have nonempty : oldLines (before ++ [change]) ≠ [] := by
    cases change with
    | context line => cases notContext
    | delete line => simp
    | insert line =>
      rw [sameFront]
      simp
  have last := List.getLast?_eq_some_getLast nonempty
  exact fromTheEnd before change behind rfl notContext _ last (sameFront ▸ last)

theorem length_oldLines_changesOf (diff : List DiffLine) :
    (oldLines diff).length = (oldLines (changesOf diff)).length +
      (diff.filter Edit.isContext).length := by
  induction diff with
  | nil => rfl
  | cons line diff ih =>
    cases line with
    | context line =>
      rw [List.filter_cons_of_pos rfl]
      simp [changesOf] at ih ⊢
      omega
    | delete line =>
      rw [List.filter_cons_of_neg Bool.false_ne_true]
      simp [changesOf] at ih ⊢
      omega
    | insert line => simpa [changesOf] using ih

/-- The one hunk leaves out the context between the changes: what it does to the lines
of the script ends as the current lines do. -/
theorem contiguous_of_isPatch {diff : List DiffLine} (fromTheEnd : FromTheEnd diff)
    (patch : IsPatch 0 (oldLines diff) (newLines diff) ((buildHunks diff 0).map Hunk.toPatch)) :
    Contiguous diff := by
  rcases allContext_or_change diff with allContext | ⟨gap, first, rest, rfl, allGap, isFirst⟩
  · exact ⟨diff, [], [], by simp, allContext, by simp [NoContext], by simp [AllContext]⟩
  obtain ⟨before, last, behind, isRest, isLast, allBehind⟩ :=
    @exists_last_change (first :: rest) fun allContext =>
      isFirst (allContext first List.mem_cons_self)
  by_contra scattered
  -- the changes with what stands between them
  have isCore : first :: rest = before ++ [last] ++ behind := by
    rw [isRest]
    simp
  have someBetween : ((before ++ [last]).filter Edit.isContext) ≠ [] := by
    intro noneBetween
    refine scattered ⟨gap, before ++ [last], behind, ?_, allGap, ?_, allBehind⟩
    · rw [isCore, List.append_assoc gap]
    · intro line mem isContext
      exact List.not_mem_nil (noneBetween ▸ List.mem_filter.2 ⟨mem, isContext⟩)
  have hunkLines : changesOf (before ++ [last]) = first :: changesOf rest := by
    have same := congrArg changesOf isCore
    rw [changesOf_append (before ++ [last]), changesOf_allContext allBehind,
      List.append_nil] at same
    rw [← same, changesOf, changesOf, List.filter_cons_of_pos (by simpa using isFirst)]
  have applies := patch.applies
  rw [buildHunks_zero allGap isFirst, List.map_singleton, Hunk.toPatch, ← hunkLines, isCore,
    oldLines_append, newLines_append, ← allGap.length_oldLines] at applies
  obtain ⟨more, isOld, isNew⟩ := applyHunks_one applies
  rw [oldLines_append] at isOld
  rw [newLines_append, allGap.sameLines, allBehind.sameLines] at isNew
  dsimp only at isOld isNew
  have someLength := List.length_pos_of_ne_nil someBetween
  have counted := length_oldLines_changesOf (before ++ [last])
  obtain ⟨tail, isTail, isMore⟩ : ∃ tail, oldLines (before ++ [last]) =
      oldLines (changesOf (before ++ [last])) ++ tail ∧ more = tail ++ oldLines behind := by
    rcases List.append_eq_append_iff.1 isOld with ⟨extra, tooLong, -⟩ | found
    · have longer := congrArg List.length tooLong
      rw [List.length_append] at longer
      omega
    · exact found
  have nonempty : tail ≠ [] := by
    rintro rfl
    have shorter := congrArg List.length isTail
    rw [List.append_nil] at shorter
    omega
  have isNewCore : newLines (before ++ [last]) =
      newLines (changesOf (before ++ [last])) ++ tail := by
    rw [isMore, ← List.append_assoc (newLines _)] at isNew
    exact List.append_cancel_right (List.append_cancel_left isNew)
  have notContext : last.isContext = false := by simpa using isLast
  have isLastOf (front : List Text) : (front ++ tail).getLast? = some (tail.getLast nonempty) := by
    rw [List.getLast?_append_of_ne_nil _ nonempty, List.getLast?_eq_some_getLast nonempty]
  have spelled : gap ++ first :: rest = (gap ++ before) ++ last :: behind := by
    rw [isRest, List.append_assoc]
  refine fromTheEnd _ last behind spelled notContext (tail.getLast nonempty) ?_ ?_
  · rw [List.append_assoc, oldLines_append, isTail, ← List.append_assoc, isLastOf]
  · rw [List.append_assoc, newLines_append, isNewCore, ← List.append_assoc, isLastOf]

/-! ### The rendered diff -/

theorem computeLineDiff_same (lines : List Text) : Contiguous (computeLineDiff lines lines) := by
  by_contra scattered
  have sides := computeLineDiff_sides lines lines
  have allContext := allContext_of_sameLines (fromTheEnd_computeLineDiff scattered)
    (sides.1.trans sides.2.symm)
  exact scattered ⟨_, [], [], by simp, allContext, by simp [NoContext], by simp [AllContext]⟩

end Paratix.Diff
