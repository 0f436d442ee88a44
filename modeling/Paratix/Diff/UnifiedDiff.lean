/-
Module: Paratix.Diff.UnifiedDiff
Purpose: The line diff of two texts, its hunks and how they are rendered; what each of the steps keeps.
Main exports: UnifiedDiffOptions, buildHunks_zero
-/
import Paratix.Archive.Member
import Paratix.Foundation.EditScript
import Paratix.Foundation.LinePattern
import Paratix.Foundation.ReplaceAll
import Mathlib.Data.List.GetD

namespace Paratix.Diff

open Foundation Archive

def DEFAULT_CONTEXT_LINES : Int := 3

def MAX_DIFF_CELLS : Nat := 1000000

structure UnifiedDiffOptions where
  contextLines : Option Int
  currentLabel : Option Text
  desiredLabel : Option Text

abbrev DiffLine := Edit Text

/-! ### The two sides -/

def normalizeLineEndings (content : Text) : Text :=
  replaceAll id (text "\r\n") (text "\n") content

def splitLines (content : Text) : List Text :=
  if content = [] then [] else content.splitOn '\n'

/-! ### The line diff -/

/-- The rest of a row behind `left`, under the row before it from `diagonal` on. -/
def fillRow (currentLine : Text) : Nat → List Nat → List Text → List Nat
  | left, diagonal :: above :: previous, desiredLine :: desiredLines =>
      let cell := if currentLine = desiredLine then diagonal + 1 else max above left
      cell :: fillRow currentLine cell (above :: previous) desiredLines
  | _, _, _ => []

def buildLcsTable (currentLines desiredLines : List Text) : List (List Nat) :=
  currentLines.scanl (fun previous currentLine => 0 :: fillRow currentLine 0 previous desiredLines)
    (List.replicate (desiredLines.length + 1) 0)

def tableCell (table : List (List Nat)) (rowIndex colIndex : Nat) : Nat :=
  (table.getD rowIndex []).getD colIndex 0

structure BacktrackStep where
  diffLine : DiffLine
  nextCol : Nat
  nextRow : Nat

section Backtrack

variable (currentLines desiredLines : List Text) (table : List (List Nat))

def nextBacktrackStep (rowIndex colIndex : Nat) : BacktrackStep :=
  if 0 < rowIndex ∧ 0 < colIndex ∧
      currentLines.getD (rowIndex - 1) [] = desiredLines.getD (colIndex - 1) [] then
    { diffLine := .context (currentLines.getD (rowIndex - 1) [])
      nextCol := colIndex - 1
      nextRow := rowIndex - 1 }
  else if 0 < colIndex ∧
      (rowIndex = 0 ∨
        tableCell table (rowIndex - 1) colIndex ≤ tableCell table rowIndex (colIndex - 1)) then
    { diffLine := .insert (desiredLines.getD (colIndex - 1) [])
      nextCol := colIndex - 1
      nextRow := rowIndex }
  else
    { diffLine := .delete (currentLines.getD (rowIndex - 1) [])
      nextCol := colIndex
      nextRow := rowIndex - 1 }

/-- The loop of `backtrackLcs`, the last line first. Every step takes a line of one
side, so `rowIndex + colIndex` steps are enough. -/
def backtrackSteps : Nat → Nat → Nat → List DiffLine
  | 0, _, _ => []
  | fuel + 1, rowIndex, colIndex =>
      if 0 < rowIndex ∨ 0 < colIndex then
        let step := nextBacktrackStep currentLines desiredLines table rowIndex colIndex
        step.diffLine :: backtrackSteps fuel step.nextRow step.nextCol
      else []

def backtrackLcs : List DiffLine :=
  (backtrackSteps currentLines desiredLines table (currentLines.length + desiredLines.length)
    currentLines.length desiredLines.length).reverse

end Backtrack

def buildFallbackLineDiff (currentLines desiredLines : List Text) : List DiffLine :=
  currentLines.map .delete ++ desiredLines.map .insert

def computeLineDiff (currentLines desiredLines : List Text) : List DiffLine :=
  if currentLines.length = 0 then desiredLines.map .insert
  else if desiredLines.length = 0 then currentLines.map .delete
  else if MAX_DIFF_CELLS < (currentLines.length + 1) * (desiredLines.length + 1) then
    buildFallbackLineDiff currentLines desiredLines
  else backtrackLcs currentLines desiredLines (buildLcsTable currentLines desiredLines)

/-! ### Hunks -/

structure Hunk where
  currentStart : Nat
  desiredStart : Nat
  lines : List DiffLine
deriving DecidableEq, Repr

structure HunkBuilder where
  activeHunk : Option Hunk
  currentLineNumber : Nat
  desiredLineNumber : Nat
  hunks : List Hunk
  pendingContext : List DiffLine
  trailingContextRemaining : Nat

namespace HunkBuilder

variable (contextLines : Nat) (builder : HunkBuilder)

def initial : HunkBuilder where
  activeHunk := none
  currentLineNumber := 1
  desiredLineNumber := 1
  hunks := []
  pendingContext := []
  trailingContextRemaining := 0

/-- The hunk that a change belongs to, without the change. -/
def openHunk : Hunk :=
  match builder.activeHunk with
  | some hunk => hunk
  | none =>
    { currentStart := builder.currentLineNumber - builder.pendingContext.length
      desiredStart := builder.desiredLineNumber - builder.pendingContext.length
      lines := builder.pendingContext }

def handleChangeLine (line : DiffLine) : HunkBuilder :=
  { builder with
    activeHunk := some { builder.openHunk with lines := builder.openHunk.lines ++ [line] }
    pendingContext := if builder.activeHunk.isNone then [] else builder.pendingContext
    trailingContextRemaining := contextLines
    currentLineNumber := builder.currentLineNumber + line.old?.toList.length
    desiredLineNumber := builder.desiredLineNumber + line.new?.toList.length }

/-- `pendingContext.push` and `shift` -/
def pushPending (pending : List DiffLine) (line : DiffLine) : List DiffLine :=
  if contextLines < (pending ++ [line]).length then (pending ++ [line]).tail else pending ++ [line]

/-- A context line goes to the active hunk or to the pending ones. -/
def placeContext (line : DiffLine) : HunkBuilder :=
  match builder.activeHunk with
  | some hunk =>
    if 0 < builder.trailingContextRemaining then
      if builder.trailingContextRemaining - 1 = 0 then
        { builder with
          activeHunk := none
          hunks := builder.hunks ++ [{ hunk with lines := hunk.lines ++ [line] }]
          trailingContextRemaining := builder.trailingContextRemaining - 1 }
      else
        { builder with
          activeHunk := some { hunk with lines := hunk.lines ++ [line] }
          trailingContextRemaining := builder.trailingContextRemaining - 1 }
    else { builder with pendingContext := pushPending contextLines builder.pendingContext line }
  | none => { builder with pendingContext := pushPending contextLines builder.pendingContext line }

def handleContextLine (line : DiffLine) : HunkBuilder :=
  let placed := builder.placeContext contextLines line
  { placed with
    currentLineNumber := placed.currentLineNumber + 1
    desiredLineNumber := placed.desiredLineNumber + 1 }

def addLine (line : DiffLine) : HunkBuilder :=
  if line.isContext then builder.handleContextLine contextLines line
  else builder.handleChangeLine contextLines line

def finish : List Hunk := builder.hunks ++ builder.activeHunk.toList

end HunkBuilder

def buildHunks (diff : List DiffLine) (contextLines : Nat) : List Hunk :=
  (diff.foldl (HunkBuilder.addLine contextLines) HunkBuilder.initial).finish

/-! ### Rendering -/

def countLine (counts : Nat × Nat) : DiffLine → Nat × Nat
  | .context _ => (counts.1 + 1, counts.2 + 1)
  | .delete _ => (counts.1 + 1, counts.2)
  | .insert _ => (counts.1, counts.2 + 1)

def countHunkLines (hunk : Hunk) : Nat × Nat := hunk.lines.foldl countLine (0, 0)

def renderHeader (currentStart currentCount desiredStart desiredCount : Nat) : Text :=
  text "@@ -" ++ decimal currentStart ++ text "," ++ decimal currentCount ++ text " +" ++
    decimal desiredStart ++ text "," ++ decimal desiredCount ++ text " @@"

def renderLine : DiffLine → Text
  | .context line => ' ' :: line
  | .delete line => '-' :: line
  | .insert line => '+' :: line

def renderHunk (hunk : Hunk) : List Text :=
  let counts := countHunkLines hunk
  renderHeader hunk.currentStart counts.1 hunk.desiredStart counts.2 :: hunk.lines.map renderLine

def UnifiedDiffOptions.clampedContextLines (options : UnifiedDiffOptions) : Nat :=
  (max 0 (options.contextLines.getD DEFAULT_CONTEXT_LINES)).toNat

def UnifiedDiffOptions.currentLabelText (options : UnifiedDiffOptions) : Text :=
  options.currentLabel.getD (text "current")

def UnifiedDiffOptions.desiredLabelText (options : UnifiedDiffOptions) : Text :=
  options.desiredLabel.getD (text "desired")

def buildUnifiedDiff (current desired : Text) (options : UnifiedDiffOptions) : Text :=
  let normalizedCurrent := normalizeLineEndings current
  let normalizedDesired := normalizeLineEndings desired
  if normalizedCurrent = normalizedDesired then []
  else
    let diff := computeLineDiff (splitLines normalizedCurrent) (splitLines normalizedDesired)
    let hunks := buildHunks diff options.clampedContextLines
    (text "\n").intercalate
      ([text "--- " ++ options.currentLabelText, text "+++ " ++ options.desiredLabelText] ++
        hunks.flatMap renderHunk)

theorem oldLines_singleton (line : DiffLine) : oldLines [line] = line.old?.toList := by
  cases line with
  | context line => rfl
  | delete line => rfl
  | insert line => rfl

theorem newLines_singleton (line : DiffLine) : newLines [line] = line.new?.toList := by
  cases line with
  | context line => rfl
  | delete line => rfl
  | insert line => rfl

/-! ### Both sides -/

section Backtrack

variable {currentLines desiredLines : List Text} {table : List (List Nat)}

theorem take_eq_take_append {lines : List Text} {count : Nat} (positive : 0 < count)
    (inside : count ≤ lines.length) :
    lines.take count = lines.take (count - 1) ++ [lines.getD (count - 1) []] := by
  have below : count - 1 < lines.length := by omega
  have split := List.take_concat_get' lines (count - 1) below
  rw [Nat.sub_add_cancel positive] at split
  rw [← split, List.getD_eq_getElem lines [] below]

/-- A step takes the last line of the side or the sides that its diff line stands for. -/
structure TakesLast (currentLines desiredLines : List Text) (rowIndex colIndex : Nat)
    (step : BacktrackStep) : Prop where
  current : currentLines.take rowIndex =
    currentLines.take step.nextRow ++ step.diffLine.old?.toList
  desired : desiredLines.take colIndex =
    desiredLines.take step.nextCol ++ step.diffLine.new?.toList
  row : step.nextRow ≤ rowIndex
  col : step.nextCol ≤ colIndex
  fewer : step.nextRow + step.nextCol < rowIndex + colIndex

theorem takesLast_nextBacktrackStep {rowIndex colIndex : Nat} (some : 0 < rowIndex ∨ 0 < colIndex)
    (rowInside : rowIndex ≤ currentLines.length) (colInside : colIndex ≤ desiredLines.length) :
    TakesLast currentLines desiredLines rowIndex colIndex
      (nextBacktrackStep currentLines desiredLines table rowIndex colIndex) := by
  unfold nextBacktrackStep
  split
  · next both =>
    obtain ⟨rowPositive, colPositive, same⟩ := both
    refine ⟨take_eq_take_append rowPositive rowInside, ?_, Nat.sub_le _ _, Nat.sub_le _ _, ?_⟩
    · rw [take_eq_take_append colPositive colInside, ← same]
      rfl
    · dsimp only
      omega
  · split
    · next inserts =>
      refine ⟨(List.append_nil _).symm, take_eq_take_append inserts.1 colInside, Nat.le_refl _,
        Nat.sub_le _ _, ?_⟩
      dsimp only
      omega
    · next notInserts =>
      have rowPositive : 0 < rowIndex := by
        by_contra noRow
        have isZero := Nat.eq_zero_of_not_pos noRow
        exact notInserts ⟨some.resolve_left noRow, .inl isZero⟩
      refine ⟨take_eq_take_append rowPositive rowInside, (List.append_nil _).symm, Nat.sub_le _ _,
        Nat.le_refl _, ?_⟩
      dsimp only
      omega

theorem backtrackSteps_sides {fuel rowIndex colIndex : Nat} (enough : rowIndex + colIndex ≤ fuel)
    (rowInside : rowIndex ≤ currentLines.length) (colInside : colIndex ≤ desiredLines.length) :
    oldLines (backtrackSteps currentLines desiredLines table fuel rowIndex colIndex).reverse =
        currentLines.take rowIndex ∧
      newLines (backtrackSteps currentLines desiredLines table fuel rowIndex colIndex).reverse =
        desiredLines.take colIndex := by
  induction fuel generalizing rowIndex colIndex with
  | zero =>
    have noRow : rowIndex = 0 := by omega
    have noCol : colIndex = 0 := by omega
    subst noRow noCol
    exact ⟨rfl, rfl⟩
  | succ fuel ih =>
    rw [backtrackSteps]
    split
    · next some =>
      have takes : TakesLast currentLines desiredLines rowIndex colIndex
          (nextBacktrackStep currentLines desiredLines table rowIndex colIndex) :=
        takesLast_nextBacktrackStep some rowInside colInside
      have fewer := takes.fewer
      obtain ⟨current, desired⟩ := ih (by omega)
        (takes.row.trans rowInside) (takes.col.trans colInside)
      dsimp only
      rw [List.reverse_cons, oldLines_append, newLines_append, current, desired,
        oldLines_singleton, newLines_singleton, ← takes.current, ← takes.desired]
      exact ⟨rfl, rfl⟩
    · next none =>
      have noRow : rowIndex = 0 := by omega
      have noCol : colIndex = 0 := by omega
      subst noRow noCol
      exact ⟨rfl, rfl⟩

theorem backtrackLcs_sides :
    oldLines (backtrackLcs currentLines desiredLines table) = currentLines ∧
      newLines (backtrackLcs currentLines desiredLines table) = desiredLines := by
  have sides := @backtrackSteps_sides currentLines desiredLines table _ _ _ (Nat.le_refl _)
    (Nat.le_refl _) (Nat.le_refl _)
  rw [List.take_length, List.take_length] at sides
  exact sides

end Backtrack

theorem oldLines_delete_map (lines : List Text) : oldLines (lines.map Edit.delete) = lines := by
  induction lines with
  | nil => rfl
  | cons line lines ih => simp [ih]

theorem newLines_delete_map (lines : List Text) : newLines (lines.map Edit.delete) = [] := by
  induction lines with
  | nil => rfl
  | cons line lines ih => simp [ih]

theorem oldLines_insert_map (lines : List Text) : oldLines (lines.map Edit.insert) = [] := by
  induction lines with
  | nil => rfl
  | cons line lines ih => simp [ih]

theorem newLines_insert_map (lines : List Text) : newLines (lines.map Edit.insert) = lines := by
  induction lines with
  | nil => rfl
  | cons line lines ih => simp [ih]

/-- The line diff turns the current lines into the desired ones. -/
theorem computeLineDiff_sides (currentLines desiredLines : List Text) :
    oldLines (computeLineDiff currentLines desiredLines) = currentLines ∧
      newLines (computeLineDiff currentLines desiredLines) = desiredLines := by
  unfold computeLineDiff
  split
  · next noCurrent =>
    rw [oldLines_insert_map, newLines_insert_map]
    exact ⟨(List.length_eq_zero_iff.1 noCurrent).symm, rfl⟩
  · split
    · next noDesired =>
      rw [oldLines_delete_map, newLines_delete_map]
      exact ⟨rfl, (List.length_eq_zero_iff.1 noDesired).symm⟩
    · split
      · unfold buildFallbackLineDiff
        rw [oldLines_append, newLines_append, oldLines_delete_map, oldLines_insert_map,
          newLines_delete_map, newLines_insert_map]
        exact ⟨List.append_nil _, rfl⟩
      · exact backtrackLcs_sides

/-! ### Changes in one piece -/

/-- No context line stands between two changes. -/
def Contiguous (diff : List DiffLine) : Prop :=
  ∃ before changes behind, diff = before ++ changes ++ behind ∧ AllContext before ∧
    NoContext changes ∧ AllContext behind

/-- Up to each change, the two sides do not end with the same line. -/
def FromTheEnd (diff : List DiffLine) : Prop :=
  ∀ before change behind, diff = before ++ change :: behind → change.isContext = false →
    ∀ line, (oldLines (before ++ [change])).getLast? = some line →
      (newLines (before ++ [change])).getLast? ≠ some line

theorem contiguous_of_noContext {diff : List DiffLine} (noContext : NoContext diff) :
    Contiguous diff :=
  ⟨[], diff, [], by simp, by simp [AllContext], noContext, by simp [AllContext]⟩

section Backtrack

variable {currentLines desiredLines : List Text} {table : List (List Nat)}

/-- Equal last lines are never left to a change. -/
theorem nextBacktrackStep_change {rowIndex colIndex : Nat}
    (isChange : (nextBacktrackStep currentLines desiredLines table rowIndex
      colIndex).diffLine.isContext = false) :
    ¬(0 < rowIndex ∧ 0 < colIndex ∧
      currentLines.getD (rowIndex - 1) [] = desiredLines.getD (colIndex - 1) []) := by
  intro both
  rw [nextBacktrackStep, if_pos both] at isChange
  cases isChange

/-- Where a change was taken. -/
theorem exists_step_of_change {fuel rowIndex colIndex : Nat} (enough : rowIndex + colIndex ≤ fuel)
    (rowInside : rowIndex ≤ currentLines.length) (colInside : colIndex ≤ desiredLines.length)
    {front back : List DiffLine} {change : DiffLine}
    (split : backtrackSteps currentLines desiredLines table fuel rowIndex colIndex =
      front ++ change :: back) (isChange : change.isContext = false) :
    ∃ row col, row ≤ currentLines.length ∧ col ≤ desiredLines.length ∧
      oldLines (change :: back).reverse = currentLines.take row ∧
      newLines (change :: back).reverse = desiredLines.take col ∧
      ¬(0 < row ∧ 0 < col ∧ currentLines.getD (row - 1) [] = desiredLines.getD (col - 1) []) := by
  induction fuel generalizing rowIndex colIndex front with
  | zero =>
    rw [backtrackSteps] at split
    exact absurd split.symm (by simp)
  | succ fuel ih =>
    have sides := @backtrackSteps_sides currentLines desiredLines table _ _ _ enough rowInside
      colInside
    rw [backtrackSteps] at split sides
    by_cases some : 0 < rowIndex ∨ 0 < colIndex
    · rw [if_pos some] at split sides
      cases front with
      | nil =>
        have parts := List.cons_eq_cons.1 split
        refine ⟨rowIndex, colIndex, rowInside, colInside, ?_, ?_, ?_⟩
        · rw [← sides.1, ← List.nil_append (change :: back), ← split]
        · rw [← sides.2, ← List.nil_append (change :: back), ← split]
        · rw [← parts.1] at isChange
          exact nextBacktrackStep_change isChange
      | cons first front =>
        have takes : TakesLast currentLines desiredLines rowIndex colIndex
            (nextBacktrackStep currentLines desiredLines table rowIndex colIndex) :=
          takesLast_nextBacktrackStep some rowInside colInside
        have fewer := takes.fewer
        have rest := (List.cons_eq_cons.1 split).2
        exact ih (by omega) (takes.row.trans rowInside)
          (takes.col.trans colInside) rest
    · rw [if_neg some] at split
      exact absurd split.symm (by simp)

theorem getLast?_take {lines : List Text} {count : Nat} (inside : count ≤ lines.length)
    {line : Text} (isLast : (lines.take count).getLast? = some line) :
    0 < count ∧ lines.getD (count - 1) [] = line := by
  have positive : 0 < count := by
    by_contra none
    rw [Nat.eq_zero_of_not_pos none, List.take_zero] at isLast
    cases isLast
  rw [take_eq_take_append positive inside, List.getLast?_concat] at isLast
  exact ⟨positive, Option.some.inj isLast⟩

theorem fromTheEnd_backtrackLcs : FromTheEnd (backtrackLcs currentLines desiredLines table) := by
  intro before change behind split isChange line oldLast newLast
  have reversed : backtrackSteps currentLines desiredLines table
      (currentLines.length + desiredLines.length) currentLines.length desiredLines.length =
        behind.reverse ++ change :: before.reverse := by
    rw [← List.reverse_reverse (backtrackSteps _ _ _ _ _ _), ← backtrackLcs, split]
    simp
  obtain ⟨row, col, rowInside, colInside, current, desired, apart⟩ :=
    exists_step_of_change (Nat.le_refl _) (Nat.le_refl _) (Nat.le_refl _) reversed isChange
  rw [List.reverse_cons, List.reverse_reverse] at current desired
  rw [current] at oldLast
  rw [desired] at newLast
  obtain ⟨rowPositive, rowLine⟩ := getLast?_take rowInside oldLast
  obtain ⟨colPositive, colLine⟩ := getLast?_take colInside newLast
  exact apart ⟨rowPositive, colPositive, rowLine.trans colLine.symm⟩

end Backtrack

/-- A line diff with context between its changes was traced back from the end. -/
theorem fromTheEnd_computeLineDiff {currentLines desiredLines : List Text}
    (scattered : ¬Contiguous (computeLineDiff currentLines desiredLines)) :
    FromTheEnd (computeLineDiff currentLines desiredLines) := by
  have changesOnly {diff : List DiffLine} (noContext : ∀ line ∈ diff, line.isContext = false) :
      Contiguous diff := by
    refine contiguous_of_noContext fun line mem => ?_
    rw [noContext line mem]
    exact Bool.false_ne_true
  unfold computeLineDiff at scattered ⊢
  split
  · next noCurrent =>
    rw [if_pos noCurrent] at scattered
    exact absurd (changesOnly (by simp [Edit.isContext])) scattered
  · next someCurrent =>
    rw [if_neg someCurrent] at scattered
    split
    · next noDesired =>
      rw [if_pos noDesired] at scattered
      exact absurd (changesOnly (by simp [Edit.isContext])) scattered
    · next someDesired =>
      rw [if_neg someDesired] at scattered
      split
      · next tooMany =>
        rw [if_pos tooMany, buildFallbackLineDiff] at scattered
        refine absurd (changesOnly fun line mem => ?_) scattered
        rcases List.mem_append.1 mem with deleted | inserted
        · obtain ⟨_, _, rfl⟩ := List.mem_map.1 deleted
          rfl
        · obtain ⟨_, _, rfl⟩ := List.mem_map.1 inserted
          rfl
      · exact fromTheEnd_backtrackLcs

/-- The hunk with the counts of its header. -/
def Hunk.toPatch (hunk : Hunk) : PatchHunk Text :=
  PatchHunk.of hunk.currentStart hunk.desiredStart hunk.lines

/-! ### One context line or more -/

section Tracking

variable {contextLines : Nat}

/-- The last change of the open hunk, and how much context may still follow it. -/
structure OpenNear (contextLines remaining : Nat) (lines : List DiffLine) : Prop where
  near : ContextNear contextLines lines
  last : ∃ (change : Nat) (changed : DiffLine), lines[change]? = some changed ∧
    ¬changed.isContext ∧ change + 1 + contextLines = lines.length + remaining

/-- What the builder knows of the lines it has seen: closed hunks, then context, then
the open hunk, if there is one. -/
structure Tracks (contextLines : Nat) (seen : List DiffLine) (builder : HunkBuilder) : Prop where
  current : builder.currentLineNumber = 1 + (oldLines seen).length
  desired : builder.desiredLineNumber = 1 + (newLines seen).length
  closedNear : ∀ hunk ∈ builder.hunks, ContextNear contextLines hunk.lines
  between : builder.activeHunk = none → ∃ script gap, seen = script ++ gap ∧
    Covers 1 1 (builder.hunks.map Hunk.toPatch) script ∧ AllContext gap ∧
    builder.pendingContext <:+ gap ∧ builder.pendingContext.length ≤ contextLines
  inside : ∀ hunk, builder.activeHunk = some hunk → ∃ script gap,
    seen = script ++ (gap ++ hunk.lines) ∧
    Covers 1 1 (builder.hunks.map Hunk.toPatch) script ∧ AllContext gap ∧
    hunk.currentStart = 1 + (oldLines script).length + gap.length ∧
    hunk.desiredStart = 1 + (newLines script).length + gap.length ∧
    builder.pendingContext = [] ∧ 0 < builder.trailingContextRemaining ∧
    OpenNear contextLines builder.trailingContextRemaining hunk.lines

theorem tracks_initial (contextLines : Nat) : Tracks contextLines [] .initial where
  current := rfl
  desired := rfl
  closedNear := by simp [HunkBuilder.initial]
  between _ := ⟨[], [], rfl, .nil, by simp [AllContext], List.suffix_refl _, Nat.zero_le _⟩
  inside := by simp [HunkBuilder.initial]

variable {seen : List DiffLine} {builder : HunkBuilder} {line : DiffLine}

theorem allContext_snoc {gap : List DiffLine} (allContext : AllContext gap)
    (isContext : line.isContext) : AllContext (gap ++ [line]) := by
  intro other mem
  rcases List.mem_append.1 mem with before | last
  · exact allContext other before
  · rwa [List.mem_singleton.1 last]

/-- The window of the last context lines. -/
theorem pushPending_spec {pending gap : List DiffLine} (suffix : pending <:+ gap)
    (short : pending.length ≤ contextLines) (line : DiffLine) :
    HunkBuilder.pushPending contextLines pending line <:+ gap ++ [line] ∧
      (HunkBuilder.pushPending contextLines pending line).length ≤ contextLines := by
  have extended : pending ++ [line] <:+ gap ++ [line] := by
    obtain ⟨before, rfl⟩ := suffix
    exact ⟨before, (List.append_assoc _ _ _).symm⟩
  unfold HunkBuilder.pushPending
  split
  · refine ⟨(List.tail_suffix _).trans extended, ?_⟩
    rw [List.length_tail, List.length_append, List.length_singleton, Nat.add_sub_cancel]
    exact short
  · next fits => exact ⟨extended, Nat.le_of_not_lt fits⟩

/-- The hunk that a change goes to, and where it starts. -/
theorem openHunk_spec (tracks : Tracks contextLines seen builder) (isChange : ¬line.isContext) :
    ∃ script gap, seen = script ++ (gap ++ builder.openHunk.lines) ∧
      Covers 1 1 (builder.hunks.map Hunk.toPatch) script ∧ AllContext gap ∧
      builder.openHunk.currentStart = 1 + (oldLines script).length + gap.length ∧
      builder.openHunk.desiredStart = 1 + (newLines script).length + gap.length ∧
      ContextNear contextLines (builder.openHunk.lines ++ [line]) := by
  cases active : builder.activeHunk with
  | some hunk =>
    obtain ⟨script, gap, isSeen, covers, allContext, currentStart, desiredStart, -, -, near⟩ :=
      tracks.inside hunk active
    have isOpen : builder.openHunk = hunk := by
      rw [HunkBuilder.openHunk, active]
    rw [isOpen]
    exact ⟨script, gap, isSeen, covers, allContext, currentStart, desiredStart,
      near.near.snoc_change isChange⟩
  | none =>
    obtain ⟨script, gap, isSeen, covers, allContext, ⟨before, isGap⟩, short⟩ :=
      tracks.between active
    have isOpen : builder.openHunk =
        { currentStart := builder.currentLineNumber - builder.pendingContext.length
          desiredStart := builder.desiredLineNumber - builder.pendingContext.length
          lines := builder.pendingContext } := by
      rw [HunkBuilder.openHunk, active]
    have beforeContext : AllContext before := fun edit mem =>
      allContext edit (isGap ▸ List.mem_append_left _ mem)
    have gapLength := congrArg List.length isGap
    rw [List.length_append] at gapLength
    rw [isOpen]
    refine ⟨script, before, ?_, covers, beforeContext, ?_, ?_, .leading short isChange⟩
    · rw [isSeen, isGap]
    · dsimp only
      rw [tracks.current, isSeen, oldLines_append, List.length_append, allContext.length_oldLines]
      omega
    · dsimp only
      rw [tracks.desired, isSeen, newLines_append, List.length_append, allContext.sameLines,
        allContext.length_oldLines]
      omega

theorem tracks_handleChangeLine (positive : 0 < contextLines)
    (tracks : Tracks contextLines seen builder) (isChange : ¬line.isContext) :
    Tracks contextLines (seen ++ [line]) (builder.handleChangeLine contextLines line) := by
  obtain ⟨script, gap, isSeen, covers, allContext, currentStart, desiredStart, near⟩ :=
    openHunk_spec tracks isChange
  constructor
  · simp only [HunkBuilder.handleChangeLine, tracks.current, oldLines_append, oldLines_singleton,
      List.length_append, Nat.add_assoc]
  · simp only [HunkBuilder.handleChangeLine, tracks.desired, newLines_append, newLines_singleton,
      List.length_append, Nat.add_assoc]
  · exact tracks.closedNear
  · exact fun none => absurd none (by simp [HunkBuilder.handleChangeLine])
  · intro hunk active
    cases active
    refine ⟨script, gap, ?_, covers, allContext, currentStart, desiredStart, ?_, positive, near,
      builder.openHunk.lines.length, line, List.getElem?_concat_length, isChange, ?_⟩
    · rw [isSeen]
      simp only [List.append_assoc]
    · simp only [HunkBuilder.handleChangeLine]
      split
      · rfl
      · next someActive =>
        cases active : builder.activeHunk with
        | none => exact absurd (active ▸ rfl) someActive
        | some hunk =>
          obtain ⟨_, _, _, _, _, _, _, noPending, _⟩ := tracks.inside hunk active
          exact noPending
    · simp only [HunkBuilder.handleChangeLine, List.length_append, List.length_singleton]

theorem tracks_handleContextLine (tracks : Tracks contextLines seen builder)
    (isContext : line.isContext) :
    Tracks contextLines (seen ++ [line]) (builder.handleContextLine contextLines line) := by
  have both : line.old?.toList.length = 1 ∧ line.new?.toList.length = 1 := by
    cases line with
    | context line => exact ⟨rfl, rfl⟩
    | delete line => cases isContext
    | insert line => cases isContext
  have current : builder.currentLineNumber + 1 = 1 + (oldLines (seen ++ [line])).length := by
    rw [oldLines_append, oldLines_singleton, List.length_append, both.1, tracks.current]
    rfl
  have desired : builder.desiredLineNumber + 1 = 1 + (newLines (seen ++ [line])).length := by
    rw [newLines_append, newLines_singleton, List.length_append, both.2, tracks.desired]
    rfl
  cases active : builder.activeHunk with
  | none =>
    obtain ⟨script, gap, isSeen, covers, allContext, suffix, short⟩ := tracks.between active
    obtain ⟨pushedSuffix, pushedShort⟩ := pushPending_spec suffix short line
    simp only [HunkBuilder.handleContextLine, HunkBuilder.placeContext, active]
    refine ⟨current, desired, tracks.closedNear, fun _ => ?_, fun _ isActive => ?_⟩
    · refine ⟨script, gap ++ [line], ?_, covers, allContext_snoc allContext isContext,
        pushedSuffix, pushedShort⟩
      rw [isSeen, List.append_assoc]
    · cases isActive
  | some hunk =>
    obtain ⟨script, gap, isSeen, covers, allContext, currentStart, desiredStart, noPending,
      remaining, near, change, changed, isThere, isChanged, counted⟩ := tracks.inside hunk active
    have extended : seen ++ [line] = script ++ (gap ++ (hunk.lines ++ [line])) := by
      rw [isSeen]
      simp only [List.append_assoc]
    have nearExtended : ContextNear contextLines (hunk.lines ++ [line]) :=
      near.snoc_context isThere isChanged (by omega)
    simp only [HunkBuilder.handleContextLine, HunkBuilder.placeContext, active, if_pos remaining]
    split
    · -- the hunk closes
      refine ⟨current, desired, fun closed mem => ?_, fun _ => ?_, fun _ isActive => ?_⟩
      · rcases List.mem_append.1 mem with before | last
        · exact tracks.closedNear closed before
        · rw [List.mem_singleton.1 last]
          exact nearExtended
      · refine ⟨script ++ (gap ++ (hunk.lines ++ [line])), [], ?_, ?_, by simp [AllContext], ?_, ?_⟩
        · rw [extended, List.append_nil]
        · have more := covers.snoc allContext (hunk.lines ++ [line])
          rw [← currentStart, ← desiredStart] at more
          rw [List.map_append]
          exact more
        · exact ⟨[], noPending⟩
        · dsimp only
          rw [noPending]
          exact Nat.zero_le _
      · cases isActive
    · next notLast =>
      refine ⟨current, desired, tracks.closedNear, fun isNone => ?_, fun other isActive => ?_⟩
      · cases isNone
      · cases isActive
        refine ⟨script, gap, extended, covers, allContext, currentStart, desiredStart, noPending,
          Nat.pos_of_ne_zero notLast, nearExtended, change, changed,
          ContextNear.getElem?_snoc isThere line, isChanged, ?_⟩
        simp only [List.length_append, List.length_singleton]
        omega

theorem tracks_addLine (positive : 0 < contextLines) (tracks : Tracks contextLines seen builder)
    (line : DiffLine) :
    Tracks contextLines (seen ++ [line]) (builder.addLine contextLines line) := by
  unfold HunkBuilder.addLine
  split
  · next isContext => exact tracks_handleContextLine tracks isContext
  · next isChange => exact tracks_handleChangeLine positive tracks isChange

theorem tracks_foldl (positive : 0 < contextLines) (tracks : Tracks contextLines seen builder)
    (diff : List DiffLine) :
    Tracks contextLines (seen ++ diff) (diff.foldl (HunkBuilder.addLine contextLines) builder) := by
  induction diff generalizing seen builder with
  | nil => simpa using tracks
  | cons line diff ih =>
    have next := ih (tracks_addLine positive tracks line)
    rwa [List.append_assoc, List.singleton_append] at next

/-- The hunks cover the diff up to its last context, close to the changes. -/
theorem buildHunks_covers (positive : 0 < contextLines) (diff : List DiffLine) :
    ∃ script tail, diff = script ++ tail ∧ AllContext tail ∧
      Covers 1 1 ((buildHunks diff contextLines).map Hunk.toPatch) script ∧
      ∀ hunk ∈ buildHunks diff contextLines, ContextNear contextLines hunk.lines := by
  have tracks := tracks_foldl positive (tracks_initial contextLines) diff
  rw [List.nil_append] at tracks
  unfold buildHunks HunkBuilder.finish
  cases active : (diff.foldl (HunkBuilder.addLine contextLines) .initial).activeHunk with
  | none =>
    obtain ⟨script, gap, isDiff, covers, allContext, -, -⟩ := tracks.between active
    rw [Option.toList_none, List.append_nil]
    exact ⟨script, gap, isDiff, allContext, covers, tracks.closedNear⟩
  | some hunk =>
    obtain ⟨script, gap, isDiff, covers, allContext, currentStart, desiredStart, -, -, near⟩ :=
      tracks.inside hunk active
    rw [Option.toList_some]
    refine ⟨script ++ (gap ++ hunk.lines), [], by rw [List.append_nil, ← isDiff],
      by simp [AllContext], ?_, fun closed mem => ?_⟩
    · have more := covers.snoc allContext hunk.lines
      rw [← currentStart, ← desiredStart] at more
      rw [List.map_append]
      exact more
    · rcases List.mem_append.1 mem with before | last
      · exact tracks.closedNear closed before
      · rw [List.mem_singleton.1 last]
        exact near.near

end Tracking

/-! ### No context lines -/

/-- The changes of a diff. -/
def changesOf (diff : List DiffLine) : List DiffLine := diff.filter fun line => !line.isContext

/-- Before the first change only the line numbers move. -/
theorem foldl_zero_context {gap : List DiffLine} (allContext : AllContext gap)
    (builder : HunkBuilder) (inactive : builder.activeHunk = none)
    (noPending : builder.pendingContext = []) : gap.foldl (HunkBuilder.addLine 0) builder =
      { builder with
        currentLineNumber := builder.currentLineNumber + gap.length
        desiredLineNumber := builder.desiredLineNumber + gap.length } := by
  induction gap generalizing builder with
  | nil => rfl
  | cons line gap ih =>
    obtain ⟨isContext, rest⟩ := List.forall_mem_cons.1 allContext
    have added : builder.addLine 0 line =
        { builder with
          currentLineNumber := builder.currentLineNumber + 1
          desiredLineNumber := builder.desiredLineNumber + 1 } := by
      simp [HunkBuilder.addLine, isContext, HunkBuilder.handleContextLine,
        HunkBuilder.placeContext, inactive, noPending, HunkBuilder.pushPending]
    have stillInactive : (builder.addLine 0 line).activeHunk = none := by
      rw [added]
      exact inactive
    have stillNone : (builder.addLine 0 line).pendingContext = [] := by
      rw [added]
      exact noPending
    rw [List.foldl_cons, ih rest _ stillInactive stillNone, added]
    simp only [List.length_cons, Nat.add_assoc, Nat.add_comm 1]

/-- The hunk never closes: it takes every change and leaves the context out. -/
theorem foldl_zero_active (diff : List DiffLine) (builder : HunkBuilder) {hunk : Hunk}
    (active : builder.activeHunk = some hunk) (noPending : builder.pendingContext = [])
    (noRemaining : builder.trailingContextRemaining = 0) :
    (diff.foldl (HunkBuilder.addLine 0) builder).finish =
      builder.hunks ++ [{ hunk with lines := hunk.lines ++ changesOf diff }] := by
  induction diff generalizing builder hunk with
  | nil => simp [HunkBuilder.finish, active, changesOf]
  | cons line diff ih =>
    rw [List.foldl_cons]
    by_cases isContext : line.isContext
    · have added : builder.addLine 0 line =
          { builder with
            currentLineNumber := builder.currentLineNumber + 1
            desiredLineNumber := builder.desiredLineNumber + 1 } := by
        simp [HunkBuilder.addLine, isContext, HunkBuilder.handleContextLine,
          HunkBuilder.placeContext, active, noPending, noRemaining, HunkBuilder.pushPending]
      have left : changesOf (line :: diff) = changesOf diff := by
        simp [changesOf, isContext]
      have stillActive : (builder.addLine 0 line).activeHunk = some hunk := by
        rw [added]
        exact active
      have stillNone : (builder.addLine 0 line).pendingContext = [] := by
        rw [added]
        exact noPending
      have stillZero : (builder.addLine 0 line).trailingContextRemaining = 0 := by
        rw [added]
        exact noRemaining
      rw [ih _ stillActive stillNone stillZero, added, left]
    · have added : (builder.addLine 0 line).activeHunk =
          some { hunk with lines := hunk.lines ++ [line] } := by
        simp [HunkBuilder.addLine, isContext, HunkBuilder.handleChangeLine, HunkBuilder.openHunk,
          active]
      have stillNone : (builder.addLine 0 line).pendingContext = [] := by
        simp [HunkBuilder.addLine, isContext, HunkBuilder.handleChangeLine, noPending]
      have stillZero : (builder.addLine 0 line).trailingContextRemaining = 0 := by
        simp [HunkBuilder.addLine, isContext, HunkBuilder.handleChangeLine]
      have sameHunks : (builder.addLine 0 line).hunks = builder.hunks := by
        simp [HunkBuilder.addLine, isContext, HunkBuilder.handleChangeLine]
      have taken : changesOf (line :: diff) = line :: changesOf diff := by
        simp [changesOf, isContext]
      rw [ih _ added stillNone stillZero, sameHunks, taken]
      simp only [List.append_assoc, List.singleton_append]

theorem buildHunks_zero_context {diff : List DiffLine} (allContext : AllContext diff) :
    buildHunks diff 0 = [] := by
  rw [buildHunks, foldl_zero_context allContext _ rfl rfl]
  rfl

/-- Without context lines there is one hunk, which holds the changes only. -/
theorem buildHunks_zero {gap rest : List DiffLine} {change : DiffLine}
    (allContext : AllContext gap) (isChange : ¬change.isContext) :
    buildHunks (gap ++ change :: rest) 0 =
      [{ currentStart := 1 + gap.length
         desiredStart := 1 + gap.length
         lines := change :: changesOf rest }] := by
  rw [buildHunks, List.foldl_append, foldl_zero_context allContext _ rfl rfl, List.foldl_cons]
  have closed : HunkBuilder.initial.hunks = [] := rfl
  rw [@foldl_zero_active rest _ ⟨1 + gap.length, 1 + gap.length, [change]⟩]
  · simp [HunkBuilder.addLine, isChange, HunkBuilder.handleChangeLine, closed]
  · simp [HunkBuilder.addLine, isChange, HunkBuilder.handleChangeLine, HunkBuilder.openHunk,
      HunkBuilder.initial]
  · simp [HunkBuilder.addLine, isChange, HunkBuilder.handleChangeLine, HunkBuilder.initial]
  · simp [HunkBuilder.addLine, isChange, HunkBuilder.handleChangeLine]

end Paratix.Diff
