/-
Module: Paratix.Masking.OutputControlled
Purpose: What the printers of results and failures let through to the terminal.
Main exports: Output.Controlled, printers_controlled_iff
-/
import Paratix.Masking.Output

namespace Paratix.Masking

open Foundation

/-! ### Pieces -/

/-- The renderer's own codes aside, no control character is written. -/
def Written.Controlled : Written → Prop
  | .own _ => True
  | .text shown => ControlFree shown

/-- Tabs, newlines and the renderer's own codes are all that controls the terminal. -/
def Output.Controlled (output : Output) : Prop := ∀ piece ∈ output, piece.Controlled

theorem controlled_nil : Output.Controlled [] := fun _ member => absurd member List.not_mem_nil

theorem controlled_append {front back : Output} :
    Output.Controlled (front ++ back) ↔ front.Controlled ∧ back.Controlled :=
  List.forall_mem_append

theorem controlled_write {text : CodeUnits} : Output.Controlled (write text) ↔ ControlFree text :=
  List.forall_mem_singleton

theorem controlled_own (codes : CodeUnits) : Output.Controlled [.own codes] :=
  List.forall_mem_singleton.2 trivial

theorem controlled_flatMap {α : Type*} {items : List α} {output : α → Output} :
    Output.Controlled (items.flatMap output) ↔ ∀ item ∈ items, (output item).Controlled := by
  constructor
  · intro controlled item isItem piece member
    exact controlled piece (List.mem_flatMap.2 ⟨item, isItem, member⟩)
  · intro controlled piece member
    obtain ⟨item, isItem, written⟩ := List.mem_flatMap.1 member
    exact controlled item isItem piece written

theorem controlled_paint {palette : Palette} {style : Style} {text : CodeUnits} :
    Output.Controlled (palette.paint style text) ↔ ControlFree text := by
  rw [Palette.paint, Output.Controlled, List.forall_mem_cons, List.forall_mem_cons,
    List.forall_mem_singleton]
  constructor
  · rintro ⟨_, shown, _⟩
    exact palette.reopened_controlFree style text shown
  · intro free
    refine ⟨trivial, ?_, trivial⟩
    rw [Written.Controlled, palette.reopened_eq style text free]
    exact free

/-! ### Indents -/

section Rows

variable {terminal : Terminal} {live : LiveOutputState} {palette : Palette}

theorem controlFree_repeatUnit (count : Nat) : ControlFree (repeatUnit count) := by
  intro unit member
  obtain ⟨copy, isCopy, inCopy⟩ := List.mem_flatten.1 member
  rw [List.eq_of_mem_replicate isCopy] at inCopy
  have free : ControlFree OUTPUT_INDENT_UNIT := by decide
  exact free unit inCopy

theorem controlFree_moduleIndent : ControlFree (getModuleIndent live) := by
  rw [getModuleIndent]
  split
  · decide
  · exact controlFree_repeatUnit _

theorem controlFree_errorIndent : ControlFree (getErrorIndent live) :=
  controlFree_append.2 ⟨controlFree_moduleIndent, by decide⟩

theorem controlFree_continuationIndent : ControlFree (getContinuationIndent live) :=
  controlFree_append.2 ⟨controlFree_moduleIndent, by decide⟩

theorem controlled_guideDot (depth : Nat) : (getGuideDot palette depth).Controlled := by
  rw [getGuideDot]
  split
  · exact controlled_paint.2 (by decide)
  · exact controlled_paint.2 (by decide)

theorem controlled_guideIndent {baseIndent : CodeUnits} (free : ControlFree baseIndent)
    (extraGuideDepths : List Nat) :
    (buildGuideIndent live palette baseIndent extraGuideDepths).Controlled := by
  have start : ∀ character ∈ baseIndent.map fun unit => write [unit],
      Output.Controlled character := by
    intro character member
    obtain ⟨unit, isUnit, rfl⟩ := List.mem_map.1 member
    exact controlled_write.2 (List.forall_mem_singleton.2 (free unit isUnit))
  rw [buildGuideIndent]
  generalize live.activeRecipeGuideDepths ++ extraGuideDepths = guideDepths
  generalize (baseIndent.map fun unit => write [unit]) = characters at start ⊢
  induction guideDepths generalizing characters with
  | nil =>
    intro piece member
    obtain ⟨character, isCharacter, written⟩ := List.mem_flatten.1 member
    exact start character isCharacter piece written
  | cons guideDepth guideDepths ih =>
    apply ih
    intro character member
    rcases List.mem_or_eq_of_mem_set member with before | isDot
    · exact start character before
    · rw [isDot]
      exact controlled_guideDot guideDepth

/-! ### Result rows -/

theorem controlled_icon (status : DisplayStatus) : (getModuleIcon palette status).Controlled := by
  cases status with
  | changed => exact controlled_paint.2 (by decide)
  | failed => exact controlled_paint.2 (by decide)
  | ok => exact controlled_paint.2 (by decide)
  | skipped => exact controlled_paint.2 (by decide)
  | waiting => exact controlled_paint.2 (by decide)

theorem controlled_statusText (status : DisplayStatus) :
    (getModuleStatusText palette status).Controlled := by
  cases status with
  | changed => exact controlled_paint.2 (by decide)
  | failed => exact controlled_paint.2 (by decide)
  | ok => exact controlled_paint.2 (by decide)
  | skipped => exact controlled_paint.2 (by decide)
  | waiting => exact controlled_paint.2 (by decide)

theorem controlled_suffix {text : Option CodeUnits} :
    (suffix palette text).Controlled ↔ ∀ shown ∈ text, ControlFree shown := by
  cases text with
  | none => exact iff_of_true controlled_nil fun shown isShown => by cases isShown
  | some text =>
    rw [suffix, controlled_append, controlled_write, controlled_paint]
    constructor
    · intro free shown isShown
      cases isShown
      exact free.2
    · intro free
      exact ⟨by decide, free text rfl⟩

theorem controlled_moduleLine {detail elapsed : Option CodeUnits}
    (elapsedFree : ∀ shown ∈ elapsed, ControlFree shown) {extraGuideDepths : List Nat}
    {name : CodeUnits} {status : DisplayStatus} :
    (renderModuleLine live palette detail elapsed extraGuideDepths name status).Controlled ↔
      ControlFree name ∧ ∀ shown ∈ detail, ControlFree shown := by
  have gap : ControlFree (codeUnits "  ") := by decide
  simp only [renderModuleLine, controlled_append, controlled_write, controlFree_padEnd_iff,
    controlled_suffix, controlled_icon, controlled_statusText, gap,
    controlled_guideIndent controlFree_moduleIndent, and_true, true_and]
  exact and_iff_left elapsedFree

theorem controlled_diffLine {line : CodeUnits} :
    (colorizeDiffLine palette line).Controlled ↔ ControlFree line := by
  rw [colorizeDiffLine]
  split
  · exact controlled_paint
  split
  · exact controlled_paint
  split
  · exact controlled_paint
  · exact controlled_paint

theorem controlled_diffLines (secrets : PreparedSecrets) (diff : CodeUnits) :
    ∀ line ∈ renderDiffLines palette secrets diff, Output.Controlled line := by
  intro line member
  rw [renderDiffLines] at member
  split at member
  · cases member
  · obtain ⟨text, isLine, rfl⟩ := List.mem_map.1 member
    have free := controlFree_splitLines_iff.2
      (sanitize_controlFree .text (maskPreparedSecrets diff secrets))
    rw [controlled_append, controlled_write, controlled_diffLine]
    exact ⟨by decide, free text isLine⟩

theorem controlled_continuationLine {extraGuideDepths : List Nat} {line : Output} :
    (writeContinuationLine live palette extraGuideDepths line).Controlled ↔
      line.Controlled := by
  have newline : ControlFree [LF] := by decide
  simp only [writeContinuationLine, controlled_append, controlled_write, newline,
    controlled_guideIndent controlFree_continuationIndent, and_true, true_and]

theorem controlled_continuationBlock {detailLines : List CodeUnits} {diffLines : List Output}
    (diffControlled : ∀ line ∈ diffLines, Output.Controlled line) {extraGuideDepths : List Nat} :
    (writeContinuationBlock live palette detailLines diffLines extraGuideDepths).Controlled ↔
      ∀ line ∈ detailLines, ControlFree line := by
  simp only [writeContinuationBlock, controlled_flatMap, controlled_continuationLine,
    List.forall_mem_append, List.forall_mem_map, controlled_paint]
  exact and_iff_left diffControlled

/-! ### Whole results -/

/-- A name is shown as it is unless it lists packages, and then the packages are. -/
def NameControlled (name : CodeUnits) : Prop :=
  splitPackageModuleName name = none → ControlFree name

def PackagesControlled (name : CodeUnits) (status : DisplayStatus) : Prop :=
  ∀ packageModule, splitPackageModuleName name = some packageModule → status ≠ .waiting →
    ∀ entry ∈ packageModule.packages, ControlFree entry

theorem controlFree_displayName_iff {width : Nat} {detail : Option CodeUnits} {name : CodeUnits}
    {status : DisplayStatus} {columns : Option Nat} :
    (ControlFree (formatDisplayModule width detail name status columns).name ∧
      ∀ shown ∈ (formatDisplayModule width detail name status columns).detail, ControlFree shown) ↔
      NameControlled name ∧ ∀ shown ∈ detail, ControlFree shown := by
  rw [NameControlled]
  cases split : splitPackageModuleName name with
  | none =>
    simp only [formatDisplayModule, split, forall_const]
  | some packageModule =>
    have summary := controlFree_summaryName split
    simp only [formatDisplayModule, split, summary, Option.mem_some_iff, forall_eq',
      controlFree_summaryDetail_iff, reduceCtorEq, false_implies, true_and]

theorem controlFree_detailLines_iff {width : Nat} {detail : Option CodeUnits} {name : CodeUnits}
    {status : DisplayStatus} {columns : Option Nat} :
    (∀ line ∈ (formatDisplayModule width detail name status columns).detailLines,
      ControlFree line) ↔ PackagesControlled name status := by
  rw [PackagesControlled]
  cases split : splitPackageModuleName name with
  | none =>
    simp only [formatDisplayModule, split, List.not_mem_nil, false_implies, implies_true,
      reduceCtorEq]
  | some packageModule =>
    simp only [formatDisplayModule, split, Option.some.injEq, forall_eq']
    split
    · rename_i waiting
      simp only [waiting, List.not_mem_nil, false_implies, implies_true, ne_eq, not_true_eq_false]
    · rename_i shown
      rw [controlFree_packageColumns_iff]
      exact ⟨fun free _ => free, fun free => free shown⟩

/-- What is left of a line that the spinner has to cut. -/
def cutLine (terminal : Terminal) (live : LiveOutputState) (line : Output) : Option CodeUnits :=
  if usesSpinner terminal live then visiblePart terminal line else none

/-- The texts of a result that reach the terminal unsanitized hold no control
character: the name and the detail, or what can be seen of them, and the packages. -/
def RowControlled (terminal : Terminal) (live : LiveOutputState) (secrets : PreparedSecrets)
    (extraGuideDepths : List Nat) (result : ShownResult) : Prop :=
  (match cutLine terminal live (resultLine terminal live secrets extraGuideDepths result) with
    | some visible => ControlFree visible
    | none => NameControlled (maskPreparedSecrets result.name secrets) ∧
        ∀ detail ∈ result.detail.map (maskPreparedSecrets · secrets), ControlFree detail) ∧
    PackagesControlled (maskPreparedSecrets result.name secrets) result.status

theorem resultElapsed_free (result : ShownResult) :
    ∀ shown ∈ resultElapsed terminal live result, ControlFree shown := by
  rw [resultElapsed]
  split
  · intro shown isShown
    obtain ⟨startedAt, _, elapsed⟩ := Option.bind_eq_some_iff.1 isShown
    exact controlFree_formatModuleElapsed _ _ shown elapsed
  · exact controlFree_formatModuleElapsed _ _

theorem controlled_resultLine_iff {secrets : PreparedSecrets} {extraGuideDepths : List Nat}
    {result : ShownResult} : (resultLine terminal live secrets extraGuideDepths result).Controlled ↔
      NameControlled (maskPreparedSecrets result.name secrets) ∧
        ∀ detail ∈ result.detail.map (maskPreparedSecrets · secrets), ControlFree detail := by
  rw [resultLine, controlled_moduleLine (resultElapsed_free result), displayModule]
  exact controlFree_displayName_iff

theorem controlled_animatedLine {line : Output} :
    (writeAnimatedModuleLine terminal live line).1.Controlled ↔
      (fitAnimatedModuleLine terminal line).Controlled := by
  have hidden : (hideCursor terminal live).1.Controlled := by
    rw [hideCursor]
    split
    · exact controlled_nil
    · exact controlled_own _
  rw [writeAnimatedModuleLine]
  dsimp only
  rw [controlled_append, controlled_append]
  exact and_iff_right ⟨hidden, List.forall_mem_cons.2 ⟨trivial, controlled_own _⟩⟩

theorem controlled_fitted_iff {line : Output} : (fitAnimatedModuleLine terminal line).Controlled ↔
      match visiblePart terminal line with
      | some visible => ControlFree visible
      | none => line.Controlled := by
  have ellipsis : ControlFree (codeUnits "…") := by decide
  rw [fitAnimatedModuleLine]
  cases visiblePart terminal line with
  | none => rfl
  | some visible =>
    dsimp only
    rw [controlled_write, controlFree_append]
    exact and_iff_left ellipsis

theorem controlled_printResultLine_iff {line : Output} :
    (printResultLine terminal live line).1.Controlled ↔
      match cutLine terminal live line with
      | some visible => ControlFree visible
      | none => line.Controlled := by
  have newline : ControlFree [LF] := by decide
  have stopped : (showCursor live).1.Controlled := by
    rw [showCursor]
    split
    · exact controlled_own _
    · exact controlled_nil
  rw [printResultLine, cutLine]
  split
  · dsimp only
    rw [controlled_append, controlled_append, controlled_write, controlled_animatedLine,
      controlled_fitted_iff, stopAnimatedModuleLine, and_iff_left newline, and_iff_right stopped]
  · rw [controlled_append, controlled_write, and_iff_left newline]

theorem controlled_renderedResult_iff {secrets : PreparedSecrets} {extraGuideDepths : List Nat}
    {result : ShownResult} :
    (printRenderedModuleResult terminal live secrets extraGuideDepths result).1.Controlled ↔
      RowControlled terminal live secrets extraGuideDepths result := by
  have diffControlled : ∀ line ∈ resultDiffLines terminal.palette secrets result,
      Output.Controlled line := by
    rw [resultDiffLines]
    split
    · exact fun line member => absurd member List.not_mem_nil
    · exact controlled_diffLines secrets _
  rw [printRenderedModuleResult, RowControlled]
  dsimp only
  rw [controlled_append, controlled_continuationBlock diffControlled, displayModule,
    controlFree_detailLines_iff, controlled_printResultLine_iff]
  apply and_congr_left'
  have sameCut : cutLine terminal { live with activeModuleStartedAt := none } =
      cutLine terminal live := rfl
  rw [sameCut]
  split
  · rfl
  · exact controlled_resultLine_iff

end Rows

/-! ### Failures -/

section Failures

variable {palette : Palette} {secrets : PreparedSecrets} {live : LiveOutputState}

theorem controlled_errorLine {text : CodeUnits} :
    (errorLine palette live text).Controlled ↔ ControlFree text := by
  have newline : ControlFree [LF] := by decide
  rw [errorLine, controlled_append, controlled_paint, controlFree_append, controlled_write]
  simp only [controlFree_errorIndent, newline, true_and, and_true]

theorem controlled_verboseErrorBlock {label content : CodeUnits} (labelFree : ControlFree label) :
    (printVerboseErrorBlock palette live label content).Controlled ↔
      ControlFree (trimUnits content) := by
  rw [printVerboseErrorBlock]
  split
  · rename_i blank
    rw [blank]
    exact iff_of_true controlled_nil controlFree_nil
  · simp only [controlled_flatMap, controlled_errorLine, List.forall_mem_cons, labelFree, true_and,
      controlFree_splitLines_iff]

theorem controlFree_trimmedStream (text : CodeUnits) :
    ControlFree (trimUnits (sanitizedStream secrets text)) :=
  (sanitize_controlFree .text (maskPreparedSecrets text secrets)).of_subset (trimUnits_subset _)

/-- The streams of a command are sanitized. -/
theorem controlled_commandStreams (streams : CommandStreams) :
    (printCommandStreams palette secrets live streams).Controlled := by
  rw [printCommandStreams, printVerboseCommandError, controlled_append,
    controlled_verboseErrorBlock (by decide), controlled_verboseErrorBlock (by decide)]
  exact ⟨controlFree_trimmedStream _, controlFree_trimmedStream _⟩

theorem controlFree_trimmedLines (text : CodeUnits) :
    ∀ line ∈ trimmedLines (sanitizedStream secrets text), ControlFree line := by
  rw [trimmedLines]
  split
  · exact fun line member => absurd member List.not_mem_nil
  · exact controlFree_splitLines_iff.2 (controlFree_trimmedStream text)

/-- So is the message of the error itself. -/
theorem controlled_commandError (stdout stderr : CodeUnits) :
    (printCommandError palette secrets live stdout stderr).Controlled := by
  rw [printCommandError]
  split
  · exact controlled_nil
  · simp only [controlled_flatMap, controlled_errorLine, List.forall_mem_cons,
      List.forall_mem_append]
    exact ⟨by decide, controlFree_trimmedLines stderr, controlFree_trimmedLines stdout⟩

theorem controlFree_causeLabel (depth : Nat) : ControlFree (causeLabel depth) := by
  rw [causeLabel, controlFree_append, controlFree_append]
  exact ⟨⟨by decide, controlFree_digits depth⟩, by decide⟩

theorem controlled_cause {text : CodeUnits} : (printCause palette secrets live text).Controlled ↔
      ControlFree (maskPreparedSecrets text secrets) := by
  rw [printCause, controlled_errorLine, controlFree_append]
  exact and_iff_right (by decide)

variable {Ref : Type*}

/-- What the masker leaves of the texts met along the causes of an error holds no
control character: the messages of the errors and the values at the end. -/
def CausesControlled (secrets : PreparedSecrets) (errors : Ref → ErrorFields Ref)
    (error : Ref) : Prop :=
  (∀ ref ≠ error, ChainReaches (fun ref => (errors ref).cause) (errors error).cause (.item ref) →
    ControlFree (maskPreparedSecrets (errors ref).message secrets)) ∧
  ∀ value, ChainReaches (fun ref => (errors ref).cause) (errors error).cause (.last value) →
    ControlFree (maskPreparedSecrets value secrets)

/-- The same of the stacks of the error and of its causes, trimmed. -/
def StacksControlled (secrets : PreparedSecrets) (errors : Ref → ErrorFields Ref)
    (error : Ref) : Prop :=
  (∀ ref, ref = error ∨
      ChainReaches (fun ref => (errors ref).cause) (errors error).cause (.item ref) →
    ControlFree (trimUnits (maskPreparedSecrets (errors ref).stackOrMessage secrets))) ∧
  ∀ value, ChainReaches (fun ref => (errors ref).cause) (errors error).cause (.last value) →
    ControlFree (trimUnits (maskPreparedSecrets value secrets))

/-- An error that is no failed command has controlled causes, and with `--verbose`
controlled stacks. -/
def FailureControlled (secrets : PreparedSecrets) (errors : Ref → ErrorFields Ref)
    (thrown : Thrown Ref) (verbose : Bool) : Prop :=
  ∀ error, thrown = .error error → (errors error).command = none →
    CausesControlled secrets errors error ∧
      (verbose = true → StacksControlled secrets errors error)

variable {errors : Ref → ErrorFields Ref}

theorem visitedUpTo_root (error : Ref) :
    VisitedUpTo (fun ref => (errors ref).cause) {error} (errors error).cause := by
  intro key isVisited
  rw [Finset.mem_singleton.1 isVisited]
  exact .inl rfl

theorem controlled_causeStreams (command : Option CommandStreams) :
    (printCauseStreams palette secrets live command).Controlled := by
  cases command with
  | none => exact controlled_nil
  | some streams => exact controlled_commandStreams streams

variable [Fintype Ref] [DecidableEq Ref]

theorem controlled_causeChain_iff {error : Ref} :
    (printCauseChain palette secrets live errors error).Controlled ↔
      CausesControlled secrets errors error := by
  have item (ref : Ref) : Output.Controlled
      (printCause palette secrets live (errors ref).message ++
        printCauseStreams palette secrets live (errors ref).command) ↔
      ControlFree (maskPreparedSecrets (errors ref).message secrets) := by
    rw [controlled_append, controlled_cause]
    exact and_iff_left (controlled_causeStreams _)
  have walked : (printCauseChain palette secrets live errors error).Controlled ↔
      (∀ ref ∉ ({error} : Finset Ref),
        ChainReaches (fun ref => (errors ref).cause) (errors error).cause (.item ref) →
          ControlFree (maskPreparedSecrets (errors ref).message secrets)) ∧
      ∀ value, ChainReaches (fun ref => (errors ref).cause) (errors error).cause (.last value) →
        ControlFree (maskPreparedSecrets value secrets) := by
    apply forall_mem_walkChain_iff
    · exact fun _ => item
    · exact fun _ _ => controlled_cause
    · exact fun _ => controlled_nil
    · exact visitedUpTo_root error
  simp only [Finset.mem_singleton] at walked
  exact walked

theorem controlled_genericError_iff {error : Ref} :
    (printVerboseGenericError palette secrets live errors error).Controlled ↔
      StacksControlled secrets errors error := by
  have walked : (printVerboseErrorCause palette secrets live errors {error} 1
        (errors error).cause).Controlled ↔
      (∀ ref ∉ ({error} : Finset Ref),
        ChainReaches (fun ref => (errors ref).cause) (errors error).cause (.item ref) →
          ControlFree (trimUnits (maskPreparedSecrets (errors ref).stackOrMessage secrets))) ∧
      ∀ value, ChainReaches (fun ref => (errors ref).cause) (errors error).cause (.last value) →
        ControlFree (trimUnits (maskPreparedSecrets value secrets)) := by
    apply forall_mem_walkChain_iff
    · exact fun depth _ => controlled_verboseErrorBlock (controlFree_causeLabel depth)
    · exact fun depth _ => controlled_verboseErrorBlock (controlFree_causeLabel depth)
    · exact fun depth =>
        (controlled_verboseErrorBlock (controlFree_causeLabel depth)).2 (by decide)
    · exact visitedUpTo_root error
  rw [printVerboseGenericError, controlled_append, controlled_verboseErrorBlock (by decide), walked]
  constructor
  · rintro ⟨own, items, lasts⟩
    refine ⟨?_, lasts⟩
    rintro ref (rfl | reaches)
    · exact own
    · by_cases same : ref = error
      · rw [same]
        exact own
      · exact items ref (Finset.notMem_singleton.2 same) reaches
  · rintro ⟨items, lasts⟩
    refine ⟨items error (.inl rfl), ?_, lasts⟩
    intro ref _ reaches
    exact items ref (.inr reaches)

theorem controlled_commandFailure_iff {thrown : Thrown Ref} {verbose : Bool} :
    (printCommandFailure palette secrets live errors thrown verbose).Controlled ↔
      FailureControlled secrets errors thrown verbose := by
  rw [FailureControlled]
  cases thrown with
  | value text =>
    refine iff_of_true (controlled_commandError _ _) ?_
    intro error isError
    cases isError
  | error error =>
    have onlyError : (∀ other, Thrown.error error = .error other →
        (errors other).command = none → CausesControlled secrets errors other ∧
          (verbose = true → StacksControlled secrets errors other)) ↔
        ((errors error).command = none → CausesControlled secrets errors error ∧
          (verbose = true → StacksControlled secrets errors error)) := by
      simp only [Thrown.error.injEq, forall_eq']
    rw [onlyError, printCommandFailure]
    cases (errors error).command with
    | none =>
      cases verbose with
      | false =>
        simp only [controlled_append, controlled_commandError, controlled_causeChain_iff,
          controlled_nil, Bool.false_eq_true, if_false, true_and, and_true, forall_const,
          false_implies]
      | true =>
        simp only [controlled_append, controlled_commandError, controlled_causeChain_iff,
          controlled_genericError_iff, if_true, true_and, forall_const]
    | some streams =>
      cases verbose with
      | false =>
        simp only [controlled_commandError, Bool.false_eq_true, if_false, reduceCtorEq,
          false_implies]
      | true =>
        simp only [controlled_append, controlled_commandError, controlled_commandStreams,
          if_true, and_true, reduceCtorEq, false_implies]

end Failures

/-! ### The printers -/

/-- The printers write nothing uncontrolled just when the texts they mask but do not
sanitize hold no control character: a module's name, packages and detail, the causes
of an error that is no failed command, and its stacks where they are shown. -/
theorem printers_controlled_iff {Ref : Type*} [Fintype Ref] [DecidableEq Ref]
    (terminal : Terminal) (live : LiveOutputState) (secrets : PreparedSecrets)
    (result : ShownResult) (errors : Ref → ErrorFields Ref) (thrown : Thrown Ref)
    (verbose : Bool) :
    ((printModuleResult terminal live secrets result).1.Controlled ↔
      RowControlled terminal (clearPendingRecipeClosureGuides live) secrets [] result) ∧
    ((printRecipeModuleResult terminal live secrets result).1.Controlled ↔
      RowControlled terminal live secrets live.pendingRecipeClosureGuideDepths result) ∧
    ((printCommandFailure terminal.palette secrets live errors thrown verbose).Controlled ↔
      FailureControlled secrets errors thrown verbose) :=
  ⟨controlled_renderedResult_iff, controlled_renderedResult_iff, controlled_commandFailure_iff⟩

/-- An error whose cause is an error with a terminal title in its message. -/
def titledCause : Bool → ErrorFields Bool
  | false => { message := codeUnits "x", text := codeUnits "Error: x", cause := .item true }
  | true =>
      { message := ESC :: codeUnits "]0;title\x07"
        text := codeUnits "Error: " ++ ESC :: codeUnits "]0;title\x07" }

/-- The message of a cause is masked and written as it is. -/
theorem titled_cause_uncontrolled :
    ¬ (printCommandFailure Palette.colourless ⟨[]⟩ {} titledCause (.error false)
      false).Controlled := by
  intro controlled
  have failure := controlled_commandFailure_iff.mp controlled
  have causes := (failure false rfl rfl).1.1 true (by decide) (.here _)
  exact absurd causes (by decide)

end Paratix.Masking
