/-
Module: Paratix.Masking.Output
Purpose: The texts of a module's result row, and the printers of result rows and of failures.
Main exports: isControlUnit, printCommandFailure
-/
import Paratix.Foundation.LinePattern
import Paratix.Masking.TerminalSanitizer
import Paratix.Foundation.Chain

namespace Paratix.Masking

open Foundation

/-! ### Control characters -/

/-- A C0 or C1 control character other than tab and newline. -/
def isControlUnit (unit : UInt16) : Bool :=
  let code := unit.toNat
  (code ≤ BYTE_C0_MAX && !isAllowedTextControl code) ||
    (BYTE_C1_MIN ≤ code && code ≤ BYTE_C1_MAX)

/-- No control character, and so no escape sequence, stands in the text. -/
def ControlFree (text : CodeUnits) : Prop := ∀ unit ∈ text, isControlUnit unit = false

instance (text : CodeUnits) : Decidable (ControlFree text) :=
  List.decidableBAll (fun unit => isControlUnit unit = false) text

theorem controlFree_nil : ControlFree [] := fun _ member => absurd member List.not_mem_nil

theorem controlFree_append {front back : CodeUnits} :
    ControlFree (front ++ back) ↔ ControlFree front ∧ ControlFree back := List.forall_mem_append

theorem ControlFree.of_subset {text other : CodeUnits} (clean : ControlFree text)
    (subset : other ⊆ text) : ControlFree other := fun unit member => clean unit (subset member)

theorem controlFree_replicate (count : Nat) {unit : UInt16} (allowed : isControlUnit unit = false) :
    ControlFree (List.replicate count unit) := by
  intro other member
  rw [List.eq_of_mem_replicate member]
  exact allowed

theorem lt_of_isAllowedTextControl {code : Nat} (allowed : isAllowedTextControl code = true) :
    code < BYTE_C1_MIN := by
  rw [isAllowedTextControl, Bool.or_eq_true, decide_eq_true_eq, decide_eq_true_eq] at allowed
  simp only [BYTE_TAB, BYTE_LF, BYTE_C1_MIN] at allowed ⊢
  omega

/-- Nothing that the sanitizer lets through is a control character. -/
theorem sanitize_controlFree (state : TerminalSanitizerState) (text : CodeUnits) :
    ControlFree (sanitize state text).2 := by
  induction text generalizing state with
  | nil => exact controlFree_nil
  | cons char text ih =>
    rw [sanitize, controlFree_append]
    refine ⟨?_, ih _⟩
    cases state with
    | csi => exact controlFree_nil
    | esc => exact controlFree_nil
    | osc => exact controlFree_nil
    | oscEsc => exact controlFree_nil
    | text =>
      simp only [consumeTerminalChar, consumeTextState]
      split
      · exact controlFree_nil
      split
      · exact controlFree_nil
      split
      · exact controlFree_nil
      dsimp only
      split
      · rename_i kept
        intro unit member
        rw [List.mem_singleton.1 member]
        simp only [isControlUnit, isControlByte, Bool.or_eq_true, Bool.not_eq_true',
          Bool.or_eq_false_iff, Bool.and_eq_false_iff] at kept ⊢
        rcases kept with ⟨⟨notC0, _⟩, notC1⟩ | allowed
        · exact ⟨.inl notC0, notC1⟩
        · refine ⟨.inr (by rw [allowed]; rfl), .inl ?_⟩
          rw [decide_eq_false_iff_not, Nat.not_le]
          exact lt_of_isAllowedTextControl allowed
      · exact controlFree_nil

/-- `sanitizeTerminalText` -/
def sanitizeTerminalText (text : CodeUnits) : CodeUnits := (sanitize .text text).2

/-! ### Texts as the language handles them -/

/-- White space is what `trim` removes; no surrogate is any. -/
def isSpaceUnit (unit : UInt16) : Bool := isJsSpace (Char.ofNat unit.toNat)

/-- `text.trim()` -/
def trimUnits (text : CodeUnits) : CodeUnits :=
  ((text.dropWhile isSpaceUnit).reverse.dropWhile isSpaceUnit).reverse

theorem trimUnits_subset (text : CodeUnits) : trimUnits text ⊆ text := by
  intro unit member
  have kept := (List.dropWhile_suffix _).subset (List.mem_reverse.1 member)
  exact (List.dropWhile_suffix _).subset (List.mem_reverse.1 kept)

def LF : UInt16 := codeUnit '\n'

/-- `text.split("\n")` -/
def splitLines (text : CodeUnits) : List CodeUnits := text.splitOn LF

theorem controlFree_splitLines_iff {text : CodeUnits} :
    (∀ line ∈ splitLines text, ControlFree line) ↔ ControlFree text := by
  induction text with
  | nil =>
    rw [splitLines, List.splitOn_nil]
    exact List.forall_mem_singleton
  | cons unit text ih =>
    have separator : isControlUnit LF = false := by decide
    have parts : splitLines text ≠ [] := List.splitOn_ne_nil _ _
    rw [splitLines, List.splitOn_cons_eq_if_modifyHead, ← splitLines]
    simp only [beq_iff_eq]
    split
    · rename_i isSeparator
      rw [List.forall_mem_cons, ih, isSeparator]
      exact ⟨fun clean => List.forall_mem_cons.2 ⟨separator, clean.2⟩,
        fun clean => ⟨controlFree_nil, (List.forall_mem_cons.1 clean).2⟩⟩
    · obtain ⟨line, lines, isLines⟩ := List.exists_cons_of_ne_nil parts
      rw [isLines, List.forall_mem_cons] at ih
      rw [isLines, List.modifyHead_cons, List.forall_mem_cons]
      constructor
      · rintro ⟨cleanLine, cleanLines⟩
        have cleanLine := List.forall_mem_cons.1 cleanLine
        exact List.forall_mem_cons.2 ⟨cleanLine.1, ih.1 ⟨cleanLine.2, cleanLines⟩⟩
      · intro clean
        have clean := List.forall_mem_cons.1 clean
        have rest := ih.2 clean.2
        exact ⟨List.forall_mem_cons.2 ⟨clean.1, rest.1⟩, rest.2⟩

/-- `text.padEnd(width)` -/
def padEnd (width : Nat) (text : CodeUnits) : CodeUnits :=
  text ++ List.replicate (width - text.length) (codeUnit ' ')

theorem controlFree_padEnd_iff {width : Nat} {text : CodeUnits} :
    ControlFree (padEnd width text) ↔ ControlFree text := by
  rw [padEnd, controlFree_append]
  exact and_iff_left (controlFree_replicate _ (by decide))

/-- A number in a template string. -/
def digits (value : Nat) : CodeUnits := (decimal value).map codeUnit

theorem controlFree_digits (value : Nat) : ControlFree (digits value) := by
  intro unit member
  obtain ⟨char, isDigit, rfl⟩ := List.mem_map.1 member
  have bounds : 48 ≤ char.toNat ∧ char.toNat ≤ 57 := by
    simpa [Char.isDigit, UInt32.le_iff_toNat_le] using isDigit_of_mem_decimal isDigit
  have code : (codeUnit char).toNat = char.toNat := by
    rw [codeUnit, UInt16.toNat_ofNat']
    exact Nat.mod_eq_of_lt (by omega)
  simp only [isControlUnit, code, BYTE_C0_MAX, BYTE_C1_MIN, Bool.or_eq_false_iff,
    Bool.and_eq_false_iff, decide_eq_false_iff_not]
  omega

/-! ### Package lists -/

def PACKAGE_MODULE_SUFFIX_LENGTH : Nat := 2
def PACKAGE_COLUMN_GAP_WIDTH : Nat := 2
def DEFAULT_TERMINAL_COLUMNS : Nat := 100
def MIN_PACKAGE_COLUMNS_WIDTH : Nat := 24
def MIN_PACKAGE_COLUMN_WIDTH : Nat := 18
def MIN_ANIMATED_LINE_COLUMNS : Nat := 8
def ELAPSED_DISPLAY_THRESHOLD_MS : Nat := 1000
def MILLISECONDS_PER_SECOND : Nat := 1000
def MILLISECONDS_PER_MINUTE : Nat := 60000
def SECONDS_PER_MINUTE : Nat := 60

inductive DisplayStatus where
  | changed
  | failed
  | ok
  | skipped
  | waiting
deriving DecidableEq, Repr

structure PackageModuleName where
  packages : List CodeUnits
  summaryName : CodeUnits
deriving DecidableEq, Repr

/-- The prefixes of the names of modules that list packages. -/
def packagePrefixes : List CodeUnits :=
  [codeUnits "package.installed: ", codeUnits "package.absent: "]

def splitPackages (list : CodeUnits) : List CodeUnits :=
  ((list.splitOn (codeUnit ',')).map trimUnits).filter (· ≠ [])

/-- Only the first prefix that fits is looked at. -/
def splitPackageModuleName (name : CodeUnits) : Option PackageModuleName :=
  match packagePrefixes.find? (·.isPrefixOf name) with
  | none => none
  | some start =>
      let packages := splitPackages (name.drop start.length)
      if packages = [] then none
      else some ⟨packages, start.take (start.length - PACKAGE_MODULE_SUFFIX_LENGTH)⟩

/-- One cell of the columns; the last of its row is not padded. -/
def packageCell (packages : List CodeUnits) (columnWidth columnCount rowCount rowIndex
    columnIndex : Nat) : CodeUnits :=
  let packageIndex := rowIndex + columnIndex * rowCount
  match packages[packageIndex]? with
  | none => []
  | some packageName =>
      let isLastVisibleColumn :=
        columnIndex = columnCount - 1 || packageIndex + rowCount ≥ packages.length
      if isLastVisibleColumn then packageName else padEnd columnWidth packageName

/-- Packages listed column by column. -/
def getPackageColumns (continuationIndentWidth : Nat) (packages : List CodeUnits)
    (terminalColumns : Option Nat) : List CodeUnits :=
  if packages.length ≤ 1 then packages
  else
    let availableWidth :=
      max (terminalColumns.getD DEFAULT_TERMINAL_COLUMNS - continuationIndentWidth)
        MIN_PACKAGE_COLUMNS_WIDTH
    let widestPackage := (packages.map List.length).foldl max 0
    let columnWidth := max (widestPackage + PACKAGE_COLUMN_GAP_WIDTH) MIN_PACKAGE_COLUMN_WIDTH
    let columnCount := max (availableWidth / columnWidth) 1
    let rowCount := (packages.length + columnCount - 1) / columnCount
    (List.range rowCount).map fun rowIndex =>
      ((List.range columnCount).map
        (packageCell packages columnWidth columnCount rowCount rowIndex)).flatten

theorem controlFree_packageCell {packages : List CodeUnits}
    (clean : ∀ entry ∈ packages, ControlFree entry) (columnWidth columnCount rowCount rowIndex columnIndex : Nat) :
    ControlFree (packageCell packages columnWidth columnCount rowCount rowIndex columnIndex) := by
  rw [packageCell]
  dsimp only
  split
  · exact controlFree_nil
  · rename_i packageName found
    have clean := clean packageName (List.mem_of_getElem? found)
    split
    · exact clean
    · exact controlFree_padEnd_iff.2 clean

/-- Every package stands in one of the cells. -/
theorem exists_packageCell {packages : List CodeUnits} {index : Nat}
    (isIndex : index < packages.length) (columnWidth : Nat) {columnCount : Nat}
    (someColumn : 0 < columnCount) {rowCount : Nat}
    (isRowCount : rowCount = (packages.length + columnCount - 1) / columnCount) :
    ∃ rowIndex < rowCount, ∃ columnIndex < columnCount,
      ControlFree (packageCell packages columnWidth columnCount rowCount rowIndex columnIndex) →
        ControlFree packages[index] := by
  have enough : packages.length ≤ columnCount * rowCount := by
    rw [isRowCount]
    have whole := Nat.div_add_mod (packages.length + columnCount - 1) columnCount
    have rest := Nat.mod_lt (packages.length + columnCount - 1) someColumn
    omega
  have someRow : 0 < rowCount := by
    refine Nat.pos_of_ne_zero fun noRow => ?_
    rw [noRow, Nat.mul_zero] at enough
    omega
  refine ⟨index % rowCount, Nat.mod_lt _ someRow, index / rowCount, ?_, ?_⟩
  · rw [Nat.div_lt_iff_lt_mul someRow]
    omega
  · have place : index % rowCount + index / rowCount * rowCount = index := by
      rw [Nat.mul_comm]
      exact Nat.mod_add_div index rowCount
    rw [packageCell]
    dsimp only
    rw [place, List.getElem?_eq_getElem isIndex]
    dsimp only
    split
    · exact id
    · exact controlFree_padEnd_iff.1

/-- The columns show every package, and nothing else from outside. -/
theorem controlFree_packageColumns_iff {continuationIndentWidth : Nat} {packages : List CodeUnits}
    {terminalColumns : Option Nat} :
    (∀ line ∈ getPackageColumns continuationIndentWidth packages terminalColumns,
        ControlFree line) ↔
      ∀ entry ∈ packages, ControlFree entry := by
  rw [getPackageColumns]
  split
  · rfl
  · dsimp only
    constructor
    · intro cleanLines entry member
      obtain ⟨index, isIndex, rfl⟩ := List.mem_iff_getElem.1 member
      obtain ⟨rowIndex, isRow, columnIndex, isColumn, shown⟩ :=
        exists_packageCell isIndex _ (lt_of_lt_of_le Nat.zero_lt_one (le_max_right _ 1)) rfl
      refine shown ((cleanLines _ (List.mem_map_of_mem (List.mem_range.2 isRow))).of_subset ?_)
      exact (List.sublist_flatten_of_mem
        (List.mem_map_of_mem (List.mem_range.2 isColumn))).subset
    · intro clean line isLine
      obtain ⟨rowIndex, _, rfl⟩ := List.mem_map.1 isLine
      intro unit member
      obtain ⟨cell, isCell, inCell⟩ := List.mem_flatten.1 member
      obtain ⟨columnIndex, _, rfl⟩ := List.mem_map.1 isCell
      exact controlFree_packageCell clean _ _ _ _ _ unit inCell

def getPackageSummaryDetail (packageCount : Nat) (detail : Option CodeUnits) : CodeUnits :=
  let packageLabel :=
    if packageCount = 1 then codeUnits "1 package" else digits packageCount ++ codeUnits " packages"
  match detail with
  | none => packageLabel
  | some detail => packageLabel ++ codeUnits " · " ++ detail

theorem controlFree_summaryDetail_iff {packageCount : Nat} {detail : Option CodeUnits} :
    ControlFree (getPackageSummaryDetail packageCount detail) ↔
      ∀ shown ∈ detail, ControlFree shown := by
  have label : ControlFree (if packageCount = 1 then codeUnits "1 package"
      else digits packageCount ++ codeUnits " packages") := by
    split
    · decide
    · rw [controlFree_append]
      exact ⟨controlFree_digits _, by decide⟩
  cases detail with
  | none => exact iff_of_true label fun shown isShown => by cases isShown
  | some detail =>
    rw [getPackageSummaryDetail, controlFree_append, controlFree_append]
    constructor
    · intro clean shown isShown
      cases isShown
      exact clean.2
    · intro clean
      exact ⟨⟨label, by decide⟩, clean detail rfl⟩

theorem controlFree_summaryName {name : CodeUnits} {packageModule : PackageModuleName}
    (split : splitPackageModuleName name = some packageModule) :
    ControlFree packageModule.summaryName := by
  rw [splitPackageModuleName] at split
  cases found : packagePrefixes.find? (·.isPrefixOf name) with
  | none =>
    rw [found] at split
    cases split
  | some start =>
    rw [found] at split
    dsimp only at split
    split at split
    · cases split
    · cases split
      have cleanPrefixes : ∀ start ∈ packagePrefixes, ControlFree start := by decide
      exact (cleanPrefixes start (List.mem_of_find?_eq_some found)).of_subset
        (List.take_subset _ _)

structure DisplayModule where
  detail : Option CodeUnits
  detailLines : List CodeUnits
  name : CodeUnits
deriving DecidableEq, Repr

def formatDisplayModule (continuationIndentWidth : Nat) (detail : Option CodeUnits)
    (name : CodeUnits) (status : DisplayStatus) (terminalColumns : Option Nat) : DisplayModule :=
  match splitPackageModuleName name with
  | none => ⟨detail, [], name⟩
  | some packageModule =>
      { detail := some (getPackageSummaryDetail packageModule.packages.length detail)
        detailLines :=
          if status = .waiting then []
          else getPackageColumns continuationIndentWidth packageModule.packages terminalColumns
        name := packageModule.summaryName }

/-! ### Elapsed time -/

/-- `String(value).padStart(2, "0")` -/
def twoDigits (value : Nat) : CodeUnits :=
  List.replicate (2 - (digits value).length) (codeUnit '0') ++ digits value

/-- `tenths` is the number of tenths of a second that `toFixed(1)` shows of a
number of milliseconds. -/
def formatModuleElapsed (tenths : Nat → Nat) (elapsedMs : Int) : Option CodeUnits :=
  if elapsedMs < ELAPSED_DISPLAY_THRESHOLD_MS then none
  else
    let elapsed := elapsedMs.toNat
    if elapsed < MILLISECONDS_PER_MINUTE then
      some (digits (tenths elapsed / 10) ++ codeUnits "." ++ digits (tenths elapsed % 10) ++
        codeUnits "s")
    else
      let totalSeconds := elapsed / MILLISECONDS_PER_SECOND
      let minutes := totalSeconds / SECONDS_PER_MINUTE
      let seconds := totalSeconds % SECONDS_PER_MINUTE
      some (digits minutes ++ codeUnits "m " ++ twoDigits seconds ++ codeUnits "s")

theorem controlFree_formatModuleElapsed (tenths : Nat → Nat) (elapsedMs : Int) :
    ∀ elapsed ∈ formatModuleElapsed tenths elapsedMs, ControlFree elapsed := by
  intro elapsed isElapsed
  rw [formatModuleElapsed] at isElapsed
  split at isElapsed
  · cases isElapsed
  dsimp only at isElapsed
  split at isElapsed
  · cases isElapsed
    simp only [controlFree_append, controlFree_digits, true_and, and_true]
    exact ⟨by decide, by decide⟩
  · cases isElapsed
    simp only [controlFree_append, controlFree_digits, twoDigits, true_and, and_true]
    exact ⟨⟨by decide, controlFree_replicate _ (by decide)⟩, by decide⟩

/-! ### What is written -/

/-- The renderer's own codes, for colours and for the line it animates, and all
other text. -/
inductive Written where
  | own (codes : CodeUnits)
  | text (shown : CodeUnits)
deriving DecidableEq, Repr

abbrev Output := List Written

def Written.units : Written → CodeUnits
  | .own codes => codes
  | .text shown => shown

def Output.units (output : Output) : CodeUnits := output.flatMap Written.units

def write (text : CodeUnits) : Output := [.text text]

inductive Style where
  | cyan
  | dim
  | gray
  | green
  | red
  | yellow
deriving DecidableEq, Repr

/-- The colours of `pc`. Inside a text each closing code becomes an opening one, so
that the text keeps its colour to the end. -/
structure Palette where
  opening : Style → CodeUnits
  closing : Style → CodeUnits
  reopened : Style → CodeUnits → CodeUnits
  reopened_eq : ∀ style text, ControlFree text → reopened style text = text
  reopened_controlFree : ∀ style text, ControlFree (reopened style text) → ControlFree text

/-- `pc` without colour support -/
def Palette.colourless : Palette where
  opening _ := []
  closing _ := []
  reopened _ text := text
  reopened_eq _ _ _ := rfl
  reopened_controlFree _ _ clean := clean

def Palette.paint (palette : Palette) (style : Style) (text : CodeUnits) : Output :=
  [.own (palette.opening style), .text (palette.reopened style text),
    .own (palette.closing style)]

/-! ### The terminal and the state of the live output -/

/-- `animated` says whether a line can be rewritten; `tenths` is what `toFixed(1)`
shows of a number of milliseconds as seconds. -/
structure Terminal where
  palette : Palette
  animated : Bool
  columns : Option Nat
  stripVTControlCharacters : CodeUnits → CodeUnits
  tenths : Nat → Nat
  now : Int

structure LiveOutputState where
  activeModuleStartedAt : Option Int := none
  activeRecipeGuideDepths : List Nat := []
  activeSpinner : Bool := false
  cursorHidden : Bool := false
  pendingRecipeClosureGuideDepths : List Nat := []
  recipeOutputDepth : Int := -1
deriving DecidableEq, Repr

def MODULE_NAME_WIDTH : Nat := 56
def MIN_MODULE_NAME_WIDTH : Nat := 12
def OUTPUT_INDENT_UNIT : CodeUnits := codeUnits "  "
def ANSI_HIDE_CURSOR : CodeUnits := ESC :: codeUnits "[?25l"
def ANSI_SHOW_CURSOR : CodeUnits := ESC :: codeUnits "[?25h"
/-- `clearLine(0)` -/
def CLEAR_LINE : CodeUnits := ESC :: codeUnits "[2K"
/-- `cursorTo(0)` -/
def CURSOR_TO_START : CodeUnits := ESC :: codeUnits "[1G"

def repeatUnit (count : Nat) : CodeUnits := (List.replicate count OUTPUT_INDENT_UNIT).flatten

/-! ### Result rows -/

section Rows

variable (terminal : Terminal) (live : LiveOutputState)

def getModuleIcon (palette : Palette) : DisplayStatus → Output
  | .changed => palette.paint .yellow (codeUnits "↺")
  | .failed => palette.paint .red (codeUnits "✗")
  | .ok => palette.paint .green (codeUnits "✓")
  | .skipped => palette.paint .dim (codeUnits "⊘")
  | .waiting => palette.paint .cyan (codeUnits "|")

def getModuleStatusText (palette : Palette) : DisplayStatus → Output
  | .changed => palette.paint .yellow (codeUnits "changed")
  | .failed => palette.paint .red (codeUnits "failed")
  | .ok => palette.paint .green (codeUnits "ok")
  | .skipped => palette.paint .dim (codeUnits "skipped")
  | .waiting => palette.paint .cyan (codeUnits "running")

def getCurrentOutputDepth : Nat := live.recipeOutputDepth.toNat

def getGuideDot (palette : Palette) (depth : Nat) : Output :=
  if depth % 2 = 0 then palette.paint .gray (codeUnits "·")
  else palette.paint .cyan (codeUnits "·")

/-- A guide beyond the indent is left out. -/
def buildGuideIndent (palette : Palette) (baseIndent : CodeUnits)
    (extraGuideDepths : List Nat) : Output :=
  ((live.activeRecipeGuideDepths ++ extraGuideDepths).foldl
    (fun indentCharacters guideDepth =>
      indentCharacters.set (OUTPUT_INDENT_UNIT.length * (guideDepth + 1))
        (getGuideDot palette guideDepth))
    (baseIndent.map fun unit => write [unit])).flatten

def getModuleIndent : CodeUnits :=
  if live.recipeOutputDepth < 0 then OUTPUT_INDENT_UNIT
  else repeatUnit (getCurrentOutputDepth live + 2)

def getErrorIndent : CodeUnits := getModuleIndent live ++ codeUnits "│ "

def getContinuationIndent : CodeUnits := getModuleIndent live ++ codeUnits "   "

def getActiveModuleElapsed : Option CodeUnits :=
  live.activeModuleStartedAt.bind fun startedAt =>
    formatModuleElapsed terminal.tenths (terminal.now - startedAt)

/-- A dimmed text behind the status, if there is any. -/
def suffix (palette : Palette) : Option CodeUnits → Output
  | none => []
  | some text => write (codeUnits "  ") ++ palette.paint .dim text

def renderModuleLine (palette : Palette) (detail elapsed : Option CodeUnits)
    (extraGuideDepths : List Nat) (name : CodeUnits) (status : DisplayStatus) : Output :=
  let baseIndent := getModuleIndent live
  let alignedNameWidth := max (MODULE_NAME_WIDTH - baseIndent.length) MIN_MODULE_NAME_WIDTH
  buildGuideIndent live palette baseIndent extraGuideDepths ++ getModuleIcon palette status ++
    write (codeUnits "  ") ++ write (padEnd alignedNameWidth name) ++ write (codeUnits "  ") ++
    getModuleStatusText palette status ++ suffix palette detail ++ suffix palette elapsed

/-- What can be seen of a line that is too long for the terminal. -/
def visiblePart (line : Output) : Option CodeUnits :=
  match terminal.columns with
  | none => none
  | some columns =>
      if columns < MIN_ANIMATED_LINE_COLUMNS then none
      else
        let plainLine := terminal.stripVTControlCharacters line.units
        if plainLine.length < columns then none else some (plainLine.take (columns - 1))

def fitAnimatedModuleLine (line : Output) : Output :=
  match visiblePart terminal line with
  | none => line
  | some visible => write (visible ++ codeUnits "…")

def hideCursor : Output × LiveOutputState :=
  if live.cursorHidden || !terminal.animated then ([], live)
  else ([.own ANSI_HIDE_CURSOR], { live with cursorHidden := true })

def showCursor : Output × LiveOutputState :=
  if live.cursorHidden then ([.own ANSI_SHOW_CURSOR], { live with cursorHidden := false })
  else ([], live)

def writeAnimatedModuleLine (line : Output) : Output × LiveOutputState :=
  let hidden := hideCursor terminal live
  (hidden.1 ++ [.own CLEAR_LINE, .own CURSOR_TO_START] ++ fitAnimatedModuleLine terminal line,
    hidden.2)

def stopAnimatedModuleLine : Output × LiveOutputState :=
  let shown := showCursor live
  (shown.1, { shown.2 with activeSpinner := false })

def colorizeDiffLine (palette : Palette) (line : CodeUnits) : Output :=
  if (codeUnits "---").isPrefixOf line || (codeUnits "+++").isPrefixOf line ||
      (codeUnits "@@").isPrefixOf line then
    palette.paint .dim line
  else if (codeUnits "-").isPrefixOf line then palette.paint .red line
  else if (codeUnits "+").isPrefixOf line then palette.paint .green line
  else palette.paint .dim line

def renderDiffLines (palette : Palette) (secrets : PreparedSecrets) (diff : CodeUnits) :
    List Output :=
  if trimUnits diff = [] then []
  else
    (splitLines (sanitizeTerminalText (maskPreparedSecrets diff secrets))).map fun line =>
      write (codeUnits "│ ") ++ colorizeDiffLine palette line

def writeContinuationLine (palette : Palette) (extraGuideDepths : List Nat) (line : Output) :
    Output :=
  buildGuideIndent live palette (getContinuationIndent live) extraGuideDepths ++ line ++
    write [LF]

def writeContinuationBlock (palette : Palette) (detailLines : List CodeUnits)
    (diffLines : List Output) (extraGuideDepths : List Nat) : Output :=
  (detailLines.map (palette.paint .dim) ++ diffLines).flatMap
    (writeContinuationLine live palette extraGuideDepths)

/-- What the printers are told about a module's result. -/
structure ShownResult where
  name : CodeUnits
  status : DisplayStatus
  detail : Option CodeUnits := none
  diff : Option CodeUnits := none
  startedAt : Option Int := none
deriving DecidableEq, Repr

def displayModule (secrets : PreparedSecrets) (extraGuideDepths : List Nat)
    (result : ShownResult) : DisplayModule :=
  let baseIndent := repeatUnit (max (getCurrentOutputDepth live + 2) 1)
  formatDisplayModule
    ((buildGuideIndent live terminal.palette baseIndent extraGuideDepths).units.length +
      (codeUnits "   ").length)
    (result.detail.map (maskPreparedSecrets · secrets))
    (maskPreparedSecrets result.name secrets) result.status terminal.columns

def resultElapsed (result : ShownResult) : Option CodeUnits :=
  match result.startedAt with
  | none => getActiveModuleElapsed terminal live
  | some startedAt => formatModuleElapsed terminal.tenths (terminal.now - startedAt)

def resultLine (secrets : PreparedSecrets) (extraGuideDepths : List Nat)
    (result : ShownResult) : Output :=
  let displayed := displayModule terminal live secrets extraGuideDepths result
  renderModuleLine live terminal.palette displayed.detail (resultElapsed terminal live result)
    extraGuideDepths displayed.name result.status

def usesSpinner : Bool := terminal.animated && live.activeSpinner

/-- The line is rewritten where the spinner stood. -/
def printResultLine (line : Output) : Output × LiveOutputState :=
  if usesSpinner terminal live then
    let stopped := stopAnimatedModuleLine live
    let animated := writeAnimatedModuleLine terminal stopped.2 line
    (stopped.1 ++ animated.1 ++ write [LF], animated.2)
  else (line ++ write [LF], live)

def resultDiffLines (palette : Palette) (secrets : PreparedSecrets) (result : ShownResult) :
    List Output :=
  match result.diff with
  | none => []
  | some diff => renderDiffLines palette secrets diff

def printRenderedModuleResult (secrets : PreparedSecrets) (extraGuideDepths : List Nat)
    (result : ShownResult) : Output × LiveOutputState :=
  let displayed := displayModule terminal live secrets extraGuideDepths result
  let printed := printResultLine terminal { live with activeModuleStartedAt := none }
    (resultLine terminal live secrets extraGuideDepths result)
  (printed.1 ++ writeContinuationBlock live terminal.palette displayed.detailLines
    (resultDiffLines terminal.palette secrets result) extraGuideDepths, printed.2)

def clearPendingRecipeClosureGuides : LiveOutputState :=
  { live with pendingRecipeClosureGuideDepths := [] }

def printModuleResult (secrets : PreparedSecrets) (result : ShownResult) :
    Output × LiveOutputState :=
  printRenderedModuleResult terminal (clearPendingRecipeClosureGuides live) secrets [] result

def printRecipeModuleResult (secrets : PreparedSecrets) (result : ShownResult) :
    Output × LiveOutputState :=
  let printed := printRenderedModuleResult terminal live secrets
    live.pendingRecipeClosureGuideDepths result
  (printed.1, clearPendingRecipeClosureGuides printed.2)

end Rows

/-! ### Failures -/

structure CommandStreams where
  fullStdout : CodeUnits
  fullStderr : CodeUnits
deriving DecidableEq, Repr

/-- An error as the printers read it: `text` is `String(error)`, `command` is there
for a `CommandError`, and a cause that is no error is what the inspector shows. -/
structure ErrorFields (Ref : Type*) where
  message : CodeUnits
  text : CodeUnits
  stack : Option CodeUnits := none
  command : Option CommandStreams := none
  cause : ChainLink Ref CodeUnits := .done

/-- What was thrown: an error, or another value as `String(error)` shows it. -/
inductive Thrown (Ref : Type*) where
  | value (text : CodeUnits)
  | error (ref : Ref)

section Failures

variable (palette : Palette) (secrets : PreparedSecrets) (live : LiveOutputState)

def errorLine (text : CodeUnits) : Output :=
  palette.paint .red (getErrorIndent live ++ text) ++ write [LF]

def sanitizedStream (text : CodeUnits) : CodeUnits :=
  sanitizeTerminalText (maskPreparedSecrets text secrets)

/-- The lines of a text, unless it is blank. -/
def trimmedLines (text : CodeUnits) : List CodeUnits :=
  if trimUnits text = [] then [] else splitLines (trimUnits text)

def printCommandError (stdout stderr : CodeUnits) : Output :=
  let lines := trimmedLines (sanitizedStream secrets stderr) ++
    trimmedLines (sanitizedStream secrets stdout)
  if lines = [] then []
  else (codeUnits "Error output:" :: lines).flatMap (errorLine palette live)

def printVerboseErrorBlock (label content : CodeUnits) : Output :=
  if trimUnits content = [] then []
  else (label :: splitLines (trimUnits content)).flatMap (errorLine palette live)

def printVerboseCommandError (stdout stderr : CodeUnits) : Output :=
  printVerboseErrorBlock palette live (codeUnits "Full stderr:") (sanitizedStream secrets stderr) ++
    printVerboseErrorBlock palette live (codeUnits "Full stdout:") (sanitizedStream secrets stdout)

/-- The streams are masked before they are handed over, and once more there. -/
def printCommandStreams (streams : CommandStreams) : Output :=
  printVerboseCommandError palette secrets live (maskPreparedSecrets streams.fullStdout secrets)
    (maskPreparedSecrets streams.fullStderr secrets)

def causeLabel (depth : Nat) : CodeUnits := codeUnits "Cause " ++ digits depth ++ codeUnits ":"

def ErrorFields.stackOrMessage {Ref : Type*} (fields : ErrorFields Ref) : CodeUnits :=
  let stack := (fields.stack.map trimUnits).getD []
  if stack ≠ [] then stack else fields.text

variable {Ref : Type*} [Fintype Ref] [DecidableEq Ref] (errors : Ref → ErrorFields Ref)

def printVerboseErrorCause (visitedCauses : Finset Ref) (depth : Nat)
    (cause : ChainLink Ref CodeUnits) : Output :=
  walkChain (fun ref => (errors ref).cause)
    (fun depth ref => printVerboseErrorBlock palette live (causeLabel depth)
      (maskPreparedSecrets (errors ref).stackOrMessage secrets))
    (fun depth value => printVerboseErrorBlock palette live (causeLabel depth)
      (maskPreparedSecrets value secrets))
    (fun depth => printVerboseErrorBlock palette live (causeLabel depth)
      (codeUnits "<cycle detected>"))
    visitedCauses depth cause

def printVerboseGenericError (error : Ref) : Output :=
  printVerboseErrorBlock palette live (codeUnits "Full stack:")
      (maskPreparedSecrets (errors error).stackOrMessage secrets) ++
    printVerboseErrorCause palette secrets live errors {error} 1 (errors error).cause

def printCause (text : CodeUnits) : Output :=
  errorLine palette live (codeUnits "Cause: " ++ maskPreparedSecrets text secrets)

/-- A failed command among the causes shows its streams. -/
def printCauseStreams : Option CommandStreams → Output
  | none => []
  | some streams => printCommandStreams palette secrets live streams

/-- The loop stops silently at an error it has visited. -/
def printCauseChain (error : Ref) : Output :=
  walkChain (fun ref => (errors ref).cause)
    (fun _ ref => printCause palette secrets live (errors ref).message ++
      printCauseStreams palette secrets live (errors ref).command)
    (fun _ value => printCause palette secrets live value)
    (fun _ => []) {error} 1 (errors error).cause

/-- `text.split("\n")[0]` -/
def firstLine (text : CodeUnits) : CodeUnits := (splitLines text).headD []

def printCommandFailure (thrown : Thrown Ref) (verbose : Bool) : Output :=
  match thrown with
  | .value text => printCommandError palette secrets live [] (maskPreparedSecrets text secrets)
  | .error error =>
      let message :=
        printCommandError palette secrets live [] (maskPreparedSecrets (errors error).text secrets)
      match (errors error).command with
      | some streams =>
          if verbose then
            printCommandError palette secrets live []
                (maskPreparedSecrets (firstLine (errors error).message) secrets) ++
              printCommandStreams palette secrets live streams
          else message
      | none =>
          message ++ printCauseChain palette secrets live errors error ++
            (if verbose then printVerboseGenericError palette secrets live errors error else [])

end Failures

end Paratix.Masking
