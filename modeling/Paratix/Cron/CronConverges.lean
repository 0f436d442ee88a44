/-
Module: Paratix.Cron.CronConverges
Purpose: The managed entries of a crontab, and when one apply of a cron job brings it to a state that
  the check accepts and that no further apply writes.
Main exports: readCrontab, cronJob_converges_iff
-/
import Paratix.Foundation.DirectlyBelow
import Paratix.Foundation.Lines
import Paratix.Foundation.Separator
import Paratix.Foundation.Words
import Paratix.Foundation.LineEdit

namespace Paratix.Cron

open Foundation

abbrev Text := List Char

/-! ### Reading and writing -/

/-- The lines of the crontab that `crontab -l` prints; `none` is no crontab. -/
def readCrontab : Option Text → List Text
  | none => []
  | some stdout => (trimEnd stdout).splitOn '\n'

/-- No lines remove the crontab. -/
def writeCrontab (lines : List Text) : Option Text :=
  if lines.isEmpty then none else some (['\n'].intercalate lines ++ ['\n'])

/-! ### Markers -/

def MARKER_HASH_TAG : Text := " sha256=".toList

def MARKER_PREFIX : Text := "# paratix: ".toList

/-- `/[\w.\-]/` -/
def isNameChar (char : Char) : Bool :=
  char.isAlphanum || char = '_' || char = '.' || char = '-'

/-- What `assertCronName` lets through. -/
def isCronName (name : Text) : Bool :=
  name ≠ [] && !decide (['.', '.'] <:+: name) && name.all isNameChar

/-- `/[\da-f]/` -/
def isHexDigit (char : Char) : Bool := char ∈ "0123456789abcdef".toList

/-- `/^[\da-f]{64}$/` -/
def isDigest (text : Text) : Bool := text.length = 64 && text.all isHexDigit

/-- The digest that a marker line carries; `none` for a legacy marker. -/
def readMarkerDigest (markerLine : Text) : Option Text :=
  match cutFirst MARKER_HASH_TAG markerLine with
  | none => none
  | some cut => if isDigest (trim cut.2) then some (trim cut.2) else none

/-- The marker of the name, with or without a hash tag. -/
def isMarkerLine (name line : Text) : Bool :=
  line = MARKER_PREFIX ++ name || (MARKER_PREFIX ++ name ++ MARKER_HASH_TAG).isPrefixOf line

def findMarkerIndex (lines : List Text) (name : Text) : Option Nat :=
  lines.findIdx? (isMarkerLine name)

/-- A line is no cron job if it is blank or a comment. -/
def isCronJobLine (line : Text) : Bool :=
  let trimmed := trim line
  trimmed ≠ [] && trimmed.head? ≠ some '#'

def looksLikeCronJobLine (lines : List Text) (index : Nat) : Bool :=
  match lines[index]? with
  | none => false
  | some line => isCronJobLine line

/-! ### The check -/

inductive CheckVerdict where
  | needsApply
  | ok
deriving DecidableEq, Repr

def hasMarkedJob (lines : List Text) (name cronJob : Text) : Bool :=
  match findMarkerIndex lines name with
  | none => false
  | some index => lines[index + 1]? = some cronJob

/-- A line with the job that is not the one below the marker. -/
def findOrphanDuplicateIndex (lines : List Text) (cronJob : Text) (markerIndex : Option Nat) :
    Option Nat :=
  lines.zipIdx.findIdx? fun entry =>
    some entry.2 ≠ markerIndex.map (· + 1) && entry.1 = cronJob

def computeCronJobPresentVerdict (cronJob : Text) (found : Bool) (lines : List Text)
    (marker : Text) (markerIndex : Option Nat) : CheckVerdict :=
  if !found then .needsApply
  else
    match markerIndex with
    | none => .needsApply
    | some index =>
        if lines[index]? ≠ some marker then .needsApply
        else if findOrphanDuplicateIndex lines cronJob markerIndex = none then .ok
        else .needsApply

/-! ### Mutations -/

/-- The marker is the wanted one and the wanted job stands below it. -/
def isManagedPair (lines : List Text) (marker cronJob : Text) (index : Nat) : Bool :=
  lines[index]? = some marker && lines[index + 1]? = some cronJob

/-- The lines with the marker and the job, before duplicates are removed. -/
def placePair (adoptOrphans : Bool) (cronJob : Text) (lines : List Text) (marker : Text) :
    Option Nat → List Text
  | none =>
      match lines.idxOf? cronJob with
      | none => lines ++ [marker, cronJob]
      | some orphanIndex =>
          if adoptOrphans then lines.insertIdx orphanIndex marker else lines ++ [marker, cronJob]
  | some index =>
      if looksLikeCronJobLine lines (index + 1) then
        (lines.set index marker).set (index + 1) cronJob
      else (lines.set index marker).insertIdx (index + 1) cronJob

def removeOrphanDuplicates (lines : List Text) (cronJob marker : Text) : List Text :=
  keepBelow marker cronJob none lines

/-- `none` needs no write. -/
def computePresentMutation (adoptOrphans : Bool) (cronJob : Text) (lines : List Text)
    (marker : Text) (markerIndex : Option Nat) : Option (List Text) :=
  if markerIndex.any (isManagedPair lines marker cronJob) then none
  else
    let next := placePair adoptOrphans cronJob lines marker markerIndex
    some (if adoptOrphans then removeOrphanDuplicates next cronJob marker else next)

inductive CronState where
  | absent
  | present
deriving DecidableEq, Repr

/-- `lines.splice(index, count)` -/
def splice (lines : List Text) (index count : Nat) : List Text :=
  lines.take index ++ lines.drop (index + count)

def computeCronJobMutation (adoptOrphans : Bool) (cronJob : Text) (lines : List Text)
    (marker : Text) (markerIndex : Option Nat) : CronState → Option (List Text)
  | .present => computePresentMutation adoptOrphans cronJob lines marker markerIndex
  | .absent =>
      markerIndex.map fun index =>
        splice lines index (if lines[index + 1]? = some cronJob then 2 else 1)

section Digest

/- The digest of a job line, `createHash("sha256").update(cronJob).digest("hex")` -/
variable (cronJobDigest : Text → Text)

def renderMarkerLine (name cronJob : Text) : Text :=
  MARKER_PREFIX ++ name ++ MARKER_HASH_TAG ++ cronJobDigest cronJob

/-- The line below the marker is the job whose digest the marker carries. -/
def followIsManagedJob (lines : List Text) (index : Nat) : Bool :=
  match readMarkerDigest ((lines[index]?).getD []) with
  | none => false
  | some recordedDigest =>
      looksLikeCronJobLine lines (index + 1) &&
        cronJobDigest ((lines[index + 1]?).getD []) = recordedDigest

def computeCronAbsentLines (lines : List Text) (name : Text) : Option (List Text) :=
  (findMarkerIndex lines name).map fun index =>
    splice lines index (if followIsManagedJob cronJobDigest lines index then 2 else 1)

/-! ### The module -/

/-- The name and the options of a `cron.job`. -/
structure CronJob where
  name : Text
  job : Text
  adoptOrphans : Bool
deriving DecidableEq, Repr

/-- `cron.job` takes the name and the job. -/
def CronJob.accepted (entry : CronJob) : Bool :=
  isCronName entry.name && !entry.job.any fun char => char = '\n' || char = '\r'

def CronJob.marker (entry : CronJob) : Text := renderMarkerLine cronJobDigest entry.name entry.job

/-- The lines that an apply writes over the lines it has read. -/
def CronJob.mutation (entry : CronJob) (state : CronState) (lines : List Text) :
    Option (List Text) :=
  computeCronJobMutation entry.adoptOrphans entry.job lines (entry.marker cronJobDigest)
    (findMarkerIndex lines entry.name) state

inductive ApplyStatus where
  | ok
  | changed
deriving DecidableEq, Repr

/-- The status of a successful apply and the crontab after it. -/
def applyCronJobState (entry : CronJob) (state : CronState) (crontab : Option Text) :
    ApplyStatus × Option Text :=
  match entry.mutation cronJobDigest state (readCrontab crontab) with
  | none => (.ok, crontab)
  | some nextLines => (.changed, writeCrontab nextLines)

/-- The verdict of the lines that were read. -/
def CronJob.verdict (entry : CronJob) (state : CronState) (lines : List Text) : CheckVerdict :=
  let markerIndex := findMarkerIndex lines entry.name
  match state with
  | .present =>
      computeCronJobPresentVerdict entry.job (hasMarkedJob lines entry.name entry.job) lines
        (entry.marker cronJobDigest) markerIndex
  | .absent => if markerIndex = none then .ok else .needsApply

def checkCronJob (entry : CronJob) (state : CronState) (crontab : Option Text) : CheckVerdict :=
  entry.verdict cronJobDigest state (readCrontab crontab)

end Digest

/-! ### Reading back -/

theorem oneLine_of_mem_readCrontab {crontab : Option Text} {line : Text}
    (mem : line ∈ readCrontab crontab) : '\n' ∉ line := by
  cases crontab with
  | none => cases mem
  | some stdout => exact separator_notMem_of_mem_splitOn mem

/-- The crontab that was read is empty, blank, or ends with a line that is not blank and
has no white space at its end. -/
theorem readCrontab_cases (crontab : Option Text) :
    readCrontab crontab = [] ∨ readCrontab crontab = [[]] ∨
      ∃ front last, readCrontab crontab = front ++ [last] ∧ last ≠ [] ∧ trimEnd last = last := by
  cases crontab with
  | none => exact .inl rfl
  | some stdout =>
    refine .inr ?_
    obtain ⟨lines, last, whole, lastLine, content⟩ := exists_fileText '\n' (trimEnd stdout)
    have read : readCrontab (some stdout) = lines ++ [last] := by
      rw [readCrontab, content, splitOn_fileText_append whole, List.splitOn_eq_singleton lastLine]
    have idem := trimEnd_idem stdout
    rw [content] at idem
    rw [read]
    by_cases blank : trimEnd last = []
    · rw [trimEnd_append_blank _ (trimEnd_eq_nil_iff.1 blank)] at idem
      have shorter := (isPrefix_trimEnd (fileText '\n' lines)).length_le
      rw [idem, List.length_append] at shorter
      have empty : last = [] := List.length_eq_zero_iff.1 (by omega)
      subst empty
      refine .inl ?_
      rcases List.eq_nil_or_concat lines with rfl | ⟨front, line, rfl⟩
      · rfl
      · rw [List.append_nil, List.concat_eq_append, fileText_append, fileText_cons,
          ← List.append_assoc] at idem
        have spaces : ∀ char ∈ '\n' :: fileText '\n' [], isJsSpace char = true :=
          forall_mem_of_all (by decide)
        rw [trimEnd_append_blank _ spaces] at idem
        have longer := (isPrefix_trimEnd (fileText '\n' front ++ line)).length_le
        rw [idem, List.length_append, List.length_cons] at longer
        omega
    · rw [trimEnd_append _ blank, List.append_cancel_left_eq] at idem
      exact .inr ⟨lines, last, rfl, fun empty => blank (by rw [empty]; rfl), idem⟩

/-- Blank lines at the end are lost, and white space at the end of the last line. -/
theorem readCrontab_writeCrontab {front blank : List Text} {last : Text}
    (oneLine : ∀ line ∈ front ++ last :: blank, '\n' ∉ line) (notBlank : trimEnd last ≠ [])
    (isBlank : ∀ line ∈ blank, trimEnd line = []) :
    readCrontab (writeCrontab (front ++ last :: blank)) = front ++ [trimEnd last] := by
  have nonempty : front ++ last :: blank ≠ [] :=
    List.append_ne_nil_of_right_ne_nil _ (List.cons_ne_nil _ _)
  have written : writeCrontab (front ++ last :: blank) =
      some (fileText '\n' (front ++ last :: blank)) := by
    rw [writeCrontab, List.isEmpty_eq_false_iff.2 nonempty, if_neg Bool.false_ne_true,
      intercalate_newline nonempty]
  have spaces : ∀ char ∈ '\n' :: fileText '\n' blank, isJsSpace char = true := by
    rw [List.forall_mem_cons]
    refine ⟨rfl, fun char mem => ?_⟩
    obtain ⟨line, isLine, inLine⟩ := List.mem_flatMap.1 mem
    rcases List.mem_append.1 inLine with inLine | isNewline
    · exact trimEnd_eq_nil_iff.1 (isBlank line isLine) char inLine
    · rw [List.mem_singleton.1 isNewline]
      rfl
  have lastLine : '\n' ∉ trimEnd last := fun mem =>
    oneLine last (List.mem_append_right _ List.mem_cons_self)
      ((isPrefix_trimEnd last).subset mem)
  rw [written, readCrontab, fileText_append, fileText_cons, ← List.append_assoc,
    trimEnd_append_blank _ spaces, trimEnd_append _ notBlank,
    splitOn_fileText_append fun line mem => oneLine line (List.mem_append_left _ mem),
    List.splitOn_eq_singleton lastLine]

/-! ### Where the pair goes -/

/-- The lines without a cron job at their head. -/
def dropJobLine : List Text → List Text
  | [] => []
  | line :: lines => if isCronJobLine line then lines else line :: lines

/-- The lines that an apply keeps above the marker. -/
def CronJob.above (entry : CronJob) (lines : List Text) : List Text :=
  match findMarkerIndex lines entry.name with
  | some index => lines.take index
  | none =>
      if entry.adoptOrphans ∧ entry.job ∈ lines then lines.take (lines.idxOf entry.job)
      else lines

/-- The lines that an apply keeps below the job. -/
def CronJob.below (entry : CronJob) (lines : List Text) : List Text :=
  match findMarkerIndex lines entry.name with
  | some index => dropJobLine (lines.drop (index + 1))
  | none =>
      if entry.adoptOrphans ∧ entry.job ∈ lines then lines.drop (lines.idxOf entry.job + 1)
      else []

section Splits

variable {name : Text} {front tail : List Text} {old : Text}

/-- The lines above the first marker of a name. -/
def MarkerFree (name : Text) (lines : List Text) : Prop :=
  ∀ line ∈ lines, isMarkerLine name line = false

theorem findMarkerIndex_split (free : MarkerFree name front)
    (isMarker : isMarkerLine name old = true) :
    findMarkerIndex (front ++ old :: tail) name = some front.length :=
  findIdx?_split free isMarker

theorem findMarkerIndex_cases (name : Text) (lines : List Text) :
    (findMarkerIndex lines name = none ∧ MarkerFree name lines) ∨
      ∃ front old tail, lines = front ++ old :: tail ∧ MarkerFree name front ∧
        isMarkerLine name old = true ∧ findMarkerIndex lines name = some front.length :=
  findIdx?_cases (isMarkerLine name) lines

theorem findMarkerIndex_eq_none_iff {lines : List Text} :
    findMarkerIndex lines name = none ↔ MarkerFree name lines :=
  List.findIdx?_eq_none_iff

theorem getElem?_marker : (front ++ old :: tail)[front.length]? = some old := by
  rw [List.getElem?_append_right (Nat.le_refl _), Nat.sub_self]
  rfl

theorem getElem?_follow : (front ++ old :: tail)[front.length + 1]? = tail.head? := by
  rw [List.getElem?_append_right (Nat.le_succ _), Nat.succ_sub (Nat.le_refl _), Nat.sub_self,
    List.getElem?_cons_succ, List.head?_eq_getElem?]

theorem take_split : (front ++ old :: tail).take front.length = front := List.take_left

theorem drop_split : (front ++ old :: tail).drop (front.length + 1) = tail := by
  rw [List.drop_append, List.drop_of_length_le (Nat.le_succ _), Nat.add_sub_cancel_left]
  rfl

theorem splice_one : splice (front ++ old :: tail) front.length 1 = front ++ tail := by
  rw [splice, take_split, drop_split]

theorem splice_two {follow : Text} :
    splice (front ++ old :: follow :: tail) front.length 2 = front ++ tail := by
  rw [splice, take_split, List.append_cancel_left_eq, List.drop_append,
    List.drop_of_length_le (Nat.le_add_right _ _), Nat.add_sub_cancel_left]
  rfl

theorem above_split {entry : CronJob} (free : MarkerFree entry.name front)
    (isMarker : isMarkerLine entry.name old = true) :
    entry.above (front ++ old :: tail) = front := by
  rw [CronJob.above, findMarkerIndex_split free isMarker]
  exact take_split

theorem below_split {entry : CronJob} (free : MarkerFree entry.name front)
    (isMarker : isMarkerLine entry.name old = true) :
    entry.below (front ++ old :: tail) = dropJobLine tail := by
  rw [CronJob.below, findMarkerIndex_split free isMarker]
  change dropJobLine ((front ++ old :: tail).drop (front.length + 1)) = _
  rw [drop_split]

end Splits

theorem insertIdx_split (front back : List Text) (line : Text) :
    (front ++ back).insertIdx front.length line = front ++ line :: back := by
  induction front with
  | nil => rfl
  | cons head front ih =>
    rw [List.cons_append, List.length_cons, List.insertIdx_succ_cons, ih]
    rfl

/-- The first line with the job stands behind lines with other texts. -/
theorem idxOf?_split {front tail : List Text} {job : Text} (absent : job ∉ front) :
    (front ++ job :: tail).idxOf? job = some front.length := by
  apply findIdx?_split
  · intro line member
    rw [beq_eq_false_iff_ne]
    rintro rfl
    exact absent member
  · exact beq_self_eq_true job

/-- A crontab without the marker holds no job to adopt, or a first one. -/
theorem adoption_cases (entry : CronJob) {lines : List Text}
    (missing : findMarkerIndex lines entry.name = none) :
    (¬(entry.adoptOrphans = true ∧ entry.job ∈ lines) ∧ entry.above lines = lines ∧
        entry.below lines = []) ∨
      (entry.adoptOrphans = true ∧ ∃ front tail, lines = front ++ entry.job :: tail ∧
        entry.job ∉ front ∧ entry.above lines = front ∧ entry.below lines = tail) := by
  by_cases adopts : entry.adoptOrphans = true ∧ entry.job ∈ lines
  · refine .inr ⟨adopts.1, ?_⟩
    obtain ⟨front, tail, split, absent⟩ := List.eq_append_cons_of_mem adopts.2
    have position : lines.idxOf entry.job = front.length := by
      rw [split, List.idxOf_append_of_notMem absent, List.idxOf_cons_self, Nat.add_zero]
    refine ⟨front, tail, split, absent, ?_, ?_⟩
    · rw [CronJob.above, missing]
      change (if _ then _ else _) = _
      rw [if_pos adopts, position, split, take_split]
    · rw [CronJob.below, missing]
      change (if _ then _ else _) = _
      rw [if_pos adopts, position, split, drop_split]
  · refine .inl ⟨adopts, ?_, ?_⟩
    · rw [CronJob.above, missing]
      exact if_neg adopts
    · rw [CronJob.below, missing]
      exact if_neg adopts

/-- The pair goes between the lines above and below. -/
theorem placePair_eq (entry : CronJob) (lines : List Text) (marker : Text) :
    placePair entry.adoptOrphans entry.job lines marker (findMarkerIndex lines entry.name) =
      entry.above lines ++ marker :: entry.job :: entry.below lines := by
  rcases findMarkerIndex_cases entry.name lines with
    ⟨missing, _⟩ | ⟨front, old, tail, rfl, free, isMarker, found⟩
  · rcases adoption_cases entry missing with
      ⟨notAdopted, above, below⟩ | ⟨adopts, front, tail, rfl, absent, above, below⟩
    · rw [missing, above, below, placePair]
      split
      · rfl
      · next found =>
        have member : entry.job ∈ lines := by
          rw [← List.isSome_idxOf?, found]
          rfl
        rw [if_neg fun adopts => notAdopted ⟨adopts, member⟩]
    · rw [missing, above, below, placePair, idxOf?_split absent]
      change (if _ then _ else _) = _
      rw [if_pos adopts, insertIdx_split]
  · rw [above_split free isMarker, below_split free isMarker, found, placePair,
      looksLikeCronJobLine, getElem?_follow, List.set_append_right front.length _ (Nat.le_refl _),
      Nat.sub_self, List.set_cons_zero]
    have behind : (front ++ [marker]).length = front.length + 1 := List.length_append
    rw [← List.singleton_append, ← List.append_assoc, ← behind, insertIdx_split]
    cases tail with
    | nil =>
      change front ++ [marker] ++ [entry.job] = _
      rw [List.append_assoc]
      rfl
    | cons follow tail =>
      rw [List.set_append_right _ _ (Nat.le_refl _), Nat.sub_self, List.set_cons_zero,
        List.append_assoc, List.append_assoc, dropJobLine]
      change (if isCronJobLine follow then _ else _) = _
      split <;> rfl

/-! ### The mutation and the verdict -/

section Entry

variable {digest : Text → Text} {entry : CronJob} {front tail : List Text}

theorem isMarkerLine_marker (digest : Text → Text) (entry : CronJob) :
    isMarkerLine entry.name (entry.marker digest) = true := by
  rw [isMarkerLine, Bool.or_eq_true, List.isPrefixOf_iff_prefix]
  exact .inr (List.prefix_append _ _)

theorem above_free (entry : CronJob) (lines : List Text) :
    MarkerFree entry.name (entry.above lines) := by
  rcases findMarkerIndex_cases entry.name lines with
    ⟨missing, free⟩ | ⟨front, old, tail, rfl, free, isMarker, _⟩
  · rcases adoption_cases entry missing with ⟨_, above, _⟩ | ⟨_, front, tail, rfl, _, above, _⟩
    · rw [above]
      exact free
    · rw [above]
      exact fun line mem => free line (List.mem_append_left _ mem)
  · rw [above_split free isMarker]
    exact free

theorem below_suffix (entry : CronJob) (lines : List Text) : entry.below lines <:+ lines := by
  have dropped (tail : List Text) : dropJobLine tail <:+ tail := by
    cases tail with
    | nil => exact List.suffix_refl _
    | cons follow tail =>
      rw [dropJobLine]
      split
      · exact List.suffix_cons _ _
      · exact List.suffix_refl _
  rcases findMarkerIndex_cases entry.name lines with
    ⟨missing, free⟩ | ⟨front, old, tail, rfl, free, isMarker, _⟩
  · rcases adoption_cases entry missing with ⟨_, _, below⟩ | ⟨_, front, tail, rfl, _, _, below⟩
    · rw [below]
      exact List.nil_suffix
    · rw [below]
      exact (List.suffix_cons _ _).trans (List.suffix_append _ _)
  · rw [below_split free isMarker]
    exact ((dropped tail).trans (List.suffix_cons _ _)).trans (List.suffix_append _ _)

theorem above_subset (entry : CronJob) (lines : List Text) : entry.above lines ⊆ lines := by
  rcases findMarkerIndex_cases entry.name lines with
    ⟨missing, free⟩ | ⟨front, old, tail, rfl, free, isMarker, _⟩
  · rcases adoption_cases entry missing with ⟨_, above, _⟩ | ⟨_, front, tail, rfl, _, above, _⟩
    · rw [above]
      exact List.Subset.refl _
    · rw [above]
      exact List.subset_append_left _ _
  · rw [above_split free isMarker]
    exact List.subset_append_left _ _

/-- The wanted marker stands first of the name's markers, with the wanted job below it. -/
def CronJob.IsPaired (digest : Text → Text) (entry : CronJob) (lines : List Text) : Prop :=
  ∃ front tail, lines = front ++ entry.marker digest :: entry.job :: tail ∧
    MarkerFree entry.name front

theorem isManagedPair_iff (lines : List Text) : (findMarkerIndex lines entry.name).any
        (isManagedPair lines (entry.marker digest) entry.job) = true ↔
      entry.IsPaired digest lines := by
  rcases findMarkerIndex_cases entry.name lines with
    ⟨missing, free⟩ | ⟨front, old, tail, rfl, free, isMarker, found⟩
  · rw [missing]
    refine iff_of_false Bool.false_ne_true ?_
    rintro ⟨front, tail, rfl, _⟩
    have isMarker := isMarkerLine_marker digest entry
    rw [free _ (List.mem_append_right _ List.mem_cons_self)] at isMarker
    cases isMarker
  · rw [found, Option.any_some, isManagedPair, getElem?_marker, getElem?_follow,
      Bool.and_eq_true, decide_eq_true_iff, decide_eq_true_iff, Option.some.injEq]
    constructor
    · rintro ⟨rfl, isJob⟩
      obtain ⟨rest, rfl⟩ := List.head?_eq_some_iff.1 isJob
      exact ⟨front, rest, rfl, free⟩
    · rintro ⟨otherFront, otherTail, split, otherFree⟩
      have same := @findMarkerIndex_split _ _ (entry.job :: otherTail) _ otherFree
        (isMarkerLine_marker digest entry)
      rw [← split, found, Option.some.injEq] at same
      obtain ⟨rfl, rest⟩ := List.append_inj split same
      obtain ⟨rfl, rfl⟩ := List.cons.inj rest
      exact ⟨rfl, rfl⟩

/-- What is written where the pair does not stand yet. -/
def CronJob.written (digest : Text → Text) (entry : CronJob) (lines : List Text) :
    List Text :=
  let next := entry.above lines ++ entry.marker digest :: entry.job :: entry.below lines
  if entry.adoptOrphans then removeOrphanDuplicates next entry.job (entry.marker digest)
  else next

theorem mutation_present_of_pair {lines : List Text} (paired : entry.IsPaired digest lines) :
    entry.mutation digest .present lines = none := by
  rw [CronJob.mutation, computeCronJobMutation, computePresentMutation,
    if_pos ((isManagedPair_iff lines).2 paired)]

theorem mutation_present_eq {lines : List Text} (unpaired : ¬entry.IsPaired digest lines) :
    entry.mutation digest .present lines = some (entry.written digest lines) := by
  rw [CronJob.mutation, computeCronJobMutation, computePresentMutation,
    if_neg fun paired => unpaired ((isManagedPair_iff lines).1 paired), placePair_eq]
  rfl

/-- No other line holds the job. -/
theorem findOrphanDuplicateIndex_eq_none_iff {marker job : Text} :
    findOrphanDuplicateIndex (front ++ marker :: job :: tail) job (some front.length) = none ↔
      job ∉ front ∧ job ≠ marker ∧ job ∉ tail := by
  rw [findOrphanDuplicateIndex, List.findIdx?_eq_none_iff]
  have outside : (∀ position ∈ (front ++ marker :: job :: tail).zipIdx,
      (decide (some position.2 ≠ (some front.length).map (· + 1)) &&
        decide (position.1 = job)) = false) ↔
      ∀ index, (front ++ marker :: job :: tail)[index]? = some job → index = front.length + 1 := by
    constructor
    · intro none index isJob
      have position := none (job, index) (List.mem_zipIdx_iff_getElem?.2 isJob)
      by_contra other
      simp [other] at position
    · intro unique position member
      rw [List.mem_zipIdx_iff_getElem?] at member
      rw [Bool.and_eq_false_iff, decide_eq_false_iff_not, decide_eq_false_iff_not]
      by_cases isJob : position.1 = job
      · rw [isJob] at member
        refine .inl fun other => other ?_
        rw [unique position.2 member]
        rfl
      · exact .inr isJob
  rw [outside]
  constructor
  · intro unique
    refine ⟨?_, ?_, ?_⟩
    · intro member
      obtain ⟨index, inside, isJob⟩ := List.mem_iff_getElem.1 member
      have found := unique index (by
        rw [List.getElem?_append_left inside, List.getElem?_eq_getElem inside, isJob])
      omega
    · rintro rfl
      have found := unique front.length getElem?_marker
      omega
    · intro member
      obtain ⟨index, inside, isJob⟩ := List.mem_iff_getElem.1 member
      have found := unique (front.length + (index + 2)) (by
        rw [List.getElem?_append_right (Nat.le_add_right _ _), Nat.add_sub_cancel_left,
          List.getElem?_cons_succ, List.getElem?_cons_succ, List.getElem?_eq_getElem inside,
          isJob])
      omega
  · rintro ⟨notAbove, notMarker, notBelow⟩ index isJob
    rcases Nat.lt_or_ge index front.length with before | behind
    · rw [List.getElem?_append_left before] at isJob
      exact absurd (List.mem_of_getElem? isJob) notAbove
    · obtain ⟨offset, rfl⟩ := Nat.exists_eq_add_of_le behind
      rw [List.getElem?_append_right behind, Nat.add_sub_cancel_left] at isJob
      rcases offset with _ | _ | offset
      · exact absurd (Option.some.inj isJob).symm notMarker
      · rfl
      · rw [List.getElem?_cons_succ, List.getElem?_cons_succ] at isJob
        exact absurd (List.mem_of_getElem? isJob) notBelow

/-- The check accepts exactly one pair and no other line with the job. -/
theorem verdict_present_iff (digest : Text → Text) (entry : CronJob) (lines : List Text) :
    entry.verdict digest .present lines = .ok ↔
      ∃ front tail, lines = front ++ entry.marker digest :: entry.job :: tail ∧
        MarkerFree entry.name front ∧ entry.job ∉ front ∧
        entry.job ≠ entry.marker digest ∧ entry.job ∉ tail := by
  rcases findMarkerIndex_cases entry.name lines with
    ⟨missing, free⟩ | ⟨front, old, tail, rfl, free, isMarker, found⟩
  · have needsApply : entry.verdict digest .present lines = .needsApply := by
      rw [CronJob.verdict, hasMarkedJob, missing]
      rfl
    rw [needsApply]
    refine iff_of_false CheckVerdict.noConfusion ?_
    rintro ⟨front, tail, rfl, _⟩
    have isMarker := isMarkerLine_marker digest entry
    rw [free _ (List.mem_append_right _ List.mem_cons_self)] at isMarker
    cases isMarker
  · by_cases paired : entry.IsPaired digest (front ++ old :: tail)
    · have isPair := (isManagedPair_iff _).2 paired
      rw [found, Option.any_some, isManagedPair, getElem?_marker, getElem?_follow,
        Bool.and_eq_true, decide_eq_true_iff, decide_eq_true_iff, Option.some.injEq] at isPair
      obtain ⟨rfl, isJob⟩ := isPair
      obtain ⟨rest, rfl⟩ := List.head?_eq_some_iff.1 isJob
      have verdict : entry.verdict digest .present
          (front ++ entry.marker digest :: entry.job :: rest) =
          if findOrphanDuplicateIndex
              (front ++ entry.marker digest :: entry.job :: rest) entry.job
              (some front.length) = none then .ok else .needsApply := by
        rw [CronJob.verdict, hasMarkedJob, found, computeCronJobPresentVerdict]
        simp only [getElem?_marker, getElem?_follow, List.head?_cons, decide_true, Bool.not_true,
          Bool.false_eq_true, if_false, ne_eq, not_true_eq_false]
      rw [verdict]
      constructor
      · intro ok
        split at ok
        · next unique =>
          exact ⟨front, rest, rfl, free, findOrphanDuplicateIndex_eq_none_iff.1 unique⟩
        · cases ok
      · rintro ⟨otherFront, otherTail, split, otherFree, unique⟩
        have same := @findMarkerIndex_split _ _ (entry.job :: otherTail) _ otherFree isMarker
        rw [← split, found, Option.some.injEq] at same
        obtain ⟨rfl, pair⟩ := List.append_inj split same
        obtain ⟨_, pair⟩ := List.cons.inj pair
        obtain ⟨_, rfl⟩ := List.cons.inj pair
        rw [if_pos (findOrphanDuplicateIndex_eq_none_iff.2 unique)]
    · have unequal : ¬∃ front' tail', front ++ old :: tail =
          front' ++ entry.marker digest :: entry.job :: tail' ∧
          MarkerFree entry.name front' ∧ entry.job ∉ front' ∧
          entry.job ≠ entry.marker digest ∧ entry.job ∉ tail' := by
        rintro ⟨otherFront, otherTail, split, otherFree, _⟩
        exact paired ⟨otherFront, otherTail, split, otherFree⟩
      refine iff_of_false ?_ unequal
      intro ok
      apply paired
      rw [← isManagedPair_iff, found, Option.any_some, isManagedPair, Bool.and_eq_true,
        decide_eq_true_iff, decide_eq_true_iff]
      rw [CronJob.verdict, hasMarkedJob, found, computeCronJobPresentVerdict] at ok
      by_cases isJob : (front ++ old :: tail)[front.length + 1]? = some entry.job
      · by_cases isWanted :
            (front ++ old :: tail)[front.length]? = some (entry.marker digest)
        · exact ⟨isWanted, isJob⟩
        · rw [getElem?_marker, Option.some.injEq] at isWanted
          simp [isJob, isWanted] at ok
      · simp [isJob] at ok

end Entry

/-! ### Convergence -/

/-- After one apply the check accepts what is read back and a further apply writes nothing;
an apply that the check asked for changes the crontab. -/
def Converges (digest : Text → Text) (entry : CronJob) (crontab : Option Text) : Prop :=
  let after := (applyCronJobState digest entry .present crontab).2
  checkCronJob digest entry .present after = .ok ∧
    applyCronJobState digest entry .present after = (.ok, after) ∧
    (checkCronJob digest entry .present crontab = .needsApply → after ≠ crontab)

/-- A line that differs from the job in white space at its end, with nothing behind it but
copies of the job and blank lines. -/
def NearCopyLast (job : Text) (lines : List Text) : Prop :=
  ∃ front line back, lines = front ++ line :: back ∧ line ≠ job ∧ trimEnd line = job ∧
    ∀ other ∈ back, other = job ∨ trimEnd other = []

/-- What a crontab that does not have the pair yet must fulfil. -/
structure SettlesUnpaired (digest : Text → Text) (entry : CronJob) (lines : List Text) :
    Prop where
  notMarker : entry.job ≠ entry.marker digest
  kept : trimEnd entry.job = entry.job ∨ entry.below lines ≠ []
  onlyJob : if entry.adoptOrphans then
      ¬[entry.marker digest, entry.job] <:+: entry.below lines
    else entry.job ∉ entry.above lines ∧ entry.job ∉ entry.below lines
  noNearCopy : ¬NearCopyLast entry.job (entry.below lines)

/-- The pair stands there and no other line holds the job, or the pair can be set so. -/
def Settles (digest : Text → Text) (entry : CronJob) (lines : List Text) : Prop :=
  (entry.IsPaired digest lines → lines.count entry.job = 1) ∧
    (¬entry.IsPaired digest lines → SettlesUnpaired digest entry lines)

/-! ### The last line that is not blank -/

theorem exists_last_notBlank (lines : List Text) : (∀ line ∈ lines, trimEnd line = []) ∨
      ∃ front last blank, lines = front ++ last :: blank ∧ trimEnd last ≠ [] ∧
        ∀ line ∈ blank, trimEnd line = [] := by
  induction lines with
  | nil => exact .inl fun line mem => absurd mem List.not_mem_nil
  | cons head lines ih =>
    rcases ih with allBlank | ⟨front, last, blank, rfl, notBlank, isBlank⟩
    · by_cases headBlank : trimEnd head = []
      · exact .inl (List.forall_mem_cons.2 ⟨headBlank, allBlank⟩)
      · exact .inr ⟨[], head, lines, rfl, headBlank, allBlank⟩
    · exact .inr ⟨head :: front, last, blank, rfl, notBlank, isBlank⟩

/-- There is only one such line. -/
theorem last_notBlank_unique {front otherFront blank otherBlank : List Text} {last other : Text}
    (same : front ++ last :: blank = otherFront ++ other :: otherBlank)
    (notBlank : trimEnd last ≠ []) (otherNotBlank : trimEnd other ≠ [])
    (isBlank : ∀ line ∈ blank, trimEnd line = [])
    (otherIsBlank : ∀ line ∈ otherBlank, trimEnd line = []) : last = other := by
  rcases List.append_eq_append_iff.1 same with ⟨middle, _, split⟩ | ⟨middle, _, split⟩
  · cases middle with
    | nil => exact (List.cons.inj split).1
    | cons head middle =>
      have member : other ∈ blank := by
        rw [(List.cons.inj split).2]
        exact List.mem_append_right _ List.mem_cons_self
      exact absurd (isBlank other member) otherNotBlank
  · cases middle with
    | nil => exact (List.cons.inj split).1.symm
    | cons head middle =>
      have member : last ∈ otherBlank := by
        rw [(List.cons.inj split).2]
        exact List.mem_append_right _ List.mem_cons_self
      exact absurd (otherIsBlank last member) notBlank

section Entry

variable {digest : Text → Text} {entry : CronJob}

/-- Below the first marker stands the job, and nowhere else. -/
theorem verdict_split_iff {front tail : List Text} (free : MarkerFree entry.name front) :
    entry.verdict digest .present (front ++ entry.marker digest :: tail) = .ok ↔
      entry.job ∉ front ∧ entry.job ≠ entry.marker digest ∧
        ∃ rest, tail = entry.job :: rest ∧ entry.job ∉ rest := by
  rw [verdict_present_iff]
  constructor
  · rintro ⟨otherFront, rest, split, otherFree, notAbove, notMarker, notBelow⟩
    have isMarker := isMarkerLine_marker digest entry
    have here := @findMarkerIndex_split _ _ tail _ free isMarker
    rw [split, findMarkerIndex_split otherFree isMarker, Option.some.injEq] at here
    obtain ⟨rfl, pair⟩ := List.append_inj split here.symm
    exact ⟨notAbove, notMarker, rest, (List.cons.inj pair).2, notBelow⟩
  · rintro ⟨notAbove, notMarker, rest, rfl, notBelow⟩
    exact ⟨front, rest, rfl, free, notAbove, notMarker, notBelow⟩

/-- The crontab ends with a line that is not blank, or nothing stands below. -/
def EndsTrimmed (lines : List Text) : Prop :=
  lines = [] ∨ ∃ front last, lines = front ++ [last] ∧ last ≠ [] ∧ trimEnd last = last

/-- What is read back is accepted, told from the lines before copies were removed. -/
theorem verdict_readBack_iff {front below kept : List Text}
    (free : MarkerFree entry.name front) (notBlank : trimEnd entry.job ≠ [])
    (oneLine : ∀ line ∈ front ++ entry.marker digest :: entry.job :: kept, '\n' ∉ line)
    (thinned : Thinned entry.job below kept) (ends : EndsTrimmed below) :
    entry.verdict digest .present (readCrontab (writeCrontab
        (front ++ entry.marker digest :: entry.job :: kept))) = .ok ↔
      entry.job ∉ front ∧ entry.job ≠ entry.marker digest ∧
        (trimEnd entry.job = entry.job ∨ below ≠ []) ∧ entry.job ∉ kept ∧
        ¬NearCopyLast entry.job below := by
  have jobNonempty : entry.job ≠ [] := fun empty => notBlank (by rw [empty]; rfl)
  rcases exists_last_notBlank kept with
    allBlank | ⟨keptFront, last, blank, rfl, lastNotBlank, isBlank⟩
  · -- the job is the last line that is read back
    have readBack : readCrontab (writeCrontab
        (front ++ entry.marker digest :: entry.job :: kept)) =
        front ++ entry.marker digest :: [trimEnd entry.job] := by
      have split := @readCrontab_writeCrontab (front ++ [entry.marker digest]) kept entry.job
      rw [List.append_assoc, List.append_assoc] at split
      exact split oneLine notBlank allBlank
    have notKept : entry.job ∉ kept := fun member => notBlank (allBlank _ member)
    have noNear : ¬NearCopyLast entry.job below := by
      rintro ⟨nearFront, line, back, rfl, other, isNear, _⟩
      have member := thinned.mem_of_ne (List.mem_append_right _ List.mem_cons_self) other
      exact jobNonempty (isNear.symm.trans (allBlank line member))
    rw [readBack, verdict_split_iff free]
    constructor
    · rintro ⟨notAbove, notMarker, rest, pair, _⟩
      exact ⟨notAbove, notMarker, .inl (List.cons.inj pair).1, notKept, noNear⟩
    · rintro ⟨notAbove, notMarker, room, _, _⟩
      have trimmed : trimEnd entry.job = entry.job := by
        rcases room with trimmed | nonempty
        · exact trimmed
        · obtain ⟨endFront, last, rfl, lastNonempty, lastTrimmed⟩ := ends.resolve_left nonempty
          by_cases isJob : last = entry.job
          · rw [← isJob]
            exact lastTrimmed
          · have member := thinned.mem_of_ne
              (List.mem_append_right _ (List.mem_singleton_self _)) isJob
            exact absurd (lastTrimmed.symm.trans (allBlank last member)) lastNonempty
      rw [trimmed]
      exact ⟨notAbove, notMarker, [], rfl, List.not_mem_nil⟩
  · have readBack : readCrontab (writeCrontab
        (front ++ entry.marker digest :: entry.job :: (keptFront ++ last :: blank))) =
        front ++ entry.marker digest :: entry.job :: (keptFront ++ [trimEnd last]) := by
      have split := @readCrontab_writeCrontab
        (front ++ entry.marker digest :: entry.job :: keptFront) blank last
      rw [List.append_assoc, List.append_assoc] at split
      exact split oneLine lastNotBlank isBlank
    rw [readBack, verdict_split_iff free]
    constructor
    · rintro ⟨notAbove, notMarker, rest, pair, notBelow⟩
      obtain ⟨_, rfl⟩ := List.cons.inj pair
      rw [List.mem_append, List.mem_singleton, not_or] at notBelow
      obtain ⟨before, after, split, _, _⟩ := thinned.split_kept
      have nonempty : below ≠ [] := by
        rw [split]
        exact List.append_ne_nil_of_right_ne_nil _ (List.cons_ne_nil _ _)
      have lastOther : entry.job ≠ last := by
        intro isLast
        obtain ⟨endFront, final, rfl, finalNonempty, finalTrimmed⟩ := ends.resolve_left nonempty
        have other : final ≠ entry.job := by
          rintro rfl
          exact notBelow.2 (by rw [← isLast, finalTrimmed])
        obtain ⟨_, rest, keptEq, _, restThinned⟩ := thinned.split_lines other
        cases restThinned
        have same := last_notBlank_unique keptEq lastNotBlank
          (by rw [finalTrimmed]; exact finalNonempty) isBlank
          (fun line mem => absurd mem List.not_mem_nil)
        exact other (same.symm.trans isLast.symm)
      have notKept : entry.job ∉ keptFront ++ last :: blank := by
        rw [List.mem_append, List.mem_cons, not_or, not_or]
        exact ⟨notBelow.1, lastOther, fun member => notBlank (isBlank _ member)⟩
      refine ⟨notAbove, notMarker, .inr nonempty, notKept, ?_⟩
      rintro ⟨nearFront, line, back, rfl, other, isNear, blankOrJob⟩
      obtain ⟨_, rest, keptEq, _, restThinned⟩ := thinned.split_lines other
      have restBlank : ∀ line ∈ rest, trimEnd line = [] := by
        intro line member
        rcases blankOrJob line (restThinned.subset member) with isJob | blankLine
        · rw [isJob] at member
          rw [keptEq] at notKept
          exact absurd (List.mem_append_right _ (List.mem_cons_of_mem _ member)) notKept
        · exact blankLine
      have same := last_notBlank_unique keptEq lastNotBlank
        (by rw [isNear]; exact jobNonempty) isBlank restBlank
      exact notBelow.2 (by rw [same, isNear])
    · rintro ⟨notAbove, notMarker, _, notKept, noNear⟩
      rw [List.mem_append, List.mem_cons, not_or, not_or] at notKept
      refine ⟨notAbove, notMarker, _, rfl, ?_⟩
      rw [List.mem_append, List.mem_singleton, not_or]
      refine ⟨notKept.1, fun isNear => noNear ?_⟩
      obtain ⟨before, after, split, _, afterThinned⟩ := thinned.split_kept
      refine ⟨before, last, after, split, Ne.symm notKept.2.1, isNear.symm, ?_⟩
      intro other member
      by_cases isJob : other = entry.job
      · exact .inl isJob
      · exact .inr (isBlank other (afterThinned.mem_of_ne member isJob))

/-! ### What is written -/

theorem newline_notMem_marker {digest : Text → Text}
    (isDigests : ∀ job, isDigest (digest job) = true) {entry : CronJob}
    (accepted : entry.accepted = true) : '\n' ∉ entry.marker digest := by
  rw [CronJob.accepted, Bool.and_eq_true, isCronName, Bool.and_eq_true, List.all_eq_true]
    at accepted
  have digits := isDigests entry.job
  rw [isDigest, Bool.and_eq_true, List.all_eq_true] at digits
  rw [CronJob.marker, renderMarkerLine, List.mem_append, List.mem_append, List.mem_append]
  rintro (((inPrefix | inName) | inTag) | inDigest)
  · revert inPrefix
    decide
  · exact Bool.false_ne_true (accepted.1.2 _ inName)
  · revert inTag
    decide
  · exact Bool.false_ne_true (digits.2 _ inDigest)

theorem newline_notMem_job (accepted : entry.accepted = true) : '\n' ∉ entry.job := by
  rw [CronJob.accepted, Bool.and_eq_true, Bool.not_eq_true', List.any_eq_false] at accepted
  intro member
  exact accepted.2 _ member rfl

/-- The copies above the marker are all removed. -/
theorem notMem_keepBelow_above (lines : List Text) :
    entry.job ∉ keepBelow (entry.marker digest) entry.job none (entry.above lines) := by
  rw [mem_keepBelow_iff]
  rintro ⟨front, back, split, below⟩
  rw [lastLine, Option.or_none] at below
  have member : entry.marker digest ∈ entry.above lines := by
    rw [split]
    exact List.mem_append_left _ (List.mem_of_getLast? below)
  have isMarker := isMarkerLine_marker digest entry
  rw [above_free entry lines _ member] at isMarker
  cases isMarker

/-- Below the pair the copies directly below the marker stay. -/
theorem mem_keepBelow_below (notMarker : entry.job ≠ entry.marker digest) (lines : List Text) :
    entry.job ∈ keepBelow (entry.marker digest) entry.job (some entry.job) lines ↔
      [entry.marker digest, entry.job] <:+: lines := by
  rw [mem_keepBelow_iff]
  constructor
  · rintro ⟨front, back, rfl, below⟩
    rcases List.eq_nil_or_concat front with rfl | ⟨before, last, rfl⟩
    · exact absurd (Option.some.inj below) notMarker
    · rw [lastLine, List.concat_eq_append, List.getLast?_concat] at below
      obtain rfl : last = entry.marker digest := Option.some.inj below
      exact ⟨before, back, by rw [List.concat_eq_append, List.append_assoc, List.append_assoc]; rfl⟩
  · rintro ⟨front, back, rfl⟩
    refine ⟨front ++ [entry.marker digest], back, ?_, ?_⟩
    · rw [List.append_assoc, List.append_assoc]
      rfl
    · rw [lastLine, List.getLast?_concat]
      rfl

theorem written_adopted (adopts : entry.adoptOrphans = true)
    (notMarker : entry.job ≠ entry.marker digest) (lines : List Text) : entry.written digest lines =
      keepBelow (entry.marker digest) entry.job none (entry.above lines) ++
        entry.marker digest :: entry.job ::
          keepBelow (entry.marker digest) entry.job (some entry.job)
            (entry.below lines) := by
  rw [CronJob.written, if_pos adopts, removeOrphanDuplicates, keepBelow_append,
    keepBelow_cons_kept _ (.inl (Ne.symm notMarker)), keepBelow_cons_kept _ (.inr rfl)]

theorem written_unadopted (keeps : entry.adoptOrphans = false) (lines : List Text) :
    entry.written digest lines =
      entry.above lines ++ entry.marker digest :: entry.job :: entry.below lines := by
  rw [CronJob.written, keeps]
  rfl

theorem endsTrimmed_below (notBlank : trimEnd entry.job ≠ []) (crontab : Option Text) :
    EndsTrimmed (entry.below (readCrontab crontab)) := by
  have suffix := below_suffix entry (readCrontab crontab)
  rcases readCrontab_cases crontab with empty | blank | ⟨front, last, read, nonempty, trimmed⟩
  · rw [empty] at suffix ⊢
    exact .inl (List.suffix_nil.1 suffix)
  · rw [blank]
    have missing : findMarkerIndex [[]] entry.name = none := by
      rw [findMarkerIndex_eq_none_iff]
      intro line member
      rw [List.mem_singleton.1 member]
      rfl
    rcases adoption_cases entry missing with ⟨_, _, below⟩ | ⟨_, front, tail, split, _⟩
    · exact .inl below
    · have member : entry.job ∈ [([] : Text)] := by
        rw [split]
        exact List.mem_append_right _ List.mem_cons_self
      rw [List.mem_singleton.1 member] at notBlank
      exact absurd rfl notBlank
  · rw [read] at suffix ⊢
    rcases List.eq_nil_or_concat (entry.below (front ++ [last])) with below | ⟨before, final, below⟩
    · exact .inl below
    · rw [below, List.concat_eq_append] at suffix ⊢
      obtain ⟨more, split⟩ := suffix
      rw [← List.append_assoc] at split
      obtain ⟨_, same⟩ := List.append_inj' split rfl
      obtain rfl : final = last := List.singleton_inj.1 same
      exact .inr ⟨before, final, rfl, nonempty, trimmed⟩

/-! ### Main results -/

theorem isPaired_of_verdict {lines : List Text} (ok : entry.verdict digest .present lines = .ok) :
    entry.IsPaired digest lines := by
  obtain ⟨front, tail, split, free, _⟩ := (verdict_present_iff digest entry lines).1 ok
  exact ⟨front, tail, split, free⟩

/-- Convergence is one accepted read after the apply. -/
theorem converges_iff_verdict (entry : CronJob) (crontab : Option Text) :
    Converges digest entry crontab ↔
      entry.verdict digest .present
        (readCrontab (applyCronJobState digest entry .present crontab).2) = .ok := by
  constructor
  · exact fun converges => converges.1
  · intro ok
    refine ⟨ok, ?_, ?_⟩
    · rw [applyCronJobState, mutation_present_of_pair (isPaired_of_verdict ok)]
    · intro needsApply same
      rw [checkCronJob, ← same, ok] at needsApply
      cases needsApply

theorem verdict_paired_iff {lines : List Text} (paired : entry.IsPaired digest lines) :
    entry.verdict digest .present lines = .ok ↔ lines.count entry.job = 1 := by
  obtain ⟨front, tail, rfl, free⟩ := paired
  rw [verdict_split_iff free, List.count_append]
  constructor
  · rintro ⟨notAbove, notMarker, rest, split, notBelow⟩
    obtain ⟨_, rfl⟩ := List.cons.inj split
    rw [List.count_cons_of_ne (Ne.symm notMarker), List.count_cons_self,
      List.count_eq_zero.2 notAbove, List.count_eq_zero.2 notBelow]
  · intro once
    by_cases isMarker : entry.marker digest = entry.job
    · rw [isMarker, List.count_cons_self, List.count_cons_self] at once
      omega
    · rw [List.count_cons_of_ne isMarker, List.count_cons_self] at once
      refine ⟨List.count_eq_zero.1 (by omega), Ne.symm isMarker, tail, rfl,
        List.count_eq_zero.1 (by omega)⟩

/-- One apply of an accepted job converges exactly if the pair stands there alone or can be
set so. -/
theorem cronJob_converges_iff {digest : Text → Text}
    (isDigests : ∀ job, isDigest (digest job) = true) {entry : CronJob}
    (accepted : entry.accepted = true) (notBlank : trimEnd entry.job ≠ [])
    (crontab : Option Text) :
    Converges digest entry crontab ↔
      Settles digest entry (readCrontab crontab) := by
  rw [converges_iff_verdict]
  by_cases paired : entry.IsPaired digest (readCrontab crontab)
  · have untouched : (applyCronJobState digest entry .present crontab).2 = crontab := by
      rw [applyCronJobState, mutation_present_of_pair paired]
    rw [untouched, verdict_paired_iff paired]
    constructor
    · exact fun once => ⟨fun _ => once, fun unpaired => absurd paired unpaired⟩
    · exact fun settles => settles.1 paired
  · have written : (applyCronJobState digest entry .present crontab).2 =
        writeCrontab (entry.written digest (readCrontab crontab)) := by
      rw [applyCronJobState, mutation_present_eq paired]
    have ends := endsTrimmed_below notBlank crontab
    have oneLine : ∀ line ∈ readCrontab crontab, '\n' ∉ line :=
      fun _ mem => oneLine_of_mem_readCrontab mem
    have free := above_free entry (readCrontab crontab)
    have inAbove := above_subset entry (readCrontab crontab)
    have inBelow := (below_suffix entry (readCrontab crontab)).subset
    have oneLines {front tail : List Text} (inFront : front ⊆ readCrontab crontab)
        (inTail : tail ⊆ readCrontab crontab) :
        ∀ line ∈ front ++ entry.marker digest :: entry.job :: tail, '\n' ∉ line := by
      rw [List.forall_mem_append, List.forall_mem_cons, List.forall_mem_cons]
      exact ⟨fun line mem => oneLine line (inFront mem), newline_notMem_marker isDigests accepted,
        newline_notMem_job accepted, fun line mem => oneLine line (inTail mem)⟩
    have settles : Settles digest entry (readCrontab crontab) ↔
        SettlesUnpaired digest entry (readCrontab crontab) :=
      ⟨fun settles => settles.2 paired, fun settles => ⟨fun isPair => absurd isPair paired,
        fun _ => settles⟩⟩
    rw [written, settles]
    cases adopts : entry.adoptOrphans with
    | true =>
      by_cases notMarker : entry.job = entry.marker digest
      · refine iff_of_false ?_ fun settled => settled.notMarker notMarker
        rw [verdict_present_iff]
        rintro ⟨_, _, _, _, _, other, _⟩
        exact other notMarker
      · have keptFree : MarkerFree entry.name
            (keepBelow (entry.marker digest) entry.job none
              (entry.above (readCrontab crontab))) :=
          fun line mem => free line ((keepBelow_sublist _ _).subset mem)
        rw [written_adopted adopts notMarker, verdict_readBack_iff keptFree notBlank
          (oneLines (fun _ mem => inAbove ((keepBelow_sublist _ _).subset mem))
            (fun _ mem => inBelow ((keepBelow_sublist _ _).subset mem)))
          (thinned_keepBelow _ _) ends, mem_keepBelow_below notMarker]
        constructor
        · rintro ⟨_, _, room, onlyJob, noNear⟩
          exact ⟨notMarker, room, by rw [if_pos adopts]; exact onlyJob, noNear⟩
        · rintro ⟨_, room, onlyJob, noNear⟩
          rw [if_pos adopts] at onlyJob
          exact ⟨notMem_keepBelow_above _, notMarker, room, onlyJob, noNear⟩
    | false =>
      rw [written_unadopted adopts, verdict_readBack_iff free notBlank
        (oneLines inAbove inBelow) (Thinned.refl _) ends]
      have keeps : ¬entry.adoptOrphans = true := by
        rw [adopts]
        exact Bool.false_ne_true
      constructor
      · rintro ⟨notAbove, notMarker, room, notBelow, noNear⟩
        exact ⟨notMarker, room, by rw [if_neg keeps]; exact ⟨notAbove, notBelow⟩, noNear⟩
      · rintro ⟨notMarker, room, onlyJob, noNear⟩
        rw [if_neg keeps] at onlyJob
        exact ⟨onlyJob.1, notMarker, room, onlyJob.2, noNear⟩

end Entry

/-- A digest of the right shape. -/
def zeroDigest (_ : Text) : Text := List.replicate 64 '0'

theorem isDigest_zeroDigest (job : Text) : isDigest (zeroDigest job) = true := by
  change isDigest (List.replicate 64 '0') = true
  decide +kernel

def backup : CronJob where
  name := "backup".toList
  job := "0 3 * * * /backup".toList
  adoptOrphans := true

/-- The managed pair, and the job once more. -/
def jobTwice : Text :=
  backup.marker zeroDigest ++ '\n' :: backup.job ++ '\n' :: backup.job ++ ['\n']

theorem readCrontab_jobTwice :
    readCrontab (some jobTwice) = [backup.marker zeroDigest, backup.job, backup.job] := by
  decide +kernel

theorem paired_jobTwice : backup.IsPaired zeroDigest (readCrontab (some jobTwice)) := by
  rw [readCrontab_jobTwice]
  exact ⟨[], [backup.job], rfl, fun line mem => absurd mem List.not_mem_nil⟩

theorem unpaired_none : ¬backup.IsPaired zeroDigest (readCrontab none) := by
  rintro ⟨front, tail, split, _⟩
  exact List.append_ne_nil_of_right_ne_nil _ (List.cons_ne_nil _ _) split.symm

/-- The job converges on no crontab, and not on one that holds it twice. -/
theorem backup_converges_on_none :
    Converges zeroDigest backup none ∧ ¬Converges zeroDigest backup (some jobTwice) := by
  have accepted : backup.accepted = true := by decide +kernel
  have notBlank : trimEnd backup.job ≠ [] := by decide
  rw [cronJob_converges_iff isDigest_zeroDigest accepted notBlank,
    cronJob_converges_iff isDigest_zeroDigest accepted notBlank]
  refine ⟨⟨fun paired => absurd paired unpaired_none, fun _ => ?_⟩, fun settles => ?_⟩
  · refine ⟨by decide +kernel, .inl (by decide), ?_, ?_⟩
    · change ¬[_, _] <:+: []
      rw [List.infix_nil]
      exact List.cons_ne_nil _ _
    · rintro ⟨front, line, back, split, _⟩
      exact List.append_ne_nil_of_right_ne_nil _ (List.cons_ne_nil _ _) split.symm
  · have once := settles.1 paired_jobTwice
    rw [readCrontab_jobTwice] at once
    revert once
    decide +kernel

/-- A copy of the job outside the pair is reported by every check and removed by no apply. -/
theorem copy_never_removed :
    ¬∀ (entry : CronJob) (crontab : Option Text), entry.accepted = true →
      trimEnd entry.job ≠ [] →
      (entry.adoptOrphans = true ∨ ∀ index,
        (readCrontab crontab)[index]? = some entry.job →
          ∃ markerIndex, findMarkerIndex (readCrontab crontab) entry.name = some markerIndex ∧
            (index = markerIndex ∨ index = markerIndex + 1)) →
      Converges zeroDigest entry crontab := by
  intro converges
  have ok := converges backup (some jobTwice) (by decide +kernel) (by decide) (.inl rfl)
  rw [converges_iff_verdict, applyCronJobState, mutation_present_of_pair paired_jobTwice,
    verdict_paired_iff paired_jobTwice, readCrontab_jobTwice] at ok
  revert ok
  decide +kernel

end Paratix.Cron
