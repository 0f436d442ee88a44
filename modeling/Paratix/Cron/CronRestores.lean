/-
Module: Paratix.Cron.CronRestores
Purpose: When setting a cron job and removing it again leads back to the lines that were
  read, and what the edits of one entry do to the rest of the crontab.
Main exports: Restores, cronEdits_touch_own_iff
-/
import Paratix.Cron.CronFrame

namespace Paratix.Cron

open Foundation

/-- Setting the job and removing it again leads back to the lines that were read. -/
def Restores (digest : Text → Text) (entry : CronJob) (crontab : Option Text) : Prop :=
  let present := (applyCronJobState digest entry .present crontab).2
  readCrontab (applyCronJobState digest entry .absent present).2 = readCrontab crontab

/-! ### Reading back -/

/-- The lines that are read after the lines were written. -/
def readBack (lines : List Text) : List Text := readCrontab (writeCrontab lines)

theorem readBack_blank {lines : List Text} (isBlank : ∀ line ∈ lines, trimEnd line = []) :
    (readBack lines).length ≤ lines.length := by
  cases lines with
  | nil => exact Nat.le_refl _
  | cons first rest =>
    have spaces : ∀ char ∈ ['\n'].intercalate (first :: rest) ++ ['\n'], isJsSpace char = true := by
      rw [intercalate_newline (List.cons_ne_nil _ _)]
      intro char mem
      obtain ⟨line, isLine, inLine⟩ := List.mem_flatMap.1 mem
      rcases List.mem_append.1 inLine with inLine | isNewline
      · exact trimEnd_eq_nil_iff.1 (isBlank line isLine) char inLine
      · rw [List.mem_singleton.1 isNewline]
        rfl
    have single : readBack (first :: rest) = [[]] := by
      change (trimEnd (['\n'].intercalate (first :: rest) ++ ['\n'])).splitOn '\n' = [[]]
      rw [trimEnd_eq_nil_iff.2 spaces]
      rfl
    rw [single, List.length_cons, List.length_cons]
    exact Nat.succ_le_succ (Nat.zero_le _)

theorem length_readBack_le {lines : List Text} (oneLine : ∀ line ∈ lines, '\n' ∉ line) :
    (readBack lines).length ≤ lines.length := by
  rcases exists_last_notBlank lines with isBlank | ⟨front, last, blank, rfl, notBlank, isBlank⟩
  · exact readBack_blank isBlank
  · rw [readBack, readCrontab_writeCrontab oneLine notBlank isBlank, List.length_append,
      List.length_append, List.length_cons, List.length_cons, List.length_nil]
    omega

/-- Lines that were read are read back as they are. -/
theorem readBack_readCrontab (crontab : Option Text) :
    readBack (readCrontab crontab) = readCrontab crontab := by
  have oneLine : ∀ line ∈ readCrontab crontab, '\n' ∉ line :=
    fun _ mem => oneLine_of_mem_readCrontab mem
  rcases readCrontab_cases crontab with empty | blank | ⟨front, last, read, nonempty, trimmed⟩
  · rw [empty]
    rfl
  · rw [blank]
    decide
  · rw [read] at oneLine ⊢
    have split := @readCrontab_writeCrontab front [] last oneLine
      (by rw [trimmed]; exact nonempty) (fun _ mem => absurd mem List.not_mem_nil)
    rw [readBack, split, trimmed]

section Entry

variable {digest : Text → Text} {entry : CronJob} {front tail : List Text}

/-- The digest at its end keeps a marker as it is. -/
theorem trimEnd_marker (isDigests : ∀ job, isDigest (digest job) = true) :
    trimEnd (entry.marker digest) = entry.marker digest := by
  have digits := isDigests entry.job
  rw [isDigest, Bool.and_eq_true, decide_eq_true_iff, List.all_eq_true] at digits
  have notSpace : ∀ char, isHexDigit char = true → isJsSpace char = false := by
    intro char isHex
    have all : ∀ digit ∈ "0123456789abcdef".toList, isJsSpace digit = false :=
      forall_mem_of_all (by decide)
    rw [isHexDigit, decide_eq_true_iff] at isHex
    exact all char isHex
  have trimmed : trimEnd (digest entry.job) = digest entry.job := by
    rw [trimEnd, List.rdropWhile_eq_self_iff]
    intro nonempty isSpace
    rw [notSpace _ (digits.2 _ (List.getLast_mem nonempty))] at isSpace
    cases isSpace
  have notBlank : trimEnd (digest entry.job) ≠ [] := by
    rw [trimmed]
    intro empty
    rw [empty] at digits
    cases digits.1
  rw [CronJob.marker, renderMarkerLine, trimEnd_append _ notBlank, trimmed]

theorem marker_notBlank (isDigests : ∀ job, isDigest (digest job) = true) :
    trimEnd (entry.marker digest) ≠ [] := by
  rw [trimEnd_marker isDigests]
  exact List.cons_ne_nil _ _

/-- Behind the marker the read lines end with the last line that is not blank. -/
theorem readBack_marker (isDigests : ∀ job, isDigest (digest job) = true)
    (oneLine : ∀ line ∈ front ++ entry.marker digest :: tail, '\n' ∉ line) :
    (∀ line ∈ tail, trimEnd line = []) ∧
        readBack (front ++ entry.marker digest :: tail) = front ++ [entry.marker digest] ∨
      ∃ before last blank, tail = before ++ last :: blank ∧ trimEnd last ≠ [] ∧
        (∀ line ∈ blank, trimEnd line = []) ∧
        readBack (front ++ entry.marker digest :: tail) =
          front ++ entry.marker digest :: (before ++ [trimEnd last]) := by
  rcases exists_last_notBlank tail with isBlank | ⟨before, last, blank, rfl, notBlank, isBlank⟩
  · refine .inl ⟨isBlank, ?_⟩
    rw [readBack, readCrontab_writeCrontab oneLine (marker_notBlank isDigests) isBlank,
      trimEnd_marker isDigests]
  · refine .inr ⟨before, last, blank, rfl, notBlank, isBlank, ?_⟩
    have split := @readCrontab_writeCrontab (front ++ entry.marker digest :: before) blank last
    rw [List.append_assoc, List.append_assoc] at split
    exact split oneLine notBlank isBlank

/-! ### Setting and removing -/

/-- A removal takes the pair out of the lines that were read. -/
theorem mutation_absent_eq (digest : Text → Text) (entry : CronJob) (lines : List Text) :
    (entry.mutation digest .absent lines).getD lines =
      withoutPair entry.name entry.job lines := by
  rw [CronJob.mutation, computeCronJobMutation, withoutPair]
  cases findMarkerIndex lines entry.name <;> rfl

theorem readCrontab_absent (crontab : Option Text) :
    readCrontab (applyCronJobState digest entry .absent crontab).2 =
      readBack (withoutPair entry.name entry.job (readCrontab crontab)) := by
  rw [← mutation_absent_eq digest, applyCronJobState]
  cases entry.mutation digest .absent (readCrontab crontab) with
  | none => exact (readBack_readCrontab crontab).symm
  | some nextLines => rfl

/-- What setting and removing the entry reads in the end. -/
theorem restores_free_iff {crontab : Option Text}
    (missing : findMarkerIndex (readCrontab crontab) entry.name = none) :
    Restores digest entry crontab ↔
      readBack (withoutPair entry.name entry.job
        (readBack (entry.written digest (readCrontab crontab)))) = readCrontab crontab := by
  have unpaired : ¬entry.IsPaired digest (readCrontab crontab) :=
    not_isPaired_free (findMarkerIndex_eq_none_iff.1 missing)
  have written : (applyCronJobState digest entry .present crontab).2 =
      writeCrontab (entry.written digest (readCrontab crontab)) := by
    rw [applyCronJobState, mutation_present_eq unpaired]
  rw [Restores, written, readCrontab_absent]
  rfl

/-- The pair behind lines without a marker is taken out again. -/
theorem restores_appended (isDigests : ∀ job, isDigest (digest job) = true)
    (accepted : entry.accepted = true) {crontab : Option Text}
    (missing : findMarkerIndex (readCrontab crontab) entry.name = none)
    (written : entry.written digest (readCrontab crontab) =
      readCrontab crontab ++ [entry.marker digest, entry.job]) :
    Restores digest entry crontab ↔
      trimEnd entry.job = entry.job ∨ trimEnd entry.job = [] := by
  have free := findMarkerIndex_eq_none_iff.1 missing
  have isMarker := isMarkerLine_marker digest entry
  have oneLine : ∀ line ∈ readCrontab crontab, '\n' ∉ line :=
    fun _ mem => oneLine_of_mem_readCrontab mem
  have oneLines : ∀ line ∈ readCrontab crontab ++ entry.marker digest :: [entry.job],
      '\n' ∉ line := by
    rw [List.forall_mem_append, List.forall_mem_cons, List.forall_mem_singleton]
    exact ⟨oneLine, newline_notMem_marker isDigests accepted, newline_notMem_job accepted⟩
  rw [restores_free_iff missing, written]
  rcases readBack_marker isDigests oneLines with
    ⟨isBlank, alone⟩ | ⟨before, last, blank, split, notBlank, _, together⟩
  · rw [alone, withoutPair_marker free isMarker, List.head?_nil,
      if_neg (Option.some_ne_none _).symm, List.append_nil, readBack_readCrontab]
    exact iff_of_true rfl (.inr (isBlank _ (List.mem_singleton_self _)))
  · have single : before = [] ∧ entry.job = last := by
      cases before with
      | nil => exact ⟨rfl, (List.cons.inj split).1⟩
      | cons first before =>
        exact absurd (List.cons.inj split).2.symm
          (List.append_ne_nil_of_right_ne_nil _ (List.cons_ne_nil _ _))
    obtain ⟨rfl, rfl⟩ := single
    rw [together, List.nil_append, withoutPair_marker free isMarker, List.head?_cons,
      List.tail_cons]
    by_cases trimmed : trimEnd entry.job = entry.job
    · rw [if_pos (by rw [trimmed]), List.append_nil, readBack_readCrontab]
      exact iff_of_true rfl (.inl trimmed)
    · rw [if_neg fun same => trimmed (Option.some.inj same)]
      refine iff_of_false ?_ (not_or.2 ⟨trimmed, notBlank⟩)
      -- the trimmed job stays as a line that no one manages
      have stays : readBack (readCrontab crontab ++ [trimEnd entry.job]) =
          readCrontab crontab ++ [trimEnd (trimEnd entry.job)] := by
        apply readCrontab_writeCrontab _ (by rw [trimEnd_idem]; exact notBlank)
          (fun _ mem => absurd mem List.not_mem_nil)
        rw [List.forall_mem_append, List.forall_mem_singleton]
        exact ⟨oneLine, fun member => newline_notMem_job accepted
          ((isPrefix_trimEnd entry.job).subset member)⟩
      rw [stays]
      intro same
      have longer := congrArg List.length same
      rw [List.length_append, List.length_singleton] at longer
      omega

/-- A line that was adopted is removed for good. -/
theorem not_restores_adopted (isDigests : ∀ job, isDigest (digest job) = true)
    (accepted : entry.accepted = true) (adopts : entry.adoptOrphans = true)
    {crontab : Option Text} {back : List Text}
    (missing : findMarkerIndex (readCrontab crontab) entry.name = none)
    (split : readCrontab crontab = front ++ entry.job :: back) (absent : entry.job ∉ front)
    (above : entry.above (readCrontab crontab) = front)
    (below : entry.below (readCrontab crontab) = back) : ¬Restores digest entry crontab := by
  have isMarker := isMarkerLine_marker digest entry
  have free := findMarkerIndex_eq_none_iff.1 missing
  have oneLine : ∀ line ∈ readCrontab crontab, '\n' ∉ line :=
    fun _ mem => oneLine_of_mem_readCrontab mem
  rw [split] at free oneLine
  have notMarker : entry.job ≠ entry.marker digest := by
    intro same
    have isOther := free entry.job (List.mem_append_right _ List.mem_cons_self)
    rw [same, isMarker] at isOther
    cases isOther
  have frontFree : MarkerFree entry.name front := fun line mem =>
    free line (List.mem_append_left _ mem)
  have shortBack := (@keepBelow_sublist _ _ (entry.marker digest) entry.job
    (some entry.job) back).length_le
  have keptOneLine : ∀ line ∈ keepBelow (entry.marker digest) entry.job (some entry.job)
      back, '\n' ∉ line := fun line mem =>
    oneLine line (List.mem_append_right _
      (List.mem_cons_of_mem _ ((keepBelow_sublist _ _).subset mem)))
  have oneLines : ∀ line ∈ front ++ entry.marker digest :: entry.job ::
      keepBelow (entry.marker digest) entry.job (some entry.job) back, '\n' ∉ line := by
    rw [List.forall_mem_append, List.forall_mem_cons, List.forall_mem_cons]
    exact ⟨fun line mem => oneLine line (List.mem_append_left _ mem),
      newline_notMem_marker isDigests accepted, newline_notMem_job accepted, keptOneLine⟩
  rw [restores_free_iff missing, written_adopted adopts notMarker, above, below,
    keepBelow_of_notMem absent, split]
  have tooShort (rest : List Text) (oneLineRest : ∀ line ∈ front ++ rest, '\n' ∉ line)
      (short : rest.length ≤ back.length) :
      readBack (front ++ rest) ≠ front ++ entry.job :: back := by
    intro same
    have longer := length_readBack_le oneLineRest
    rw [same, List.length_append, List.length_append, List.length_cons] at longer
    omega
  rcases readBack_marker isDigests oneLines with
    ⟨_, alone⟩ | ⟨before, last, blank, cut, notBlank, _, together⟩
  · rw [alone, withoutPair_marker frontFree isMarker, List.head?_nil,
      if_neg (Option.some_ne_none _).symm]
    refine tooShort [] ?_ (Nat.zero_le _)
    rw [List.append_nil]
    exact fun line mem => oneLine line (List.mem_append_left _ mem)
  · rw [together]
    cases before with
    | nil =>
      obtain ⟨isLast, _⟩ := List.cons.inj cut
      rw [← isLast] at notBlank ⊢
      rw [List.nil_append, withoutPair_marker frontFree isMarker, List.head?_cons, List.tail_cons]
      by_cases trimmed : trimEnd entry.job = entry.job
      · rw [if_pos (by rw [trimmed])]
        refine tooShort [] ?_ (Nat.zero_le _)
        rw [List.append_nil]
        exact fun line mem => oneLine line (List.mem_append_left _ mem)
      · rw [if_neg fun same => trimmed (Option.some.inj same)]
        have stays : readBack (front ++ [trimEnd entry.job]) =
            front ++ [trimEnd (trimEnd entry.job)] := by
          apply readCrontab_writeCrontab _ (by rw [trimEnd_idem]; exact notBlank)
            (fun _ mem => absurd mem List.not_mem_nil)
          rw [List.forall_mem_append, List.forall_mem_singleton]
          exact ⟨fun line mem => oneLine line (List.mem_append_left _ mem), fun member =>
            newline_notMem_job accepted ((isPrefix_trimEnd entry.job).subset member)⟩
        rw [stays, trimEnd_idem, List.append_cancel_left_eq]
        exact fun same => trimmed (List.cons.inj same).1
    | cons first before =>
      rw [List.cons_append] at cut
      obtain ⟨isFirst, isKept⟩ := List.cons.inj cut
      rw [← isFirst, List.cons_append, withoutPair_split frontFree isMarker]
      apply tooShort
      · rw [isKept, List.forall_mem_append, List.forall_mem_cons] at keptOneLine
        rw [List.forall_mem_append, List.forall_mem_append, List.forall_mem_singleton]
        exact ⟨fun line mem => oneLine line (List.mem_append_left _ mem), keptOneLine.1,
          fun member => keptOneLine.2.1 ((isPrefix_trimEnd last).subset member)⟩
      · rw [isKept, List.length_append, List.length_cons] at shortBack
        rw [List.length_append, List.length_singleton]
        omega

/-- Setting and removing leads back exactly if nothing was adopted and the job is read as it
was written. -/
theorem restores_iff (isDigests : ∀ job, isDigest (digest job) = true)
    (accepted : entry.accepted = true) {crontab : Option Text}
    (missing : findMarkerIndex (readCrontab crontab) entry.name = none) :
    Restores digest entry crontab ↔
      ¬(entry.adoptOrphans = true ∧ entry.job ∈ readCrontab crontab) ∧
        (trimEnd entry.job = entry.job ∨ trimEnd entry.job = []) := by
  have free := findMarkerIndex_eq_none_iff.1 missing
  rcases adoption_cases entry missing with
    ⟨notAdopted, above, below⟩ | ⟨adopts, front, back, split, absent, above, below⟩
  · have keeps : Restores digest entry crontab ↔
        trimEnd entry.job = entry.job ∨ trimEnd entry.job = [] := by
      cases adopts : entry.adoptOrphans with
      | false =>
        apply restores_appended isDigests accepted missing
        rw [written_unadopted adopts, above, below]
      | true =>
        have notListed : entry.job ∉ readCrontab crontab := fun member =>
          notAdopted ⟨adopts, member⟩
        by_cases selfMarked : entry.job = entry.marker digest
        · have trimmed : trimEnd entry.job = entry.job := by
            rw [selfMarked]
            exact trimEnd_marker isDigests
          refine iff_of_true ?_ (.inl trimmed)
          have oneLines : ∀ line ∈ readCrontab crontab ++ entry.marker digest :: [],
              '\n' ∉ line := by
            rw [List.forall_mem_append, List.forall_mem_singleton]
            exact ⟨fun _ mem => oneLine_of_mem_readCrontab mem,
              newline_notMem_marker isDigests accepted⟩
          have alone : readBack (readCrontab crontab ++ [entry.marker digest]) =
              readCrontab crontab ++ [entry.marker digest] := by
            rcases readBack_marker isDigests oneLines with
              ⟨_, alone⟩ | ⟨before, last, blank, cut, _⟩
            · exact alone
            · exact absurd cut.symm (List.append_ne_nil_of_right_ne_nil _ (List.cons_ne_nil _ _))
          rw [restores_free_iff missing, written_selfMarked selfMarked adopts, above, below,
            selfMarked]
          change readBack (withoutPair entry.name _ (readBack
            (readCrontab crontab ++ [entry.marker digest]))) = _
          rw [alone, ← selfMarked, withoutPair_marker free
            (by rw [selfMarked]; exact isMarkerLine_marker digest entry), List.head?_nil,
            if_neg (Option.some_ne_none _).symm, List.append_nil, readBack_readCrontab]
        · apply restores_appended isDigests accepted missing
          rw [written_adopted adopts selfMarked, above, below, keepBelow_of_notMem notListed]
          rfl
    rw [keeps]
    constructor
    · exact fun readAsWritten => ⟨notAdopted, readAsWritten⟩
    · exact fun conditions => conditions.2
  · refine iff_of_false
      (not_restores_adopted isDigests accepted adopts missing split absent above below) ?_
    rintro ⟨notAdopted, _⟩
    refine notAdopted ⟨adopts, ?_⟩
    rw [split]
    exact List.mem_append_right _ List.mem_cons_self

/-! ### Main result -/

/-- Removals touch their own entry only. Setting an entry does so exactly if it stands there
already, or the line below its marker is its own, every copy of an adopted job is taken over
and none belongs to another name; it can be undone exactly if nothing was adopted and the job
is read as it was written. -/
theorem cronEdits_touch_own_iff (isDigests : ∀ job, isDigest (digest job) = true)
    (accepted : entry.accepted = true) :
    (∀ lines, AbsentFrame digest entry.name (some entry.job) lines
        ((entry.mutation digest .absent lines).getD lines)) ∧
      (∀ lines, AbsentFrame digest entry.name none lines
        ((computeCronAbsentLines digest lines entry.name).getD lines)) ∧
      (∀ lines, PresentFrame digest entry lines ↔
        entry.IsPaired digest lines ∨ PresentTouchesOwn digest entry lines) ∧
      (∀ crontab, findMarkerIndex (readCrontab crontab) entry.name = none →
        (Restores digest entry crontab ↔
          ¬(entry.adoptOrphans = true ∧ entry.job ∈ readCrontab crontab) ∧
            (trimEnd entry.job = entry.job ∨ trimEnd entry.job = []))) := by
  have isName : isCronName entry.name = true := by
    rw [CronJob.accepted, Bool.and_eq_true] at accepted
    exact accepted.1
  refine ⟨?_, ?_, ?_, ?_⟩
  · exact fun lines => absentFrame_mutation entry lines
  · exact fun lines => absentFrame_cronAbsent entry.name lines
  · exact fun lines => presentFrame_iff isName lines
  · exact fun crontab missing => restores_iff isDigests accepted missing

end Entry

/-- On no crontab the job is set without touching anything, and can be removed again. -/
theorem backup_restores_none :
    PresentFrame zeroDigest backup [] ∧ Restores zeroDigest backup none := by
  have accepted : backup.accepted = true := by decide +kernel
  have edits := cronEdits_touch_own_iff isDigest_zeroDigest accepted
  constructor
  · apply (edits.2.2.1 []).2
    refine .inr ⟨?_, ?_, ?_⟩
    · intro index _ _ found
      cases found
    · intro _ front back split
      exact absurd split.symm (List.append_ne_nil_of_right_ne_nil _ (List.cons_ne_nil _ _))
    · intro _ other marker _ _ _ _ pair
      cases List.infix_nil.1 pair
  · apply (edits.2.2.2 none rfl).2
    exact ⟨by decide, .inl (by decide)⟩

/-- The same job under the marker of another name. -/
def otherBackup : Text := "# paratix: other\n".toList ++ backup.job ++ ['\n']

/-- The adopted line is taken from the other name's marker. -/
theorem adoption_splits_pair :
    ¬∀ (entry : CronJob) (crontab : Option Text), entry.accepted = true →
      PresentFrame zeroDigest entry (readCrontab crontab) ∧
        AbsentFrame zeroDigest entry.name (some entry.job) (readCrontab crontab)
          ((entry.mutation zeroDigest .absent (readCrontab crontab)).getD
            (readCrontab crontab)) ∧
        (findMarkerIndex (readCrontab crontab) entry.name = none →
          Restores zeroDigest entry crontab) := by
  intro touchesOwn
  have frame := (touchesOwn backup (some otherBackup) (by decide +kernel)).1
  have together := frame.2 "other".toList "# paratix: other".toList backup.job (by decide +kernel)
    (by decide) (by decide +kernel) (by decide +kernel) (.inl (by decide +kernel))
  revert together
  decide +kernel

end Paratix.Cron
