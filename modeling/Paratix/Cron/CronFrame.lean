/-
Module: Paratix.Cron.CronFrame
Purpose: What setting and removing a cron job does to the other lines of the crontab.
Main exports: IsOwnJob, presentFrame_iff
-/
import Paratix.Cron.CronConverges

namespace Paratix.Cron

open Foundation

/-! ### Lines of the entry and other lines -/

section Digest

variable (digest : Text → Text)

/-- A cron job whose digest the marker above it carries; a legacy marker carries none. -/
def IsJobOf (marker line : Text) : Prop :=
  isCronJobLine line = true ∧
    (readMarkerDigest marker = none ∨ readMarkerDigest marker = some (digest line))

/-- The line below the entry's marker is the entry's job, or the job that is asked for. -/
def IsOwnJob (job : Option Text) (marker line : Text) : Prop :=
  some line = job ∨ IsJobOf digest marker line

instance (marker line : Text) : Decidable (IsJobOf digest marker line) :=
  inferInstanceAs (Decidable (_ ∧ _))

instance (job : Option Text) (marker line : Text) :
    Decidable (IsOwnJob digest job marker line) :=
  inferInstanceAs (Decidable (_ ∨ _))

/-- The lines below the marker without the entry's job. -/
def dropOwn (job : Option Text) (marker : Text) : List Text → List Text
  | [] => []
  | line :: lines => if IsOwnJob digest job marker line then lines else line :: lines

/-- The runs of lines that are not the entry's. -/
def segments (name : Text) (job : Option Text) (lines : List Text) : List Text × List Text :=
  match findMarkerIndex lines name with
  | none => (lines, [])
  | some index =>
      (lines.take index,
        dropOwn digest job ((lines[index]?).getD []) (lines.drop (index + 1)))

/-- The lines that are not the entry's. -/
def otherLines (name : Text) (job : Option Text) (lines : List Text) : List Text :=
  (segments digest name job lines).1 ++ (segments digest name job lines).2

/-- Every marker of another name that stands above its job still does. -/
def KeepsPairs (name : Text) (job : Option Text) (lines after : List Text) : Prop :=
  ∀ other marker line, isCronName other = true → other ≠ name →
    isMarkerLine other marker = true → IsJobOf digest marker line →
    [marker, line] <:+: (segments digest name job lines).1 ∨
      [marker, line] <:+: (segments digest name job lines).2 →
    [marker, line] <:+: after

/-- A crontab without the entry's marker and the job below it. -/
def withoutPair (name job : Text) (lines : List Text) : List Text :=
  match findMarkerIndex lines name with
  | none => lines
  | some index => splice lines index (if lines[index + 1]? = some job then 2 else 1)

/-- The lines that setting the entry must keep; an adopted line becomes the entry's. -/
def CronJob.keptLines (entry : CronJob) (lines : List Text) : List Text :=
  if findMarkerIndex lines entry.name = none ∧ entry.adoptOrphans = true then
    lines.erase entry.job
  else otherLines digest entry.name (some entry.job) lines

/-- Setting the entry keeps every other line in order and every other pair together. -/
def PresentFrame (entry : CronJob) (lines : List Text) : Prop :=
  let after := (entry.mutation digest .present lines).getD lines
  (entry.keptLines digest lines).Sublist (withoutPair entry.name entry.job after) ∧
    KeepsPairs digest entry.name (some entry.job) lines after

/-- A removal keeps every other line in order and every other pair together. -/
def AbsentFrame (name : Text) (job : Option Text) (lines after : List Text) : Prop :=
  (otherLines digest name job lines).Sublist after ∧
    KeepsPairs digest name job lines after

/-- The lines that setting the entry takes over: the marker and the line below it, or the
first copy of the job. -/
def CronJob.TakesOver (entry : CronJob) (lines : List Text) (index : Nat) : Prop :=
  match findMarkerIndex lines entry.name with
  | none => entry.job ∉ lines.take index
  | some markerIndex => index = markerIndex ∨ index = markerIndex + 1

/-- What the crontab must fulfil for setting the entry to touch nothing else. -/
structure PresentTouchesOwn (entry : CronJob) (lines : List Text) : Prop where
  /-- the cron job below the marker is the entry's -/
  ownFollow : ∀ index marker follow, findMarkerIndex lines entry.name = some index →
    lines[index]? = some marker → lines[index + 1]? = some follow →
    isCronJobLine follow = true → IsOwnJob digest (some entry.job) marker follow
  /-- a copy of the job is taken over, or stands directly below a copy of the marker -/
  orphanFree : entry.adoptOrphans = true → ∀ front back,
    lines = front ++ entry.job :: back → entry.TakesOver lines front.length ∨
      front.getLast? = some (entry.marker digest)
  /-- no line with the job belongs to another name -/
  notStolen : entry.adoptOrphans = true → ∀ other marker, isCronName other = true →
    other ≠ entry.name → isMarkerLine other marker = true →
    IsJobOf digest marker entry.job →
    ¬[marker, entry.job] <:+: (segments digest entry.name (some entry.job) lines).1

end Digest

/-! ### Pairs of lines -/

/-- Two lines that follow each other stand on one side of a cut, or across it. -/
theorem pair_infix_append {upper lower cut : Text} {front back : List Text}
    (pair : [upper, lower] <:+: front ++ cut :: back) :
    [upper, lower] <:+: front ∨ (front.getLast? = some upper ∧ lower = cut) ∨
      [upper, lower] <:+: cut :: back := by
  obtain ⟨before, after, split⟩ := pair
  rw [List.append_assoc] at split
  rcases List.append_eq_append_iff.1 split with ⟨middle, rfl, rest⟩ | ⟨middle, rfl, rest⟩
  · rcases middle with _ | ⟨first, _ | ⟨second, middle⟩⟩
    · exact .inr (.inr ⟨[], after, rest⟩)
    · obtain ⟨rfl, lowerRest⟩ := List.cons.inj rest
      exact .inr (.inl ⟨List.getLast?_concat, (List.cons.inj lowerRest).1⟩)
    · obtain ⟨rfl, lowerRest⟩ := List.cons.inj rest
      obtain ⟨rfl, _⟩ := List.cons.inj lowerRest
      exact .inl ⟨before, middle, List.append_assoc ..⟩
  · refine .inr (.inr ⟨middle, after, ?_⟩)
    rw [rest, List.append_assoc]

/-! ### Markers -/

/-- What stands between the prefix and the first blank is the name. -/
theorem marker_name {name line : Text} (isName : isCronName name = true)
    (isMarker : isMarkerLine name line = true) :
    (line.drop MARKER_PREFIX.length).takeWhile (fun char => char != ' ') = name := by
  rw [isCronName, Bool.and_eq_true, List.all_eq_true] at isName
  have noBlank : ∀ char ∈ name, (char != ' ') = true := by
    intro char member
    rw [bne_iff_ne]
    rintro rfl
    exact Bool.false_ne_true (isName.2 _ member)
  rw [isMarkerLine, Bool.or_eq_true, decide_eq_true_iff, List.isPrefixOf_iff_prefix] at isMarker
  rcases isMarker with rfl | ⟨rest, rfl⟩
  · rw [List.drop_left]
    exact List.takeWhile_eq_self_iff.2 noBlank
  · rw [List.append_assoc, List.append_assoc, List.drop_left, List.takeWhile_append_of_pos noBlank]
    exact List.append_nil _

theorem trim_of_starts {head : Char} (rest : Text) (starts : isJsSpace head = false) :
    (trim (head :: rest)).head? = some head := by
  have whole : trim (head :: rest) = trimEnd ([head] ++ rest) := by
    rw [trim, List.dropWhile_cons_of_neg (by rw [starts]; exact Bool.false_ne_true)]
    rfl
  have single : trimEnd [head] = [head] := by
    rw [trimEnd, List.rdropWhile_eq_self_iff]
    intro _ isSpace
    rw [List.getLast_singleton, starts] at isSpace
    cases isSpace
  rw [whole]
  by_cases blank : trimEnd rest = []
  · rw [trimEnd_append_blank _ (trimEnd_eq_nil_iff.1 blank), single]
    rfl
  · rw [trimEnd_append _ blank]
    rfl

/-- A marker is a comment. -/
theorem isCronJobLine_marker {name line : Text} (isMarker : isMarkerLine name line = true) :
    isCronJobLine line = false := by
  have starts : ∃ rest, line = '#' :: rest := by
    rw [isMarkerLine, Bool.or_eq_true, decide_eq_true_iff, List.isPrefixOf_iff_prefix] at isMarker
    rcases isMarker with rfl | ⟨rest, rfl⟩
    · exact ⟨_, rfl⟩
    · exact ⟨_, rfl⟩
  obtain ⟨rest, rfl⟩ := starts
  rw [isCronJobLine, trim_of_starts rest rfl]
  exact Bool.and_false _

/-! ### Runs of lines -/

section Segments

variable {digest : Text → Text} {entry : CronJob} {name : Text} {job : Option Text}
  {front tail lines : List Text} {old : Text}

theorem segments_free (missing : findMarkerIndex lines name = none) :
    segments digest name job lines = (lines, []) := by
  rw [segments, missing]

theorem segments_split (free : MarkerFree name front) (isMarker : isMarkerLine name old = true) :
    segments digest name job (front ++ old :: tail) =
      (front, dropOwn digest job old tail) := by
  rw [segments, findMarkerIndex_split free isMarker]
  change ((front ++ old :: tail).take front.length, dropOwn digest job
    (((front ++ old :: tail)[front.length]?).getD [])
    ((front ++ old :: tail).drop (front.length + 1))) = _
  rw [take_split, getElem?_marker, drop_split, Option.getD_some]

theorem otherLines_free (missing : findMarkerIndex lines name = none) :
    otherLines digest name job lines = lines := by
  rw [otherLines, segments_free missing, List.append_nil]

theorem otherLines_split (free : MarkerFree name front) (isMarker : isMarkerLine name old = true) :
    otherLines digest name job (front ++ old :: tail) =
      front ++ dropOwn digest job old tail := by
  rw [otherLines, segments_split free isMarker]

theorem dropOwn_suffix (job : Option Text) (marker : Text) (tail : List Text) :
    dropOwn digest job marker tail <:+ tail := by
  cases tail with
  | nil => exact List.suffix_refl _
  | cons follow tail =>
    rw [dropOwn]
    split
    · exact List.suffix_cons _ _
    · exact List.suffix_refl _

theorem withoutPair_split {job : Text} (free : MarkerFree name front)
    (isMarker : isMarkerLine name old = true) :
    withoutPair name job (front ++ old :: job :: tail) = front ++ tail := by
  rw [withoutPair, findMarkerIndex_split free isMarker]
  change splice _ front.length (if (front ++ old :: job :: tail)[front.length + 1]? = some job
    then 2 else 1) = _
  rw [getElem?_follow, List.head?_cons, if_pos rfl, splice_two]

/-- Where the runs stay whole, all pairs in them stay together. -/
theorem keepsPairs_of_segments {after : List Text}
    (above : (segments digest name job lines).1 <:+: after)
    (below : (segments digest name job lines).2 <:+: after) :
    KeepsPairs digest name job lines after := by
  rintro other marker line _ _ _ _ (inAbove | inBelow)
  · exact inAbove.trans above
  · exact inBelow.trans below

/-! ### Removals -/

/-- A removal of the marker, and of the line below it where that is the entry's. -/
theorem absentFrame_splice (lines : List Text) {count : Nat → Nat}
    (counts : ∀ index, count index = 1 ∨ count index = 2 ∧
      ∃ marker follow, lines[index]? = some marker ∧ lines[index + 1]? = some follow ∧
        IsOwnJob digest job marker follow) :
    AbsentFrame digest name job lines
      (((findMarkerIndex lines name).map fun index => splice lines index (count index)).getD
        lines) := by
  rcases findMarkerIndex_cases name lines with
    ⟨missing, _⟩ | ⟨front, old, tail, rfl, free, isMarker, found⟩
  · rw [missing, AbsentFrame, otherLines_free missing]
    refine ⟨List.Sublist.refl _, keepsPairs_of_segments ?_ ?_⟩
    · rw [segments_free missing]
      exact List.infix_refl _
    · rw [segments_free missing]
      exact List.nil_infix
  · rw [found, Option.map_some, Option.getD_some, AbsentFrame, otherLines_split free isMarker]
    have after : ∃ rest, splice (front ++ old :: tail) front.length (count front.length) =
        front ++ rest ∧ dropOwn digest job old tail <:+ rest := by
      rcases counts front.length with one | ⟨two, marker, follow, isOld, isFollow, own⟩
      · rw [one, splice_one]
        exact ⟨tail, rfl, dropOwn_suffix _ _ _⟩
      · rw [getElem?_marker, Option.some.injEq] at isOld
        rw [getElem?_follow] at isFollow
        obtain ⟨rest, rfl⟩ := List.head?_eq_some_iff.1 isFollow
        rw [two, splice_two, dropOwn, isOld, if_pos own]
        exact ⟨rest, rfl, List.suffix_refl _⟩
    obtain ⟨rest, afterEq, suffix⟩ := after
    rw [afterEq]
    refine ⟨List.Sublist.append_left suffix.sublist _, keepsPairs_of_segments ?_ ?_⟩
    · rw [segments_split free isMarker]
      exact (List.prefix_append _ _).isInfix
    · rw [segments_split free isMarker]
      exact (suffix.trans (List.suffix_append _ _)).isInfix

/-- `cron.job` with the state absent touches its own entry only. -/
theorem absentFrame_mutation (entry : CronJob) (lines : List Text) :
    AbsentFrame digest entry.name (some entry.job) lines
      ((entry.mutation digest .absent lines).getD lines) := by
  rw [CronJob.mutation, computeCronJobMutation]
  apply absentFrame_splice
  intro index
  split
  · next isJob =>
    have inside : index + 1 < lines.length := (List.getElem?_eq_some_iff.1 isJob).1
    exact .inr ⟨rfl, _, _, List.getElem?_eq_getElem (Nat.lt_of_succ_lt inside), isJob, .inl rfl⟩
  · exact .inl rfl

/-- `cron.absent` touches its own entry only. -/
theorem absentFrame_cronAbsent (name : Text) (lines : List Text) :
    AbsentFrame digest name none lines
      ((computeCronAbsentLines digest lines name).getD lines) := by
  rw [computeCronAbsentLines]
  apply absentFrame_splice
  intro index
  split
  · next isManaged =>
    rw [followIsManagedJob] at isManaged
    split at isManaged
    · cases isManaged
    · next recordedDigest recorded =>
      rw [Bool.and_eq_true, decide_eq_true_iff, looksLikeCronJobLine] at isManaged
      cases isMarker : lines[index]? with
      | none =>
        rw [isMarker] at recorded
        cases recorded
      | some marker =>
        cases isFollow : lines[index + 1]? with
        | none =>
          rw [isFollow] at isManaged
          cases isManaged.1
        | some follow =>
          rw [isMarker, Option.getD_some] at recorded
          rw [isFollow, Option.getD_some] at isManaged
          refine .inr ⟨rfl, marker, follow, rfl, rfl, .inr ⟨isManaged.1, .inr ?_⟩⟩
          rw [recorded, isManaged.2]
  · exact .inl rfl

/-! ### Setting the entry -/

/-- The lines below the pair against the lines that are not the entry's: a cron job that is
not the entry's is lost; a job that is no cron job line stays as a copy. -/
theorem dropOwn_cases (digest : Text → Text) (job marker : Text) (tail : List Text) :
    (∃ follow, dropOwn digest (some job) marker tail = follow :: dropJobLine tail ∧
        tail.head? = some follow ∧ isCronJobLine follow = true ∧
        ¬IsOwnJob digest (some job) marker follow) ∨
      ((∀ follow, tail.head? = some follow → isCronJobLine follow = true →
          IsOwnJob digest (some job) marker follow) ∧
        (dropJobLine tail = dropOwn digest (some job) marker tail ∨
          dropJobLine tail = job :: dropOwn digest (some job) marker tail)) := by
  cases tail with
  | nil => exact .inr ⟨fun follow isFollow =>
    absurd isFollow.symm (Option.some_ne_none follow), .inl rfl⟩
  | cons follow tail =>
    rw [dropOwn, dropJobLine]
    by_cases own : IsOwnJob digest (some job) marker follow
    · refine .inr ⟨?_, ?_⟩
      · intro other isFollow _
        rw [← Option.some.inj isFollow]
        exact own
      · rw [if_pos own]
        cases isJob : isCronJobLine follow with
        | true => exact .inl (if_pos rfl)
        | false =>
          have same : follow = job := by
            rcases own with isAsked | isJobOf
            · exact Option.some.inj isAsked
            · rw [isJobOf.1] at isJob
              cases isJob
          rw [same]
          exact .inr (if_neg Bool.false_ne_true)
    · rw [if_neg own]
      cases isJob : isCronJobLine follow with
      | true => exact .inl ⟨follow, by rw [if_pos rfl], rfl, isJob, own⟩
      | false =>
        refine .inr ⟨?_, .inl (if_neg Bool.false_ne_true)⟩
        intro other isFollow isOther
        rw [← Option.some.inj isFollow, isJob] at isOther
        cases isOther

theorem ownFollow_split_iff (free : MarkerFree entry.name front)
    (isMarker : isMarkerLine entry.name old = true) :
    (∀ index marker follow, findMarkerIndex (front ++ old :: tail) entry.name = some index →
        (front ++ old :: tail)[index]? = some marker →
        (front ++ old :: tail)[index + 1]? = some follow → isCronJobLine follow = true →
        IsOwnJob digest (some entry.job) marker follow) ↔
      ∀ follow, tail.head? = some follow → isCronJobLine follow = true →
        IsOwnJob digest (some entry.job) old follow := by
  have found := @findMarkerIndex_split _ _ tail _ free isMarker
  constructor
  · intro own follow isFollow isJob
    apply own front.length old follow found getElem?_marker _ isJob
    rw [getElem?_follow]
    exact isFollow
  · intro own index marker follow isIndex isOld isFollow isJob
    rw [found, Option.some.injEq] at isIndex
    subst isIndex
    rw [getElem?_marker, Option.some.injEq] at isOld
    rw [getElem?_follow] at isFollow
    rw [← isOld]
    exact own follow isFollow isJob

theorem keptLines_split (free : MarkerFree entry.name front)
    (isMarker : isMarkerLine entry.name old = true) :
    entry.keptLines digest (front ++ old :: tail) =
      front ++ dropOwn digest (some entry.job) old tail := by
  rw [CronJob.keptLines, findMarkerIndex_split free isMarker, if_neg,
    otherLines_split free isMarker]
  rintro ⟨none, _⟩
  cases none

theorem keptLines_free (missing : findMarkerIndex lines entry.name = none)
    (absent : entry.adoptOrphans = true → entry.job ∉ lines) :
    entry.keptLines digest lines = lines := by
  rw [CronJob.keptLines]
  split
  · next adopts => exact List.erase_of_not_mem (absent adopts.2)
  · exact otherLines_free missing

theorem marker_notMem (digest : Text → Text) (free : MarkerFree entry.name lines) :
    entry.marker digest ∉ lines := by
  intro member
  have isMarker := isMarkerLine_marker digest entry
  rw [free _ member] at isMarker
  cases isMarker

/-- An entry that stands as it is wanted is left alone. -/
theorem presentFrame_paired (paired : entry.IsPaired digest lines) :
    PresentFrame digest entry lines := by
  have isMarker := isMarkerLine_marker digest entry
  rw [PresentFrame, mutation_present_of_pair paired]
  obtain ⟨front, tail, rfl, free⟩ := paired
  have own : IsOwnJob digest (some entry.job) (entry.marker digest) entry.job := .inl rfl
  constructor
  · rw [keptLines_split free isMarker, dropOwn, if_pos own]
    change (front ++ tail).Sublist (withoutPair _ _ (front ++ _ :: _ :: tail))
    rw [withoutPair_split free isMarker]
  · apply keepsPairs_of_segments
    · rw [segments_split free isMarker]
      exact (List.prefix_append _ _).isInfix
    · rw [segments_split free isMarker, dropOwn, if_pos own]
      change tail <:+: front ++ _ :: _ :: tail
      exact (((List.suffix_cons _ _).trans (List.suffix_cons _ _)).trans
        (List.suffix_append _ _)).isInfix

/-! ### Copies of the job -/

/-- Where there is no marker all copies are removed. -/
theorem keepBelow_free_iff (digest : Text → Text) (free : MarkerFree entry.name lines)
    {previous : Option Text} (notBelow : previous ≠ some (entry.marker digest)) :
    keepBelow (entry.marker digest) entry.job previous lines = lines ↔
      entry.job ∉ lines := by
  constructor
  · intro same member
    obtain ⟨before, after, split⟩ := List.append_of_mem member
    have below := (keepBelow_eq_self_iff previous lines).1 same before after split
    rw [lastLine, Option.or_eq_some_iff] at below
    rcases below with isLast | ⟨_, isPrevious⟩
    · apply marker_notMem digest free
      rw [split]
      exact List.mem_append_left _ (List.mem_of_getLast? isLast)
    · exact notBelow isPrevious
  · exact fun absent => keepBelow_of_notMem absent previous

/-- What the copies of the job must fulfil, seen from the marker that is replaced. -/
theorem orphanFree_split_iff (free : MarkerFree entry.name front)
    (isMarker : isMarkerLine entry.name old = true) :
    (∀ before after, front ++ old :: tail = before ++ entry.job :: after →
        entry.TakesOver (front ++ old :: tail) before.length ∨
          before.getLast? = some (entry.marker digest)) ↔
      entry.job ∉ front ∧
        keepBelow (entry.marker digest) entry.job tail.head? tail.tail = tail.tail := by
  have takesOver (index : Nat) : entry.TakesOver (front ++ old :: tail) index ↔
      index = front.length ∨ index = front.length + 1 := by
    rw [CronJob.TakesOver, findMarkerIndex_split free isMarker]
  constructor
  · intro orphanFree
    constructor
    · intro member
      obtain ⟨before, after, rfl⟩ := List.append_of_mem member
      have here := orphanFree before (after ++ old :: tail) (by rw [List.append_assoc]; rfl)
      rw [takesOver, List.length_append, List.length_cons] at here
      rcases here with position | below
      · omega
      · exact marker_notMem digest free
          (List.mem_append_left _ (List.mem_of_getLast? below))
    · rw [keepBelow_eq_self_iff]
      intro before after split
      cases tail with
      | nil => exact absurd split.symm (List.append_ne_nil_of_right_ne_nil _ (List.cons_ne_nil _ _))
      | cons follow tail =>
        rw [List.tail_cons] at split
        have here := orphanFree (front ++ old :: follow :: before) after
          (by rw [split, List.append_assoc]; rfl)
        rw [takesOver, List.length_append, List.length_cons, List.length_cons] at here
        rcases here with position | below
        · omega
        · rw [List.getLast?_append, List.getLast?_cons, List.getLast?_cons] at below
          rw [List.head?_cons, lastLine]
          cases last : before.getLast? with
          | none =>
            rw [last] at below
            exact below
          | some line =>
            rw [last] at below
            exact below
  · rintro ⟨absent, same⟩ before after split
    rw [takesOver]
    rcases List.append_eq_append_iff.1 split with ⟨middle, rfl, rest⟩ | ⟨middle, rfl, rest⟩
    · rcases middle with _ | ⟨first, _ | ⟨second, middle⟩⟩
      · exact .inl (.inl (by rw [List.append_nil]))
      · exact .inl (.inr List.length_append)
      · refine .inr ?_
        have restTail := (List.cons.inj rest).2
        rw [restTail] at same
        have below := (keepBelow_eq_self_iff _ _).1 same middle after rfl
        rw [List.getLast?_append, List.getLast?_cons, List.getLast?_cons]
        change (middle.getLast?).or (some second) = _ at below
        cases last : middle.getLast? with
        | none =>
          rw [last] at below
          exact below
        | some line =>
          rw [last] at below
          exact below
    · cases middle with
      | nil => exact .inl (.inl (by rw [List.append_nil]))
      | cons first middle =>
        obtain ⟨rfl, _⟩ := List.cons.inj rest
        exact absurd (List.mem_append_right _ List.mem_cons_self) absent

/-- The copies below the job that stays, seen from the marker that is replaced. -/
theorem keepBelow_dropOwn_iff (notMarker : entry.job ≠ entry.marker digest)
    (old : Text) (tail : List Text) : keepBelow (entry.marker digest) entry.job (some entry.job)
        (dropOwn digest (some entry.job) old tail) = dropOwn digest (some entry.job) old tail ↔
      keepBelow (entry.marker digest) entry.job tail.head? tail.tail = tail.tail := by
  cases tail with
  | nil => exact iff_of_true rfl rfl
  | cons follow tail =>
    rw [dropOwn, List.head?_cons, List.tail_cons]
    by_cases own : IsOwnJob digest (some entry.job) old follow
    · have other : follow ≠ entry.marker digest := by
        rintro rfl
        rcases own with isJob | isJobOf
        · exact notMarker (Option.some.inj isJob).symm
        · have comment := isCronJobLine_marker (isMarkerLine_marker digest entry)
          rw [isJobOf.1] at comment
          cases comment
      rw [if_pos own, keepBelow_congr (fun same => notMarker (Option.some.inj same))
        (fun same => other (Option.some.inj same))]
    · have notJob : follow ≠ entry.job := by
        rintro rfl
        exact own (.inl rfl)
      rw [if_neg own, keepBelow_cons_kept _ (.inl notJob), List.cons_inj_right]

/-- Pruning what stands below the pair comes to pruning the lines that are not the entry's. -/
theorem sublist_pruned_iff (notMarker : entry.job ≠ entry.marker digest)
    (free : MarkerFree entry.name front) (old : Text) (tail : List Text) :
    (front ++ dropOwn digest (some entry.job) old tail).Sublist
        (keepBelow (entry.marker digest) entry.job none front ++
          keepBelow (entry.marker digest) entry.job (some entry.job) (dropJobLine tail)) ↔
      (∀ follow, tail.head? = some follow → isCronJobLine follow = true →
          IsOwnJob digest (some entry.job) old follow) ∧
        entry.job ∉ front ∧
        keepBelow (entry.marker digest) entry.job tail.head? tail.tail = tail.tail := by
  have jobAbove : some entry.job ≠ some (entry.marker digest) := fun same =>
    notMarker (Option.some.inj same)
  have shortFront := (@keepBelow_sublist _ _ (entry.marker digest) entry.job none front).length_le
  rw [← keepBelow_dropOwn_iff notMarker old, 
    ← keepBelow_free_iff digest free (Option.some_ne_none _).symm]
  rcases dropOwn_cases digest entry.job old tail with
    ⟨follow, split, isFollow, isJob, notOwn⟩ | ⟨own, same⟩
  · -- a foreign job is lost
    refine iff_of_false ?_ fun touches => notOwn (touches.1 follow isFollow isJob)
    intro kept
    have shorter := kept.length_le
    have shortTail := (@keepBelow_sublist _ _ (entry.marker digest) entry.job
      (some entry.job) (dropJobLine tail)).length_le
    rw [split, List.length_append, List.length_append, List.length_cons] at shorter
    omega
  · have pruned : keepBelow (entry.marker digest) entry.job (some entry.job)
        (dropJobLine tail) = keepBelow (entry.marker digest) entry.job (some entry.job)
          (dropOwn digest (some entry.job) old tail) := by
      rcases same with whole | copy
      · rw [whole]
      · rw [copy, keepBelow_cons_item _ jobAbove]
    rw [pruned]
    constructor
    · intro kept
      have shorter := kept.length_le
      have shortTail := (@keepBelow_sublist _ _ (entry.marker digest) entry.job
        (some entry.job) (dropOwn digest (some entry.job) old tail)).length_le
      rw [List.length_append, List.length_append] at shorter
      exact ⟨own, (keepBelow_sublist _ _).eq_of_length (by omega),
        (keepBelow_sublist _ _).eq_of_length (by omega)⟩
    · rintro ⟨_, sameFront, sameTail⟩
      rw [sameFront, sameTail]

/-! ### A job that is its own marker -/

/-- The job is set as the marker, once. -/
theorem written_selfMarked (selfMarked : entry.job = entry.marker digest)
    (adopts : entry.adoptOrphans = true) (lines : List Text) :
    entry.written digest lines = entry.above lines ++
      entry.job :: keepBelow entry.job entry.job (some entry.job) (entry.below lines) := by
  have absent : entry.job ∉ entry.above lines := by
    rw [selfMarked]
    exact marker_notMem digest (above_free entry lines)
  have notBelow : lastLine none (entry.above lines) ≠ some entry.job := by
    rw [lastLine, Option.or_none]
    exact fun isLast => absent (List.mem_of_getLast? isLast)
  rw [CronJob.written, if_pos adopts, ← selfMarked, removeOrphanDuplicates, keepBelow_append,
    keepBelow_of_notMem absent, keepBelow_cons_item _ notBelow, keepBelow_cons_kept _ (.inr rfl)]

theorem withoutPair_marker (free : MarkerFree entry.name front)
    (isMarker : isMarkerLine entry.name old = true) (tail : List Text) :
    withoutPair entry.name entry.job (front ++ old :: tail) =
      front ++ if tail.head? = some entry.job then tail.tail else tail := by
  rw [withoutPair, findMarkerIndex_split free isMarker]
  change splice _ front.length (if (front ++ old :: tail)[front.length + 1]? = some entry.job
    then 2 else 1) = _
  rw [getElem?_follow]
  split
  · next isJob =>
    obtain ⟨rest, rfl⟩ := List.head?_eq_some_iff.1 isJob
    rw [splice_two]
    rfl
  · rw [splice_one]

/-- A job that is its own marker is taken for the pair's job wherever it stands there. -/
theorem sublist_selfMarked_iff (selfMarked : entry.job = entry.marker digest)
    (free : MarkerFree entry.name front) (old : Text) (tail : List Text) :
    (front ++ dropOwn digest (some entry.job) old tail).Sublist
        (withoutPair entry.name entry.job (front ++ entry.job ::
          keepBelow entry.job entry.job (some entry.job) (dropJobLine tail))) ↔
      (∀ follow, tail.head? = some follow → isCronJobLine follow = true →
          IsOwnJob digest (some entry.job) old follow) ∧
        entry.job ∉ front ∧
        keepBelow entry.job entry.job tail.head? tail.tail = tail.tail := by
  have isMarker : isMarkerLine entry.name entry.job = true := by
    rw [selfMarked]
    exact isMarkerLine_marker digest entry
  have comment := isCronJobLine_marker isMarker
  have absent : entry.job ∉ front := by
    rw [selfMarked]
    exact marker_notMem digest free
  rw [withoutPair_marker free isMarker, List.append_sublist_append_left]
  cases tail with
  | nil =>
    refine iff_of_true (List.Sublist.refl _) ⟨?_, absent, rfl⟩
    exact fun follow isFollow => absurd isFollow.symm (Option.some_ne_none follow)
  | cons follow tail =>
    rw [List.head?_cons, List.tail_cons, dropOwn, dropJobLine]
    by_cases isJob : follow = entry.job
    · have own : IsOwnJob digest (some entry.job) old follow := .inl (by rw [isJob])
      rw [if_pos own, isJob, comment, if_neg Bool.false_ne_true,
        keepBelow_cons_kept _ (.inr rfl), List.head?_cons, if_pos rfl, List.tail_cons,
        sublist_keepBelow_iff]
      constructor
      · intro same
        refine ⟨fun other isFollow _ => .inl isFollow.symm, absent, same⟩
      · exact fun touches => touches.2.2
    · have other : some follow ≠ some entry.job := fun same => isJob (Option.some.inj same)
      rw [keepBelow_self_iff other]
      cases isCronJob : isCronJobLine follow with
      | false =>
        have notOwn : ¬IsOwnJob digest (some entry.job) old follow := by
          rintro (isAsked | isJobOf)
          · exact other isAsked
          · rw [isJobOf.1] at isCronJob
            cases isCronJob
        rw [if_neg notOwn, if_neg Bool.false_ne_true, keepBelow_cons_kept _ (.inl isJob),
          List.head?_cons, if_neg other, List.cons_sublist_cons, sublist_keepBelow_iff,
          keepBelow_self_iff other]
        constructor
        · intro notBelow
          refine ⟨?_, absent, notBelow⟩
          intro line isFollow isLine
          rw [← Option.some.inj isFollow, isCronJob] at isLine
          cases isLine
        · exact fun touches => touches.2.2
      | true =>
        rw [if_pos rfl]
        have shorter := (@keepBelow_sublist _ _ entry.job entry.job (some entry.job) tail).length_le
        have shortest : (if (keepBelow entry.job entry.job (some entry.job) tail).head? =
            some entry.job then (keepBelow entry.job entry.job (some entry.job) tail).tail
            else keepBelow entry.job entry.job (some entry.job) tail).length ≤ tail.length := by
          split
          · rw [List.length_tail]
            omega
          · exact shorter
        by_cases own : IsOwnJob digest (some entry.job) old follow
        · rw [if_pos own]
          constructor
          · intro kept
            refine ⟨?_, absent, ?_⟩
            · intro line isFollow _
              rw [← Option.some.inj isFollow]
              exact own
            · intro member
              split at kept
              · next head =>
                have nonempty : keepBelow entry.job entry.job (some entry.job) tail ≠ [] := by
                  intro empty
                  rw [empty] at head
                  cases head
                have positive := List.length_pos_of_ne_nil nonempty
                have longer := kept.length_le
                rw [List.length_tail] at longer
                omega
              · next head =>
                rw [sublist_keepBelow_iff] at kept
                rw [kept] at head
                cases tail with
                | nil => cases member
                | cons first tail =>
                  have notFirst : first ≠ entry.job := fun same => head (by rw [same]; rfl)
                  rw [keepBelow_cons_kept _ (.inl notFirst), List.cons_inj_right,
                    keepBelow_self_iff fun same => notFirst (Option.some.inj same)] at kept
                  exact kept ((List.mem_cons.1 member).resolve_left (Ne.symm notFirst))
          · rintro ⟨_, _, notBelow⟩
            rw [keepBelow_of_notMem notBelow, if_neg]
            intro head
            exact notBelow (List.mem_of_head? head)
        · rw [if_neg own]
          refine iff_of_false ?_ fun touches => own (touches.1 follow rfl isCronJob)
          intro kept
          have longer := kept.length_le
          rw [List.length_cons] at longer
          omega

/-- What is kept below such a job is one run. -/
theorem suffix_selfMarked {lines kept : List Text} {job : Text}
    (same : lines = kept ∨ lines = job :: kept)
    (sublist : kept.Sublist (if (keepBelow job job (some job) lines).head? = some job
      then (keepBelow job job (some job) lines).tail else keepBelow job job (some job) lines)) :
    kept <:+ keepBelow job job (some job) lines := by
  have shorter := (@keepBelow_sublist _ _ job job (some job) lines).length_le
  have longer := sublist.length_le
  split at sublist
  · next head =>
    rw [if_pos head, List.length_tail] at longer
    have whole : kept = (keepBelow job job (some job) lines).tail := by
      apply sublist.eq_of_length_le
      rw [List.length_tail]
      rcases same with rfl | rfl
      · omega
      · rw [List.length_cons] at shorter
        omega
    rw [whole]
    exact List.tail_suffix _
  · next head =>
    have whole : kept = keepBelow job job (some job) lines := by
      apply sublist.eq_of_length_le
      rcases same with rfl | rfl
      · exact shorter
      · rw [keepBelow_cons_kept _ (.inr rfl)] at head
        exact absurd rfl head
    rw [← whole]

/-! ### The frame of setting the entry -/

/-- The condition, seen from the marker that is replaced. -/
theorem touchesOwn_split_iff (free : MarkerFree entry.name front)
    (isMarker : isMarkerLine entry.name old = true) :
    PresentTouchesOwn digest entry (front ++ old :: tail) ↔
      (∀ follow, tail.head? = some follow → isCronJobLine follow = true →
          IsOwnJob digest (some entry.job) old follow) ∧
        (entry.adoptOrphans = true → entry.job ∉ front ∧
          keepBelow (entry.marker digest) entry.job tail.head? tail.tail = tail.tail) := by
  constructor
  · rintro ⟨ownFollow, orphanFree, _⟩
    exact ⟨(ownFollow_split_iff free isMarker).1 ownFollow, fun adopts =>
      (orphanFree_split_iff free isMarker).1 (orphanFree adopts)⟩
  · rintro ⟨ownFollow, orphanFree⟩
    refine ⟨(ownFollow_split_iff free isMarker).2 ownFollow, fun adopts =>
      (orphanFree_split_iff free isMarker).2 (orphanFree adopts), ?_⟩
    intro adopts other marker _ _ _ _ stolen
    rw [segments_split free isMarker] at stolen
    exact (orphanFree adopts).1 (stolen.subset (List.mem_cons_of_mem _ (List.mem_singleton_self _)))

theorem presentFrame_written (unpaired : ¬entry.IsPaired digest lines) :
    PresentFrame digest entry lines ↔
      (entry.keptLines digest lines).Sublist
          (withoutPair entry.name entry.job (entry.written digest lines)) ∧
        KeepsPairs digest entry.name (some entry.job) lines
          (entry.written digest lines) := by
  rw [PresentFrame, mutation_present_eq unpaired]
  rfl

/-- An old marker is replaced, and the cron job below it. -/
theorem presentFrame_replaced (free : MarkerFree entry.name front)
    (isMarker : isMarkerLine entry.name old = true)
    (unpaired : ¬entry.IsPaired digest (front ++ old :: tail)) :
    PresentFrame digest entry (front ++ old :: tail) ↔
      PresentTouchesOwn digest entry (front ++ old :: tail) := by
  have isOwnMarker := isMarkerLine_marker digest entry
  have above := @above_split _ tail _ entry free isMarker
  have below := @below_split _ tail _ entry free isMarker
  have own := dropOwn_cases digest entry.job old tail
  rw [touchesOwn_split_iff free isMarker, presentFrame_written unpaired,
    keptLines_split free isMarker]
  -- the runs stay whole where the lines do
  have pairs {after : List Text} (inFront : front <:+: after)
      (inTail : dropOwn digest (some entry.job) old tail <:+: after) :
      KeepsPairs digest entry.name (some entry.job) (front ++ old :: tail) after := by
    apply keepsPairs_of_segments
    · rw [segments_split free isMarker]
      exact inFront
    · rw [segments_split free isMarker]
      exact inTail
  cases adopts : entry.adoptOrphans with
  | false =>
    rw [written_unadopted adopts, above, below]
    rw [withoutPair_split free isOwnMarker, List.append_sublist_append_left]
    constructor
    · rintro ⟨kept, _⟩
      refine ⟨?_, fun adopted => absurd adopted Bool.false_ne_true⟩
      rcases own with ⟨follow, split, _⟩ | ⟨ownFollow, _⟩
      · have longer := kept.length_le
        rw [split, List.length_cons] at longer
        omega
      · exact ownFollow
    · rintro ⟨ownFollow, _⟩
      rcases own with ⟨follow, _, isFollow, isJob, notOwn⟩ | ⟨_, same⟩
      · exact absurd (ownFollow follow isFollow isJob) notOwn
      · have suffix : dropOwn digest (some entry.job) old tail <:+ dropJobLine tail := by
          rcases same with whole | copy
          · rw [whole]
          · rw [copy]
            exact List.suffix_cons _ _
        refine ⟨suffix.sublist, pairs (List.prefix_append _ _).isInfix ?_⟩
        exact (((suffix.trans (List.suffix_cons _ _)).trans (List.suffix_cons _ _)).trans
          (List.suffix_append _ _)).isInfix
  | true =>
    by_cases selfMarked : entry.job = entry.marker digest
    · rw [written_selfMarked selfMarked adopts, above, below, ← selfMarked]
      constructor
      · rintro ⟨kept, _⟩
        have touches := (sublist_selfMarked_iff selfMarked free old tail).1 kept
        exact ⟨touches.1, fun _ => touches.2⟩
      · rintro ⟨ownFollow, orphanFree⟩
        have kept := (sublist_selfMarked_iff selfMarked free old tail).2 ⟨ownFollow, orphanFree rfl⟩
        refine ⟨kept, pairs (List.prefix_append _ _).isInfix ?_⟩
        rcases own with ⟨follow, _, isFollow, isJob, notOwn⟩ | ⟨_, same⟩
        · exact absurd (ownFollow follow isFollow isJob) notOwn
        · rw [withoutPair_marker free (by rw [selfMarked]; exact isOwnMarker),
            List.append_sublist_append_left] at kept
          exact (((suffix_selfMarked same kept).trans (List.suffix_cons _ _)).trans
            (List.suffix_append _ _)).isInfix
    · have keptFree : MarkerFree entry.name
          (keepBelow (entry.marker digest) entry.job none front) :=
        fun line mem => free line ((keepBelow_sublist _ _).subset mem)
      rw [written_adopted adopts selfMarked, above, below, withoutPair_split keptFree isOwnMarker,
        sublist_pruned_iff selfMarked free]
      constructor
      · rintro ⟨touches, _⟩
        exact ⟨touches.1, fun _ => touches.2⟩
      · rintro ⟨ownFollow, orphanFree⟩
        refine ⟨⟨ownFollow, orphanFree rfl⟩, ?_⟩
        rw [keepBelow_of_notMem (orphanFree rfl).1]
        refine pairs (List.prefix_append _ _).isInfix ?_
        rcases own with ⟨follow, _, isFollow, isJob, notOwn⟩ | ⟨_, same⟩
        · exact absurd (ownFollow follow isFollow isJob) notOwn
        · have pruned := (keepBelow_dropOwn_iff selfMarked old tail).2 (orphanFree rfl).2
          have suffix : dropOwn digest (some entry.job) old tail <:+
              keepBelow (entry.marker digest) entry.job (some entry.job)
                (dropJobLine tail) := by
            rcases same with whole | copy
            · rw [whole, pruned]
            · rw [copy, keepBelow_cons_item _ fun isMark => selfMarked (Option.some.inj isMark),
                pruned]
          exact (((suffix.trans (List.suffix_cons _ _)).trans (List.suffix_cons _ _)).trans
            (List.suffix_append _ _)).isInfix

theorem not_isPaired_free (free : MarkerFree entry.name lines) :
    ¬entry.IsPaired digest lines := by
  rintro ⟨front, tail, rfl, _⟩
  exact marker_notMem digest free (List.mem_append_right _ List.mem_cons_self)

/-- Without a marker there is only the job's line to take over. -/
theorem touchesOwn_free_iff (missing : findMarkerIndex lines entry.name = none) :
    PresentTouchesOwn digest entry lines ↔ (entry.adoptOrphans = true →
      (∀ front back, lines = front ++ entry.job :: back → entry.job ∉ front) ∧
        ∀ other marker, isCronName other = true → other ≠ entry.name →
          isMarkerLine other marker = true → IsJobOf digest marker entry.job →
          ¬[marker, entry.job] <:+: lines) := by
  have free := findMarkerIndex_eq_none_iff.1 missing
  have takesOver (index : Nat) : entry.TakesOver lines index ↔ entry.job ∉ lines.take index := by
    rw [CronJob.TakesOver, missing]
  constructor
  · rintro ⟨_, orphanFree, notStolen⟩ adopts
    refine ⟨?_, ?_⟩
    · intro front back split
      rcases orphanFree adopts front back split with takes | below
      · rw [takesOver, split, List.take_left] at takes
        exact takes
      · refine absurd (List.mem_of_getLast? below) fun member => ?_
        apply marker_notMem digest free
        rw [split]
        exact List.mem_append_left _ member
    · intro other marker isName different isMarker isJobOf
      have kept := notStolen adopts other marker isName different isMarker isJobOf
      rw [segments_free missing] at kept
      exact kept
  · intro conditions
    refine ⟨?_, ?_, ?_⟩
    · intro index _ _ found
      rw [missing] at found
      cases found
    · intro adopts front back split
      refine .inl ?_
      rw [takesOver, split, List.take_left]
      exact (conditions adopts).1 front back split
    · intro adopts other marker isName different isMarker isJobOf
      rw [segments_free missing]
      exact (conditions adopts).2 other marker isName different isMarker isJobOf

/-- The pair goes to the end. -/
theorem presentFrame_appended (missing : findMarkerIndex lines entry.name = none)
    (absent : entry.adoptOrphans = true → entry.job ∉ lines) :
    PresentFrame digest entry lines ∧ PresentTouchesOwn digest entry lines := by
  have free := findMarkerIndex_eq_none_iff.1 missing
  have isOwnMarker := isMarkerLine_marker digest entry
  have places : entry.above lines = lines ∧ entry.below lines = [] := by
    rcases adoption_cases entry missing with ⟨_, above, below⟩ | ⟨adopts, _, _, rfl, _⟩
    · exact ⟨above, below⟩
    · exact absurd (List.mem_append_right _ List.mem_cons_self) (absent adopts)
  have written : entry.written digest lines = lines ++ [entry.marker digest, entry.job] ∨
      entry.written digest lines = lines ++ [entry.marker digest] := by
    cases adopts : entry.adoptOrphans with
    | false => exact .inl (by rw [written_unadopted adopts, places.1, places.2])
    | true =>
      by_cases selfMarked : entry.job = entry.marker digest
      · refine .inr ?_
        rw [written_selfMarked selfMarked adopts, places.1, places.2, ← selfMarked]
        rfl
      · refine .inl ?_
        rw [written_adopted adopts selfMarked, places.1, places.2,
          keepBelow_of_notMem (absent adopts)]
        rfl
  constructor
  · rw [presentFrame_written (not_isPaired_free free), keptLines_free missing absent]
    have pairs {after : List Text} (inAfter : lines <:+: after) :
        KeepsPairs digest entry.name (some entry.job) lines after := by
      apply keepsPairs_of_segments
      · rw [segments_free missing]
        exact inAfter
      · rw [segments_free missing]
        exact List.nil_infix
    rcases written with written | written
    · rw [written, withoutPair_split free isOwnMarker, List.append_nil]
      exact ⟨List.Sublist.refl _, pairs (List.prefix_append _ _).isInfix⟩
    · rw [written, withoutPair_marker free isOwnMarker]
      exact ⟨List.sublist_append_left _ _, pairs (List.prefix_append _ _).isInfix⟩
  · rw [touchesOwn_free_iff missing]
    refine fun adopts => ⟨?_, ?_⟩
    · rintro front back rfl
      exact absurd (List.mem_append_right _ List.mem_cons_self) (absent adopts)
    · intro _ _ _ _ _ _ pair
      exact absent adopts (pair.subset (List.mem_cons_of_mem _ (List.mem_singleton_self _)))

/-- The marker goes above the first copy of the job. -/
theorem presentFrame_adopted (isName : isCronName entry.name = true)
    (adopts : entry.adoptOrphans = true) {back : List Text} (absent : entry.job ∉ front)
    (missing : findMarkerIndex (front ++ entry.job :: back) entry.name = none)
    (above : entry.above (front ++ entry.job :: back) = front)
    (below : entry.below (front ++ entry.job :: back) = back) :
    PresentFrame digest entry (front ++ entry.job :: back) ↔
      PresentTouchesOwn digest entry (front ++ entry.job :: back) := by
  have free := findMarkerIndex_eq_none_iff.1 missing
  have isOwnMarker := isMarkerLine_marker digest entry
  have notMarker : entry.job ≠ entry.marker digest := by
    intro same
    have isMarker := free entry.job (List.mem_append_right _ List.mem_cons_self)
    rw [same, isOwnMarker] at isMarker
    cases isMarker
  have frontFree : MarkerFree entry.name front := fun line mem =>
    free line (List.mem_append_left _ mem)
  have backFree : MarkerFree entry.name back := fun line mem =>
    free line (List.mem_append_right _ (List.mem_cons_of_mem _ mem))
  have kept : entry.keptLines digest (front ++ entry.job :: back) = front ++ back := by
    rw [CronJob.keptLines, if_pos ⟨missing, adopts⟩, List.erase_append_right _ absent,
      List.erase_cons_head]
  have jobAbove : some entry.job ≠ some (entry.marker digest) := fun same =>
    notMarker (Option.some.inj same)
  have onlyCopy : (∀ before after, front ++ entry.job :: back = before ++ entry.job :: after →
      entry.job ∉ before) ↔ entry.job ∉ back := by
    constructor
    · intro first member
      obtain ⟨before, after, rfl⟩ := List.append_of_mem member
      exact first (front ++ entry.job :: before) after (by rw [List.append_assoc]; rfl)
        (List.mem_append_right _ List.mem_cons_self)
    · intro notBelow before after split member
      have twice : 2 ≤ (front ++ entry.job :: back).count entry.job := by
        rw [split, List.count_append, List.count_cons_self]
        have once := List.count_pos_iff.2 member
        omega
      rw [List.count_append, List.count_cons_self, List.count_eq_zero.2 absent,
        List.count_eq_zero.2 notBelow] at twice
      omega
  rw [presentFrame_written (not_isPaired_free free), kept, written_adopted adopts notMarker, above,
    below, keepBelow_of_notMem absent, withoutPair_split frontFree isOwnMarker,
    List.append_sublist_append_left, sublist_keepBelow_iff,
    keepBelow_free_iff digest backFree jobAbove, touchesOwn_free_iff missing, onlyCopy]
  constructor
  · rintro ⟨notBelow, pairs⟩ _
    rw [keepBelow_of_notMem notBelow] at pairs
    refine ⟨notBelow, ?_⟩
    intro other marker isOther different isMarker isJobOf stolen
    have together := pairs other marker entry.job isOther different isMarker isJobOf
      (.inl (by rw [segments_free missing]; exact stolen))
    have inPair : entry.job ∈ [marker, entry.job] :=
      List.mem_cons_of_mem _ (List.mem_singleton_self _)
    rcases pair_infix_append together with inFront | ⟨_, isMark⟩ | inRest
    · exact absent (inFront.subset inPair)
    · exact notMarker isMark
    · rcases List.infix_cons_iff.1 inRest with atMarker | inRest
      · -- the marker above would be the entry's own
        have same := (List.cons_prefix_cons.1 atMarker).1
        have otherName := marker_name isOther isMarker
        rw [same, marker_name isName isOwnMarker] at otherName
        exact different otherName.symm
      · rcases List.infix_cons_iff.1 inRest with atJob | inBack
        · have comment := isCronJobLine_marker isMarker
          rw [(List.cons_prefix_cons.1 atJob).1, isJobOf.1] at comment
          cases comment
        · exact notBelow (inBack.subset inPair)
  · intro conditions
    obtain ⟨notBelow, notStolen⟩ := conditions adopts
    rw [keepBelow_of_notMem notBelow]
    refine ⟨notBelow, ?_⟩
    rintro other marker line isOther different isMarker isJobOf (inLines | inNothing)
    · rw [segments_free missing] at inLines
      rcases pair_infix_append inLines with inFront | ⟨isLast, rfl⟩ | inRest
      · exact inFront.trans (List.prefix_append _ _).isInfix
      · exact absurd inLines (notStolen other marker isOther different isMarker isJobOf)
      · exact inRest.trans ((List.suffix_cons _ _).trans (List.suffix_append _ _)).isInfix
    · rw [segments_free missing] at inNothing
      cases List.infix_nil.1 inNothing

/-- Setting an entry touches nothing else exactly if it stands there already or what it takes
over is its own. -/
theorem presentFrame_iff (isName : isCronName entry.name = true) (lines : List Text) :
    PresentFrame digest entry lines ↔
      entry.IsPaired digest lines ∨ PresentTouchesOwn digest entry lines := by
  by_cases paired : entry.IsPaired digest lines
  · exact iff_of_true (presentFrame_paired paired) (.inl paired)
  · have unpaired : entry.IsPaired digest lines ∨
        PresentTouchesOwn digest entry lines ↔
          PresentTouchesOwn digest entry lines := or_iff_right paired
    rw [unpaired]
    rcases findMarkerIndex_cases entry.name lines with
      ⟨missing, _⟩ | ⟨front, old, tail, rfl, free, isMarker, _⟩
    · rcases adoption_cases entry missing with
        ⟨notAdopted, _⟩ | ⟨adopts, front, back, rfl, absent, above, below⟩
      · have both := @presentFrame_appended digest _ _ missing
          fun adopts member => notAdopted ⟨adopts, member⟩
        exact iff_of_true both.1 both.2
      · exact presentFrame_adopted isName adopts absent missing above below
    · exact presentFrame_replaced free isMarker paired

end Segments

end Paratix.Cron
