/-
Module: Paratix.Foundation.ReplaceCut
Purpose: When replacing several patterns early, in the part of a text that is
  already known, gives the same result as replacing them in the whole text.
Main exports: Clobbers, replaceEach_replaceEach_append
-/
import Paratix.Foundation.ReplaceAll

namespace Foundation

variable {α β : Type*}

/-- `held` ends in a beginning of `longer` that `next` completes, and an
occurrence of `shorter` inside `held` covers cells of that beginning. -/
def Clobbers (shorter longer held next : List α) : Prop :=
  ∃ begun ended after, ended ≠ [] ∧ begun ++ ended = longer ∧
    begun <:+ held ∧ ended <+: next ∧ (shorter ++ after) <:+ held ∧
    after.length < begun.length

/-- Clobbering, by the position of the cut in `longer` and the number of cells
of `held` behind `shorter`. -/
theorem clobbers_iff {shorter longer held next : List α} : Clobbers shorter longer held next ↔
      ∃ cut ∈ List.range longer.length, longer.take cut <:+ held ∧
        longer.drop cut <+: next ∧
        ∃ behind ∈ List.range cut, behind ≤ held.length ∧
          shorter <:+ held.take (held.length - behind) := by
  constructor
  · rintro ⟨begun, ended, after, endedNonempty, longerEq, begunSuffix,
      endedPrefix, shorterSuffix, short⟩
    subst longerEq
    obtain ⟨front, heldEq⟩ := shorterSuffix
    have positive := List.length_pos_iff.2 endedNonempty
    have lengths := congrArg List.length heldEq
    simp only [List.length_append] at lengths
    refine ⟨begun.length, ?_, ?_, ?_, after.length, ?_, ?_, ?_⟩
    · simpa using positive
    · simpa using begunSuffix
    · simpa using endedPrefix
    · simpa using short
    · omega
    · have taken : held.take (held.length - after.length) = front ++ shorter := by
        have index : held.length - after.length = (front ++ shorter).length := by
          simp only [List.length_append]
          omega
        rw [index, ← heldEq, ← List.append_assoc, List.take_left]
      rw [taken]
      exact List.suffix_append front shorter
  · rintro ⟨cut, cutRange, begunSuffix, endedPrefix, behind, behindRange, fits, shorterSuffix⟩
    simp only [List.mem_range] at cutRange behindRange
    obtain ⟨front, takenEq⟩ := shorterSuffix
    refine ⟨longer.take cut, longer.drop cut,
      held.drop (held.length - behind), ?_, List.take_append_drop _ _,
      begunSuffix, endedPrefix, ⟨front, ?_⟩, ?_⟩
    · apply List.ne_nil_of_length_pos
      rw [List.length_drop]
      omega
    · rw [← List.append_assoc, takenEq, List.take_append_drop]
    · rw [List.length_drop, List.length_take]
      omega

instance [DecidableEq α] (shorter longer held next : List α) :
    Decidable (Clobbers shorter longer held next) :=
  decidable_of_iff' _ clobbers_iff

/-- A word in which no marker lies and which starts with no end of the
marker. -/
structure Clear (marker word : List α) : Prop where
  noMarker : ¬ marker <:+: word
  noMarkerEnd : ∀ ending, ending ≠ [] → ending <:+ marker → ¬ ending <+: word

namespace Clear

/-- Every beginning of a word apart from the marker is clear of it. -/
theorem of_apart_prefix {marker word begun : List α}
    (apart : Apart word marker) (isPrefix : begun <+: word) : Clear marker begun where
  noMarker := fun around => apart.notAround (around.trans isPrefix.isInfix)
  noMarkerEnd := fun ending nonempty suffix endingPrefix =>
    apart.notLeaving ending nonempty (endingPrefix.trans isPrefix) suffix

/-- A word apart from the marker followed by the end of a clear word is
clear. -/
theorem append {marker word begun after : List α} (apart : Apart word marker)
    (begunClear : Clear marker begun) (suffix : after <:+ begun) :
    Clear marker (word ++ after) where
  noMarker := by
    rintro ⟨front, back, texts⟩
    have split : front ++ (marker ++ back) = [] ++ (word ++ after) := by
      rw [← List.append_assoc, texts, List.nil_append]
    rcases apart.occurrence split with ⟨rest, _, afterEq⟩ | ⟨start, nilEq, _⟩
    · exact begunClear.noMarker
        (List.IsInfix.trans ⟨rest, back, by rw [afterEq, List.append_assoc]⟩ suffix.isInfix)
    · simp only [List.nil_eq, List.append_eq_nil_iff] at nilEq
      exact apart.marker_ne_nil nilEq.2.1
  noMarkerEnd := by
    intro ending nonempty endingSuffix endingPrefix
    rcases prefix_append_cases endingPrefix with inWord | ⟨rest, endingEq, _⟩
    · exact apart.notLeaving ending nonempty inWord endingSuffix
    · exact apart.notInside
        (List.IsInfix.trans ⟨[], rest, by rw [endingEq, List.nil_append]⟩
          endingSuffix.isInfix)

end Clear

/-- No beginning of `pattern` longer than `bound` that `next` completes was
left at the end of `scanned`. -/
def NoneBegunBeyond (pattern scanned next : List α) (bound : Nat) : Prop :=
  ∀ begun ended, bound < begun.length → ended ≠ [] → begun ++ ended = pattern →
    ended <+: next → ¬ begun <:+ scanned

/-- A beginning of the pattern at the end of `marker ++ scanned` lies in
`scanned`. -/
theorem NoneBegunBeyond.marker_append {pattern marker scanned next : List α}
    {bound : Nat} (apart : Apart pattern marker)
    (none : NoneBegunBeyond pattern scanned next bound) :
    NoneBegunBeyond pattern (marker ++ scanned) next bound := by
  intro begun ended long endedNonempty patternEq endedPrefix suffix
  rcases suffix_append_cases suffix with
    inScanned | ⟨ending, endingNonempty, begunEq, endingSuffix⟩
  · exact none begun ended long endedNonempty patternEq endedPrefix inScanned
  · have isPrefix : ending <+: pattern :=
      ⟨scanned ++ ended, by rw [← patternEq, begunEq, List.append_assoc]⟩
    exact apart.notLeaving ending endingNonempty isPrefix endingSuffix

variable [DecidableEq α] {value : β → α} {marker : List β}

/-- Clear cells at the end of the result were copied from the end of the
text. -/
theorem replaceAll_clear_suffix {pattern : List α} (nonempty : pattern ≠ [])
    {cells kept : List β} (clear : Clear (marker.map value) (kept.map value))
    (suffix : kept <:+ replaceAll value pattern marker cells) : ∃ before, cells = before ++ kept ∧
      replaceAll value pattern marker cells =
        replaceAll value pattern marker before ++ kept := by
  have replaces := replaces_replaceAll value nonempty marker cells
  generalize replaceAll value pattern marker cells = result at replaces suffix ⊢
  induction replaces with
  | done =>
    obtain rfl := List.suffix_nil.1 suffix
    exact ⟨[], rfl, rfl⟩
  | @hit occurrence cells result found rest ih =>
    rcases suffix_append_cases suffix with
      inResult | ⟨ending, endingNonempty, keptEq, endingSuffix⟩
    · obtain ⟨before, cellsEq, resultEq⟩ := ih inResult
      refine ⟨occurrence ++ before, by rw [cellsEq, List.append_assoc], ?_⟩
      rw [replaceAll_hit nonempty found, resultEq, List.append_assoc]
    · refine absurd ⟨result.map value, ?_⟩
        (clear.noMarkerEnd (ending.map value) (by simpa using endingNonempty)
          (endingSuffix.map value))
      rw [keptEq, List.map_append]
  | @copy cell cells result miss rest ih =>
    rcases List.suffix_cons_iff.1 suffix with whole | inResult
    · have unchanged : cell :: result = cell :: cells := by
        rcases (Replaces.copy miss rest).first_hit with
          same | ⟨gap, _, _, tailResult, _, _, resultEq, _⟩
        · exact same
        · refine absurd ⟨gap.map value, tailResult.map value, ?_⟩ clear.noMarker
          rw [whole, resultEq]
          simp
      exact ⟨[], by rw [whole, unchanged, List.nil_append], by rw [whole]; rfl⟩
    · obtain ⟨before, cellsEq, resultEq⟩ := ih inResult
      have beforeMiss : ¬ pattern <+: (cell :: before).map value := by
        intro found
        apply miss
        rw [cellsEq]
        exact found.trans ⟨kept.map value, by simp⟩
      refine ⟨cell :: before, by rw [cellsEq, List.cons_append], ?_⟩
      rw [replaceAll_copy beforeMiss, resultEq, List.cons_append]

theorem replaceEach_clear_suffix {patterns : List (List α)}
    (nonempty : ∀ pattern ∈ patterns, pattern ≠ []) {cells kept : List β}
    (clear : Clear (marker.map value) (kept.map value))
    (suffix : kept <:+ replaceEach value patterns marker cells) : ∃ before, cells = before ++ kept ∧
      replaceEach value patterns marker cells =
        replaceEach value patterns marker before ++ kept := by
  induction patterns generalizing cells with
  | nil =>
    obtain ⟨before, beforeEq⟩ := suffix
    exact ⟨before, beforeEq.symm, beforeEq.symm⟩
  | cons pattern patterns ih =>
    obtain ⟨middle, middleEq, resultEq⟩ := ih
      (fun other member => nonempty other (List.mem_cons_of_mem _ member)) suffix
    obtain ⟨before, cellsEq, firstEq⟩ := replaceAll_clear_suffix
      (nonempty pattern (by simp)) clear ⟨middle, middleEq.symm⟩
    refine ⟨before, cellsEq, ?_⟩
    have middleSame : middle = replaceAll value pattern marker before :=
      List.append_cancel_right (middleEq.symm.trans firstEq)
    rw [replaceEach_cons, resultEq, middleSame, replaceEach_cons]

/-- Clear cells at the end of a text after the passes were there before them. -/
theorem replaceEach_clear_suffix_values {patterns : List (List α)}
    (nonempty : ∀ pattern ∈ patterns, pattern ≠ []) {cells : List β}
    {word : List α} (clear : Clear (marker.map value) word)
    (suffix : word <:+ (replaceEach value patterns marker cells).map value) :
    word <:+ cells.map value := by
  obtain ⟨front, texts⟩ := suffix
  obtain ⟨before, kept, cellsEq, _, keptEq⟩ := List.map_eq_append_iff.1 texts.symm
  subst keptEq
  obtain ⟨source, sourceEq, _⟩ := replaceEach_clear_suffix nonempty clear ⟨before, cellsEq.symm⟩
  exact ⟨source.map value, by rw [sourceEq, List.map_append]⟩

/-- A cell the scan of `held ++ next` copies adds no beginning. -/
theorem NoneBegunBeyond.copy_cons {pattern : List α} {cell : β} {held next : List β} {bound : Nat}
    (apart : Apart pattern (marker.map value)) (missHeld : ¬ pattern <+: (cell :: held).map value)
    (miss : ¬ pattern <+: (cell :: (held ++ next)).map value) (none : NoneBegunBeyond pattern
      ((replaceAll value pattern marker held).map value) (next.map value) bound) :
    NoneBegunBeyond pattern ((cell :: replaceAll value pattern marker held).map value)
      (next.map value) bound := by
  intro begun ended long endedNonempty patternEq endedPrefix suffix
  rcases List.suffix_cons_iff.1 suffix with whole | inScanned
  · -- the beginning is all there is: either the scan left it as it was read,
    -- or it holds a marker
    have scan := replaces_replaceAll value apart.pattern_ne_nil marker held
    rcases (Replaces.copy missHeld scan).first_hit with
      same | ⟨gap, _, _, tailResult, _, _, resultEq, _⟩
    · apply miss
      obtain ⟨back, nextEq⟩ := endedPrefix
      have begunEq : begun = (cell :: held).map value := by
        rw [whole, ← List.map_cons, same]
      exact ⟨back, by rw [← patternEq, begunEq, List.append_assoc, nextEq]; simp⟩
    · apply apart.notAround
      have inBegun : marker.map value <:+: begun := by
        refine ⟨gap.map value, tailResult.map value, ?_⟩
        rw [whole, ← List.map_cons, resultEq]
        simp
      exact inBegun.trans ⟨[], ended, by rw [← patternEq, List.nil_append]⟩
  · exact none begun ended long endedNonempty patternEq endedPrefix inScanned

/-- A pass over `held ++ next` either treats the two parts separately, or takes
the longest beginning left at the end of `held` together with its completion. -/
theorem replaceAll_append_cases {pattern : List α}
    (apart : Apart pattern (marker.map value)) (held next : List β) :
    (replaceAll value pattern marker (held ++ next) = replaceAll value pattern marker held ++
          replaceAll value pattern marker next ∧
      NoneBegunBeyond pattern ((replaceAll value pattern marker held).map value)
        (next.map value) 0) ∨
    ∃ before begun ended after,
      held = before ++ begun ∧ next = ended ++ after ∧ ended ≠ [] ∧ begun ≠ [] ∧
      (begun ++ ended).map value = pattern ∧
      replaceAll value pattern marker held = replaceAll value pattern marker before ++ begun ∧
      replaceAll value pattern marker (held ++ next) = replaceAll value pattern marker before ++
          (marker ++ replaceAll value pattern marker after) ∧
      NoneBegunBeyond pattern ((replaceAll value pattern marker held).map value)
        (next.map value) begun.length := by
  obtain ⟨result, replaces⟩ : ∃ result, Replaces value pattern marker held result :=
    ⟨_, replaces_replaceAll value apart.pattern_ne_nil marker held⟩
  induction replaces with
  | done =>
    refine Or.inl ⟨rfl, ?_⟩
    intro begun ended long _ _ _ suffix
    rw [replaceAll_nil, List.map_nil, List.suffix_nil] at suffix
    simp [suffix] at long
  | @hit occurrence cells result found rest ih =>
    simp only [List.append_assoc, replaceAll_hit apart.pattern_ne_nil found]
    rcases ih with ⟨separate, none⟩ | ⟨before, begun, ended,
      after, heldEq, nextEq, endedNonempty, begunNonempty, word, scanned,
      whole, none⟩
    · refine Or.inl ⟨by rw [separate], ?_⟩
      rw [List.map_append]
      exact none.marker_append apart
    · refine Or.inr ⟨occurrence ++ before, begun, ended, after, ?_, nextEq,
        endedNonempty, begunNonempty, word, ?_, ?_, ?_⟩
      · rw [heldEq, List.append_assoc]
      · rw [scanned, replaceAll_hit apart.pattern_ne_nil found, List.append_assoc]
      · rw [whole, replaceAll_hit apart.pattern_ne_nil found, List.append_assoc]
      · rw [List.map_append]
        exact none.marker_append apart
  | @copy cell cells result missHeld rest ih =>
    by_cases found : pattern <+: (cell :: (cells ++ next)).map value
    · -- the occurrence at the head covers all of `held`
      have texts : pattern <+:
          (cell :: cells).map value ++ next.map value := by
        simpa using found
      rcases prefix_append_cases texts with inHeld | ⟨ended, patternEq, endedPrefix⟩
      · exact absurd inHeld missHeld
      · obtain ⟨back, backEq⟩ := endedPrefix
        obtain ⟨endedCells, after, nextEq, endedEq, _⟩ := List.map_eq_append_iff.1 backEq.symm
        subst endedEq
        have endedNonempty : endedCells ≠ [] := by
          rintro rfl
          exact missHeld ⟨[], by simpa using patternEq⟩
        have word : (cell :: cells ++ endedCells).map value = pattern := by
          rw [patternEq, List.map_append]
        have short : (cell :: cells).length < pattern.length := by
          have lengths := congrArg List.length word
          have positive := List.length_pos_iff.2 endedNonempty
          simp only [List.length_map, List.length_append] at lengths
          omega
        have scanned : replaceAll value pattern marker (cell :: cells) = cell :: cells := by
          apply replaceAll_eq_self
          intro occurs
          have fits := occurs.length_le
          rw [List.length_map] at fits
          omega
        refine Or.inr ⟨[], cell :: cells, endedCells, after, rfl, nextEq,
          endedNonempty, by simp, word, scanned, ?_, ?_⟩
        · rw [nextEq, ← List.append_assoc, replaceAll_hit apart.pattern_ne_nil word]
          rfl
        · intro begun ended long _ _ _ suffix
          rw [scanned] at suffix
          have fits := suffix.length_le
          rw [List.length_map] at fits
          omega
    · have wholeCopy :
          replaceAll value pattern marker (cell :: (cells ++ next)) =
            cell :: replaceAll value pattern marker (cells ++ next) :=
        replaceAll_copy found
      simp only [List.cons_append, wholeCopy, replaceAll_copy missHeld]
      rcases ih with ⟨separate, none⟩ | ⟨before, begun, ended,
        after, heldEq, nextEq, endedNonempty, begunNonempty, word, scanned,
        whole, none⟩
      · exact Or.inl ⟨by rw [separate], none.copy_cons apart missHeld found⟩
      · have beforeMiss : ¬ pattern <+: (cell :: before).map value := by
          intro isPrefix
          apply missHeld
          rw [heldEq]
          exact isPrefix.trans ⟨begun.map value, by simp⟩
        refine Or.inr ⟨cell :: before, begun, ended, after, ?_, nextEq,
          endedNonempty, begunNonempty, word, ?_, ?_,
          none.copy_cons apart missHeld found⟩
        · rw [heldEq, List.cons_append]
        · rw [scanned, replaceAll_copy beforeMiss, List.cons_append]
        · rw [whole, replaceAll_copy beforeMiss, List.cons_append]

/-! ### Clobbering is decided by the text before the pass -/

/-- An occurrence that is there after the passes was clobbered before them. -/
theorem Clobbers.of_replaceEach {patterns : List (List α)}
    (nonempty : ∀ pattern ∈ patterns, pattern ≠ []) {shorter longer : List α}
    (shorterApart : Apart shorter (marker.map value))
    (longerApart : Apart longer (marker.map value)) {held : List β} {next : List α}
    (clobbers : Clobbers shorter longer ((replaceEach value patterns marker held).map value) next) :
    Clobbers shorter longer (held.map value) next := by
  obtain ⟨begun, ended, after, endedNonempty, longerEq, begunSuffix, endedPrefix,
    shorterSuffix, short⟩ := clobbers
  have begunClear : Clear (marker.map value) begun :=
    Clear.of_apart_prefix longerApart ⟨ended, longerEq⟩
  have afterSuffix : after <:+ begun := by
    apply List.suffix_of_suffix_length_le _ begunSuffix (Nat.le_of_lt short)
    exact List.IsSuffix.trans (List.suffix_append shorter after) shorterSuffix
  have shorterClear : Clear (marker.map value) (shorter ++ after) :=
    Clear.append shorterApart begunClear afterSuffix
  exact ⟨begun, ended, after, endedNonempty, longerEq,
    replaceEach_clear_suffix_values nonempty begunClear begunSuffix, endedPrefix,
    replaceEach_clear_suffix_values nonempty shorterClear shorterSuffix, short⟩

/-- The completion of a clobbered word stood at the start of `next` before
the pass over it. -/
theorem Clobbers.of_replaceAll_next {pattern : List α} (nonempty : pattern ≠ [])
    {shorter longer held : List α} (longerApart : Apart longer (marker.map value)) {next : List β}
    (clobbers : Clobbers shorter longer held ((replaceAll value pattern marker next).map value)) :
    Clobbers shorter longer held (next.map value) := by
  obtain ⟨begun, ended, after, endedNonempty, longerEq, begunSuffix, endedPrefix,
    shorterSuffix, short⟩ := clobbers
  have splitApart : Apart (begun ++ ended) (marker.map value) := longerEq.symm ▸ longerApart
  exact ⟨begun, ended, after, endedNonempty, longerEq, begunSuffix,
    (replaces_replaceAll value nonempty marker next).ended_of_result splitApart
      endedPrefix,
    shorterSuffix, short⟩

/-- Passes none of whose patterns reaches into `kept` leave it at the end of
the text. -/
theorem replaceEach_append_of_untouched {patterns : List (List α)}
    (apart : ∀ pattern ∈ patterns, Apart pattern (marker.map value))
    {cells kept : List β} (clear : Clear (marker.map value) (kept.map value))
    (untouched : ∀ pattern ∈ patterns, ∀ after, pattern ++ after <:+ (cells ++ kept).map value →
        kept.length ≤ after.length) :
    replaceEach value patterns marker (cells ++ kept) =
      replaceEach value patterns marker cells ++ kept := by
  induction patterns generalizing cells with
  | nil => rfl
  | cons pattern patterns ih =>
    have firstApart := apart pattern (by simp)
    have firstUntouched := untouched pattern (by simp)
    have absent : ¬ pattern <:+: kept.map value := by
      rintro ⟨front, back, texts⟩
      have fits : kept.length ≤ back.length := by
        apply firstUntouched back
        exact ⟨cells.map value ++ front, by
          rw [List.map_append, ← texts]; simp⟩
      have lengths := congrArg List.length texts
      have positive := List.length_pos_iff.2 firstApart.pattern_ne_nil
      simp only [List.length_append, List.length_map] at lengths
      omega
    have firstPass : replaceAll value pattern marker (cells ++ kept) =
        replaceAll value pattern marker cells ++ kept := by
      rcases replaceAll_append_cases firstApart cells kept with
        ⟨separate, _⟩ | ⟨before, begun, ended, after, cellsEq, keptEq,
          endedNonempty, _, word, _⟩
      · rw [separate, replaceAll_eq_self absent]
      · have fits : kept.length ≤ (after.map value).length := by
          apply firstUntouched
          refine ⟨before.map value, ?_⟩
          rw [← word, cellsEq, keptEq]
          simp
        have positive := List.length_pos_iff.2 endedNonempty
        rw [keptEq, List.length_append, List.length_map] at fits
        omega
    rw [replaceEach_cons, replaceEach_cons, firstPass]
    apply ih
      (fun other member => apart other (List.mem_cons_of_mem _ member))
    intro other member after suffix
    by_contra short
    have afterSuffix : after <:+ kept.map value := by
      apply List.suffix_of_suffix_length_le
        (List.IsSuffix.trans (List.suffix_append other after) suffix)
        ⟨(replaceAll value pattern marker cells).map value, by simp⟩
      rw [List.length_map]
      omega
    have otherClear := Clear.append
      (apart other (List.mem_cons_of_mem _ member)) clear afterSuffix
    have before : other ++ after <:+ (cells ++ kept).map value := by
      have onePass : ∀ single ∈ [pattern], single ≠ [] := by
        simpa using firstApart.pattern_ne_nil
      apply replaceEach_clear_suffix_values onePass otherClear
      rw [replaceEach_cons, replaceEach_nil, firstPass]
      exact suffix
    exact short (untouched other (List.mem_cons_of_mem _ member) after before)

/-- After the later passes an occurrence of the first pattern still starts
nowhere in what they emitted before `kept`. -/
theorem not_startsIn_of_noneBegunBeyond {pattern : List α}
    {patterns : List (List α)} (apart : Apart pattern (marker.map value))
    (restApart : ∀ other ∈ patterns, Apart other (marker.map value))
    {held emitted kept : List β} {next : List α} (none : NoneBegunBeyond pattern
      ((replaceAll value pattern marker held).map value) next kept.length)
    (emittedEq : replaceEach value patterns marker
      (replaceAll value pattern marker held) = emitted ++ kept) :
    ¬ StartsIn pattern (emitted.map value) (kept.map value ++ next) := by
  have restNonempty : ∀ other ∈ patterns, other ≠ [] :=
    fun other member => (restApart other member).pattern_ne_nil
  have absent : ¬ pattern <:+: (emitted ++ kept).map value := by
    intro found
    rw [← emittedEq] at found
    have inFirst := replaceEach_infix restNonempty apart found
    exact (replaces_replaceAll value apart.pattern_ne_nil marker held).pattern_free apart inFirst
  rintro ⟨front, back, short, texts⟩
  have regrouped : (emitted ++ kept).map value ++ next = front ++ (pattern ++ back) := by
    rw [← texts, List.map_append, List.append_assoc]
  rcases List.append_eq_append_iff.1 regrouped with
    ⟨gap, frontEq, _⟩ | ⟨begun, textEq, restEq⟩
  · have lengths := congrArg List.length frontEq
    simp only [List.length_append, List.length_map] at lengths short
    omega
  · rcases List.append_eq_append_iff.1 restEq with
      ⟨rest, begunEq, _⟩ | ⟨ended, patternEq, nextEq⟩
    · exact absent ⟨front, rest, by rw [textEq, begunEq, List.append_assoc]⟩
    · have endedNonempty : ended ≠ [] := by
        rintro rfl
        rw [List.append_nil] at patternEq
        exact absent ⟨front, [], by rw [textEq, patternEq, List.append_nil]⟩
      have long : kept.length < begun.length := by
        have lengths := congrArg List.length textEq
        simp only [List.length_append, List.length_map] at lengths short
        omega
      have begunClear : Clear (marker.map value) begun :=
        Clear.of_apart_prefix apart ⟨ended, patternEq.symm⟩
      have begunSuffix : begun <:+
          (replaceEach value patterns marker
            (replaceAll value pattern marker held)).map value := by
        rw [emittedEq, textEq]
        exact List.suffix_append front begun
      exact none begun ended long endedNonempty patternEq.symm
        ⟨back, nextEq.symm⟩
        (replaceEach_clear_suffix_values restNonempty begunClear begunSuffix)

/-- Replacing early, in the part of the text that is already known, changes
nothing, when no pattern clobbers an earlier one that the cut splits. -/
theorem replaceEach_replaceEach_append {patterns : List (List α)}
    (apart : ∀ pattern ∈ patterns, Apart pattern (marker.map value)) {held next : List β}
    (settled : patterns.Pairwise fun longer shorter =>
      ¬ Clobbers shorter longer (held.map value) (next.map value)) :
    replaceEach value patterns marker (replaceEach value patterns marker held ++ next) =
      replaceEach value patterns marker (held ++ next) := by
  induction patterns generalizing held next with
  | nil => rfl
  | cons pattern patterns ih =>
    have firstApart := apart pattern (by simp)
    have restApart : ∀ other ∈ patterns, Apart other (marker.map value) :=
      fun other member => apart other (List.mem_cons_of_mem _ member)
    have onePass : ∀ single ∈ [pattern], single ≠ [] := by
      simpa using firstApart.pattern_ne_nil
    obtain ⟨firstSettled, restSettled⟩ := List.pairwise_cons.1 settled
    simp only [replaceEach_cons]
    rcases replaceAll_append_cases firstApart held next with
      ⟨separate, none⟩ | ⟨before, begun, ended, after, heldEq, nextEq,
        endedNonempty, begunNonempty, word, scanned, whole, none⟩
    · have stillSettled : patterns.Pairwise fun longer shorter =>
          ¬ Clobbers shorter longer
            ((replaceAll value pattern marker held).map value)
            ((replaceAll value pattern marker next).map value) := by
        apply restSettled.imp_of_mem
        intro longer shorter longerMember shorterMember apartWords clobbers
        apply apartWords
        have inNext := clobbers.of_replaceAll_next firstApart.pattern_ne_nil
          (restApart longer longerMember)
        exact Clobbers.of_replaceEach onePass (restApart shorter shorterMember)
          (restApart longer longerMember) inNext
      have notStarting : ¬ StartsIn pattern
          ((replaceEach value patterns marker
            (replaceAll value pattern marker held)).map value)
          (([] : List β).map value ++ next.map value) :=
        not_startsIn_of_noneBegunBeyond firstApart restApart none
          (List.append_nil _).symm
      rw [separate, replaceAll_append_of_not_startsIn notStarting]
      exact ih restApart stillSettled
    · -- the cut splits an occurrence of the first pattern
      have beginning : begun.map value ++ ended.map value = pattern := by
        rw [← word, List.map_append]
      have begunClear : Clear (marker.map value) (begun.map value) :=
        Clear.of_apart_prefix firstApart ⟨ended.map value, beginning⟩
      have untouched : ∀ other ∈ patterns, ∀ rest,
          other ++ rest <:+
            (replaceAll value pattern marker before ++ begun).map value →
          begun.length ≤ rest.length := by
        intro other member rest suffix
        by_contra short
        apply firstSettled other member
        apply Clobbers.of_replaceEach onePass (restApart other member) firstApart
        refine ⟨begun.map value, ended.map value, rest, ?_, beginning, ?_, ?_, ?_, ?_⟩
        · simpa using endedNonempty
        · rw [replaceEach_cons, replaceEach_nil, scanned, List.map_append]
          exact List.suffix_append _ _
        · rw [nextEq, List.map_append]
          exact List.prefix_append _ _
        · rw [replaceEach_cons, replaceEach_nil, scanned]
          exact suffix
        · rw [List.length_map]
          omega
      have restPasses := replaceEach_append_of_untouched restApart begunClear untouched
      rw [← scanned] at restPasses
      have notStarting := not_startsIn_of_noneBegunBeyond firstApart restApart none restPasses
      have secondScan :
          replaceAll value pattern marker
              (replaceEach value patterns marker
                (replaceAll value pattern marker held) ++ next) =
            replaceEach value patterns marker
                (replaceAll value pattern marker before) ++
              (marker ++ replaceAll value pattern marker after) := by
        rw [restPasses, List.append_assoc]
        rw [← List.map_append] at notStarting
        rw [replaceAll_append_of_not_startsIn notStarting, nextEq,
          ← List.append_assoc begun, replaceAll_hit firstApart.pattern_ne_nil word]
      have settledBefore :
          replaceEach value patterns marker
              (replaceEach value patterns marker
                (replaceAll value pattern marker before)) =
            replaceEach value patterns marker
              (replaceAll value pattern marker before) :=
        replaceEach_eq_self (replaceEach_free restApart _)
      rw [secondScan, whole, replaceEach_marker restApart,
        replaceEach_marker restApart, settledBefore]

end Foundation
