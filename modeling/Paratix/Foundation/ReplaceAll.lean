/-
Module: Paratix.Foundation.ReplaceAll
Purpose: Words that share no cell with a marker word, and left-to-right replacement of words over
  texts whose cells are compared through a projection.
Main exports: prefix_append_cases, replaceEach_replaceEach_append
-/
import Mathlib.Data.List.Infix

namespace Foundation

variable {α : Type*}

/-- A prefix of `first ++ second` lies in `first` or covers it. -/
theorem prefix_append_cases {word first second : List α} (isPrefix : word <+: first ++ second) :
    word <+: first ∨ ∃ rest, word = first ++ rest ∧ rest <+: second := by
  obtain ⟨tail, texts⟩ := isPrefix
  rcases List.append_eq_append_iff.1 texts with
    ⟨rest, firstEq, _⟩ | ⟨rest, wordEq, secondEq⟩
  · exact Or.inl ⟨rest, firstEq.symm⟩
  · exact Or.inr ⟨rest, wordEq, tail, secondEq.symm⟩

/-- A suffix of `first ++ second` lies in `second` or properly covers it. -/
theorem suffix_append_cases {word first second : List α} (isSuffix : word <:+ first ++ second) :
    word <:+ second ∨
      ∃ ending, ending ≠ [] ∧ word = ending ++ second ∧ ending <:+ first := by
  obtain ⟨front, texts⟩ := isSuffix
  rcases List.append_eq_append_iff.1 texts with
    ⟨ending, firstEq, wordEq⟩ | ⟨rest, _, secondEq⟩
  · by_cases endingNil : ending = []
    · exact Or.inl ⟨[], by simp [wordEq, endingNil]⟩
    · exact Or.inr ⟨ending, endingNil, wordEq, front, firstEq.symm⟩
  · exact Or.inl ⟨rest, secondEq.symm⟩

/-- The word `pattern` can never share a cell with an occurrence of `marker`:
it neither lies inside the marker, nor covers it, nor runs into it from the
left, nor leaves it to the right. -/
structure Apart (pattern marker : List α) : Prop where
  notInside : ¬ pattern <:+: marker
  notAround : ¬ marker <:+: pattern
  notEntering : ∀ shared, shared ≠ [] → shared <:+ pattern → ¬ shared <+: marker
  notLeaving : ∀ shared, shared ≠ [] → shared <+: pattern → ¬ shared <:+ marker

namespace Apart

theorem pattern_ne_nil {pattern marker : List α} (apart : Apart pattern marker) :
    pattern ≠ [] := by
  rintro rfl
  exact apart.notInside List.nil_infix

theorem marker_ne_nil {pattern marker : List α} (apart : Apart pattern marker) :
    marker ≠ [] := by
  rintro rfl
  exact apart.notAround List.nil_infix

/-- An occurrence of `pattern` in a text that holds `marker` ends before the
marker starts or starts after the marker ends. -/
theorem occurrence {pattern marker : List α} (apart : Apart pattern marker)
    {before after front back : List α}
    (texts : before ++ (marker ++ after) = front ++ (pattern ++ back)) :
    (∃ rest, before = front ++ (pattern ++ rest) ∧ back = rest ++ (marker ++ after)) ∨
      (∃ start, front = before ++ (marker ++ start) ∧
        after = start ++ (pattern ++ back)) := by
  rcases List.append_eq_append_iff.1 texts with
    ⟨gap, frontEq, tailEq⟩ | ⟨gap, beforeEq, tailEq⟩
  · -- the occurrence starts at or after the start of the marker
    rcases List.append_eq_append_iff.1 tailEq with
      ⟨start, gapEq, afterEq⟩ | ⟨shared, markerEq, restEq⟩
    · subst frontEq gapEq
      exact Or.inr ⟨start, by simp, afterEq⟩
    · by_cases sharedNil : shared = []
      · subst sharedNil
        simp only [List.append_nil] at markerEq
        subst markerEq frontEq
        exact Or.inr ⟨[], by simp, by simpa using restEq.symm⟩
      · rcases List.append_eq_append_iff.1 restEq with
          ⟨tail, sharedEq, _⟩ | ⟨tail, patternEq, _⟩
        · exact absurd
            ⟨gap, tail, by rw [markerEq, sharedEq, List.append_assoc]⟩
            apart.notInside
        · exact absurd ⟨gap, markerEq.symm⟩
            (apart.notLeaving shared sharedNil ⟨tail, patternEq.symm⟩)
  · -- the occurrence starts before the marker
    rcases List.append_eq_append_iff.1 tailEq with
      ⟨rest, gapEq, backEq⟩ | ⟨shared, patternEq, restEq⟩
    · subst beforeEq gapEq
      exact Or.inl ⟨rest, rfl, backEq⟩
    · by_cases sharedNil : shared = []
      · subst sharedNil
        simp only [List.append_nil] at patternEq
        subst patternEq beforeEq
        exact Or.inl ⟨[], by simp, by simpa using restEq.symm⟩
      · rcases List.append_eq_append_iff.1 restEq with
          ⟨tail, sharedEq, _⟩ | ⟨tail, markerEq, _⟩
        · exact absurd
            ⟨gap, tail, by rw [patternEq, sharedEq, List.append_assoc]⟩
            apart.notAround
        · exact absurd ⟨tail, markerEq.symm⟩
            (apart.notEntering shared sharedNil ⟨gap, patternEq.symm⟩)

/-- A word without the marker's delimiters that is no part of the marker is
apart from it. -/
theorem of_delimited {pattern body : List α} {opening closing : α}
    (notInside : ¬ pattern <:+: opening :: (body ++ [closing]))
    (noOpening : opening ∉ pattern) (noClosing : closing ∉ pattern) :
    Apart pattern (opening :: (body ++ [closing])) where
  notInside := notInside
  notAround := fun around => noOpening (around.subset (by simp))
  notEntering := by
    intro shared nonempty suffix isPrefix
    cases shared with
    | nil => exact nonempty rfl
    | cons head tail =>
      have headEq : head = opening := (List.cons_prefix_cons.1 isPrefix).1
      subst headEq
      exact noOpening (suffix.subset (by simp))
  notLeaving := by
    intro shared nonempty isPrefix suffix
    have lastEq : shared.getLast nonempty = closing := by
      have markerLast := suffix.getLast nonempty
      simpa using markerLast
    exact noClosing
      (isPrefix.subset (lastEq ▸ List.getLast_mem nonempty))

end Apart

/-- Some occurrence of `pattern` in `emitted ++ rest` starts inside
`emitted`. -/
def StartsIn (pattern emitted rest : List α) : Prop :=
  ∃ front back, front.length < emitted.length ∧
    emitted ++ rest = front ++ (pattern ++ back)

theorem not_startsIn_nil (pattern rest : List α) :
    ¬ StartsIn pattern [] rest := by
  rintro ⟨front, back, short, _⟩
  simp at short

/-- A word that occurs nowhere in `emitted ++ rest` starts nowhere in
`emitted`, whatever follows, when `rest` is too long to be spanned. -/
theorem not_startsIn_of_long {pattern emitted rest : List α}
    (absent : ¬ pattern <:+: emitted ++ rest)
    (long : pattern.length ≤ rest.length + 1) (more : List α) :
    ¬ StartsIn pattern emitted (rest ++ more) := by
  rintro ⟨front, back, short, texts⟩
  apply absent
  have fits : (front ++ pattern).length ≤ (emitted ++ rest).length := by
    simp only [List.length_append]
    omega
  have isPrefix : front ++ pattern <+: emitted ++ rest := by
    have inWhole : front ++ pattern <+: emitted ++ (rest ++ more) :=
      ⟨back, by rw [texts, List.append_assoc]⟩
    exact List.prefix_of_prefix_length_le inWhole ⟨more, by rw [List.append_assoc]⟩ fits
  obtain ⟨tail, tailEq⟩ := isPrefix
  exact ⟨front, tail, tailEq⟩

/-- An occurrence that starts inside `emitted ++ rest` starts in one of the
two parts. -/
theorem startsIn_append {pattern emitted rest more : List α}
    (starts : StartsIn pattern (emitted ++ rest) more) :
    StartsIn pattern emitted (rest ++ more) ∨ StartsIn pattern rest more := by
  obtain ⟨front, back, short, texts⟩ := starts
  by_cases inEmitted : front.length < emitted.length
  · exact Or.inl ⟨front, back, inEmitted, by rw [← texts, List.append_assoc]⟩
  · have emittedPrefix : emitted <+: front := by
      have emittedFirst : emitted <+: emitted ++ rest ++ more :=
        ⟨rest ++ more, by rw [List.append_assoc]⟩
      exact List.prefix_of_prefix_length_le emittedFirst
        ⟨pattern ++ back, texts.symm⟩ (Nat.le_of_not_lt inEmitted)
    obtain ⟨inner, rfl⟩ := emittedPrefix
    refine Or.inr ⟨inner, back, ?_, ?_⟩
    · simp only [List.length_append] at short
      omega
    · simpa [List.append_assoc] using texts

variable {α β : Type*}

/-- The scan as a relation: a hit is taken wherever the pattern stands, every
other cell is copied. -/
inductive Replaces (value : β → α) (pattern : List α) (marker : List β) :
    List β → List β → Prop where
  | done : Replaces value pattern marker [] []
  | hit {occurrence cells result : List β}
      (found : occurrence.map value = pattern)
      (rest : Replaces value pattern marker cells result) :
      Replaces value pattern marker (occurrence ++ cells) (marker ++ result)
  | copy {cell : β} {cells result : List β}
      (miss : ¬ pattern <+: (cell :: cells).map value)
      (rest : Replaces value pattern marker cells result) :
      Replaces value pattern marker (cell :: cells) (cell :: result)

namespace Replaces

/-- The result is the text itself, or the text up to a first hit, the marker
and the result of the rest. -/
theorem first_hit {value : β → α} {pattern : List α} {marker cells result : List β}
    (replaces : Replaces value pattern marker cells result) : result = cells ∨
      ∃ gap occurrence rest restResult,
        cells = gap ++ (occurrence ++ rest) ∧ occurrence.map value = pattern ∧
        result = gap ++ (marker ++ restResult) ∧
        Replaces value pattern marker rest restResult := by
  induction replaces with
  | done => exact Or.inl rfl
  | @hit occurrence cells result found rest _ =>
    exact Or.inr ⟨[], occurrence, cells, result, rfl, found, rfl, rest⟩
  | @copy cell cells result miss rest ih =>
    rcases ih with same | ⟨gap, occurrence, tail, tailResult,
      cellsEq, found, resultEq, tailReplaces⟩
    · exact Or.inl (by rw [same])
    · exact Or.inr ⟨cell :: gap, occurrence, tail, tailResult,
        by rw [cellsEq, List.cons_append], found,
        by rw [resultEq, List.cons_append], tailReplaces⟩

/-- An end of a word apart from the marker that stands at the start of the
result stands at the start of the text. -/
theorem ended_of_result {value : β → α} {pattern begun ended : List α}
    {marker cells result : List β} (apart : Apart (begun ++ ended) (marker.map value))
    (replaces : Replaces value pattern marker cells result)
    (found : ended <+: result.map value) : ended <+: cells.map value := by
  rcases replaces.first_hit with same | ⟨gap, occurrence, rest, restResult, cellsEq, _, resultEq, _⟩
  · exact same ▸ found
  · obtain ⟨back, backEq⟩ := found
    have texts :
        (begun ++ gap.map value) ++
            (marker.map value ++ restResult.map value) =
          [] ++ (begun ++ ended ++ back) := by
      rw [List.nil_append, List.append_assoc begun ended, backEq, resultEq]
      simp
    rcases apart.occurrence texts with ⟨tail, gapEq, _⟩ | ⟨start, frontEq, _⟩
    · have gapSplit : gap.map value = ended ++ tail := by
        simpa [List.append_assoc] using gapEq
      rw [cellsEq, List.map_append, gapSplit]
      exact ⟨tail ++ (occurrence ++ rest).map value, by simp⟩
    · have markerNil := congrArg List.length frontEq
      simp only [List.length_nil, List.length_append] at markerNil
      exact absurd (List.length_eq_zero_iff.1 (by omega)) apart.marker_ne_nil

/-- A word apart from the marker that stands at the start of the result stands
at the start of the text. -/
theorem prefix_of_result {value : β → α} {pattern word : List α}
    {marker cells result : List β} (apart : Apart word (marker.map value))
    (replaces : Replaces value pattern marker cells result)
    (found : word <+: result.map value) : word <+: cells.map value := by
  have whole : Apart ([] ++ word) (marker.map value) := apart
  exact replaces.ended_of_result whole found

/-- A word apart from the marker occurs in the result only where it occurred
in the text. -/
theorem infix_of_result {value : β → α} {pattern word : List α}
    {marker cells result : List β} (apart : Apart word (marker.map value))
    (replaces : Replaces value pattern marker cells result)
    (found : word <:+: result.map value) : word <:+: cells.map value := by
  induction replaces with
  | done => exact found
  | @hit occurrence cells result occurrenceEq rest ih =>
    obtain ⟨front, back, texts⟩ := found
    have split : [] ++ (marker.map value ++ result.map value) = front ++ (word ++ back) := by
      rw [List.nil_append, ← List.append_assoc front, texts, List.map_append]
    rcases apart.occurrence split with ⟨tail, nilEq, _⟩ | ⟨start, _, resultEq⟩
    · have wordNil := congrArg List.length nilEq
      simp only [List.length_nil, List.length_append] at wordNil
      exact absurd (List.length_eq_zero_iff.1 (by omega)) apart.pattern_ne_nil
    · have inRest := ih ⟨start, back, by rw [resultEq, List.append_assoc]⟩
      exact inRest.trans ⟨occurrence.map value, [], by simp⟩
  | @copy cell cells result miss rest ih =>
    rw [List.map_cons, List.infix_cons_iff] at found
    rcases found with atStart | inTail
    · have whole : word <+: (cell :: result).map value := by simpa using atStart
      exact ((Replaces.copy miss rest).prefix_of_result apart whole).isInfix
    · exact (ih inTail).trans ⟨[value cell], [], by simp⟩

/-- No occurrence of the pattern survives. -/
theorem pattern_free {value : β → α} {pattern : List α}
    {marker cells result : List β} (apart : Apart pattern (marker.map value))
    (replaces : Replaces value pattern marker cells result) :
    ¬ pattern <:+: result.map value := by
  intro found
  induction replaces with
  | done => exact apart.pattern_ne_nil (List.infix_nil.1 found)
  | @hit occurrence cells result occurrenceEq rest ih =>
    obtain ⟨front, back, texts⟩ := found
    have split : [] ++ (marker.map value ++ result.map value) = front ++ (pattern ++ back) := by
      rw [List.nil_append, ← List.append_assoc front, texts, List.map_append]
    rcases apart.occurrence split with ⟨tail, nilEq, _⟩ | ⟨start, _, resultEq⟩
    · have wordNil := congrArg List.length nilEq
      simp only [List.length_nil, List.length_append] at wordNil
      exact apart.pattern_ne_nil (List.length_eq_zero_iff.1 (by omega))
    · exact ih ⟨start, back, by rw [resultEq, List.append_assoc]⟩
  | @copy cell cells result miss rest ih =>
    rw [List.map_cons, List.infix_cons_iff] at found
    rcases found with atStart | inTail
    · have whole : pattern <+: (cell :: result).map value := by simpa using atStart
      exact miss ((Replaces.copy miss rest).prefix_of_result apart whole)
    · exact ih inTail

end Replaces

variable [DecidableEq α]

/-- One pass of the scan. `skip` counts the cells of the match in progress that
are still to be dropped. -/
def replaceAllFrom (value : β → α) (pattern : List α) (marker : List β) :
    Nat → List β → List β
  | _, [] => []
  | skip + 1, _ :: cells => replaceAllFrom value pattern marker skip cells
  | 0, cell :: cells =>
      if pattern.isPrefixOf ((cell :: cells).map value) then
        marker ++ replaceAllFrom value pattern marker (pattern.length - 1) cells
      else
        cell :: replaceAllFrom value pattern marker 0 cells

/-- Replace every leftmost, non-overlapping occurrence of a nonempty
`pattern` in `cells` by `marker`; cells are compared by `value`. -/
def replaceAll (value : β → α) (pattern : List α) (marker : List β)
    (cells : List β) : List β :=
  replaceAllFrom value pattern marker 0 cells

/-- Replace the patterns one after the other, each over the result of the
previous one. -/
def replaceEach (value : β → α) (patterns : List (List α)) (marker : List β)
    (cells : List β) : List β :=
  patterns.foldl (fun text pattern => replaceAll value pattern marker text) cells

theorem replaceAllFrom_skip (value : β → α) (pattern : List α) (marker : List β) :
    ∀ (skip : Nat) (cells : List β), replaceAllFrom value pattern marker skip cells =
        replaceAllFrom value pattern marker 0 (cells.drop skip)
  | 0, _ => rfl
  | _ + 1, [] => rfl
  | skip + 1, _ :: cells => replaceAllFrom_skip value pattern marker skip cells

theorem replaceAll_nil (value : β → α) (pattern : List α) (marker : List β) :
    replaceAll value pattern marker [] = [] := rfl

theorem replaceAll_copy {value : β → α} {pattern : List α} {marker : List β}
    {cell : β} {cells : List β} (miss : ¬ pattern <+: (cell :: cells).map value) :
    replaceAll value pattern marker (cell :: cells) =
      cell :: replaceAll value pattern marker cells := by
  have noPrefix : pattern.isPrefixOf ((cell :: cells).map value) = false := by
    rw [Bool.eq_false_iff]
    exact fun found => miss (List.isPrefixOf_iff_prefix.1 found)
  simp only [replaceAll, replaceAllFrom, noPrefix, Bool.false_eq_true, if_false]

theorem replaceAll_hit {value : β → α} {pattern : List α} {marker : List β}
    (nonempty : pattern ≠ []) {occurrence : List β}
    (found : occurrence.map value = pattern) (cells : List β) :
    replaceAll value pattern marker (occurrence ++ cells) =
      marker ++ replaceAll value pattern marker cells := by
  subst found
  cases occurrence with
  | nil => simp at nonempty
  | cons cell tail =>
    have isPrefix :
        ((cell :: tail).map value).isPrefixOf
          ((cell :: (tail ++ cells)).map value) = true := by
      rw [List.isPrefixOf_iff_prefix]
      exact ⟨cells.map value, by simp⟩
    simp only [replaceAll, List.cons_append, replaceAllFrom, isPrefix, if_true]
    rw [replaceAllFrom_skip]
    simp

/-- A pattern of one cell is replaced cell by cell. -/
theorem replaceAll_singleton (pattern : α) (marker cells : List α) :
    replaceAll id [pattern] marker cells =
      cells.flatMap fun cell => if cell = pattern then marker else [cell] := by
  induction cells with
  | nil => rfl
  | cons cell cells ih =>
    rw [List.flatMap_cons, ← ih]
    by_cases same : cell = pattern
    · rw [if_pos same, same]
      exact replaceAll_hit (List.cons_ne_nil _ _) (List.map_id [pattern]) cells
    · rw [if_neg same, List.singleton_append]
      apply replaceAll_copy
      rw [List.map_id, List.cons_prefix_cons]
      exact fun found => same found.1.symm

/-- The scan looks at cells only through `value`. -/
theorem replaceAllFrom_map {γ : Type*} (cellMap : β → γ) (value : γ → α)
    (pattern : List α) (marker : List β) (skip : Nat) (cells : List β) :
    (replaceAllFrom (value ∘ cellMap) pattern marker skip cells).map cellMap =
      replaceAllFrom value pattern (marker.map cellMap) skip
        (cells.map cellMap) := by
  induction cells generalizing skip with
  | nil => simp [replaceAllFrom]
  | cons cell cells ih =>
    cases skip with
    | zero =>
      simp only [replaceAllFrom, List.map_cons, List.map_map, Function.comp_apply]
      split
      · rw [List.map_append, ih]
      · rw [List.map_cons, ih]
    | succ skip => exact ih skip

theorem replaceAll_map {γ : Type*} (cellMap : β → γ) (value : γ → α)
    (pattern : List α) (marker cells : List β) :
    (replaceAll (value ∘ cellMap) pattern marker cells).map cellMap =
      replaceAll value pattern (marker.map cellMap) (cells.map cellMap) :=
  replaceAllFrom_map cellMap value pattern marker 0 cells

/-- The scan computes the relation. -/
theorem replaces_replaceAll (value : β → α) {pattern : List α}
    (nonempty : pattern ≠ []) (marker : List β) (cells : List β) :
    Replaces value pattern marker cells
      (replaceAll value pattern marker cells) := by
  induction hlen : cells.length using Nat.strong_induction_on generalizing cells with
  | _ length ih =>
    cases cells with
    | nil => exact .done
    | cons cell tail =>
      by_cases found : pattern <+: (cell :: tail).map value
      · obtain ⟨rest, restEq⟩ := found
        obtain ⟨occurrence, cells, cellsEq, occurrenceEq, _⟩ := List.map_eq_append_iff.1 restEq.symm
        rw [cellsEq, replaceAll_hit nonempty occurrenceEq]
        refine .hit occurrenceEq (ih cells.length ?_ cells rfl)
        have lengths := congrArg List.length cellsEq
        have positive : 0 < occurrence.length := by
          have sameLength := congrArg List.length occurrenceEq
          rw [List.length_map] at sameLength
          exact sameLength ▸ List.length_pos_iff.2 nonempty
        simp only [List.length_append] at lengths
        omega
      · rw [replaceAll_copy found]
        refine .copy found (ih tail.length ?_ tail rfl)
        simp only [List.length_cons] at hlen
        omega

/-- A text without the pattern is left alone. -/
theorem replaceAll_eq_self {value : β → α} {pattern : List α}
    {marker cells : List β} (absent : ¬ pattern <:+: cells.map value) :
    replaceAll value pattern marker cells = cells := by
  induction cells with
  | nil => rfl
  | cons cell tail ih =>
    have miss : ¬ pattern <+: (cell :: tail).map value := fun found => absent found.isInfix
    have tailAbsent : ¬ pattern <:+: tail.map value :=
      fun found => absent (found.trans ⟨[value cell], [], by simp⟩)
    rw [replaceAll_copy miss, ih tailAbsent]


/-! ### A pass over a text that is cut in two -/

/-- Cells in which no occurrence starts are copied. -/
theorem replaceAll_append_of_not_startsIn {value : β → α} {pattern : List α} {marker : List β} :
    ∀ {emitted rest : List β}, ¬ StartsIn pattern (emitted.map value) (rest.map value) →
      replaceAll value pattern marker (emitted ++ rest) =
        emitted ++ replaceAll value pattern marker rest
  | [], _, _ => rfl
  | cell :: emitted, rest, notStarting => by
      have miss : ¬ pattern <+: (cell :: (emitted ++ rest)).map value := by
        rintro ⟨back, backEq⟩
        exact notStarting ⟨[], back, by simp, by simpa using backEq.symm⟩
      have tailNotStarting : ¬ StartsIn pattern (emitted.map value) (rest.map value) := by
        rintro ⟨front, back, short, texts⟩
        refine notStarting ⟨value cell :: front, back, ?_, ?_⟩
        · simpa using short
        · simpa using texts
      rw [List.cons_append, replaceAll_copy miss,
        replaceAll_append_of_not_startsIn tailNotStarting, List.cons_append]

/-- A marker the pattern is apart from splits the pass in two. -/
theorem replaceAll_marker {value : β → α} {pattern : List α}
    {marker : List β} (apart : Apart pattern (marker.map value)) (gap rest : List β) :
    replaceAll value pattern marker (gap ++ (marker ++ rest)) =
      replaceAll value pattern marker gap ++
        (marker ++ replaceAll value pattern marker rest) := by
  have gapReplaces := replaces_replaceAll value apart.pattern_ne_nil marker gap
  generalize replaceAll value pattern marker gap = gapResult at gapReplaces ⊢
  induction gapReplaces with
  | done =>
    rw [List.nil_append, List.nil_append]
    apply replaceAll_append_of_not_startsIn
    rintro ⟨front, back, short, texts⟩
    rw [← List.nil_append (marker.map value ++ rest.map value)] at texts
    rcases apart.occurrence texts with
      ⟨tail, nilEq, _⟩ | ⟨start, frontEq, _⟩
    · have patternNil := congrArg List.length nilEq
      simp only [List.length_nil, List.length_append] at patternNil
      exact apart.pattern_ne_nil (List.length_eq_zero_iff.1 (by omega))
    · have tooLong := congrArg List.length frontEq
      simp only [List.nil_append, List.length_append] at tooLong
      omega
  | @hit occurrence cells result found tail ih =>
    rw [List.append_assoc, replaceAll_hit apart.pattern_ne_nil found, ih, List.append_assoc]
  | @copy cell cells result miss tail ih =>
    have stillMiss : ¬ pattern <+: (cell :: (cells ++ (marker ++ rest))).map value := by
      rintro ⟨back, backEq⟩
      have texts :
          (cell :: cells).map value ++ (marker.map value ++ rest.map value) =
            [] ++ (pattern ++ back) := by
        rw [List.nil_append, backEq]
        simp
      rcases apart.occurrence texts with ⟨gapRest, gapEq, _⟩ | ⟨start, nilEq, _⟩
      · exact miss ⟨gapRest, by rw [gapEq, List.nil_append]⟩
      · simp at nilEq
    rw [List.cons_append, replaceAll_copy stillMiss, ih, List.cons_append]

/-- Replacing inside `rest` lets no word apart from the marker start earlier
in `emitted`. -/
theorem not_startsIn_replaceAll {value : β → α} {pattern word : List α}
    {marker emitted rest : List β} (nonempty : pattern ≠ []) (apart : Apart word (marker.map value))
    (notStarting : ∀ more, ¬ StartsIn word (emitted.map value)
      (rest.map value ++ more)) (more : List α) :
    ¬ StartsIn word (emitted.map value)
      ((replaceAll value pattern marker rest).map value ++ more) := by
  rcases (replaces_replaceAll value nonempty marker rest).first_hit with
    same | ⟨gap, occurrence, tail, tailResult, restEq, _, resultEq, _⟩
  · rw [same]
    exact notStarting more
  · rintro ⟨front, back, short, texts⟩
    rw [resultEq] at texts
    have split :
        (emitted ++ gap).map value ++
            (marker.map value ++ (tailResult.map value ++ more)) =
          front ++ (word ++ back) := by
      rw [← texts]
      simp
    rcases apart.occurrence split with ⟨gapRest, gapEq, _⟩ | ⟨start, frontEq, _⟩
    · refine notStarting [] ⟨front, gapRest ++ (occurrence ++ tail).map value, short, ?_⟩
      rw [restEq, List.map_append, List.append_nil, ← List.append_assoc, ← List.map_append, gapEq]
      simp
    · have tooLong := congrArg List.length frontEq
      simp only [List.map_append, List.length_append] at tooLong
      omega

/-! ### Several patterns -/

section Patterns

variable {value : β → α} {marker : List β}

@[simp] theorem replaceEach_nil (cells : List β) :
    replaceEach value [] marker cells = cells := rfl

@[simp] theorem replaceEach_cons (pattern : List α) (patterns : List (List α)) (cells : List β) :
    replaceEach value (pattern :: patterns) marker cells = replaceEach value patterns marker
        (replaceAll value pattern marker cells) := rfl

@[simp] theorem replaceEach_empty (patterns : List (List α)) :
    replaceEach value patterns marker [] = [] := by
  induction patterns with
  | nil => rfl
  | cons pattern patterns ih =>
    rw [replaceEach_cons, replaceAll_nil, ih]

/-- The passes look at cells only through `value`. -/
theorem replaceEach_map {γ : Type*} (cellMap : β → γ) (value : γ → α)
    (patterns : List (List α)) (cells : List β) :
    (replaceEach (value ∘ cellMap) patterns marker cells).map cellMap =
      replaceEach value patterns (marker.map cellMap) (cells.map cellMap) := by
  induction patterns generalizing cells with
  | nil => rfl
  | cons pattern patterns ih =>
    rw [replaceEach_cons, replaceEach_cons, ih, replaceAll_map]

/-- A word apart from the marker occurs in the result only where it occurred
in the text. -/
theorem replaceEach_infix {patterns : List (List α)} {word : List α}
    (nonempty : ∀ pattern ∈ patterns, pattern ≠ [])
    (apart : Apart word (marker.map value)) {cells : List β}
    (found : word <:+: (replaceEach value patterns marker cells).map value) :
    word <:+: cells.map value := by
  induction patterns generalizing cells with
  | nil => exact found
  | cons pattern patterns ih =>
    have inFirst := ih
      (fun other member => nonempty other (List.mem_cons_of_mem _ member)) found
    exact (replaces_replaceAll value (nonempty pattern (by simp)) marker
      cells).infix_of_result apart inFirst

/-- No pattern occurs in the result. -/
theorem replaceEach_free {patterns : List (List α)}
    (apart : ∀ pattern ∈ patterns, Apart pattern (marker.map value)) (cells : List β) :
    ∀ pattern ∈ patterns,
      ¬ pattern <:+: (replaceEach value patterns marker cells).map value := by
  induction patterns generalizing cells with
  | nil => simp
  | cons first patterns ih =>
    have restApart : ∀ pattern ∈ patterns, Apart pattern (marker.map value) :=
      fun pattern member => apart pattern (List.mem_cons_of_mem _ member)
    have firstApart := apart first (by simp)
    intro pattern member
    rcases List.mem_cons.1 member with rfl | inRest
    · intro found
      have inFirst := replaceEach_infix
        (fun other inRest => (restApart other inRest).pattern_ne_nil)
        firstApart found
      exact (replaces_replaceAll value firstApart.pattern_ne_nil marker
        cells).pattern_free firstApart inFirst
    · exact ih restApart _ pattern inRest

/-- A text in which no pattern occurs is left alone. -/
theorem replaceEach_eq_self {patterns : List (List α)} {cells : List β}
    (absent : ∀ pattern ∈ patterns, ¬ pattern <:+: cells.map value) :
    replaceEach value patterns marker cells = cells := by
  induction patterns with
  | nil => rfl
  | cons pattern patterns ih =>
    rw [replaceEach_cons, replaceAll_eq_self (absent pattern (by simp))]
    exact ih fun other member => absent other (List.mem_cons_of_mem _ member)

/-- A marker all patterns are apart from splits the passes in two. -/
theorem replaceEach_marker {patterns : List (List α)}
    (apart : ∀ pattern ∈ patterns, Apart pattern (marker.map value)) (gap rest : List β) :
    replaceEach value patterns marker (gap ++ (marker ++ rest)) =
      replaceEach value patterns marker gap ++
        (marker ++ replaceEach value patterns marker rest) := by
  induction patterns generalizing gap rest with
  | nil => rfl
  | cons pattern patterns ih =>
    simp only [replaceEach_cons]
    rw [replaceAll_marker (apart pattern (by simp))]
    exact ih
      (fun other member => apart other (List.mem_cons_of_mem _ member)) _ _

/-- Replacing inside `rest` lets no word apart from the marker start earlier
in `emitted`. -/
theorem not_startsIn_replaceEach {patterns : List (List α)} {word : List α}
    (nonempty : ∀ pattern ∈ patterns, pattern ≠ [])
    (apart : Apart word (marker.map value)) {emitted rest : List β}
    (notStarting : ∀ more, ¬ StartsIn word (emitted.map value) (rest.map value ++ more)) :
    ∀ more, ¬ StartsIn word (emitted.map value)
      ((replaceEach value patterns marker rest).map value ++ more) := by
  induction patterns generalizing rest with
  | nil => exact notStarting
  | cons pattern patterns ih =>
    exact ih
      (fun other member => nonempty other (List.mem_cons_of_mem _ member))
      (not_startsIn_replaceAll (nonempty pattern (by simp)) apart notStarting)

/-- Cells in which no pattern starts, whatever follows, are copied by every
pass. -/
theorem replaceEach_append_of_not_startsIn {patterns : List (List α)}
    (apart : ∀ pattern ∈ patterns, Apart pattern (marker.map value)) {emitted rest : List β}
    (notStarting : ∀ pattern ∈ patterns, ∀ more,
      ¬ StartsIn pattern (emitted.map value) (rest.map value ++ more)) :
    replaceEach value patterns marker (emitted ++ rest) =
      emitted ++ replaceEach value patterns marker rest := by
  induction patterns generalizing rest with
  | nil => rfl
  | cons pattern patterns ih =>
    have firstNotStarting : ¬ StartsIn pattern (emitted.map value) (rest.map value) := by
      simpa using notStarting pattern (by simp) []
    simp only [replaceEach_cons]
    rw [replaceAll_append_of_not_startsIn firstNotStarting]
    apply ih
      (fun other member => apart other (List.mem_cons_of_mem _ member))
    intro other member
    exact not_startsIn_replaceAll (apart pattern (by simp)).pattern_ne_nil
      (apart other (List.mem_cons_of_mem _ member))
      (notStarting other (List.mem_cons_of_mem _ member))

end Patterns

end Foundation
