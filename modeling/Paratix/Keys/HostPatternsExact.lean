/-
Module: Paratix.Keys.HostPatternsExact
Purpose: The matching loop ends and finds what the glob matches, and a pattern list
  matches whatever the order of its patterns.
Main exports: LoopEnds, hostPatterns_exact
-/
import Paratix.Foundation.LinePattern
import Paratix.Keys.KnownHostsLines
import Paratix.Masking.Secrets

namespace Paratix.Keys

open Foundation Archive

section Globs

variable {α : Type*} [DecidableEq α] {star any : α} {pattern needle : List α}
  {state nextState : HostPatternMatchState}

/-! ### The rounds of the loop -/

/-- The loop ends in this state, with the state it is left in or with `none` for a
mismatch. -/
inductive LoopEnds (star any : α) (pattern needle : List α) :
    HostPatternMatchState → Option HostPatternMatchState → Prop where
  | done {state : HostPatternMatchState} (atEnd : needle.length ≤ state.needleIndex) :
      LoopEnds star any pattern needle state (some state)
  | mismatch {state : HostPatternMatchState} (more : state.needleIndex < needle.length)
      (refused : advanceHostPatternMatch star any pattern needle state = none) :
      LoopEnds star any pattern needle state none
  | round {state nextState : HostPatternMatchState} {result : Option HostPatternMatchState}
      (more : state.needleIndex < needle.length)
      (advanced : advanceHostPatternMatch star any pattern needle state = some nextState)
      (later : LoopEnds star any pattern needle nextState result) :
      LoopEnds star any pattern needle state result

/-- What one round can do: take a character, start at a star, or let the last star
take one more character. -/
theorem advance_cases (more : state.needleIndex < needle.length)
    (advanced : advanceHostPatternMatch star any pattern needle state = some nextState) :
    (∃ head, pattern[state.patternIndex]? = some head ∧
      (head = any ∨ head = needle[state.needleIndex]) ∧
      nextState = { state with
        needleIndex := state.needleIndex + 1
        patternIndex := state.patternIndex + 1 }) ∨
    (pattern[state.patternIndex]? = some star ∧
      nextState = { state with
        patternIndex := state.patternIndex + 1
        starIndex := some state.patternIndex
        starNeedleIndex := state.needleIndex }) ∨
    ((∀ head, pattern[state.patternIndex]? = some head →
        head ≠ star ∧ head ≠ any ∧ head ≠ needle[state.needleIndex]) ∧
      ∃ starIndex, state.starIndex = some starIndex ∧
        nextState = { state with
          needleIndex := state.starNeedleIndex + 1
          patternIndex := starIndex + 1
          starNeedleIndex := state.starNeedleIndex + 1 }) := by
  rw [advanceHostPatternMatch] at advanced
  dsimp only at advanced
  rw [List.getElem?_eq_getElem more] at advanced
  split at advanced
  · rename_i fits
    left
    rcases fits with isAny | isChar
    · exact ⟨any, isAny, .inl rfl, (Option.some.inj advanced).symm⟩
    · exact ⟨_, isChar, .inr rfl, (Option.some.inj advanced).symm⟩
  · rename_i noFit
    split at advanced
    · rename_i isStar
      exact .inr (.inl ⟨isStar, (Option.some.inj advanced).symm⟩)
    · rename_i noStar
      right
      right
      split at advanced
      · cases advanced
      · rename_i starIndex isStarIndex
        refine ⟨?_, starIndex, isStarIndex, (Option.some.inj advanced).symm⟩
        intro head isHead
        rw [isHead] at noFit noStar
        simp only [Option.some.injEq, not_or] at noFit noStar
        exact ⟨noStar, noFit.1, noFit.2⟩

theorem advance_none (more : state.needleIndex < needle.length)
    (refused : advanceHostPatternMatch star any pattern needle state = none) :
    state.starIndex = none ∧ ∀ head, pattern[state.patternIndex]? = some head →
      head ≠ star ∧ head ≠ any ∧ head ≠ needle[state.needleIndex] := by
  rw [advanceHostPatternMatch] at refused
  dsimp only at refused
  rw [List.getElem?_eq_getElem more] at refused
  split at refused
  · cases refused
  · rename_i noFit
    split at refused
    · cases refused
    · rename_i noStar
      split at refused
      · rename_i noStarIndex
        refine ⟨noStarIndex, ?_⟩
        intro head isHead
        rw [isHead] at noFit noStar
        simp only [Option.some.injEq, not_or] at noFit noStar
        exact ⟨noStar, noFit.1, noFit.2⟩
      · cases refused

/-! ### The loop ends -/

/-- The indices stay inside the pattern and the needle. -/
structure Bounded (pattern needle : List α) (state : HostPatternMatchState) : Prop where
  needleInside : state.needleIndex ≤ needle.length
  starBefore : state.starNeedleIndex ≤ state.needleIndex
  patternInside : state.patternIndex ≤ pattern.length
  starInside : ∀ starIndex, state.starIndex = some starIndex → starIndex < state.patternIndex

omit [DecidableEq α] in
theorem bounded_initial : Bounded pattern needle .initial where
  needleInside := Nat.zero_le _
  starBefore := Nat.zero_le _
  patternInside := Nat.zero_le _
  starInside starIndex isStarIndex := by cases isStarIndex

omit [DecidableEq α] in
theorem lt_length_of_getElem? {index : Nat} {head : α} (isHead : pattern[index]? = some head) :
    index < pattern.length := (List.getElem?_eq_some_iff.1 isHead).1

theorem Bounded.advance (bounded : Bounded pattern needle state)
    (more : state.needleIndex < needle.length)
    (advanced : advanceHostPatternMatch star any pattern needle state = some nextState) :
    Bounded pattern needle nextState := by
  rcases advance_cases more advanced with
    ⟨head, isHead, _, rfl⟩ | ⟨isStar, rfl⟩ | ⟨_, starIndex, isStarIndex, rfl⟩
  · exact
      { needleInside := more
        starBefore := Nat.le_succ_of_le bounded.starBefore
        patternInside := lt_length_of_getElem? isHead
        starInside := fun starIndex isStarIndex =>
          Nat.lt_succ_of_lt (bounded.starInside starIndex isStarIndex) }
  · exact
      { needleInside := bounded.needleInside
        starBefore := le_refl _
        patternInside := lt_length_of_getElem? isStar
        starInside := fun starIndex isStarIndex => by
          rw [← Option.some.inj isStarIndex]
          exact Nat.lt_succ_self _ }
  · have before := bounded.starInside starIndex isStarIndex
    have inside := bounded.patternInside
    have starBefore := bounded.starBefore
    exact
      { needleInside := by
          change state.starNeedleIndex + 1 ≤ needle.length
          omega
        starBefore := le_refl _
        patternInside := by
          change starIndex + 1 ≤ pattern.length
          omega
        starInside := fun other isOther => by
          change state.starIndex = some other at isOther
          rw [isStarIndex] at isOther
          rw [← Option.some.inj isOther]
          exact Nat.lt_succ_self _ }

/-- The place behind the last star, 0 if there was none. -/
def behindStar (state : HostPatternMatchState) : Nat :=
  match state.starIndex with
  | none => 0
  | some starIndex => starIndex + 1

/-- A bound on the rounds to come: a new star, a longer text for the last star and a
character taken each lower it. -/
def roundsLeft (pattern needle : List α) (state : HostPatternMatchState) : Nat :=
  (pattern.length + 1 - behindStar state) * ((needle.length + 1) * (needle.length + 1)) +
    (needle.length - state.starNeedleIndex) * (needle.length + 1) +
    (needle.length - state.needleIndex)

theorem roundsLeft_lt (bounded : Bounded pattern needle state)
    (more : state.needleIndex < needle.length)
    (advanced : advanceHostPatternMatch star any pattern needle state = some nextState) :
    roundsLeft pattern needle nextState < roundsLeft pattern needle state := by
  have starBefore := bounded.starBefore
  rcases advance_cases more advanced with
    ⟨head, isHead, _, rfl⟩ | ⟨isStar, rfl⟩ | ⟨_, starIndex, isStarIndex, rfl⟩
  · have sameStar : behindStar { state with
        needleIndex := state.needleIndex + 1
        patternIndex := state.patternIndex + 1 } = behindStar state := rfl
    simp only [roundsLeft, sameStar]
    omega
  · have inside := lt_length_of_getElem? isStar
    have earlier : behindStar state ≤ state.patternIndex := by
      rw [behindStar]
      split
      · exact Nat.zero_le _
      · exact bounded.starInside _ ‹_›
    have newStar : behindStar { state with
        patternIndex := state.patternIndex + 1
        starIndex := some state.patternIndex
        starNeedleIndex := state.needleIndex } = state.patternIndex + 1 := rfl
    simp only [roundsLeft, newStar]
    -- one star less is worth more than all the rounds up to the next star
    have oneStar : (pattern.length + 1 - (state.patternIndex + 1) + 1) *
          ((needle.length + 1) * (needle.length + 1)) ≤
        (pattern.length + 1 - behindStar state) *
          ((needle.length + 1) * (needle.length + 1)) :=
      Nat.mul_le_mul_right _ (by omega)
    have tail : (needle.length - state.needleIndex) * (needle.length + 1) ≤
        needle.length * (needle.length + 1) := Nat.mul_le_mul_right _ (by omega)
    have square : (needle.length + 1) * (needle.length + 1) =
        needle.length * (needle.length + 1) + (needle.length + 1) := Nat.succ_mul _ _
    rw [Nat.add_mul, Nat.one_mul] at oneStar
    omega
  · have sameStar : behindStar { state with
        needleIndex := state.starNeedleIndex + 1
        patternIndex := starIndex + 1
        starNeedleIndex := state.starNeedleIndex + 1 } = behindStar state := rfl
    simp only [roundsLeft, sameStar]
    have oneMore : (needle.length - (state.starNeedleIndex + 1) + 1) * (needle.length + 1) ≤
        (needle.length - state.starNeedleIndex) * (needle.length + 1) :=
      Nat.mul_le_mul_right _ (by omega)
    rw [Nat.add_mul, Nat.one_mul] at oneMore
    omega

/-- With enough fuel the loop is run to its end. -/
theorem loopEnds_matchNeedle (bounded : Bounded pattern needle state) {fuel : Nat}
    (enough : roundsLeft pattern needle state < fuel) :
    LoopEnds star any pattern needle state (matchNeedle star any pattern needle fuel state) := by
  induction fuel generalizing state with
  | zero => exact absurd enough (Nat.not_lt_zero _)
  | succ fuel ih =>
    rw [matchNeedle]
    split
    · rename_i more
      cases advanced : advanceHostPatternMatch star any pattern needle state with
      | none => exact .mismatch more advanced
      | some nextState =>
        refine .round more advanced (ih (bounded.advance more advanced) ?_)
        have fewer := roundsLeft_lt bounded more advanced
        omega
    · rename_i atEnd
      exact .done (Nat.not_lt.1 atEnd)

omit [DecidableEq α] in
theorem roundsLeft_initial : roundsLeft pattern needle .initial < matchFuel pattern needle := by
  have square : (needle.length + 1) * (needle.length + 1) =
      needle.length * (needle.length + 1) + (needle.length + 1) := Nat.succ_mul _ _
  have fuel : matchFuel pattern needle =
      (pattern.length + 1) * ((needle.length + 1) * (needle.length + 1)) +
        (needle.length + 1) * (needle.length + 1) := Nat.succ_mul _ _
  rw [fuel, square]
  simp only [roundsLeft, HostPatternMatchState.initial, behindStar, Nat.sub_zero]
  rw [square]
  omega

/-! ### What the loop finds -/

/-- The rest of the pattern matches the rest of the needle. -/
def MatchesFrom (star any : α) (pattern needle : List α) (patternIndex needleIndex : Nat) : Prop :=
  GlobMatches star any (pattern.drop patternIndex) (needle.drop needleIndex)

section MatchesFrom

variable {patternIndex needleIndex : Nat}

omit [DecidableEq α]

theorem matchesFrom_end_iff (atEnd : pattern[patternIndex]? = none) :
    MatchesFrom star any pattern needle patternIndex needleIndex ↔
      needle.length ≤ needleIndex := by
  rw [MatchesFrom, List.drop_eq_nil_of_le (List.getElem?_eq_none_iff.1 atEnd),
    globMatches_nil_iff, List.drop_eq_nil_iff]

theorem drop_of_getElem? {index : Nat} {head : α} (isHead : pattern[index]? = some head) :
    pattern.drop index = head :: pattern.drop (index + 1) := by
  obtain ⟨inside, rfl⟩ := List.getElem?_eq_some_iff.1 isHead
  exact List.drop_eq_getElem_cons inside

theorem matchesFrom_head_iff {head : α} (isHead : pattern[patternIndex]? = some head)
    (notStar : head ≠ star) : MatchesFrom star any pattern needle patternIndex needleIndex ↔
      ∃ more : needleIndex < needle.length, (head = any ∨ head = needle[needleIndex]) ∧
        MatchesFrom star any pattern needle (patternIndex + 1) (needleIndex + 1) := by
  rw [MatchesFrom, drop_of_getElem? isHead, globMatches_cons_iff notStar]
  constructor
  · rintro ⟨char, rest, isDrop, fits, matched⟩
    have more : needleIndex < needle.length := by
      by_contra atEnd
      rw [List.drop_eq_nil_of_le (Nat.not_lt.1 atEnd)] at isDrop
      cases isDrop
    rw [List.drop_eq_getElem_cons more] at isDrop
    injection isDrop with isChar isRest
    rw [← isChar] at fits
    rw [← isRest] at matched
    exact ⟨more, fits, matched⟩
  · rintro ⟨more, fits, matched⟩
    exact ⟨_, _, List.drop_eq_getElem_cons more, fits, matched⟩

theorem matchesFrom_star_iff (isStar : pattern[patternIndex]? = some star)
    (inside : needleIndex ≤ needle.length) :
    MatchesFrom star any pattern needle patternIndex needleIndex ↔
      ∃ taken, needleIndex ≤ taken ∧ taken ≤ needle.length ∧
        MatchesFrom star any pattern needle (patternIndex + 1) taken := by
  rw [MatchesFrom, drop_of_getElem? isStar, globMatches_star_iff]
  constructor
  · rintro ⟨skipped, matched⟩
    rw [List.drop_drop] at matched
    by_cases within : needleIndex + skipped ≤ needle.length
    · exact ⟨needleIndex + skipped, Nat.le_add_right .., within, matched⟩
    · refine ⟨needle.length, inside, le_refl _, ?_⟩
      have past : needle.drop (needleIndex + skipped) = [] := List.drop_eq_nil_of_le (by omega)
      rw [past] at matched
      rwa [MatchesFrom, List.drop_length]
  · rintro ⟨taken, later, _, matched⟩
    refine ⟨taken - needleIndex, ?_⟩
    rwa [List.drop_drop, Nat.add_sub_cancel' later]

/-- No head that fits, so no match from here. -/
theorem not_matchesFrom (more : needleIndex < needle.length)
    (noFit : ∀ head, pattern[patternIndex]? = some head →
      head ≠ star ∧ head ≠ any ∧ head ≠ needle[needleIndex]) :
    ¬ MatchesFrom star any pattern needle patternIndex needleIndex := by
  intro matched
  cases isHead : pattern[patternIndex]? with
  | none => exact absurd ((matchesFrom_end_iff isHead).1 matched) (Nat.not_le.2 more)
  | some head =>
    obtain ⟨notStar, notAny, notChar⟩ := noFit head isHead
    obtain ⟨_, fits, _⟩ := (matchesFrom_head_iff isHead notStar).1 matched
    exact fits.elim notAny notChar

end MatchesFrom

/-- How the place reached stands for the whole question. Before the first star the rest
has to match from here. Behind a star the pattern matches if the part behind the star
matches from where the star stopped or from further on, and every such match passes
through the place in the pattern that is reached now. -/
def Aligned (star any : α) (pattern needle : List α) (state : HostPatternMatchState) : Prop :=
  match state.starIndex with
  | none =>
      MatchesFrom star any pattern needle 0 0 ↔
        MatchesFrom star any pattern needle state.patternIndex state.needleIndex
  | some starIndex =>
      (MatchesFrom star any pattern needle 0 0 ↔
        ∃ taken, state.starNeedleIndex ≤ taken ∧ taken ≤ needle.length ∧
          MatchesFrom star any pattern needle (starIndex + 1) taken) ∧
      (∀ taken, taken ≤ needle.length →
        MatchesFrom star any pattern needle (starIndex + 1) taken →
        taken + (state.needleIndex - state.starNeedleIndex) ≤ needle.length ∧
          MatchesFrom star any pattern needle state.patternIndex
            (taken + (state.needleIndex - state.starNeedleIndex))) ∧
      (MatchesFrom star any pattern needle state.patternIndex state.needleIndex →
        MatchesFrom star any pattern needle (starIndex + 1) state.starNeedleIndex)

omit [DecidableEq α] in
theorem aligned_initial : Aligned star any pattern needle .initial := Iff.rfl

omit [DecidableEq α] in
/-- A star that was just met, or given one more character, has nothing behind it yet. -/
theorem aligned_behind_star {starIndex starNeedleIndex : Nat}
    (whole : MatchesFrom star any pattern needle 0 0 ↔
      ∃ taken, starNeedleIndex ≤ taken ∧ taken ≤ needle.length ∧
        MatchesFrom star any pattern needle (starIndex + 1) taken) :
    Aligned star any pattern needle
      { needleIndex := starNeedleIndex
        patternIndex := starIndex + 1
        starIndex := some starIndex
        starNeedleIndex := starNeedleIndex } := by
  refine ⟨whole, ?_, id⟩
  intro taken inside matched
  simp only [Nat.sub_self, Nat.add_zero]
  exact ⟨inside, matched⟩

omit [DecidableEq α] in
/-- A character taken keeps the alignment: it stands in every match through here. -/
theorem Aligned.take (aligned : Aligned star any pattern needle state)
    (starBefore : state.starNeedleIndex ≤ state.needleIndex) {head : α}
    (isHead : pattern[state.patternIndex]? = some head) (notStar : head ≠ star)
    (more : state.needleIndex < needle.length)
    (fits : head = any ∨ head = needle[state.needleIndex]) :
    Aligned star any pattern needle { state with
      needleIndex := state.needleIndex + 1
      patternIndex := state.patternIndex + 1 } := by
  have here : MatchesFrom star any pattern needle state.patternIndex state.needleIndex ↔
      MatchesFrom star any pattern needle (state.patternIndex + 1) (state.needleIndex + 1) := by
    rw [matchesFrom_head_iff isHead notStar]
    exact ⟨fun matched => matched.2.2, fun matched => ⟨more, fits, matched⟩⟩
  unfold Aligned at aligned ⊢
  dsimp only
  cases isStarIndex : state.starIndex with
  | none =>
    rw [isStarIndex] at aligned
    exact aligned.trans here
  | some starIndex =>
    rw [isStarIndex] at aligned
    obtain ⟨whole, forward, backward⟩ := aligned
    refine ⟨whole, ?_, fun matched => backward (here.2 matched)⟩
    intro taken inside matched
    obtain ⟨_, reached⟩ := forward taken inside matched
    obtain ⟨within, _, next⟩ := (matchesFrom_head_iff isHead notStar).1 reached
    have oneMore : taken + (state.needleIndex + 1 - state.starNeedleIndex) =
        taken + (state.needleIndex - state.starNeedleIndex) + 1 := by omega
    rw [oneMore]
    exact ⟨within, next⟩

omit [DecidableEq α] in
theorem Aligned.meetStar (aligned : Aligned star any pattern needle state)
    (bounded : Bounded pattern needle state) (isStar : pattern[state.patternIndex]? = some star) :
    Aligned star any pattern needle { state with
      patternIndex := state.patternIndex + 1
      starIndex := some state.patternIndex
      starNeedleIndex := state.needleIndex } := by
  have here := @matchesFrom_star_iff _ star any pattern needle _ state.needleIndex isStar
    bounded.needleInside
  have starBefore := bounded.starBefore
  apply aligned_behind_star
  unfold Aligned at aligned
  cases isStarIndex : state.starIndex with
  | none =>
    rw [isStarIndex] at aligned
    exact aligned.trans here
  | some starIndex =>
    rw [isStarIndex] at aligned
    obtain ⟨whole, forward, backward⟩ := aligned
    constructor
    · intro matched
      obtain ⟨taken, later, inside, matchedBehind⟩ := whole.1 matched
      obtain ⟨within, reached⟩ := forward taken inside matchedBehind
      obtain ⟨next, nextLater, nextInside, matchedNext⟩ :=
        (matchesFrom_star_iff isStar within).1 reached
      exact ⟨next, by omega, nextInside, matchedNext⟩
    · intro ahead
      exact whole.2 ⟨state.starNeedleIndex, le_refl _,
        le_trans starBefore bounded.needleInside, backward (here.2 ahead)⟩

omit [DecidableEq α] in
theorem Aligned.extendStar (aligned : Aligned star any pattern needle state)
    (bounded : Bounded pattern needle state) {starIndex : Nat}
    (isStarIndex : state.starIndex = some starIndex)
    (noMatch : ¬ MatchesFrom star any pattern needle state.patternIndex state.needleIndex) :
    Aligned star any pattern needle { state with
      needleIndex := state.starNeedleIndex + 1
      patternIndex := starIndex + 1
      starNeedleIndex := state.starNeedleIndex + 1 } := by
  have starBefore := bounded.starBefore
  unfold Aligned at aligned
  rw [isStarIndex] at aligned
  obtain ⟨whole, forward, _⟩ := aligned
  rw [isStarIndex]
  apply aligned_behind_star
  rw [whole]
  constructor
  · rintro ⟨taken, later, inside, matched⟩
    have further : taken ≠ state.starNeedleIndex := by
      rintro rfl
      have reached := (forward _ inside matched).2
      rw [Nat.add_sub_cancel' starBefore] at reached
      exact noMatch reached
    exact ⟨taken, by omega, inside, matched⟩
  · rintro ⟨taken, later, inside, matched⟩
    exact ⟨taken, Nat.le_of_succ_le later, inside, matched⟩

theorem Aligned.advance (apart : any ≠ star) (noStar : star ∉ needle)
    (aligned : Aligned star any pattern needle state) (bounded : Bounded pattern needle state)
    (more : state.needleIndex < needle.length)
    (advanced : advanceHostPatternMatch star any pattern needle state = some nextState) :
    Aligned star any pattern needle nextState := by
  rcases advance_cases more advanced with
    ⟨head, isHead, fits, rfl⟩ | ⟨isStar, rfl⟩ | ⟨noFit, starIndex, isStarIndex, rfl⟩
  · have notStar : head ≠ star := by
      rcases fits with isAny | isChar
      · rw [isAny]
        exact apart
      · rintro rfl
        rw [isChar] at noStar
        exact noStar (List.getElem_mem more)
    exact aligned.take bounded.starBefore isHead notStar more fits
  · exact aligned.meetStar bounded isStar
  · exact aligned.extendStar bounded isStarIndex (not_matchesFrom more noFit)

omit [DecidableEq α] in
theorem Aligned.atEnd (aligned : Aligned star any pattern needle state)
    (bounded : Bounded pattern needle state) (atEnd : needle.length ≤ state.needleIndex) :
    MatchesFrom star any pattern needle 0 0 ↔
      MatchesFrom star any pattern needle state.patternIndex state.needleIndex := by
  have starBefore := bounded.starBefore
  have inside := bounded.needleInside
  unfold Aligned at aligned
  cases isStarIndex : state.starIndex with
  | none =>
    rw [isStarIndex] at aligned
    exact aligned
  | some starIndex =>
    rw [isStarIndex] at aligned
    obtain ⟨whole, forward, backward⟩ := aligned
    rw [whole]
    constructor
    · rintro ⟨taken, later, takenInside, matched⟩
      obtain ⟨within, reached⟩ := forward taken takenInside matched
      have here : taken + (state.needleIndex - state.starNeedleIndex) = state.needleIndex := by
        omega
      rwa [here] at reached
    · intro matched
      exact ⟨state.starNeedleIndex, le_refl _, le_trans starBefore inside, backward matched⟩

/-- A run of the loop from an aligned state answers the whole question. -/
theorem LoopEnds.answer (apart : any ≠ star) (noStar : star ∉ needle)
    {result : Option HostPatternMatchState} (ends : LoopEnds star any pattern needle state result)
    (aligned : Aligned star any pattern needle state) (bounded : Bounded pattern needle state) :
    MatchesFrom star any pattern needle 0 0 ↔
      ∃ final, result = some final ∧
        GlobMatches star any (pattern.drop final.patternIndex) [] := by
  induction ends with
  | done atEnd =>
    rw [aligned.atEnd bounded atEnd, MatchesFrom, List.drop_eq_nil_of_le atEnd]
    simp only [Option.some.injEq, exists_eq_left']
  | mismatch more refused =>
    obtain ⟨noStarIndex, noFit⟩ := advance_none more refused
    unfold Aligned at aligned
    rw [noStarIndex] at aligned
    refine iff_of_false (fun matched => not_matchesFrom more noFit (aligned.1 matched)) ?_
    rintro ⟨final, isFinal, _⟩
    cases isFinal
  | round more advanced _ ih =>
    exact ih (aligned.advance apart noStar bounded more advanced)
      (bounded.advance more advanced)

/-- The matcher answers as the glob does. -/
theorem matchesHostPatternOver_iff (apart : any ≠ star) (noStar : star ∉ needle) :
    matchesHostPatternOver star any pattern needle = true ↔
      GlobMatches star any pattern needle := by
  have ends : LoopEnds star any pattern needle .initial _ :=
    loopEnds_matchNeedle bounded_initial roundsLeft_initial
  have answer := ends.answer apart noStar aligned_initial bounded_initial
  rw [MatchesFrom, List.drop_zero, List.drop_zero] at answer
  rw [answer, matchesHostPatternOver]
  cases matchNeedle star any pattern needle (matchFuel pattern needle) .initial with
  | none => simp only [Bool.false_eq_true, reduceCtorEq, false_and, exists_false]
  | some final =>
    simp only [Option.some.injEq, exists_eq_left', globMatches_empty_iff, List.all_eq_true,
      decide_eq_true_eq]

end Globs

/-! ### Pattern lists -/

section Lists

variable {platform : Platform} {needle : Text}

/-- A pattern without its negation matches, hashed or plain; the empty text between two
commas is no pattern. -/
def PatternMatches (platform : Platform) (pattern needle : Text) : Prop :=
  pattern ≠ [] ∧ (matchesHashedHost platform pattern needle = true ∨
    matchesPlainHostPattern platform pattern needle = true)

/-- One of the patterns that are negated, or that are not, matches. -/
def SomeMatches (platform : Platform) (negated : Bool) (patterns : List Text) (needle : Text) :
    Prop :=
  ∃ rawPattern ∈ patterns, (positivePattern rawPattern).1 = negated ∧
    PatternMatches platform (positivePattern rawPattern).2 needle

theorem someMatches_cons {negated : Bool} {rawPattern : Text} {patterns : List Text} :
    SomeMatches platform negated (rawPattern :: patterns) needle ↔
      ((positivePattern rawPattern).1 = negated ∧
        PatternMatches platform (positivePattern rawPattern).2 needle) ∨
      SomeMatches platform negated patterns needle := by
  simp only [SomeMatches, List.mem_cons, exists_eq_or_imp]

theorem not_someMatches_nil {negated : Bool} :
    ¬ SomeMatches platform negated [] needle := by
  rintro ⟨rawPattern, member, _⟩
  exact absurd member List.not_mem_nil

theorem matchesPatternsFrom_iff (matchedPositivePattern : Bool) (patterns : List Text) :
    matchesPatternsFrom platform needle matchedPositivePattern patterns = true ↔
      (matchedPositivePattern = true ∨ SomeMatches platform false patterns needle) ∧
        ¬ SomeMatches platform true patterns needle := by
  induction patterns generalizing matchedPositivePattern with
  | nil =>
    rw [matchesPatternsFrom, or_iff_left not_someMatches_nil, and_iff_left not_someMatches_nil]
  | cons rawPattern patterns ih =>
    rw [matchesPatternsFrom, someMatches_cons, someMatches_cons]
    generalize positivePattern rawPattern = split
    obtain ⟨negated, pattern⟩ := split
    dsimp only
    by_cases empty : pattern = []
    · have noMatch : ¬ PatternMatches platform pattern needle := fun matched => matched.1 empty
      rw [if_pos empty, ih]
      simp only [noMatch, and_false, false_or]
    · rw [if_neg empty]
      split
      · rename_i found
        have matched : PatternMatches platform pattern needle :=
          ⟨empty, (Bool.or_eq_true _ _).mp found⟩
        cases negated with
        | true =>
          simp only [if_true, Bool.false_eq_true, matched, and_self, true_or, not_true_eq_false,
            and_false]
        | false =>
          simp only [Bool.false_eq_true, if_false, ih, matched, and_self,
            true_or, or_true, true_and, false_and, false_or]
      · rename_i notFound
        have noMatch : ¬ PatternMatches platform pattern needle := fun matched =>
          notFound ((Bool.or_eq_true _ _).mpr matched.2)
        rw [ih]
        simp only [noMatch, and_false, false_or]

/-- An entry matches when a pattern does and no negated one does, in any order. -/
theorem matchesKnownHostEntry_iff {entry : KnownHostEntry} :
    matchesKnownHostEntry platform entry needle = true ↔
      SomeMatches platform false entry.hostPatterns needle ∧
        ¬ SomeMatches platform true entry.hostPatterns needle := by
  rw [matchesKnownHostEntry, matchesKnownHostPatternList, matchesPatternsFrom_iff]
  simp only [Bool.false_eq_true, false_or]

end Lists

/-- Matching a host pattern ends and answers as the glob does, on code units and on
characters, and an entry of known_hosts matches when one of its patterns does and none
of its negated patterns does. -/
theorem hostPatterns_exact (platform : Platform) :
    (∀ pattern needle : Masking.CodeUnits, Masking.codeUnit '*' ∉ needle →
      LoopEnds (Masking.codeUnit '*') (Masking.codeUnit '?') pattern needle .initial
        (matchNeedle (Masking.codeUnit '*') (Masking.codeUnit '?') pattern needle
          (matchFuel pattern needle) .initial) ∧
      (matchesHostPatternOver (Masking.codeUnit '*') (Masking.codeUnit '?') pattern needle = true ↔
        GlobMatches (Masking.codeUnit '*') (Masking.codeUnit '?') pattern needle)) ∧
    (∀ pattern needle : Text, '*' ∉ needle →
      (matchesHostPattern pattern needle = true ↔ GlobMatches '*' '?' pattern needle)) ∧
    ∀ (entry : KnownHostEntry) (needle : Text),
      matchesKnownHostEntry platform entry needle = true ↔
        SomeMatches platform false entry.hostPatterns needle ∧
          ¬ SomeMatches platform true entry.hostPatterns needle := by
  refine ⟨?_, ?_, fun entry needle => matchesKnownHostEntry_iff⟩
  · intro pattern needle noStar
    exact ⟨loopEnds_matchNeedle bounded_initial roundsLeft_initial,
      matchesHostPatternOver_iff (by decide) noStar⟩
  · intro pattern needle noStar
    exact matchesHostPatternOver_iff (by decide) noStar

/-- A pattern with two stars, where the first match of the part between them fails. -/
theorem hostPatterns_exact_backtracking :
    Masking.codeUnit '*' ∉ Masking.codeUnits "a.b.c.example" ∧
      (matchesHostPatternOver (Masking.codeUnit '*') (Masking.codeUnit '?')
          (Masking.codeUnits "*.?.e*") (Masking.codeUnits "a.b.c.example") = true ↔
        GlobMatches (Masking.codeUnit '*') (Masking.codeUnit '?') (Masking.codeUnits "*.?.e*")
          (Masking.codeUnits "a.b.c.example")) :=
  ⟨by decide, ((hostPatterns_exact ⟨id, fun _ _ => [], fun _ => []⟩).1 _ _ (by decide)).2⟩

end Paratix.Keys
