/-
Module: Paratix.Upgrade.EntriesRewritten
Purpose: The condition on a file under which the rewriter touches nothing but suites, and what it
  makes of the lines of a one-line sources file.
Main exports: IsReleaseSuite, aptLine_iff
-/
import Paratix.Foundation.AssocList
import Paratix.Upgrade.AptReading
import Paratix.Upgrade.SuitePatterns

namespace Paratix.Upgrade

open Foundation Archive

/-! ### What is meant -/

/-- A suite of the release, itself or one that is derived from it. -/
def IsReleaseSuite (codename suite : Text) : Prop :=
  ∃ suffix ∈ [] :: RELEASE_DERIVED_SUITE_SUFFIXES, suite = codename ++ suffix

instance (codename suite : Text) : Decidable (IsReleaseSuite codename suite) :=
  inferInstanceAs (Decidable (∃ suffix ∈ _, _))

/-- `value.match(/\S+/g)`; the word read so far is in reverse. -/
def wordsFrom : Text → Text → List Text
  | word, [] => if word = [] then [] else [word.reverse]
  | word, char :: rest =>
      if isJsSpace char then (if word = [] then [] else [word.reverse]) ++ wordsFrom [] rest
      else wordsFrom (char :: word) rest

/-- The suites of a release become those of another. -/
abbrev renameSuite (current target suite : Text) : Text :=
  rewriteReleaseSuite suite current target

section Conditions

variable (current target : Text)

/-- No text behind a line terminator that the grammar does not know reads as an entry of the
release. -/
def QuietEntries (atStart : Bool) (value : Text) : Prop :=
  ∀ start front suite after,
    IsLineStart (listPattern fun suite =>
      rewriteReleaseSuite suite current target) atStart value start →
    matchAptListSuite start = some (front, suite, after) → ¬IsReleaseSuite current suite

/-- No text behind a line terminator that the grammar does not know reads as another field of
suites, nor as one with suites of the release. -/
def QuietFields (value : Text) : Prop :=
  ∀ start suites after,
    IsLineStart (deb822Pattern fun suite =>
      rewriteReleaseSuite suite current target) true value start →
    matchSuitesLine start = some (suites, after) →
      SUITES_FIELD <+: start ∧ ∀ word ∈ wordsFrom [] suites, ¬IsReleaseSuite current word

/-- The word that stands where the pattern expects the suite, if there are blanks in the address. -/
def strayWord (uri : Text) : Text :=
  ((uri.dropWhile isFieldCharacter).dropWhile isBlank).takeWhile isFieldCharacter

/-- An address has no blanks, or no suite of the release stands behind it or in it; a comment that
follows the suite at once is read with it. -/
def AptLine.RewritesAlone : AptLine → Prop
  | .entry source =>
      if source.uri.all isFieldCharacter then
        QuietEntries current target
          ((source.tail.takeWhile isFieldCharacter).getLast?.any isLineTerminator)
          (source.tail.dropWhile isFieldCharacter)
      else
        ¬IsReleaseSuite current (strayWord source.uri) ∧
          ¬IsReleaseSuite current source.suite ∧
          QuietEntries current target false source.tail
  | line => QuietEntries current target true line.render

/-- The field is spelled with one capital letter, and no suite of the release stands on a
continuation line. -/
def Deb822Line.RewritesAlone : Deb822Line → Prop
  | .suites name _ => name = text "Suites"
  | .moreSuites pieces => ∀ name, .word name ∈ pieces → ¬IsReleaseSuite current name
  | line => QuietFields current target line.render

def AptSourcesFile.RewritesAlone : AptSourcesFile → Prop
  | .oneLine lines => ∀ line ∈ lines, line.RewritesAlone current target
  | .deb822 lines => ∀ line ∈ lines, line.RewritesAlone current target

end Conditions

/-! ### Renamed suites -/

section Renaming

variable {current target : Text}

theorem rewriteReleaseSuite_cases (suite current target : Text) : (¬IsReleaseSuite current suite ∧
        rewriteReleaseSuite suite current target = suite) ∨
      ∃ suffix ∈ [] :: RELEASE_DERIVED_SUITE_SUFFIXES, suite = current ++ suffix ∧
        rewriteReleaseSuite suite current target = target ++ suffix := by
  rw [rewriteReleaseSuite]
  split
  · next isCurrent =>
    exact .inr ⟨[], .head _, by rw [List.append_nil, isCurrent], (List.append_nil _).symm⟩
  · next other =>
    split
    · next suffix found =>
      have isSuffix := List.find?_some found
      rw [decide_eq_true_eq] at isSuffix
      exact .inr ⟨suffix, .tail _ (List.mem_of_find?_eq_some found), isSuffix, rfl⟩
    · next missing =>
      refine .inl ⟨?_, rfl⟩
      rintro ⟨suffix, mem, isSuite⟩
      rcases List.mem_cons.1 mem with rfl | derived
      · exact other (isSuite.trans (List.append_nil _))
      · exact List.find?_eq_none.1 missing suffix derived (decide_eq_true isSuite)

theorem supported_mem (supported : isSupportedDebianUpgradePath current target = true) :
    (target, current) ∈ DEBIAN_SUPPORTED_PREDECESSORS := by
  rw [isSupportedDebianUpgradePath, decide_eq_true_eq] at supported
  exact mem_of_lookup supported

variable (supported : isSupportedDebianUpgradePath current target = true)

include supported

theorem codenames_apart :
    ¬current <+: target ∧ ¬target <+: current := by
  have each : ∀ pair ∈ DEBIAN_SUPPORTED_PREDECESSORS,
      ¬pair.2 <+: pair.1 ∧ ¬pair.1 <+: pair.2 := by decide
  exact each _ (supported_mem supported)

theorem target_suite_word : ∀ suffix ∈ [] :: RELEASE_DERIVED_SUITE_SUFFIXES,
    target ++ suffix ≠ [] ∧ (target ++ suffix).all isEntryCharacter = true ∧
      (target ++ suffix).getLast? ≠ some '/' := by
  have each : ∀ pair ∈ DEBIAN_SUPPORTED_PREDECESSORS,
      ∀ suffix ∈ [] :: RELEASE_DERIVED_SUITE_SUFFIXES,
        pair.1 ++ suffix ≠ [] ∧ (pair.1 ++ suffix).all isEntryCharacter = true ∧
          (pair.1 ++ suffix).getLast? ≠ some '/' := by decide
  exact each _ (supported_mem supported)

theorem current_suite_plain : ∀ suffix ∈ [] :: RELEASE_DERIVED_SUITE_SUFFIXES,
    '/' ∉ current ++ suffix ∧ current ++ suffix ≠ [] := by
  have each : ∀ pair ∈ DEBIAN_SUPPORTED_PREDECESSORS,
      ∀ suffix ∈ [] :: RELEASE_DERIVED_SUITE_SUFFIXES,
        '/' ∉ pair.2 ++ suffix ∧ pair.2 ++ suffix ≠ [] := by decide
  exact each _ (supported_mem supported)

/-- A renamed suite differs from what it was before either ends. -/
theorem rewriteReleaseSuite_apart {suite rest others : Text}
    (same : rewriteReleaseSuite suite current target ++ rest = suite ++ others) :
    ¬IsReleaseSuite current suite := by
  rintro ⟨suffix, mem, isSuite⟩
  obtain ⟨notBefore, notBehind⟩ := codenames_apart supported
  rcases rewriteReleaseSuite_cases suite current target with
    ⟨notRelease, -⟩ | ⟨own, ownMem, isOwn, renamed⟩
  · exact notRelease ⟨suffix, mem, isSuite⟩
  · rw [renamed, isOwn, List.append_assoc, List.append_assoc] at same
    have reaches : target <+: current ++ (own ++ others) := ⟨_, same⟩
    rcases List.prefix_or_prefix_of_prefix reaches (List.prefix_append _ _) with before | behind
    · exact notBehind before
    · exact notBefore behind

omit supported in
theorem rewriteReleaseSuite_of_other {suite : Text} (other : ¬IsReleaseSuite current suite) :
    rewriteReleaseSuite suite current target = suite := by
  rcases rewriteReleaseSuite_cases suite current target with
    ⟨-, same⟩ | ⟨suffix, mem, isSuite, -⟩
  · exact same
  · exact absurd ⟨suffix, mem, isSuite⟩ other

theorem rewriteReleaseSuite_eq_iff {suite : Text} :
    rewriteReleaseSuite suite current target = suite ↔
      ¬IsReleaseSuite current suite := by
  constructor
  · intro same
    exact @rewriteReleaseSuite_apart _ _ supported suite [] [] (by rw [same])
  · exact rewriteReleaseSuite_of_other

theorem rewritesApart_rewriteReleaseSuite :
    RewritesApart fun suite => rewriteReleaseSuite suite current target where
  apart suite rest others same :=
    rewriteReleaseSuite_of_other (rewriteReleaseSuite_apart supported same)
  noNewline suite oneLine := by
    rcases rewriteReleaseSuite_cases suite current target with
      ⟨-, same⟩ | ⟨suffix, mem, -, renamed⟩
    · rwa [same]
    · rw [renamed]
      exact newline_notMem_of_all rfl (target_suite_word supported suffix mem).2.1

theorem suiteConversion_rewriteReleaseSuite :
    SuiteConversion fun suite => rewriteReleaseSuite suite current target where
  word isMember memberMem suite nonempty members := by
    rcases rewriteReleaseSuite_cases suite current target with
      ⟨-, same⟩ | ⟨suffix, mem, -, renamed⟩
    · simp only [same]
      exact ⟨nonempty, members⟩
    · obtain ⟨written, entry, -⟩ := target_suite_word supported suffix mem
      simp only [renamed]
      refine ⟨written, ?_⟩
      rcases List.mem_pair.1 memberMem with rfl | rfl
      · rw [List.all_eq_true] at entry ⊢
        exact fun char inSuite => (Bool.and_eq_true_iff.1 (entry char inSuite)).1
      · exact entry
  path suite := by
    rcases rewriteReleaseSuite_cases suite current target with
      ⟨-, same⟩ | ⟨suffix, mem, isSuite, renamed⟩
    · simp only [same]
    · simp only [renamed]
      apply iff_of_false (target_suite_word supported suffix mem).2.2
      intro slash
      rw [isSuite] at slash
      exact (current_suite_plain supported suffix mem).1 (List.mem_of_getLast? slash)

theorem rewriteReleaseSuite_idem (suite : Text) :
    rewriteReleaseSuite (rewriteReleaseSuite suite current target) current target =
      rewriteReleaseSuite suite current target := by
  rw [rewriteReleaseSuite_eq_iff supported]
  rcases rewriteReleaseSuite_cases suite current target with
    ⟨other, same⟩ | ⟨suffix, mem, -, renamed⟩
  · rwa [same]
  · rw [renamed]
    rintro ⟨own, -, isCurrent⟩
    obtain ⟨notBefore, notBehind⟩ := codenames_apart supported
    have reaches : target <+: current ++ own := ⟨_, isCurrent⟩
    rcases List.prefix_or_prefix_of_prefix reaches (List.prefix_append _ _) with before | behind
    · exact notBehind before
    · exact notBefore behind

/-! ### Hidden line starts -/

theorem quietFrom_listPattern_iff {atStart : Bool} {value : Text} :
    QuietFrom (listPattern fun suite => rewriteReleaseSuite suite current target) atStart value ↔
      QuietEntries current target atStart value := by
  constructor
  · intro quiet start front suite after isStart found
    have isMatch : listPattern (fun suite =>
        rewriteReleaseSuite suite current target) start =
        some (front ++ rewriteReleaseSuite suite current target, suite.getLast?, after) := by
      rw [listPattern, found]
      rfl
    have same := quiet _ _ _ _ isStart isMatch
    rw [(matchAptListSuite_some found).1, List.append_assoc, List.append_cancel_left_eq] at same
    exact rewriteReleaseSuite_apart supported same.symm
  · intro quiet start replacement last after isStart isMatch
    obtain ⟨front, suite, found, rfl, -⟩ := listPattern_some isMatch
    rw [rewriteReleaseSuite_of_other (quiet _ _ _ _ isStart found), List.append_assoc]
    exact (matchAptListSuite_some found).1

theorem rewriteWordsFrom_eq_iff (word value : Text) :
    rewriteWordsFrom (fun suite => rewriteReleaseSuite suite current target)
        word value = word.reverse ++ value ↔
      ∀ name ∈ wordsFrom word value, ¬IsReleaseSuite current name := by
  have rewrites := rewritesApart_rewriteReleaseSuite supported
  have front : ∀ word rest others : Text,
      (if word = [] then [] else
          rewriteReleaseSuite word.reverse current target) ++ rest =
        word.reverse ++ others ↔
      (∀ name ∈ (if word = [] then [] else [word.reverse]),
        ¬IsReleaseSuite current name) ∧ rest = others := by
    intro word rest others
    by_cases isEmpty : word = []
    · rw [if_pos isEmpty, if_pos isEmpty, isEmpty]
      exact ⟨fun same => ⟨fun name mem => absurd mem List.not_mem_nil, same⟩, fun both => both.2⟩
    · rw [if_neg isEmpty, if_neg isEmpty, List.forall_mem_singleton]
      constructor
      · intro same
        have other := rewriteReleaseSuite_apart supported same
        rw [rewriteReleaseSuite_of_other other] at same
        exact ⟨other, List.append_cancel_left same⟩
      · rintro ⟨other, rfl⟩
        rw [rewriteReleaseSuite_of_other other]
  induction value generalizing word with
  | nil =>
    rw [rewriteWordsFrom, wordsFrom]
    have whole := front word [] []
    rw [List.append_nil, and_iff_left rfl] at whole
    exact whole
  | cons char value ih =>
    rw [rewriteWordsFrom, wordsFrom]
    split
    · rw [front, List.cons_inj_right, List.forall_mem_append]
      exact and_congr_right fun _ => ih []
    · have longer : (char :: word).reverse ++ value = word.reverse ++ char :: value := by
        rw [List.reverse_cons, List.append_assoc]
        rfl
      rw [← longer]
      exact ih (char :: word)

theorem quietFrom_deb822Pattern_iff {value : Text} :
    QuietFrom (deb822Pattern fun suite => rewriteReleaseSuite suite current target) true value ↔
      QuietFields current target value := by
  constructor
  · intro quiet start suites after isStart found
    obtain ⟨field, folds, split, -⟩ := matchSuitesLine_some found
    have isMatch : deb822Pattern (fun suite =>
        rewriteReleaseSuite suite current target) start =
        some (SUITES_FIELD ++ rewriteWords (fun suite =>
          rewriteReleaseSuite suite current target) suites,
          (text ":" ++ suites).getLast?, after) := by
      rw [deb822Pattern, found]
      rfl
    have same := quiet _ _ _ _ isStart isMatch
    rw [List.append_assoc] at same
    refine ⟨⟨_, same.symm⟩, ?_⟩
    rw [split] at same
    have words := (List.append_inj same folds.length).2
    exact (rewriteWordsFrom_eq_iff supported [] suites).1 (List.append_cancel_right words).symm
  · intro quiet start replacement last after isStart isMatch
    obtain ⟨suites, found, rfl, -⟩ := deb822Pattern_some isMatch
    obtain ⟨field, folds, split, -⟩ := matchSuitesLine_some found
    obtain ⟨⟨behind, spelled⟩, others⟩ := quiet _ _ _ isStart found
    rw [split] at spelled
    have isField := (List.append_inj spelled folds.length.symm).1
    have words : rewriteWords (fun suite =>
        rewriteReleaseSuite suite current target) suites = suites :=
      (rewriteWordsFrom_eq_iff supported [] suites).2 others
    rw [words, isField, List.append_assoc]
    exact split

end Renaming

section Renaming

variable {current target : Text}

variable (supported : isSupportedDebianUpgradePath current target = true)

include supported

/-! ### Entries -/

omit supported in
theorem isFieldCharacter_of_isEntryCharacter {char : Char} (inWord : isEntryCharacter char = true) :
    isFieldCharacter char = true := by
  have noSpace : isJsSpace char = false := by
    rw [isEntryCharacter, Bool.and_eq_true, isSuiteCharacter, Bool.not_eq_true'] at inWord
    exact inWord.1
  rw [isFieldCharacter, not_isBlank_of_isEntryCharacter inWord, Bool.and_eq_true,
    Bool.and_eq_true, decide_eq_true_eq, decide_eq_true_eq]
  refine ⟨⟨rfl, ?_⟩, ?_⟩
  · rintro rfl
    exact Bool.noConfusion noSpace
  · rintro rfl
    exact Bool.noConfusion noSpace

omit supported in
theorem not_isFieldCharacter_of_isBlank {char : Char} (blank : isBlank char = true) :
    isFieldCharacter char = false := by
  rw [isFieldCharacter, blank]
  rfl

omit supported in
theorem isJsSpace_of_isLineTerminator {char : Char} (ends : isLineTerminator char = true) :
    isJsSpace char = true := by
  simp only [isLineTerminator, isJsSpace, Bool.or_eq_true, Bool.and_eq_true,
    decide_eq_true_eq] at ends ⊢
  omega

omit supported in
theorem not_isLineTerminator_of_isSuiteCharacter {char : Char}
    (inWord : isSuiteCharacter char = true) : isLineTerminator char = false := by
  by_contra ends
  rw [isSuiteCharacter, isJsSpace_of_isLineTerminator (Bool.not_eq_false _ ▸ ends)] at inWord
  exact Bool.false_ne_true inWord

omit supported in
theorem not_isLineTerminator_of_isBlank {char : Char} (blank : isBlank char = true) :
    isLineTerminator char = false := by
  rw [isBlank, Bool.or_eq_true, decide_eq_true_eq, decide_eq_true_eq] at blank
  rcases blank with rfl | rfl
  · rfl
  · rfl

omit supported in
theorem not_isLineTerminator_of_isEntryCharacter {char : Char}
    (inWord : isEntryCharacter char = true) : isLineTerminator char = false :=
  not_isLineTerminator_of_isSuiteCharacter (Bool.and_eq_true_iff.1 inWord).1

omit supported in
/-- A type is read with the blanks behind it. -/
theorem matchKeyword_type {source : AptEntry} (valid : source.WellFormed) {rest : Text}
    (ends : EndsRun isBlank rest) : matchKeyword (source.type ++ (source.typeGap ++ rest)) =
      some (source.type ++ source.typeGap, rest) := by
  obtain ⟨gapNonempty, gapBlank⟩ := isGap_spec valid.typeGap
  have blanks : spanSome isBlank (source.typeGap ++ rest) = some (source.typeGap, rest) :=
    spanSome_append gapNonempty (List.all_eq_true.1 gapBlank) ends
  have read : ∀ keyword : Text, matchKeywordAs keyword (keyword ++ (source.typeGap ++ rest)) =
      some (keyword ++ source.typeGap, rest) := by
    intro keyword
    rw [matchKeywordAs, if_pos (List.isPrefixOf_iff_prefix.2 (List.prefix_append _ _)),
      List.drop_left, blanks]
    rfl
  rw [matchKeyword_eq]
  rcases List.mem_pair.1 valid.type with isDeb | isDebSrc
  · rw [isDeb, read]
    rfl
  · have notDeb : matchKeywordAs (text "deb") (text "deb-src" ++ (source.typeGap ++ rest)) =
        none := rfl
    rw [isDebSrc, notDeb, read]
    rfl

omit supported in
theorem matchOptions_entry {source : AptEntry} (valid : source.WellFormed) (rest : Text) :
    matchOptions (source.renderOptions ++ (source.uri ++ rest)) =
      source.options.map fun _ => (source.renderOptions, source.uri ++ rest) := by
  have isUri := isUri_spec valid.uri
  cases hasOptions : source.options with
  | none =>
    rw [renderOptions_none hasOptions]
    apply matchOptions_none
    rw [List.head?_append_of_ne_nil _ isUri.nonempty]
    exact isUri.noBracket
  | some options =>
    obtain ⟨options, gap⟩ := options
    obtain ⟨inside, isGap⟩ := valid.options _ _ hasOptions
    obtain ⟨gapNonempty, gapBlank⟩ := isGap_spec isGap
    have members : ∀ char ∈ options, isInOptions char = true := by
      intro char mem
      have member := List.all_eq_true.1 inside char mem
      simp only [isInOptions, Bool.and_eq_true, decide_eq_true_eq]
      rw [Bool.or_eq_true, Bool.and_eq_true, decide_eq_true_eq] at member
      rcases member with blank | ⟨inWord, noBracket⟩
      · rw [isBlank, Bool.or_eq_true, decide_eq_true_eq, decide_eq_true_eq] at blank
        rcases blank with rfl | rfl
        · decide
        · decide
      · have inField := isFieldCharacter_of_isEntryCharacter inWord
        rw [isFieldCharacter, Bool.and_eq_true, Bool.and_eq_true, decide_eq_true_eq,
          decide_eq_true_eq] at inField
        exact ⟨⟨noBracket, inField.1.2⟩, inField.2⟩
    have closes : isInOptions ']' = false := rfl
    have bare : source.renderOptions = '[' :: (options ++ ']' :: gap) := by
      have whole := renderOptions_some hasOptions []
      rwa [List.append_nil, List.append_nil] at whole
    have blanks : spanSome isBlank (gap ++ (source.uri ++ rest)) = some (gap, source.uri ++ rest) :=
      spanSome_append gapNonempty (List.all_eq_true.1 gapBlank)
        (endsRun_append isUri.nonempty isUri.head_notBlank)
    rw [renderOptions_some hasOptions, matchOptions_bracket, takeWhile_line closes,
      dropWhile_line closes, List.takeWhile_eq_self_iff.2 members,
      List.dropWhile_eq_nil_iff.2 members, List.nil_append, List.head?_cons, if_pos rfl,
      List.tail_cons, blanks, bare]
    rfl

omit supported in
/-- The suite of an entry is what the pattern finds behind its options. -/
theorem matchAptListSuite_entry {source : AptEntry} (valid : source.WellFormed)
    {front suite after : Text}
    (found : matchUriAndSuite (source.uri ++ (source.uriGap ++ (source.suite ++ source.tail))) =
      some (front, suite, after)) :
    matchAptListSuite source.render =
      some (source.indent ++ (source.type ++ source.typeGap) ++ (source.renderOptions ++ front),
        suite, after) := by
  have indented : source.render.takeWhile isBlank = source.indent := by
    rw [AptEntry.render_eq]
    exact takeWhile_run valid.indent (endsRun_word valid.type_spec.1 valid.type_spec.2 _)
  rw [matchAptListSuite, indented, valid.dropWhile_indent,
    matchKeyword_type valid (endsRun_options valid _)]
  simp only [matchOptions_entry valid]
  cases hasOptions : source.options with
  | none =>
    have bare : source.renderOptions = [] := by
      have whole := renderOptions_none hasOptions []
      rwa [List.append_nil] at whole
    simp only [Option.map_none, Option.none_or, bare, List.nil_append, found, Option.map_some]
  | some options =>
    simp only [Option.map_some, found, Option.some_or]

omit supported in
theorem spanSome_gap {gap rest : Text} (valid : isGap gap = true) (ends : EndsRun isBlank rest) :
    spanSome isBlank (gap ++ rest) = some (gap, rest) :=
  spanSome_append (isGap_spec valid).1 (List.all_eq_true.1 (isGap_spec valid).2) ends

omit supported in
theorem endsRun_field_gap {gap : Text} (valid : isGap gap = true) (rest : Text) :
    EndsRun isFieldCharacter (gap ++ rest) := by
  apply endsRun_append (isGap_spec valid).1
  intro char isHead
  exact not_isFieldCharacter_of_isBlank
    (List.all_eq_true.1 (isGap_spec valid).2 char (List.mem_of_head? isHead))

omit supported in
theorem endsRun_dropWhile (isMember : Char → Bool) (value : Text) :
    EndsRun isMember (value.dropWhile isMember) := by
  intro char isHead
  have stops := List.head?_dropWhile_not isMember value
  rw [isHead] at stops
  simpa using stops

omit supported in
/-- Behind an address without blanks the pattern finds the suite, with a comment that follows it at
once. -/
theorem matchUriAndSuite_plain {source : AptEntry} (valid : source.WellFormed)
    (plain : source.uri.all isFieldCharacter = true) :
    matchUriAndSuite (source.uri ++ (source.uriGap ++ (source.suite ++ source.tail))) =
      some (source.uri ++ source.uriGap, source.suite ++ source.tail.takeWhile isFieldCharacter,
        source.tail.dropWhile isFieldCharacter) := by
  have suiteField : ∀ char ∈ source.suite, isFieldCharacter char = true := fun char mem =>
    isFieldCharacter_of_isEntryCharacter (List.all_eq_true.1 valid.suite char mem)
  have uriSpan := spanSome_append (isUri_spec valid.uri).nonempty (List.all_eq_true.1 plain)
    (endsRun_field_gap valid.uriGap (source.suite ++ source.tail))
  have gapSpan := spanSome_gap valid.uriGap
    (endsRun_word valid.suiteNonempty valid.suite source.tail)
  have suiteSpan : spanSome isFieldCharacter (source.suite ++ source.tail) =
      some (source.suite ++ source.tail.takeWhile isFieldCharacter,
        source.tail.dropWhile isFieldCharacter) := by
    have split : source.suite ++ source.tail =
        (source.suite ++ source.tail.takeWhile isFieldCharacter) ++
          source.tail.dropWhile isFieldCharacter := by
      rw [List.append_assoc, List.takeWhile_append_dropWhile]
    rw [split]
    apply spanSome_append
    · exact List.append_ne_nil_of_left_ne_nil valid.suiteNonempty _
    · rw [List.forall_mem_append]
      exact ⟨suiteField, fun char mem => List.mem_takeWhile_imp mem⟩
    · exact endsRun_dropWhile isFieldCharacter source.tail
  simp only [matchUriAndSuite, uriSpan, gapSpan, suiteSpan, Option.map_some]

/-- The parts of an address with blanks, as the pattern reads them. -/
structure UriParts (uri first gap stray rest : Text) : Prop where
  split : uri = first ++ (gap ++ (stray ++ rest))
  plain : first.all isFieldCharacter = true
  firstNonempty : first ≠ []
  isGap : isGap gap = true
  strayNonempty : stray ≠ []
  members : stray.all isEntryCharacter = true
  isStray : stray = strayWord uri
  ends : EndsRun isFieldCharacter rest

omit supported in
theorem foldlM_bracketStep_blank {gap : Text} (blank : gap.all isBlank = true) {inside : Bool}
    {state : Bool} (closed : gap.foldlM bracketStep inside = some state) :
    gap = [] ∨ inside = true ∧ state = true := by
  induction gap generalizing inside with
  | nil => exact .inl rfl
  | cons char gap ih =>
    rw [List.all_cons, Bool.and_eq_true] at blank
    rw [List.foldlM_cons] at closed
    cases inside with
    | false =>
      rw [bracketStep_blank blank.1] at closed
      cases closed
    | true =>
      have stays : bracketStep true char = some true := by
        have isBlankChar := blank.1
        rw [isBlank, Bool.or_eq_true, decide_eq_true_eq, decide_eq_true_eq] at isBlankChar
        rcases isBlankChar with rfl | rfl
        · rfl
        · rfl
      rw [stays] at closed
      rcases ih blank.2 closed with isEmpty | ⟨-, isTrue⟩
      · subst isEmpty
        exact .inr ⟨rfl, (Option.some.inj closed).symm⟩
      · exact .inr ⟨rfl, isTrue⟩

omit supported in
theorem exists_uriParts {uri : Text} (valid : IsUri uri)
    (notPlain : uri.all isFieldCharacter = false) :
    ∃ first gap stray rest, UriParts uri first gap stray rest := by
  have inUri : ∀ char ∈ uri, isFieldCharacter char = false → isBlank char = true := by
    intro char mem notField
    apply (valid.members char mem).resolve_right
    intro inWord
    rw [isFieldCharacter_of_isEntryCharacter inWord] at notField
    exact Bool.noConfusion notField
  have wordOf : ∀ char ∈ uri, isFieldCharacter char = true → isEntryCharacter char = true := by
    intro char mem inField
    apply (valid.members char mem).resolve_left
    intro blank
    rw [not_isFieldCharacter_of_isBlank blank] at inField
    exact Bool.noConfusion inField
  have split := (@List.takeWhile_append_dropWhile _ isFieldCharacter uri).symm
  generalize behindEq : uri.dropWhile isFieldCharacter = behind at split
  have behindNonempty : behind ≠ [] := by
    intro isEmpty
    rw [isEmpty, List.dropWhile_eq_nil_iff] at behindEq
    rw [List.all_eq_true.2 behindEq] at notPlain
    exact Bool.noConfusion notPlain
  have behindIn : ∀ char ∈ behind, char ∈ uri := fun char mem => split ▸ List.mem_append_right _ mem
  have behindEnds : EndsRun isFieldCharacter behind :=
    behindEq ▸ endsRun_dropWhile isFieldCharacter uri
  have blankHead : ∀ char, behind.head? = some char → isBlank char = true := fun char isHead =>
    inUri char (behindIn char (List.mem_of_head? isHead)) (behindEnds char isHead)
  have behindSplit := (@List.takeWhile_append_dropWhile _ isBlank behind).symm
  generalize furtherEq : behind.dropWhile isBlank = further at behindSplit
  have furtherEnds : EndsRun isBlank further := furtherEq ▸ endsRun_dropWhile isBlank behind
  have furtherIn : ∀ char ∈ further, char ∈ uri :=
    fun char mem => behindIn char (behindSplit ▸ List.mem_append_right _ mem)
  have gapNonempty : behind.takeWhile isBlank ≠ [] := by
    obtain ⟨head, tail, isBehind⟩ := List.exists_cons_of_ne_nil behindNonempty
    rw [isBehind, List.takeWhile_cons_of_pos (blankHead head (by rw [isBehind]; rfl))]
    exact List.cons_ne_nil _ _
  have gapBlank : (behind.takeWhile isBlank).all isBlank = true :=
    List.all_eq_true.2 fun char mem => List.mem_takeWhile_imp mem
  have furtherNonempty : further ≠ [] := by
    intro isEmpty
    rw [isEmpty, List.append_nil] at behindSplit
    have closed := valid.closed
    rw [split, List.foldlM_append] at closed
    obtain ⟨state, -, closed⟩ := Option.bind_eq_some_iff.1 closed
    rw [behindSplit] at closed
    rcases foldlM_bracketStep_blank gapBlank closed with noGap | ⟨-, isTrue⟩
    · exact gapNonempty noGap
    · exact Bool.false_ne_true isTrue
  refine ⟨uri.takeWhile isFieldCharacter, behind.takeWhile isBlank,
    further.takeWhile isFieldCharacter, further.dropWhile isFieldCharacter, ?_⟩
  constructor
  · rw [List.takeWhile_append_dropWhile, ← behindSplit]
    exact split
  · exact List.all_eq_true.2 fun char mem => List.mem_takeWhile_imp mem
  · intro isEmpty
    rw [isEmpty, List.nil_append] at split
    obtain ⟨head, tail, isBehind⟩ := List.exists_cons_of_ne_nil behindNonempty
    have isHead : behind.head? = some head := by rw [isBehind]; rfl
    have notBlank := valid.head_notBlank head (split ▸ isHead)
    rw [blankHead head isHead] at notBlank
    exact Bool.noConfusion notBlank
  · rw [isGap, gapBlank, decide_eq_true gapNonempty]
    rfl
  · obtain ⟨head, tail, isFurther⟩ := List.exists_cons_of_ne_nil furtherNonempty
    have isHead : further.head? = some head := by rw [isFurther]; rfl
    have inField : isFieldCharacter head = true := by
      by_contra notField
      have blank := inUri head (furtherIn head (List.mem_of_head? isHead))
        (Bool.not_eq_true _ ▸ notField)
      rw [furtherEnds head isHead] at blank
      exact Bool.false_ne_true blank
    rw [isFurther, List.takeWhile_cons_of_pos inField]
    exact List.cons_ne_nil _ _
  · rw [List.all_eq_true]
    intro char mem
    exact wordOf char (furtherIn char ((List.takeWhile_sublist _).subset mem))
      (List.mem_takeWhile_imp mem)
  · rw [strayWord, behindEq, furtherEq]
  · exact endsRun_dropWhile isFieldCharacter further

omit supported in
/-- In an address with blanks the pattern finds a stray word. -/
theorem matchUriAndSuite_stray {uri first gap stray rest uriGap : Text}
    (parts : UriParts uri first gap stray rest) (validGap : Upgrade.isGap uriGap = true)
    (behind : Text) : matchUriAndSuite (uri ++ (uriGap ++ behind)) =
      some (first ++ gap, stray, rest ++ (uriGap ++ behind)) := by
  have firstSpan := spanSome_append parts.firstNonempty (List.all_eq_true.1 parts.plain)
    (endsRun_field_gap parts.isGap (stray ++ (rest ++ (uriGap ++ behind))))
  have gapSpan := spanSome_gap parts.isGap
    (endsRun_word parts.strayNonempty parts.members (rest ++ (uriGap ++ behind)))
  have strayField : ∀ char ∈ stray, isFieldCharacter char = true := fun char mem =>
    isFieldCharacter_of_isEntryCharacter (List.all_eq_true.1 parts.members char mem)
  have strayEnds : EndsRun isFieldCharacter (rest ++ (uriGap ++ behind)) := by
    by_cases isEmpty : rest = []
    · rw [isEmpty]
      exact endsRun_field_gap validGap behind
    · exact endsRun_append isEmpty parts.ends
  have straySpan := spanSome_append parts.strayNonempty strayField strayEnds
  rw [parts.split]
  simp only [List.append_assoc, matchUriAndSuite, firstSpan, gapSpan, straySpan, Option.map_some]

/-! ### Lines -/

omit supported in
theorem last_notTerminator {value : Text} (members : ∀ char ∈ value, isLineTerminator char = false) :
    value.getLast?.any isLineTerminator = false := by
  cases isLast : value.getLast? with
  | none => rfl
  | some last => exact members last (List.mem_of_getLast? isLast)

omit supported in
theorem suite_noTerminator {source : AptEntry} (valid : source.WellFormed) :
    ∀ char ∈ source.suite, isLineTerminator char = false := fun char mem =>
  not_isLineTerminator_of_isEntryCharacter (List.all_eq_true.1 valid.suite char mem)

omit supported in
theorem front_eq (source : AptEntry) :
    source.front = source.indent ++ (source.type ++ source.typeGap) ++
      (source.renderOptions ++ (source.uri ++ source.uriGap)) := by
  simp only [AptEntry.front, List.append_assoc]

omit supported in
/-- A comment follows the suite at once only if that is a path. -/
theorem glued_path {source : AptEntry} (valid : source.WellFormed)
    (glued : source.tail.takeWhile isFieldCharacter ≠ []) :
    source.suite.getLast? = some '/' := by
  apply valid.path.1
  cases areComponents : source.components with
  | nil => rfl
  | cons piece components =>
    have apart := valid.apart
    have pieces := valid.components
    rw [areComponents] at apart pieces
    cases piece with
    | word name => exact absurd apart.symm Bool.false_ne_true
    | blank char =>
      have notField := not_isFieldCharacter_of_isBlank (arePieces_blank pieces).1
      have isTail : source.tail = char :: (renderPieces components ++
          (source.comment.map ('#' :: ·)).getD []) := by
        rw [AptEntry.tail, areComponents]
        rfl
      rw [isTail, List.takeWhile_cons_of_neg (by rw [notField]; exact Bool.false_ne_true)] at glued
      exact absurd rfl glued

theorem notRelease_of_slash {suite : Text} (slash : '/' ∈ suite) :
    ¬IsReleaseSuite current suite := by
  rintro ⟨suffix, mem, rfl⟩
  exact (current_suite_plain supported suffix mem).1 slash

/-- A comment that follows the suite at once is kept behind it. -/
theorem renameSuite_glued {source : AptEntry} (valid : source.WellFormed) :
    renameSuite current target (source.suite ++ source.tail.takeWhile isFieldCharacter) =
      renameSuite current target source.suite ++
        source.tail.takeWhile isFieldCharacter := by
  by_cases isEmpty : source.tail.takeWhile isFieldCharacter = []
  · rw [isEmpty, List.append_nil, List.append_nil]
  · have slash : '/' ∈ source.suite := List.mem_of_getLast? (glued_path valid isEmpty)
    rw [renameSuite, renameSuite,
      rewriteReleaseSuite_of_other (notRelease_of_slash supported slash),
      rewriteReleaseSuite_of_other
        (notRelease_of_slash supported (List.mem_append_left _ slash))]

theorem replaceFrom_plainEntry {source : AptEntry} (valid : source.WellFormed)
    (plain : source.uri.all isFieldCharacter = true) :
    replaceFrom (listPattern (renameSuite current target)) true source.render =
      source.front ++ (renameSuite current target source.suite ++
        (source.tail.takeWhile isFieldCharacter ++
          replaceFrom (listPattern (renameSuite current target))
            ((source.tail.takeWhile isFieldCharacter).getLast?.any isLineTerminator)
            (source.tail.dropWhile isFieldCharacter))) := by
  have lawful := lawful_listPattern (rewritesApart_rewriteReleaseSuite supported)
  have isMatch : listPattern (renameSuite current target) source.render =
      some (source.front ++ renameSuite current target
          (source.suite ++ source.tail.takeWhile isFieldCharacter),
        (source.suite ++ source.tail.takeWhile isFieldCharacter).getLast?,
        source.tail.dropWhile isFieldCharacter) := by
    rw [listPattern, matchAptListSuite_entry valid (matchUriAndSuite_plain valid plain), front_eq]
    rfl
  have last : (source.suite ++ source.tail.takeWhile isFieldCharacter).getLast?.any
      isLineTerminator =
        (source.tail.takeWhile isFieldCharacter).getLast?.any isLineTerminator := by
    by_cases isEmpty : source.tail.takeWhile isFieldCharacter = []
    · rw [isEmpty, List.append_nil, last_notTerminator (suite_noTerminator valid)]
      rfl
    · rw [List.getLast?_append_of_ne_nil _ isEmpty]
  rw [replaceFrom_match lawful isMatch, last, renameSuite_glued supported valid]
  simp only [List.append_assoc]

theorem plainEntry_iff {source : AptEntry} (valid : source.WellFormed)
    (plain : source.uri.all isFieldCharacter = true) :
    replaceFrom (listPattern (renameSuite current target)) true source.render = source.front ++
          (renameSuite current target source.suite ++ source.tail) ↔
      QuietEntries current target
        ((source.tail.takeWhile isFieldCharacter).getLast?.any isLineTerminator)
        (source.tail.dropWhile isFieldCharacter) := by
  have rewrites := rewritesApart_rewriteReleaseSuite supported
  have split : source.tail = source.tail.takeWhile isFieldCharacter ++
      source.tail.dropWhile isFieldCharacter :=
    List.takeWhile_append_dropWhile.symm
  rw [replaceFrom_plainEntry supported valid plain, List.append_cancel_left_eq,
    List.append_cancel_left_eq]
  nth_rewrite 4 [split]
  rw [List.append_cancel_left_eq,
    replaceFrom_eq_self_iff (lawful_listPattern rewrites) (replacesApart_listPattern rewrites)]
  exact quietFrom_listPattern_iff supported

theorem strayEntry_iff {source : AptEntry} (valid : source.WellFormed)
    (notPlain : source.uri.all isFieldCharacter = false) :
    replaceFrom (listPattern (renameSuite current target)) true source.render = source.front ++
          (renameSuite current target source.suite ++ source.tail) ↔
      ¬IsReleaseSuite current (strayWord source.uri) ∧
        ¬IsReleaseSuite current source.suite ∧
        QuietEntries current target false source.tail := by
  have rewrites := rewritesApart_rewriteReleaseSuite supported
  have lawful := lawful_listPattern rewrites
  have isUri := isUri_spec valid.uri
  obtain ⟨first, gap, stray, rest, parts⟩ := exists_uriParts isUri notPlain
  have isMatch : listPattern (renameSuite current target) source.render =
      some (source.indent ++ (source.type ++ source.typeGap) ++
          (source.renderOptions ++ (first ++ gap)) ++ renameSuite current target stray,
        stray.getLast?, rest ++ (source.uriGap ++ (source.suite ++ source.tail))) := by
    rw [listPattern, matchAptListSuite_entry valid
      (matchUriAndSuite_stray parts valid.uriGap (source.suite ++ source.tail))]
    rfl
  have strayEnds : stray.getLast?.any isLineTerminator = false :=
    last_notTerminator fun char mem =>
      not_isLineTerminator_of_isEntryCharacter (List.all_eq_true.1 parts.members char mem)
  have restEnds : ∀ char ∈ rest ++ (source.uriGap ++ source.suite),
      isLineTerminator char = false := by
    simp only [List.forall_mem_append]
    refine ⟨?_, ?_, suite_noTerminator valid⟩
    · intro char mem
      have inUri : char ∈ source.uri := by
        rw [parts.split]
        exact List.mem_append_right _ (List.mem_append_right _ (List.mem_append_right _ mem))
      rcases isUri.members char inUri with blank | inWord
      · exact not_isLineTerminator_of_isBlank blank
      · exact not_isLineTerminator_of_isEntryCharacter inWord
    · intro char mem
      exact not_isLineTerminator_of_isBlank
        (List.all_eq_true.1 (isGap_spec valid.uriGap).2 char mem)
  have behind : rest ++ (source.uriGap ++ (source.suite ++ source.tail)) =
      (rest ++ (source.uriGap ++ source.suite)) ++ source.tail := by
    simp only [List.append_assoc]
  have desired : source.front ++
      (renameSuite current target source.suite ++ source.tail) =
        source.indent ++ (source.type ++ source.typeGap) ++
          (source.renderOptions ++ (first ++ gap)) ++ (stray ++ (rest ++ (source.uriGap ++
            (renameSuite current target source.suite ++ source.tail)))) := by
    rw [front_eq]
    nth_rewrite 1 [parts.split]
    simp only [List.append_assoc]
  rw [replaceFrom_match lawful isMatch, strayEnds, behind, replaceFrom_plain restEnds, desired,
    List.append_assoc _ (renameSuite current target stray),
    List.append_cancel_left_eq, ← parts.isStray]
  have quiet : replaceFrom (listPattern (renameSuite current target)) false
      source.tail = source.tail ↔
        QuietEntries current target false source.tail :=
    (replaceFrom_eq_self_iff lawful (replacesApart_listPattern rewrites)).trans
      (quietFrom_listPattern_iff supported)
  rw [← quiet]
  constructor
  · intro same
    have strayOther := rewriteReleaseSuite_apart supported same
    rw [renameSuite, rewriteReleaseSuite_of_other strayOther, List.append_assoc,
      List.append_assoc, List.append_cancel_left_eq, List.append_cancel_left_eq,
      List.append_cancel_left_eq] at same
    have suiteOther := rewriteReleaseSuite_apart supported same.symm
    rw [renameSuite, rewriteReleaseSuite_of_other suiteOther, List.append_cancel_left_eq] at same
    exact ⟨strayOther, suiteOther, same⟩
  · rintro ⟨strayOther, suiteOther, same⟩
    rw [same, renameSuite, renameSuite, rewriteReleaseSuite_of_other strayOther,
      rewriteReleaseSuite_of_other suiteOther]
    simp only [List.append_assoc]

theorem aptLine_iff {line : AptLine} (valid : line.WellFormed) :
    replaceFrom (listPattern (renameSuite current target)) true line.render =
        (line.mapSuites (renameSuite current target)).render ↔
      line.RewritesAlone current target := by
  have rewrites := rewritesApart_rewriteReleaseSuite supported
  have kept : ∀ value : Text,
      replaceFrom (listPattern (renameSuite current target)) true value = value ↔
        QuietEntries current target true value := fun value =>
    (replaceFrom_eq_self_iff (lawful_listPattern rewrites)
      (replacesApart_listPattern rewrites)).trans (quietFrom_listPattern_iff supported)
  cases line with
  | blank value => exact kept value
  | comment indent value => exact kept (indent ++ '#' :: value)
  | entry source =>
    rw [AptLine.RewritesAlone]
    split
    · next plain => exact plainEntry_iff supported valid plain
    · next notPlain => exact strayEntry_iff supported valid (Bool.not_eq_true _ ▸ notPlain)

end Renaming

end Paratix.Upgrade
