/-
Module: Paratix.Upgrade.SuitePatterns
Purpose: What `replaceAll` does with a pattern anchored at the start of a line, and what a match of
  the rewriter's two patterns is made of.
Main exports: replaceFrom, replacesApart_deb822Pattern
-/
import Paratix.Upgrade.DebianUpgrade

namespace Paratix.Upgrade

open Foundation Archive

/-- What a pattern answers: the replacement, the last character of the match and what follows. -/
abbrev LinePatternMatch := Text × Option Char × Text

variable {pattern : Text → Option LinePatternMatch}

/-! ### Patterns -/

/-- A match takes at least one character, reads no further than its line and brings no newline
into it. -/
structure LawfulPattern (pattern : Text → Option LinePatternMatch) : Prop where
  consumes : ∀ value replacement last after,
    pattern value = some (replacement, last, after) → after.length < value.length
  inLine : ∀ line rest, pattern (line ++ '\n' :: rest) =
    (pattern line).map fun found => (found.1, found.2.1, found.2.2 ++ '\n' :: rest)
  noNewline : ∀ line replacement last after, '\n' ∉ line →
    pattern line = some (replacement, last, after) → '\n' ∉ replacement ∧ '\n' ∉ after

/-- The replacement is the match, or differs from it before either ends. -/
def ReplacesApart (pattern : Text → Option LinePatternMatch) : Prop :=
  ∀ value replacement last after, pattern value = some (replacement, last, after) →
    ∃ found, value = found ++ after ∧
      ∀ rest others, replacement ++ rest = found ++ others → replacement = found

theorem LawfulPattern.nil (lawful : LawfulPattern pattern) : pattern [] = none := by
  cases isMatch : pattern [] with
  | none => rfl
  | some found => exact absurd (lawful.consumes _ _ _ _ isMatch) (Nat.not_lt_zero _)

/-! ### Steps -/

/-- The replacement from a place that is at the start of a line or not. -/
def replaceFrom (pattern : Text → Option LinePatternMatch) (atStart : Bool) (value : Text) :
    Text :=
  replaceLineStarts pattern (value.length + 1) atStart value

theorem replaceLineStarts_some {atStart : Bool} {value replacement after : Text}
    {last : Option Char} (fuel : Nat)
    (isMatch : (if atStart then pattern value else none) = some (replacement, last, after)) :
    replaceLineStarts pattern (fuel + 1) atStart value =
      replacement ++ replaceLineStarts pattern fuel (last.any isLineTerminator) after := by
  cases value with
  | nil => simp only [replaceLineStarts, isMatch]
  | cons char rest => simp only [replaceLineStarts, isMatch]

theorem replaceLineStarts_none {atStart : Bool} {char : Char} {rest : Text} (fuel : Nat)
    (noMatch : (if atStart then pattern (char :: rest) else none) = none) :
    replaceLineStarts pattern (fuel + 1) atStart (char :: rest) =
      char :: replaceLineStarts pattern fuel (isLineTerminator char) rest := by
  simp only [replaceLineStarts, noMatch]

theorem replaceLineStarts_nil (lawful : LawfulPattern pattern) (fuel : Nat) (atStart : Bool) :
    replaceLineStarts pattern fuel atStart [] = [] := by
  cases fuel with
  | zero => rfl
  | succ fuel => simp only [replaceLineStarts, lawful.nil, ite_self]

theorem replaceLineStarts_fuel (lawful : LawfulPattern pattern) {fuel more : Nat} {value : Text}
    (atStart : Bool) (enough : value.length < fuel) (enoughMore : value.length < more) :
    replaceLineStarts pattern fuel atStart value =
      replaceLineStarts pattern more atStart value := by
  induction fuel generalizing more atStart value with
  | zero => exact absurd enough (Nat.not_lt_zero _)
  | succ fuel ih =>
    obtain ⟨more, rfl⟩ := Nat.exists_eq_add_one_of_ne_zero (Nat.ne_zero_of_lt enoughMore)
    cases isMatch : (if atStart then pattern value else none) with
    | some found =>
      obtain ⟨replacement, last, after⟩ := found
      have matched := isMatch
      rw [Option.ite_none_right_eq_some] at matched
      have shorter := lawful.consumes _ _ _ _ matched.2
      rw [replaceLineStarts_some fuel isMatch, replaceLineStarts_some more isMatch,
        ih (last.any isLineTerminator)
          (Nat.lt_of_lt_of_le shorter (Nat.le_of_lt_succ enough))
          (Nat.lt_of_lt_of_le shorter (Nat.le_of_lt_succ enoughMore))]
    | none =>
      cases value with
      | nil => rw [replaceLineStarts_nil lawful, replaceLineStarts_nil lawful]
      | cons char rest =>
        rw [replaceLineStarts_none fuel isMatch, replaceLineStarts_none more isMatch,
          ih (isLineTerminator char)
            (Nat.lt_of_succ_lt_succ enough) (Nat.lt_of_succ_lt_succ enoughMore)]

theorem replaceFrom_match (lawful : LawfulPattern pattern) {value replacement after : Text}
    {last : Option Char} (isMatch : pattern value = some (replacement, last, after)) :
    replaceFrom pattern true value =
      replacement ++ replaceFrom pattern (last.any isLineTerminator) after := by
  have shorter := lawful.consumes _ _ _ _ isMatch
  have matched : (if true then pattern value else none) = some (replacement, last, after) := isMatch
  rw [replaceFrom, replaceLineStarts_some _ matched, replaceFrom,
    replaceLineStarts_fuel lawful _ shorter (Nat.lt_succ_self _)]

/-- No match starts here. -/
def Unmatched (pattern : Text → Option LinePatternMatch) (atStart : Bool) (value : Text) : Prop :=
  atStart = false ∨ pattern value = none

theorem replaceFrom_skip {atStart : Bool} {char : Char} {rest : Text}
    (unmatched : Unmatched pattern atStart (char :: rest)) :
    replaceFrom pattern atStart (char :: rest) =
      char :: replaceFrom pattern (isLineTerminator char) rest := by
  have noMatch : (if atStart then pattern (char :: rest) else none) = none := by
    rcases unmatched with rfl | noMatch
    · rfl
    · rw [noMatch, ite_self]
  exact replaceLineStarts_none _ noMatch

theorem replaceFrom_nil (lawful : LawfulPattern pattern) (atStart : Bool) :
    replaceFrom pattern atStart [] = [] :=
  replaceLineStarts_nil lawful _ atStart

/-- At each place there is the end of the text, a match or a character that is kept. -/
theorem scan_cases (pattern : Text → Option LinePatternMatch) (atStart : Bool) (value : Text) :
    value = [] ∨
      (atStart = true ∧ ∃ replacement last after, pattern value = some (replacement, last, after)) ∨
      ∃ char rest, value = char :: rest ∧ Unmatched pattern atStart (char :: rest) := by
  cases value with
  | nil => exact .inl rfl
  | cons char rest =>
    cases atStart with
    | false => exact .inr (.inr ⟨char, rest, rfl, .inl rfl⟩)
    | true =>
      cases isMatch : pattern (char :: rest) with
      | none => exact .inr (.inr ⟨char, rest, rfl, .inr isMatch⟩)
      | some found => exact .inr (.inl ⟨rfl, found.1, found.2.1, found.2.2, rfl⟩)

/-! ### Lines -/

theorem replaceFrom_line (lawful : LawfulPattern pattern) (line rest : Text) (atStart : Bool) :
    replaceFrom pattern atStart (line ++ '\n' :: rest) =
      replaceFrom pattern atStart line ++ '\n' :: replaceFrom pattern true rest := by
  induction size : line.length using Nat.strong_induction_on generalizing line atStart with
  | _ size ih =>
    subst size
    rcases scan_cases pattern atStart line with rfl | ⟨rfl, replacement, last, after, isMatch⟩ |
      ⟨char, others, rfl, unmatched⟩
    · have noMatch := lawful.inLine [] rest
      rw [lawful.nil] at noMatch
      rw [replaceFrom_nil lawful, List.nil_append, List.nil_append, replaceFrom_skip (.inr noMatch)]
      rfl
    · have whole := lawful.inLine line rest
      rw [isMatch] at whole
      rw [replaceFrom_match lawful isMatch, replaceFrom_match lawful whole, List.append_assoc,
        ih _ (lawful.consumes _ _ _ _ isMatch) _ _ rfl]
    · have skipped : Unmatched pattern atStart (char :: (others ++ '\n' :: rest)) := by
        apply unmatched.imp id
        intro noMatch
        have whole := lawful.inLine (char :: others) rest
        rwa [noMatch] at whole
      rw [List.cons_append, replaceFrom_skip skipped, replaceFrom_skip unmatched,
        ih others.length (Nat.lt_succ_self _) _ _ rfl, List.cons_append]

/-- The replacement goes line by line. -/
theorem replaceFrom_joinLines (lawful : LawfulPattern pattern) (lines : List Line) :
    replaceFrom pattern true (joinLines lines) =
      joinLines (lines.map (replaceFrom pattern true)) := by
  induction lines with
  | nil => exact replaceFrom_nil lawful true
  | cons line lines ih =>
    cases lines with
    | nil => rfl
    | cons next lines =>
      show replaceFrom pattern true (line ++ '\n' :: joinLines (next :: lines)) = _
      rw [replaceFrom_line lawful, ih]
      rfl

theorem newline_notMem_replaceFrom (lawful : LawfulPattern pattern) {line : Text}
    (oneLine : '\n' ∉ line) (atStart : Bool) : '\n' ∉ replaceFrom pattern atStart line := by
  induction size : line.length using Nat.strong_induction_on generalizing line atStart with
  | _ size ih =>
    subst size
    rcases scan_cases pattern atStart line with rfl | ⟨rfl, replacement, last, after, isMatch⟩ |
      ⟨char, others, rfl, unmatched⟩
    · rw [replaceFrom_nil lawful]
      exact List.not_mem_nil
    · obtain ⟨noReplacement, noAfter⟩ := lawful.noNewline _ _ _ _ oneLine isMatch
      have below := ih _ (lawful.consumes _ _ _ _ isMatch) noAfter
        (last.any isLineTerminator) rfl
      rw [replaceFrom_match lawful isMatch, List.mem_append, not_or]
      exact ⟨noReplacement, below⟩
    · rw [List.mem_cons, not_or] at oneLine
      have below := ih others.length (Nat.lt_succ_self _) oneLine.2
        (isLineTerminator char) rfl
      rw [replaceFrom_skip unmatched, List.mem_cons, not_or]
      exact ⟨oneLine.1, below⟩

/-- Characters behind which no line starts are kept. -/
theorem replaceFrom_plain {plain : Text} (noTerminator : ∀ char ∈ plain, isLineTerminator char = false)
    (rest : Text) :
    replaceFrom pattern false (plain ++ rest) = plain ++ replaceFrom pattern false rest := by
  induction plain with
  | nil => rfl
  | cons char plain ih =>
    obtain ⟨here, below⟩ := List.forall_mem_cons.1 noTerminator
    rw [List.cons_append, replaceFrom_skip (.inl rfl), here, ih below]
    rfl

/-! ### Texts that are kept -/

/-- The places of a text where the pattern is tried: the starts of lines that no match covers. -/
inductive IsLineStart (pattern : Text → Option LinePatternMatch) : Bool → Text → Text → Prop where
  | here (value : Text) : IsLineStart pattern true value value
  | behindMatch {value replacement after start : Text} {last : Option Char}
      (isMatch : pattern value = some (replacement, last, after))
      (below : IsLineStart pattern (last.any isLineTerminator) after start) :
      IsLineStart pattern true value start
  | behind {atStart : Bool} {char : Char} {rest start : Text}
      (unmatched : Unmatched pattern atStart (char :: rest))
      (below : IsLineStart pattern (isLineTerminator char) rest start) :
      IsLineStart pattern atStart (char :: rest) start

/-- Without a line terminator no line starts behind the beginning. -/
theorem not_isLineStart {value start : Text}
    (noTerminator : ∀ char ∈ value, isLineTerminator char = false) :
    ¬IsLineStart pattern false value start := by
  induction value with
  | nil => exact fun isStart => by cases isStart
  | cons char value ih =>
    obtain ⟨here, below⟩ := List.forall_mem_cons.1 noTerminator
    intro isStart
    cases isStart with
    | behind unmatched further =>
      rw [here] at further
      exact ih below further

/-- Every match is replaced by what it is. -/
def QuietFrom (pattern : Text → Option LinePatternMatch) (atStart : Bool) (value : Text) : Prop :=
  ∀ start replacement last after, IsLineStart pattern atStart value start →
    pattern start = some (replacement, last, after) → start = replacement ++ after

/-- A replacement leaves a text as it is exactly if every match is replaced by what it is. -/
theorem replaceFrom_eq_self_iff (lawful : LawfulPattern pattern) (apart : ReplacesApart pattern)
    {atStart : Bool} {value : Text} :
    replaceFrom pattern atStart value = value ↔ QuietFrom pattern atStart value := by
  induction size : value.length using Nat.strong_induction_on generalizing value atStart with
  | _ size ih =>
    subst size
    rcases scan_cases pattern atStart value with rfl | ⟨rfl, replacement, last, after, isMatch⟩ |
      ⟨char, others, rfl, unmatched⟩
    · apply iff_of_true (replaceFrom_nil lawful atStart)
      intro start replacement last after isStart isMatch
      cases isStart with
      | here => exact absurd (lawful.nil.symm.trans isMatch) (Option.some_ne_none _).symm
      | behindMatch found below =>
        exact absurd (lawful.nil.symm.trans found) (Option.some_ne_none _).symm
    · have shorter := lawful.consumes _ _ _ _ isMatch
      have below := @ih _ shorter (last.any isLineTerminator) after rfl
      obtain ⟨found, split, differs⟩ := apart _ _ _ _ isMatch
      rw [replaceFrom_match lawful isMatch]
      constructor
      · intro same
        rw [split] at same
        have isFound := differs _ _ same
        subst isFound
        have quiet := below.1 (List.append_cancel_left same)
        intro start own ownLast ownAfter isStart isOwn
        cases isStart with
        | here =>
          cases Option.some.inj (isMatch.symm.trans isOwn)
          exact split
        | behindMatch here further =>
          cases Option.some.inj (isMatch.symm.trans here)
          exact quiet _ _ _ _ further isOwn
        | behind unmatched further =>
          have noMatch := unmatched.resolve_left Bool.noConfusion
          exact absurd (noMatch.symm.trans isMatch) (Option.some_ne_none _).symm
      · intro quiet
        rw [below.2 fun start own ownLast ownAfter isStart =>
          quiet start own ownLast ownAfter (.behindMatch isMatch isStart)]
        exact (quiet _ _ _ _ (.here _) isMatch).symm
    · have below := @ih others.length (Nat.lt_succ_self _)
        (isLineTerminator char) others rfl
      rw [replaceFrom_skip unmatched, List.cons_inj_right, below]
      constructor
      · intro quiet start own ownLast ownAfter isStart isOwn
        cases isStart with
        | here =>
          have noMatch := unmatched.resolve_left Bool.noConfusion
          exact absurd (noMatch.symm.trans isOwn) (Option.some_ne_none _).symm
        | behindMatch here further =>
          have noMatch := unmatched.resolve_left Bool.noConfusion
          exact absurd (noMatch.symm.trans here) (Option.some_ne_none _).symm
        | behind _ further => exact quiet _ _ _ _ further isOwn
      · intro quiet start own ownLast ownAfter isStart
        exact quiet start own ownLast ownAfter (.behind unmatched isStart)

/-! ### Classes of characters -/

section Classes

variable {isMember : Char → Bool}

theorem takeWhile_line {last : Char} (ends : isMember last = false) (line rest : Text) :
    (line ++ last :: rest).takeWhile isMember = line.takeWhile isMember := by
  induction line with
  | nil => exact List.takeWhile_cons_of_neg (by rw [ends]; exact Bool.false_ne_true)
  | cons head line ih =>
    rw [List.cons_append, List.takeWhile_cons, List.takeWhile_cons, ih]

theorem dropWhile_line {last : Char} (ends : isMember last = false) (line rest : Text) :
    (line ++ last :: rest).dropWhile isMember = line.dropWhile isMember ++ last :: rest := by
  induction line with
  | nil => exact List.dropWhile_cons_of_neg (by rw [ends]; exact Bool.false_ne_true)
  | cons head line ih =>
    rw [List.cons_append, List.dropWhile_cons, List.dropWhile_cons, ih]
    split
    · rfl
    · rfl

theorem spanSome_line {last : Char} (ends : isMember last = false) (line rest : Text) :
    spanSome isMember (line ++ last :: rest) =
      (spanSome isMember line).map (Prod.map id (· ++ last :: rest)) := by
  rw [spanSome, spanSome, takeWhile_line ends, dropWhile_line ends]
  cases line.takeWhile isMember with
  | nil => rfl
  | cons head matched => rfl

theorem spanSome_some {value matched after : Text}
    (isSpan : spanSome isMember value = some (matched, after)) :
    value = matched ++ after ∧ matched ≠ [] ∧ matched = value.takeWhile isMember := by
  rw [spanSome] at isSpan
  split at isSpan
  · cases isSpan
  · next nonempty =>
    cases Option.some.inj isSpan
    exact ⟨List.takeWhile_append_dropWhile.symm, nonempty, rfl⟩

/-- A run of members that ends where the text ends or no member follows. -/
theorem spanSome_append {matched after : Text} (nonempty : matched ≠ [])
    (members : ∀ char ∈ matched, isMember char = true)
    (ends : ∀ char, after.head? = some char → isMember char = false) :
    spanSome isMember (matched ++ after) = some (matched, after) := by
  have taken : after.takeWhile isMember = [] := by
    cases after with
    | nil => rfl
    | cons char after =>
      exact List.takeWhile_cons_of_neg (by rw [ends char rfl]; exact Bool.false_ne_true)
  have dropped : after.dropWhile isMember = after := by
    cases after with
    | nil => rfl
    | cons char after =>
      exact List.dropWhile_cons_of_neg (by rw [ends char rfl]; exact Bool.false_ne_true)
  rw [spanSome, List.takeWhile_append_of_pos members, List.dropWhile_append_of_pos members,
    taken, dropped, List.append_nil]
  cases matched with
  | nil => exact absurd rfl nonempty
  | cons head matched => rfl

end Classes

/-! ### One-line sources -/

/-- The characters of a one-line source between its brackets -/
def isInOptions (char : Char) : Bool := char ≠ ']' && char ≠ '\r' && char ≠ '\n'

theorem matchOptions_bracket (rest : Text) : matchOptions ('[' :: rest) =
      if (rest.dropWhile isInOptions).head? = some ']' then
        (spanSome isBlank (rest.dropWhile isInOptions).tail).map fun found =>
          ('[' :: (rest.takeWhile isInOptions ++ ']' :: found.1), found.2)
      else none := by
  have same : isInOptions = fun char => char ≠ ']' && char ≠ '\r' && char ≠ '\n' := rfl
  rw [matchOptions, same]
  split
  · next after dropped => rw [dropped]; rfl
  · next noBracket =>
    rw [if_neg]
    intro isBracket
    obtain ⟨tail, dropped⟩ := List.head?_eq_some_iff.1 isBracket
    exact noBracket tail dropped

theorem matchOptions_none {value : Text} (noBracket : value.head? ≠ some '[') :
    matchOptions value = none := by
  unfold matchOptions
  split
  · exact absurd rfl noBracket
  · rfl

theorem matchOptions_line (line rest : Text) : matchOptions (line ++ '\n' :: rest) =
      (matchOptions line).map (Prod.map id (· ++ '\n' :: rest)) := by
  by_cases bracket : line.head? = some '['
  · obtain ⟨line, rfl⟩ := List.head?_eq_some_iff.1 bracket
    rw [List.cons_append, matchOptions_bracket, matchOptions_bracket,
      dropWhile_line rfl, takeWhile_line rfl]
    cases line.dropWhile isInOptions with
    | nil => rfl
    | cons head behind =>
      rw [List.cons_append, List.head?_cons, List.head?_cons, List.tail_cons, List.tail_cons,
        spanSome_line rfl]
      split
      · rw [Option.map_map, Option.map_map]
        rfl
      · rfl
  · have bracketless : (line ++ '\n' :: rest).head? ≠ some '[' := by
      cases line with
      | nil => exact fun same => absurd (Option.some.inj same) (by decide)
      | cons head line => exact bracket
    rw [matchOptions_none bracket, matchOptions_none bracketless]
    rfl

/-- A keyword with the blanks behind it -/
def matchKeywordAs (keyword value : Text) : Option (Text × Text) :=
  if keyword.isPrefixOf value then
    (spanSome isBlank (value.drop keyword.length)).map fun found => (keyword ++ found.1, found.2)
  else none

theorem matchKeyword_eq (value : Text) : matchKeyword value =
      (matchKeywordAs (text "deb") value).or (matchKeywordAs (text "deb-src") value) :=
  rfl

theorem matchKeywordAs_line {keyword : Text} (oneLine : '\n' ∉ keyword) (line rest : Text) :
    matchKeywordAs keyword (line ++ '\n' :: rest) =
      (matchKeywordAs keyword line).map (Prod.map id (· ++ '\n' :: rest)) := by
  by_cases starts : keyword <+: line
  · obtain ⟨behind, rfl⟩ := starts
    have startsLine : keyword.isPrefixOf (keyword ++ behind) = true :=
      List.isPrefixOf_iff_prefix.2 (List.prefix_append _ _)
    have startsWhole : keyword.isPrefixOf (keyword ++ (behind ++ '\n' :: rest)) = true :=
      List.isPrefixOf_iff_prefix.2 (List.prefix_append _ _)
    rw [List.append_assoc, matchKeywordAs, matchKeywordAs, if_pos startsLine, if_pos startsWhole,
      List.drop_left, List.drop_left, spanSome_line rfl, Option.map_map, Option.map_map]
    rfl
  · have startsNot : ¬keyword <+: line ++ '\n' :: rest := by
      rintro ⟨behind, split⟩
      rcases List.append_eq_append_iff.1 split with ⟨more, inLine, _⟩ | ⟨more, beyond, isRest⟩
      · exact starts ⟨more, inLine.symm⟩
      · cases more with
        | nil =>
          rw [List.append_nil] at beyond
          exact starts ⟨[], by rw [beyond, List.append_nil]⟩
        | cons head more =>
          cases (List.cons.inj isRest).1
          exact oneLine (beyond ▸ List.mem_append_right _ List.mem_cons_self)
    rw [matchKeywordAs, matchKeywordAs, if_neg, if_neg]
    · rfl
    · rwa [List.isPrefixOf_iff_prefix]
    · rwa [List.isPrefixOf_iff_prefix]

theorem matchKeyword_line (line rest : Text) : matchKeyword (line ++ '\n' :: rest) =
      (matchKeyword line).map (Prod.map id (· ++ '\n' :: rest)) := by
  rw [matchKeyword_eq, matchKeyword_eq, matchKeywordAs_line (by decide),
    matchKeywordAs_line (by decide)]
  cases matchKeywordAs (text "deb") line with
  | none => rfl
  | some found => rfl

/-- A match goes on behind its line. -/
def behindLine (rest : Text) (found : Text × Text × Text) : Text × Text × Text :=
  (found.1, found.2.1, found.2.2 ++ '\n' :: rest)

theorem matchUriAndSuite_line (line rest : Text) : matchUriAndSuite (line ++ '\n' :: rest) =
      (matchUriAndSuite line).map (behindLine rest) := by
  have fieldSpan := @spanSome_line isFieldCharacter '\n' rfl
  have blankSpan := @spanSome_line isBlank '\n' rfl
  rw [matchUriAndSuite, fieldSpan, matchUriAndSuite]
  cases spanSome isFieldCharacter line with
  | none => rfl
  | some uri =>
    simp only [Option.map_some, Prod.map_snd, Prod.map_fst, id_eq, blankSpan]
    cases spanSome isBlank uri.2 with
    | none => rfl
    | some blanks =>
      simp only [Option.map_some, Prod.map_snd, Prod.map_fst, id_eq, fieldSpan, Option.map_map]
      rfl

theorem matchAptListSuite_line (line rest : Text) : matchAptListSuite (line ++ '\n' :: rest) =
      (matchAptListSuite line).map (behindLine rest) := by
  rw [matchAptListSuite, matchAptListSuite, dropWhile_line rfl, takeWhile_line rfl,
    matchKeyword_line]
  cases matchKeyword (line.dropWhile isBlank) with
  | none => rfl
  | some keyword =>
    simp only [Option.map_some, Prod.map_snd, Prod.map_fst, id_eq, matchOptions_line,
      matchUriAndSuite_line]
    cases matchOptions keyword.2 with
    | none =>
      cases matchUriAndSuite keyword.2 with
      | none => rfl
      | some found => rfl
    | some options =>
      simp only [Option.map_some, Prod.map_snd, Prod.map_fst, id_eq, matchUriAndSuite_line]
      cases matchUriAndSuite options.2 with
      | some found => rfl
      | none =>
        cases matchUriAndSuite keyword.2 with
        | none => rfl
        | some found => rfl

theorem matchUriAndSuite_some {value front suite after : Text}
    (isMatch : matchUriAndSuite value = some (front, suite, after)) :
    value = front ++ (suite ++ after) ∧ suite ≠ [] := by
  rw [matchUriAndSuite] at isMatch
  split at isMatch
  · cases isMatch
  · next uri afterUri isUri =>
    split at isMatch
    · cases isMatch
    · next blanks afterBlanks areBlanks =>
      obtain ⟨⟨own, behind⟩, isSuite, same⟩ := Option.map_eq_some_iff.1 isMatch
      cases same
      rw [(spanSome_some isUri).1, (spanSome_some areBlanks).1, (spanSome_some isSuite).1,
        List.append_assoc]
      exact ⟨rfl, (spanSome_some isSuite).2.1⟩

theorem matchOptions_some {value options after : Text}
    (isMatch : matchOptions value = some (options, after)) : value = options ++ after := by
  by_cases bracket : value.head? = some '['
  · obtain ⟨rest, rfl⟩ := List.head?_eq_some_iff.1 bracket
    rw [matchOptions_bracket, Option.ite_none_right_eq_some] at isMatch
    obtain ⟨closes, isMatch⟩ := isMatch
    obtain ⟨tail, dropped⟩ := List.head?_eq_some_iff.1 closes
    rw [dropped, List.tail_cons] at isMatch
    obtain ⟨⟨blanks, behind⟩, areBlanks, same⟩ := Option.map_eq_some_iff.1 isMatch
    cases same
    have split : rest = rest.takeWhile isInOptions ++ ']' :: tail := by
      rw [← dropped, List.takeWhile_append_dropWhile]
    nth_rewrite 1 [split]
    rw [(spanSome_some areBlanks).1, List.cons_append, List.append_assoc, List.cons_append]
  · cases (matchOptions_none bracket).symm.trans isMatch

theorem matchKeywordAs_some {keyword value found after : Text}
    (isMatch : matchKeywordAs keyword value = some (found, after)) : value = found ++ after := by
  rw [matchKeywordAs, Option.ite_none_right_eq_some] at isMatch
  obtain ⟨starts, isMatch⟩ := isMatch
  obtain ⟨behind, rfl⟩ := List.isPrefixOf_iff_prefix.1 starts
  rw [List.drop_left] at isMatch
  obtain ⟨⟨blanks, rest⟩, areBlanks, same⟩ := Option.map_eq_some_iff.1 isMatch
  cases same
  rw [(spanSome_some areBlanks).1, List.append_assoc]

theorem matchKeyword_some {value found after : Text}
    (isMatch : matchKeyword value = some (found, after)) : value = found ++ after := by
  rw [matchKeyword_eq] at isMatch
  rcases Option.or_eq_some_iff.1 isMatch with isDeb | ⟨_, isDebSrc⟩
  · exact matchKeywordAs_some isDeb
  · exact matchKeywordAs_some isDebSrc

/-- A match is what stands before the suite and the suite. -/
theorem matchAptListSuite_some {value front suite after : Text}
    (isMatch : matchAptListSuite value = some (front, suite, after)) :
    value = front ++ (suite ++ after) ∧ suite ≠ [] := by
  have indented : value = value.takeWhile isBlank ++ value.dropWhile isBlank :=
    List.takeWhile_append_dropWhile.symm
  rw [matchAptListSuite] at isMatch
  split at isMatch
  · cases isMatch
  · next keyword afterKeyword isKeyword =>
    have behindIndent := matchKeyword_some isKeyword
    obtain ⟨⟨own, ownSuite, ownAfter⟩, isSuite, same⟩ := Option.map_eq_some_iff.1 isMatch
    cases same
    have behindKeyword : afterKeyword = own ++ (suite ++ after) ∧ suite ≠ [] := by
      rcases Option.or_eq_some_iff.1 isSuite with withOptions | ⟨_, without⟩
      · split at withOptions
        · cases withOptions
        · next options afterOptions areOptions =>
          obtain ⟨⟨uri, third, fourth⟩, isUri, same⟩ := Option.map_eq_some_iff.1 withOptions
          cases same
          obtain ⟨behind, nonempty⟩ := matchUriAndSuite_some isUri
          rw [matchOptions_some areOptions, behind, List.append_assoc]
          exact ⟨rfl, nonempty⟩
      · exact matchUriAndSuite_some without
    refine ⟨?_, behindKeyword.2⟩
    nth_rewrite 1 [indented]
    rw [behindIndent, behindKeyword.1]
    simp only [List.append_assoc]

/-! ### Suites that are rewritten -/

/-- A suite that is rewritten to another differs from it before either ends, and gets no
newline. -/
structure RewritesApart (rewriteSuite : Text → Text) : Prop where
  apart : ∀ suite rest others, rewriteSuite suite ++ rest = suite ++ others →
    rewriteSuite suite = suite
  noNewline : ∀ suite, '\n' ∉ suite → '\n' ∉ rewriteSuite suite

section Rewriting

variable {rewriteSuite : Text → Text}

/-- `APT_LIST_SUITE_PATTERN` with its replacement -/
def listPattern (rewriteSuite : Text → Text) (value : Text) : Option LinePatternMatch :=
  (matchAptListSuite value).map fun found =>
    (found.1 ++ rewriteSuite found.2.1, found.2.1.getLast?, found.2.2)

theorem listPattern_some {value replacement after : Text} {last : Option Char}
    (isMatch : listPattern rewriteSuite value = some (replacement, last, after)) :
    ∃ front suite, matchAptListSuite value = some (front, suite, after) ∧
      replacement = front ++ rewriteSuite suite ∧ last = suite.getLast? := by
  obtain ⟨⟨front, suite, behind⟩, found, same⟩ := Option.map_eq_some_iff.1 isMatch
  cases same
  exact ⟨front, suite, found, rfl, rfl⟩

theorem lawful_listPattern (rewrites : RewritesApart rewriteSuite) :
    LawfulPattern (listPattern rewriteSuite) where
  consumes value replacement last after isMatch := by
    obtain ⟨front, suite, found, -, -⟩ := listPattern_some isMatch
    obtain ⟨split, nonempty⟩ := matchAptListSuite_some found
    have positive := List.length_pos_iff.2 nonempty
    rw [split, List.length_append, List.length_append]
    omega
  inLine line rest := by
    rw [listPattern, matchAptListSuite_line, listPattern, Option.map_map, Option.map_map]
    rfl
  noNewline line replacement last after oneLine isMatch := by
    obtain ⟨front, suite, found, rfl, -⟩ := listPattern_some isMatch
    rw [(matchAptListSuite_some found).1, List.mem_append, List.mem_append, not_or, not_or]
      at oneLine
    rw [List.mem_append, not_or]
    exact ⟨⟨oneLine.1, rewrites.noNewline _ oneLine.2.1⟩, oneLine.2.2⟩

theorem replacesApart_listPattern (rewrites : RewritesApart rewriteSuite) :
    ReplacesApart (listPattern rewriteSuite) := by
  intro value replacement last after isMatch
  obtain ⟨front, suite, found, rfl, -⟩ := listPattern_some isMatch
  refine ⟨front ++ suite, by rw [(matchAptListSuite_some found).1, List.append_assoc], ?_⟩
  intro rest others same
  rw [List.append_assoc, List.append_assoc, List.append_cancel_left_eq] at same
  rw [rewrites.apart _ _ _ same]

/-! ### deb822 sources -/

/-- `DEB822_SUITES_LINE_PATTERN` with its replacement -/
def deb822Pattern (rewriteSuite : Text → Text) (value : Text) : Option LinePatternMatch :=
  (matchSuitesLine value).map fun found =>
    (SUITES_FIELD ++ rewriteWords rewriteSuite found.1, (text ":" ++ found.1).getLast?, found.2)

def isInLine (char : Char) : Bool := char ≠ '\r' && char ≠ '\n'

/-- The characters are those of the field, upper or lower case. -/
def FoldsToSuites (field : Text) : Prop := field.map foldCharacter = SUITES_FIELD.map foldCharacter

theorem FoldsToSuites.length {field : Text} (folds : FoldsToSuites field) :
    field.length = SUITES_FIELD.length := by
  have same := congrArg List.length folds
  rwa [List.length_map, List.length_map] at same

theorem matchSuitesLine_field {field : Text} (folds : FoldsToSuites field) (rest : Text) :
    matchSuitesLine (field ++ rest) =
      some (rest.takeWhile isInLine, rest.dropWhile isInLine) := by
  have taken : (field ++ rest).take SUITES_FIELD.length = field := by
    rw [← folds.length, List.take_left]
  have dropped : (field ++ rest).drop SUITES_FIELD.length = rest := by
    rw [← folds.length, List.drop_left]
  have same : field.map foldCharacter = SUITES_FIELD.map foldCharacter := folds
  rw [matchSuitesLine, taken, dropped]
  exact if_pos same

theorem matchSuitesLine_none {value : Text}
    (unfolded : ¬FoldsToSuites (value.take SUITES_FIELD.length)) : matchSuitesLine value = none :=
  if_neg unfolded

theorem matchSuitesLine_some {value suites after : Text}
    (isMatch : matchSuitesLine value = some (suites, after)) :
    ∃ field, FoldsToSuites field ∧ value = field ++ (suites ++ after) ∧
      suites = (suites ++ after).takeWhile isInLine := by
  by_cases folds : FoldsToSuites (value.take SUITES_FIELD.length)
  · refine ⟨value.take SUITES_FIELD.length, folds, ?_⟩
    have whole := matchSuitesLine_field folds (value.drop SUITES_FIELD.length)
    rw [List.take_append_drop, isMatch] at whole
    cases Option.some.inj whole
    rw [List.takeWhile_append_dropWhile, List.take_append_drop]
    exact ⟨rfl, rfl⟩
  · cases (matchSuitesLine_none folds).symm.trans isMatch

theorem newline_notMem_of_folds {field : Text} (folds : FoldsToSuites field) : '\n' ∉ field := by
  intro mem
  have folded : foldCharacter '\n' ∈ SUITES_FIELD.map foldCharacter :=
    folds ▸ List.mem_map_of_mem mem
  exact absurd folded (by decide)

theorem matchSuitesLine_line (line rest : Text) : matchSuitesLine (line ++ '\n' :: rest) =
      (matchSuitesLine line).map (Prod.map id (· ++ '\n' :: rest)) := by
  by_cases folds : FoldsToSuites (line.take SUITES_FIELD.length)
  · have split : line = line.take SUITES_FIELD.length ++ line.drop SUITES_FIELD.length :=
      (List.take_append_drop _ _).symm
    have own := matchSuitesLine_field folds (line.drop SUITES_FIELD.length)
    have whole := matchSuitesLine_field folds (line.drop SUITES_FIELD.length ++ '\n' :: rest)
    rw [← List.append_assoc, List.take_append_drop] at whole
    rw [List.take_append_drop] at own
    rw [own, whole, takeWhile_line rfl, dropWhile_line rfl]
    rfl
  · have unfolded : ¬FoldsToSuites ((line ++ '\n' :: rest).take SUITES_FIELD.length) := by
      rw [List.take_append]
      cases short : SUITES_FIELD.length - line.length with
      | zero =>
        rw [List.take_zero, List.append_nil]
        exact folds
      | succ more =>
        intro foldsWhole
        apply newline_notMem_of_folds foldsWhole
        rw [List.take_succ_cons]
        exact List.mem_append_right _ List.mem_cons_self
    rw [matchSuitesLine_none folds, matchSuitesLine_none unfolded]
    rfl

theorem rewriteWordsFrom_apart (rewrites : RewritesApart rewriteSuite)
    {word value rest others : Text}
    (same : rewriteWordsFrom rewriteSuite word value ++ rest = word.reverse ++ value ++ others) :
    rewriteWordsFrom rewriteSuite word value = word.reverse ++ value := by
  induction value generalizing word with
  | nil =>
    rw [rewriteWordsFrom] at same ⊢
    by_cases isEmpty : word = []
    · rw [if_pos isEmpty, isEmpty]
      rfl
    · rw [if_neg isEmpty, List.append_nil] at same ⊢
      exact rewrites.apart _ _ _ same
  | cons char value ih =>
    rw [rewriteWordsFrom] at same ⊢
    split
    · next isSpace =>
      rw [if_pos isSpace] at same
      by_cases isEmpty : word = []
      · rw [if_pos isEmpty, isEmpty] at same ⊢
        have behind := ih (List.cons.inj same).2
        rw [behind]
        rfl
      · rw [if_neg isEmpty] at same ⊢
        rw [List.append_assoc, List.append_assoc] at same
        have kept := rewrites.apart _ _ _ same
        rw [kept] at same ⊢
        have behind := ih (List.cons.inj (List.append_cancel_left same)).2
        rw [behind]
        rfl
    · next isWord =>
      rw [if_neg isWord] at same
      have longer : (char :: word).reverse ++ value = word.reverse ++ char :: value := by
        rw [List.reverse_cons, List.append_assoc]
        rfl
      rw [← longer] at same ⊢
      exact ih same

theorem newline_notMem_rewriteWordsFrom (rewrites : RewritesApart rewriteSuite) {word value : Text}
    (noWord : '\n' ∉ word) (noValue : '\n' ∉ value) :
    '\n' ∉ rewriteWordsFrom rewriteSuite word value := by
  have written : '\n' ∉ rewriteSuite word.reverse :=
    rewrites.noNewline _ (by rwa [List.mem_reverse])
  induction value generalizing word with
  | nil =>
    rw [rewriteWordsFrom]
    split
    · exact List.not_mem_nil
    · exact written
  | cons char value ih =>
    rw [List.mem_cons, not_or] at noValue
    rw [rewriteWordsFrom]
    split
    · rw [List.mem_append, List.mem_cons, not_or, not_or]
      refine ⟨?_, noValue.1, ih List.not_mem_nil noValue.2
        (rewrites.noNewline _ List.not_mem_nil)⟩
      split
      · exact List.not_mem_nil
      · exact written
    · have noLonger : '\n' ∉ char :: word := by
        rw [List.mem_cons, not_or]
        exact ⟨noValue.1, noWord⟩
      exact ih noLonger noValue.2
        (rewrites.noNewline _ (by rwa [List.mem_reverse]))

theorem deb822Pattern_some {value replacement after : Text} {last : Option Char}
    (isMatch : deb822Pattern rewriteSuite value = some (replacement, last, after)) :
    ∃ suites, matchSuitesLine value = some (suites, after) ∧
      replacement = SUITES_FIELD ++ rewriteWords rewriteSuite suites ∧
      last = (text ":" ++ suites).getLast? := by
  obtain ⟨⟨suites, behind⟩, found, same⟩ := Option.map_eq_some_iff.1 isMatch
  cases same
  exact ⟨suites, found, rfl, rfl⟩

theorem lawful_deb822Pattern (rewrites : RewritesApart rewriteSuite) :
    LawfulPattern (deb822Pattern rewriteSuite) where
  consumes value replacement last after isMatch := by
    obtain ⟨suites, found, -, -⟩ := deb822Pattern_some isMatch
    obtain ⟨field, folds, split, -⟩ := matchSuitesLine_some found
    have positive : 0 < SUITES_FIELD.length := by decide
    rw [split, List.length_append, List.length_append, folds.length]
    omega
  inLine line rest := by
    rw [deb822Pattern, matchSuitesLine_line, deb822Pattern, Option.map_map, Option.map_map]
    rfl
  noNewline line replacement last after oneLine isMatch := by
    obtain ⟨suites, found, rfl, -⟩ := deb822Pattern_some isMatch
    obtain ⟨field, folds, split, -⟩ := matchSuitesLine_some found
    rw [split, List.mem_append, List.mem_append, not_or, not_or] at oneLine
    rw [List.mem_append, not_or]
    refine ⟨⟨by decide, ?_⟩, oneLine.2.2⟩
    exact newline_notMem_rewriteWordsFrom rewrites List.not_mem_nil oneLine.2.1

theorem replacesApart_deb822Pattern (rewrites : RewritesApart rewriteSuite) :
    ReplacesApart (deb822Pattern rewriteSuite) := by
  intro value replacement last after isMatch
  obtain ⟨suites, found, rfl, -⟩ := deb822Pattern_some isMatch
  obtain ⟨field, folds, split, -⟩ := matchSuitesLine_some found
  refine ⟨field ++ suites, by rw [split, List.append_assoc], ?_⟩
  intro rest others same
  rw [List.append_assoc, List.append_assoc] at same
  obtain ⟨isField, words⟩ := List.append_inj same folds.length.symm
  have kept : rewriteWords rewriteSuite suites = suites := by
    apply rewriteWordsFrom_apart rewrites
    exact words
  rw [kept, isField]

end Rewriting

end Paratix.Upgrade
