/-
Module: Paratix.Foundation.LinePattern
Purpose: Globs, patterns anchored at the start of a line or at a word boundary, and what they see of
  texts that are put together.
Main exports: Piece, matchHere_number
-/
import Mathlib.Data.List.Basic
import Mathlib.Data.List.Infix
import Paratix.Foundation.Columns

namespace Foundation

variable {α : Type*} {star any : α}

/-- The pattern, with `star` for any text and `any` for any character, matches the
whole text. -/
inductive GlobMatches (star any : α) : List α → List α → Prop where
  | nil : GlobMatches star any [] []
  | star {pattern rest : List α} (skipped : List α) (matched : GlobMatches star any pattern rest) :
      GlobMatches star any (star :: pattern) (skipped ++ rest)
  | any {pattern text : List α} (char : α) (isAny : any ≠ star)
      (matched : GlobMatches star any pattern text) :
      GlobMatches star any (any :: pattern) (char :: text)
  | literal {pattern text : List α} (char : α) (notStar : char ≠ star)
      (matched : GlobMatches star any pattern text) :
      GlobMatches star any (char :: pattern) (char :: text)

theorem globMatches_nil_iff {text : List α} : GlobMatches star any [] text ↔ text = [] := by
  constructor
  · intro matched
    cases matched with
    | nil => rfl
  · rintro rfl
    exact .nil

theorem globMatches_star_iff {pattern text : List α} : GlobMatches star any (star :: pattern) text ↔
      ∃ skipped, GlobMatches star any pattern (text.drop skipped) := by
  constructor
  · intro matched
    cases matched with
    | star skipped matched =>
      refine ⟨skipped.length, ?_⟩
      rw [List.drop_left]
      exact matched
    | any char isAny _ => exact absurd rfl isAny
    | literal char notStar _ => exact absurd rfl notStar
  · rintro ⟨skipped, matched⟩
    have whole := GlobMatches.star (text.take skipped) matched
    rwa [List.take_append_drop] at whole

theorem globMatches_cons_iff {head : α} (notStar : head ≠ star) {pattern text : List α} :
    GlobMatches star any (head :: pattern) text ↔
      ∃ char rest, text = char :: rest ∧ (head = any ∨ head = char) ∧
        GlobMatches star any pattern rest := by
  constructor
  · intro matched
    cases matched with
    | star skipped _ => exact absurd rfl notStar
    | any char _ matched => exact ⟨char, _, rfl, .inl rfl, matched⟩
    | literal char _ matched => exact ⟨head, _, rfl, .inr rfl, matched⟩
  · rintro ⟨char, rest, rfl, fits, matched⟩
    rcases fits with isAny | isChar
    · subst isAny
      exact .any char notStar matched
    · subst isChar
      exact .literal head notStar matched

/-- Only stars match the empty text. -/
theorem globMatches_empty_iff {pattern : List α} :
    GlobMatches star any pattern [] ↔ ∀ char ∈ pattern, char = star := by
  induction pattern with
  | nil =>
    rw [globMatches_nil_iff]
    exact iff_of_true rfl fun char member => absurd member List.not_mem_nil
  | cons head pattern ih =>
    by_cases isStar : head = star
    · rw [isStar, globMatches_star_iff]
      simp only [List.drop_nil, exists_const, ih, List.mem_cons, forall_eq_or_imp, true_and]
    · rw [globMatches_cons_iff isStar]
      constructor
      · rintro ⟨char, rest, empty, _⟩
        cases empty
      · intro allStars
        exact absurd (allStars head List.mem_cons_self) isStar

abbrev Line := List Char

/-- `\w` -/
def isJsWordCharacter (char : Char) : Bool := char.isAlphanum || char = '_'

inductive Piece where
  | literal (text : List Char)
  /-- `\s+` -/
  | spaces
  /-- `\b` after a word character -/
  | wordEnd

/-- `\s+` and what follows it, with every way to end the white space. -/
def matchSpaces (next : List Char → Bool) : List Char → Bool
  | [] => false
  | char :: rest => isJsSpace char && (next rest || matchSpaces next rest)

def endsWord : List Char → Bool
  | [] => true
  | char :: _ => !isJsWordCharacter char

/-- The pieces match at the start of the text. -/
def matchHere : List Piece → List Char → Bool
  | [], _ => true
  | .literal text :: pieces, subject =>
      text.isPrefixOf subject && matchHere pieces (subject.drop text.length)
  | .spaces :: pieces, subject => matchSpaces (matchHere pieces) subject
  | .wordEnd :: pieces, subject => endsWord subject && matchHere pieces subject

def testFrom (pieces : List Piece) : Bool → List Char → Bool
  | atStart, [] => atStart && matchHere pieces []
  | atStart, char :: rest =>
      (atStart && matchHere pieces (char :: rest)) || testFrom pieces (isLineTerminator char) rest

/-- `/^…/m.test(text)` -/
def multilineTest (pieces : List Piece) (text : List Char) : Bool := testFrom pieces true text

def joinLines : List Line → List Char
  | [] => []
  | [line] => line
  | line :: rest => line ++ '\n' :: joinLines rest

/-! ### Lines -/

theorem testFrom_line {pieces : List Piece} {line : Line} (rest : List Char)
    (oneLine : ∀ char ∈ line, isLineTerminator char = false) :
    testFrom pieces false (line ++ rest) = testFrom pieces false rest := by
  induction line with
  | nil => rfl
  | cons char line ih =>
    have inLine := oneLine char List.mem_cons_self
    rw [List.cons_append, testFrom, inLine, Bool.false_and, Bool.false_or]
    exact ih fun own mem => oneLine own (List.mem_cons_of_mem _ mem)

theorem multilineTest_line {pieces : List Piece} {line : Line}
    (oneLine : ∀ char ∈ line, isLineTerminator char = false) :
    multilineTest pieces line = matchHere pieces line := by
  unfold multilineTest
  cases line with
  | nil => rfl
  | cons char rest =>
    have ends := @testFrom_line pieces rest []
      fun own mem => oneLine own (List.mem_cons_of_mem char mem)
    rw [List.append_nil] at ends
    rw [testFrom, oneLine char List.mem_cons_self, ends]
    simp [testFrom]

theorem multilineTest_cons {pieces : List Piece} {line : Line} (rest : List Char)
    (oneLine : ∀ char ∈ line, isLineTerminator char = false) :
    multilineTest pieces (line ++ '\n' :: rest) =
      (matchHere pieces (line ++ '\n' :: rest) || multilineTest pieces rest) := by
  have newline : isLineTerminator '\n' = true := rfl
  unfold multilineTest
  cases line with
  | nil => rw [List.nil_append, testFrom, newline, Bool.true_and]
  | cons char line =>
    rw [List.cons_append, testFrom, oneLine char List.mem_cons_self,
      testFrom_line _ fun own mem => oneLine own (List.mem_cons_of_mem char mem), testFrom,
      newline, Bool.true_and, Bool.false_and, Bool.false_or]

/-- If what a line matches does not depend on the lines after it, the test looks for a
line that matches. -/
theorem multilineTest_joinLines {pieces : List Piece} {lines : List Line} (nonempty : lines ≠ [])
    (oneLine : ∀ line ∈ lines, ∀ char ∈ line, isLineTerminator char = false) (matched : Line → Bool)
    (alone : ∀ line ∈ lines, ∀ tail, tail = [] ∨ tail.head? = some '\n' →
      matchHere pieces (line ++ tail) = matched line) :
    multilineTest pieces (joinLines lines) = lines.any matched := by
  induction lines with
  | nil => exact absurd rfl nonempty
  | cons line rest ih =>
    have ownLine := oneLine line List.mem_cons_self
    have own := alone line List.mem_cons_self
    cases rest with
    | nil =>
      have matches_ := own [] (.inl rfl)
      rw [List.append_nil] at matches_
      rw [joinLines, multilineTest_line ownLine, matches_]
      simp
    | cons next others =>
      rw [joinLines, multilineTest_cons _ ownLine, own _ (.inr rfl),
        ih (List.cons_ne_nil _ _)
          (fun line mem => oneLine line (List.mem_cons_of_mem _ mem))
          (fun line mem => alone line (List.mem_cons_of_mem _ mem))]
      · rfl
      · exact List.cons_ne_nil _ _

theorem infix_joinLines {lines : List Line} {line : Line} (mem : line ∈ lines) :
    line <:+: joinLines lines := by
  induction lines with
  | nil => cases mem
  | cons first rest ih =>
    cases rest with
    | nil =>
      rw [List.mem_singleton.1 mem]
      exact List.infix_refl _
    | cons next others =>
      rw [joinLines]
      · rcases List.mem_cons.1 mem with rfl | isLater
        · exact (List.prefix_append _ _).isInfix
        · exact (ih isLater).trans
            ((List.suffix_cons _ _).trans (List.suffix_append _ _)).isInfix
      · exact List.cons_ne_nil _ _

/-- A text without the cut ends before it. -/
theorem split_before_cut {α : Type*} {text rest front back : List α} {cut : α}
    (absent : cut ∉ text) (split : text ++ rest = front ++ cut :: back) :
    ∃ more, front = text ++ more ∧ rest = more ++ cut :: back := by
  rcases List.append_eq_append_iff.1 split with ⟨more, isFront, isRest⟩ | ⟨more, isText, isCut⟩
  · exact ⟨more, isFront, isRest⟩
  · cases more with
    | nil => exact ⟨[], by rw [isText, List.append_nil, List.append_nil], isCut.symm⟩
    | cons first more =>
      obtain ⟨rfl, _⟩ := List.cons.inj isCut
      rw [isText] at absent
      exact absurd (List.mem_append_right _ List.mem_cons_self) absent

theorem infix_append_cut {α : Type*} {text front back : List α} {cut : α} (absent : cut ∉ text)
    (included : text <:+: front ++ cut :: back) : text <:+: front ∨ text <:+: back := by
  obtain ⟨before, after, split⟩ := included
  rw [List.append_assoc] at split
  rcases List.append_eq_append_iff.1 split with
    ⟨more, rfl, isText⟩ | ⟨more, rfl, isBack⟩
  · obtain ⟨later, rfl, _⟩ := split_before_cut absent isText
    exact .inl ⟨before, later, List.append_assoc ..⟩
  · cases more with
    | nil =>
      cases text with
      | nil => exact .inl List.nil_infix
      | cons first text =>
        rw [(List.cons.inj isBack).1] at absent
        exact absurd List.mem_cons_self absent
    | cons first more =>
      refine .inr ⟨more, after, ?_⟩
      rw [List.append_assoc, (List.cons.inj isBack).2]
      rfl

/-- A text that starts with a character that the front lacks stands behind it. -/
theorem infix_append_of_notMem {α : Type*} {head : α} {rest front back : List α}
    (absent : head ∉ front) : head :: rest <:+: front ++ back ↔ head :: rest <:+: back := by
  constructor
  · rintro ⟨before, after, split⟩
    rw [List.append_assoc] at split
    rcases List.append_eq_append_iff.1 split with ⟨more, rfl, isText⟩ | ⟨more, rfl, isBack⟩
    · cases more with
      | nil => exact ⟨[], after, isText⟩
      | cons first more =>
        rw [← (List.cons.inj isText).1] at absent
        exact absurd (List.mem_append_right _ List.mem_cons_self) absent
    · exact ⟨more, after, by rw [isBack, List.append_assoc]⟩
  · exact fun included => included.trans (List.suffix_append _ _).isInfix

/-- A text within one line stands in one of the lines. -/
theorem infix_joinLines_iff {text : List Char} (oneLine : '\n' ∉ text) {lines : List Line}
    (nonempty : lines ≠ []) : text <:+: joinLines lines ↔ ∃ line ∈ lines, text <:+: line := by
  constructor
  · intro included
    induction lines with
    | nil => exact absurd rfl nonempty
    | cons first rest ih =>
      cases rest with
      | nil => exact ⟨first, List.mem_cons_self, included⟩
      | cons next others =>
        rw [joinLines] at included
        · rcases infix_append_cut oneLine included with inFirst | inRest
          · exact ⟨first, List.mem_cons_self, inFirst⟩
          · obtain ⟨line, mem, inLine⟩ := ih (List.cons_ne_nil _ _) inRest
            exact ⟨line, List.mem_cons_of_mem _ mem, inLine⟩
        · exact List.cons_ne_nil _ _
  · rintro ⟨line, mem, inLine⟩
    exact inLine.trans (infix_joinLines mem)

theorem mem_joinLines {lines : List Line} {char : Char} (mem : char ∈ joinLines lines) :
    char = '\n' ∨ ∃ line ∈ lines, char ∈ line := by
  induction lines with
  | nil => cases mem
  | cons first rest ih =>
    cases rest with
    | nil => exact .inr ⟨first, List.mem_cons_self, mem⟩
    | cons next others =>
      rw [joinLines, List.mem_append, List.mem_cons] at mem
      · rcases mem with isFirst | isNewline | isLater
        · exact .inr ⟨first, List.mem_cons_self, isFirst⟩
        · exact .inl isNewline
        · exact (ih isLater).imp_right fun ⟨line, own, inLine⟩ =>
            ⟨line, List.mem_cons_of_mem _ own, inLine⟩
      · exact List.cons_ne_nil _ _

/-! ### Pieces -/

theorem matchHere_literal (text : List Char) (pieces : List Piece) (rest : List Char) :
    matchHere (.literal text :: pieces) (text ++ rest) = matchHere pieces rest := by
  have isPrefix : text.isPrefixOf (text ++ rest) = true :=
    List.isPrefixOf_iff_prefix.2 (List.prefix_append text rest)
  rw [matchHere, isPrefix, List.drop_left, Bool.true_and]

theorem matchHere_literal_append (text more : List Char) (pieces : List Piece)
    (subject : List Char) : matchHere (.literal (text ++ more) :: pieces) subject =
      matchHere (.literal text :: .literal more :: pieces) subject := by
  by_cases starts : text <+: subject
  · obtain ⟨rest, rfl⟩ := starts
    rw [matchHere_literal, matchHere, matchHere, List.length_append, ← List.drop_drop,
      List.drop_left]
    congr 1
    rw [Bool.eq_iff_iff, List.isPrefixOf_iff_prefix, List.isPrefixOf_iff_prefix,
      List.prefix_append_right_inj]
  · have textFails : text.isPrefixOf subject = false := by
      rw [← Bool.not_eq_true, List.isPrefixOf_iff_prefix]
      exact starts
    have bothFail : (text ++ more).isPrefixOf subject = false := by
      rw [← Bool.not_eq_true, List.isPrefixOf_iff_prefix]
      exact fun both => starts ((List.prefix_append text more).trans both)
    rw [matchHere, matchHere, textFails, bothFail, Bool.false_and, Bool.false_and]

/-- Where the next piece takes no white space, the white space ends where it ends. -/
theorem matchHere_spaces {pieces : List Piece} {gap rest : List Char} {head : Char}
    (gapNonempty : gap ≠ []) (gapSpace : ∀ char ∈ gap, isJsSpace char = true)
    (starts : isJsSpace head = false)
    (refuses : ∀ char rest, isJsSpace char = true → matchHere pieces (char :: rest) = false) :
    matchHere (.spaces :: pieces) (gap ++ head :: rest) = matchHere pieces (head :: rest) := by
  have noMore : matchSpaces (matchHere pieces) (head :: rest) = false := by
    rw [matchSpaces, starts, Bool.false_and]
  change matchSpaces (matchHere pieces) (gap ++ head :: rest) = matchHere pieces (head :: rest)
  induction gap with
  | nil => exact absurd rfl gapNonempty
  | cons char gap ih =>
    rw [List.cons_append, matchSpaces, gapSpace char List.mem_cons_self, Bool.true_and]
    cases gap with
    | nil => rw [List.nil_append, noMore, Bool.or_false]
    | cons next gap =>
      have isSpace := gapSpace next (List.mem_cons_of_mem _ List.mem_cons_self)
      rw [List.cons_append, refuses next _ isSpace, Bool.false_or, ← List.cons_append]
      exact ih (List.cons_ne_nil _ _) fun own mem => gapSpace own (List.mem_cons_of_mem _ mem)

/-! ### Decimal numbers -/

/-- `String(value)` -/
def decimal (value : Nat) : List Char := Nat.toDigits 10 value

theorem isDigit_of_mem_decimal {value : Nat} {char : Char} (mem : char ∈ decimal value) :
    char.isDigit = true :=
  Nat.isDigit_of_mem_toDigits (by decide) (le_refl _) mem

theorem decimal_injective {value other : Nat} (same : decimal value = decimal other) :
    value = other := by
  have values := congrArg (fun digits => Nat.ofDigitChars 10 digits 0) same
  simpa only [decimal, Nat.ofDigitChars_ten_toDigits] using values

/-- A number is matched as a whole if what follows it matches no digit. -/
theorem matchHere_decimal {pieces : List Piece} {value other : Nat} {head : Char}
    {rest : List Char} (starts : head.isDigit = false)
    (refuses : ∀ char rest, char.isDigit = true → matchHere pieces (char :: rest) = false) :
    matchHere (.literal (decimal value) :: pieces) (decimal other ++ head :: rest) =
      (decide (value = other) && matchHere pieces (head :: rest)) := by
  by_cases same : value = other
  · subst same
    rw [matchHere_literal, decide_eq_true rfl, Bool.true_and]
  rw [decide_eq_false same, Bool.false_and, ← Bool.not_eq_true, matchHere, Bool.and_eq_true,
    List.isPrefixOf_iff_prefix]
  rintro ⟨⟨tail, isSplit⟩, matches_⟩
  rw [← isSplit, List.drop_left] at matches_
  -- the first number ends inside the second one, so what follows it is a digit
  rcases List.append_eq_append_iff.1 isSplit with ⟨more, isOther, isTail⟩ | ⟨more, isValue, isRest⟩
  · cases more with
    | nil =>
      rw [List.append_nil] at isOther
      exact same (decimal_injective isOther).symm
    | cons digit more =>
      have isDigit : digit.isDigit = true :=
        isDigit_of_mem_decimal (isOther ▸ List.mem_append_right _ List.mem_cons_self)
      rw [isTail, List.cons_append, refuses digit _ isDigit] at matches_
      cases matches_
  · cases more with
    | nil =>
      rw [List.append_nil] at isValue
      exact same (decimal_injective isValue)
    | cons digit more =>
      have isHead : head = digit := (List.cons.inj isRest).1
      have isDigit : digit.isDigit = true :=
        isDigit_of_mem_decimal (isValue ▸ List.mem_append_right _ List.mem_cons_self)
      rw [isHead, isDigit] at starts
      cases starts

/-- `/\b…/.test(text)` for pieces that start with a word character; the flag says that a word
character stands before the text. -/
def wordTest (pieces : List Piece) : Bool → List Char → Bool
  | afterWord, [] => !afterWord && matchHere pieces []
  | afterWord, char :: rest =>
      (!afterWord && matchHere pieces (char :: rest)) ||
        wordTest pieces (isJsWordCharacter char) rest

/-- `/\bkeyword\s+number\b/` without the boundary before the keyword -/
def pairPattern (keyword : List Char) (number : Nat) : List Piece :=
  [.literal keyword, .spaces, .literal (decimal number), .wordEnd]

theorem wordTest_mono {pieces others : List Piece}
    (implies : ∀ text, matchHere pieces text = true → matchHere others text = true)
    (afterWord : Bool) (text : List Char) (matched : wordTest pieces afterWord text = true) :
    wordTest others afterWord text = true := by
  induction text generalizing afterWord with
  | nil =>
    rw [wordTest, Bool.and_eq_true] at matched ⊢
    exact ⟨matched.1, implies _ matched.2⟩
  | cons char rest ih =>
    rw [wordTest, Bool.or_eq_true, Bool.and_eq_true] at matched ⊢
    rcases matched with ⟨boundary, here⟩ | later
    · exact .inl ⟨boundary, implies _ here⟩
    · exact .inr (ih _ later)

/-! ### What the pattern matches -/

theorem matchSpaces_iff {next : List Char → Bool} {text : List Char} :
    matchSpaces next text = true ↔ ∃ gap rest, text = gap ++ rest ∧ gap ≠ [] ∧
      (∀ char ∈ gap, isJsSpace char = true) ∧ next rest = true := by
  induction text with
  | nil =>
    refine iff_of_false Bool.false_ne_true ?_
    rintro ⟨gap, rest, split, nonempty, _⟩
    exact nonempty (List.append_eq_nil_iff.1 split.symm).1
  | cons char text ih =>
    rw [matchSpaces, Bool.and_eq_true, Bool.or_eq_true, ih]
    constructor
    · rintro ⟨isSpace, here | ⟨gap, rest, rfl, _, spaces, matched⟩⟩
      · exact ⟨[char], text, rfl, List.cons_ne_nil _ _, List.forall_mem_singleton.2 isSpace, here⟩
      · exact ⟨char :: gap, rest, rfl, List.cons_ne_nil _ _,
          List.forall_mem_cons.2 ⟨isSpace, spaces⟩, matched⟩
    · rintro ⟨gap, rest, split, nonempty, spaces, matched⟩
      cases gap with
      | nil => exact absurd rfl nonempty
      | cons first gap =>
        obtain ⟨rfl, rfl⟩ := List.cons.inj split
        refine ⟨spaces _ List.mem_cons_self, ?_⟩
        cases gap with
        | nil => exact .inl matched
        | cons second gap =>
          exact .inr ⟨second :: gap, rest, rfl, List.cons_ne_nil _ _,
            fun char mem => spaces char (List.mem_cons_of_mem _ mem), matched⟩

theorem matchHere_literal_iff {text subject : List Char} {pieces : List Piece} :
    matchHere (.literal text :: pieces) subject = true ↔
      ∃ rest, subject = text ++ rest ∧ matchHere pieces rest = true := by
  constructor
  · intro matched
    rw [matchHere, Bool.and_eq_true, List.isPrefixOf_iff_prefix] at matched
    obtain ⟨⟨rest, rfl⟩, later⟩ := matched
    rw [List.drop_left] at later
    exact ⟨rest, rfl, later⟩
  · rintro ⟨rest, rfl, later⟩
    rw [matchHere_literal]
    exact later

section Pair

variable {keyword : List Char} {number : Nat}

theorem matchHere_pair_iff {text : List Char} : matchHere (pairPattern keyword number) text = true ↔
      ∃ gap rest, text = keyword ++ (gap ++ (decimal number ++ rest)) ∧ gap ≠ [] ∧
        (∀ char ∈ gap, isJsSpace char = true) ∧ endsWord rest = true := by
  rw [pairPattern, matchHere_literal_iff]
  constructor
  · rintro ⟨rest, rfl, matched⟩
    obtain ⟨gap, rest, rfl, nonempty, spaces, later⟩ := matchSpaces_iff.1 matched
    obtain ⟨rest, rfl, ends⟩ := matchHere_literal_iff.1 later
    rw [matchHere, Bool.and_eq_true] at ends
    exact ⟨gap, rest, rfl, nonempty, spaces, ends.1⟩
  · rintro ⟨gap, rest, rfl, nonempty, spaces, ends⟩
    refine ⟨_, rfl, matchSpaces_iff.2 ⟨gap, _, rfl, nonempty, spaces, ?_⟩⟩
    apply matchHere_literal_iff.2
    exact ⟨rest, rfl, by rw [matchHere, ends]; rfl⟩

/-! ### Texts that are cut -/

/-- No match goes over the character: it belongs to no word, and to no white space that could
stand before a number. -/
def Cuts (cut : Char) (back : List Char) : Prop :=
  isJsWordCharacter cut = false ∧ (isJsSpace cut = true → ∃ head rest, back = head :: rest ∧
    isJsSpace head = false ∧ head.isDigit = false)

theorem isJsWordCharacter_of_isDigit {char : Char} (isDigit : char.isDigit = true) :
    isJsWordCharacter char = true := by
  simp [isJsWordCharacter, Char.isAlphanum, isDigit]

theorem exists_digit_of_decimal (number : Nat) :
    ∃ digit digits, decimal number = digit :: digits ∧ digit.isDigit = true := by
  obtain ⟨digit, digits, isDecimal⟩ := List.exists_cons_of_ne_nil
    (Nat.toDigits_ne_nil : Nat.toDigits 10 number ≠ [])
  refine ⟨digit, digits, isDecimal, ?_⟩
  have mem : digit ∈ decimal number := by
    rw [decimal, isDecimal]
    exact List.mem_cons_self
  exact isDigit_of_mem_decimal mem

theorem matchHere_cut (isWord : ∀ char ∈ keyword, isJsWordCharacter char = true)
    {cut : Char} {back : List Char} (cuts : Cuts cut back) (front : List Char) :
    matchHere (pairPattern keyword number) (front ++ cut :: back) =
      matchHere (pairPattern keyword number) front := by
  have notIn {text : List Char} (word : ∀ char ∈ text, isJsWordCharacter char = true) :
      cut ∉ text := by
    intro member
    have isWordCut := word cut member
    rw [cuts.1] at isWordCut
    cases isWordCut
  have notInNumber : cut ∉ decimal number := notIn fun char mem =>
    isJsWordCharacter_of_isDigit (isDigit_of_mem_decimal mem)
  rw [Bool.eq_iff_iff, matchHere_pair_iff, matchHere_pair_iff]
  constructor
  · rintro ⟨gap, rest, split, nonempty, spaces, ends⟩
    obtain ⟨afterWord, rfl, afterSplit⟩ := split_before_cut (notIn isWord) split.symm
    have reaches : ∃ more, afterWord = gap ++ more ∧
        decimal number ++ rest = more ++ cut :: back := by
      rcases List.append_eq_append_iff.1 afterSplit with
        ⟨more, isFront, isRest⟩ | ⟨more, isGap, isBack⟩
      · exact ⟨more, isFront, isRest⟩
      · -- the white space would go over the cut, up to the number
        obtain ⟨digit, digits, isDecimal, isDigit⟩ := exists_digit_of_decimal number
        rw [isDecimal] at isBack
        cases more with
        | nil =>
          have wordCut := isJsWordCharacter_of_isDigit isDigit
          rw [← (List.cons.inj isBack).1, cuts.1] at wordCut
          cases wordCut
        | cons first more =>
          obtain ⟨rfl, backRest⟩ := List.cons.inj isBack
          have inGap : cut ∈ gap := by
            rw [isGap]
            exact List.mem_append_right _ List.mem_cons_self
          obtain ⟨head, others, isHead, notSpace, notDigit⟩ := cuts.2 (spaces cut inGap)
          rw [isHead] at backRest
          cases more with
          | nil =>
            rw [(List.cons.inj backRest).1, isDigit] at notDigit
            cases notDigit
          | cons second more =>
            have headInGap : head ∈ gap := by
              rw [isGap, (List.cons.inj backRest).1]
              exact List.mem_append_right _ (List.mem_cons_of_mem _ List.mem_cons_self)
            rw [spaces head headInGap] at notSpace
            cases notSpace
    obtain ⟨afterGap, rfl, numberSplit⟩ := reaches
    obtain ⟨afterNumber, rfl, rfl⟩ := split_before_cut notInNumber numberSplit
    refine ⟨gap, afterNumber, rfl, nonempty, spaces, ?_⟩
    cases afterNumber with
    | nil => rfl
    | cons first others => exact ends
  · rintro ⟨gap, rest, rfl, nonempty, spaces, ends⟩
    refine ⟨gap, rest ++ cut :: back, by simp only [List.append_assoc], nonempty, spaces, ?_⟩
    cases rest with
    | nil => rw [List.nil_append, endsWord, cuts.1]; rfl
    | cons first others => exact ends

/-- A test sees the two sides of a cut on their own. -/
theorem wordTest_cut (isWord : ∀ char ∈ keyword, isJsWordCharacter char = true)
    {cut : Char} {back : List Char} (cuts : Cuts cut back) (afterWord : Bool) (front : List Char) :
    wordTest (pairPattern keyword number) afterWord (front ++ cut :: back) =
      (wordTest (pairPattern keyword number) afterWord front ||
        wordTest (pairPattern keyword number) false back) := by
  induction front generalizing afterWord with
  | nil =>
    have here := @matchHere_cut keyword number isWord cut back cuts []
    rw [List.nil_append] at here ⊢
    rw [wordTest, wordTest, here, cuts.1]
  | cons char front ih =>
    have here := @matchHere_cut keyword number isWord cut back cuts (char :: front)
    rw [List.cons_append] at here ⊢
    rw [wordTest, here, ih, wordTest, Bool.or_assoc]

theorem matchHere_empty (nonempty : keyword ≠ []) :
    matchHere (pairPattern keyword number) [] = false := by
  cases keyword with
  | nil => exact absurd rfl nonempty
  | cons first keyword => rfl

/-- The lines start with neither white space nor a digit. -/
def LineStarts (line : Line) : Prop :=
  ∃ head rest, line = head :: rest ∧ isJsSpace head = false ∧ head.isDigit = false

/-- No match goes over the end of a line. -/
theorem wordTest_joinLines (isWord : ∀ char ∈ keyword, isJsWordCharacter char = true)
    (nonempty : keyword ≠ []) {lines : List Line} (starts : ∀ line ∈ lines, LineStarts line) :
    wordTest (pairPattern keyword number) false (joinLines lines) =
      lines.any (wordTest (pairPattern keyword number) false) := by
  induction lines with
  | nil => exact matchHere_empty nonempty
  | cons line rest ih =>
    cases rest with
    | nil => rw [joinLines, List.any_cons, List.any_nil, Bool.or_false]
    | cons next others =>
      have cuts : Cuts '\n' (joinLines (next :: others)) := by
        refine ⟨rfl, fun _ => ?_⟩
        obtain ⟨head, more, isNext, notSpace, notDigit⟩ :=
          starts next (List.mem_cons_of_mem _ List.mem_cons_self)
        rw [isNext]
        cases others with
        | nil => exact ⟨head, more, rfl, notSpace, notDigit⟩
        | cons third others => exact ⟨head, _, rfl, notSpace, notDigit⟩
      rw [joinLines, wordTest_cut isWord cuts, List.any_cons,
        ih fun line mem => starts line (List.mem_cons_of_mem _ mem)]
      exact List.cons_ne_nil _ _

/-! ### Texts without a match -/

theorem matchHere_other {char : Char} (rest : List Char) (nonempty : keyword ≠ [])
    (other : keyword.head? ≠ some char) :
    matchHere (pairPattern keyword number) (char :: rest) = false := by
  cases keyword with
  | nil => exact absurd rfl nonempty
  | cons first keyword =>
    have different : first ≠ char := fun same => other (by rw [same]; rfl)
    simp [pairPattern, matchHere, List.isPrefixOf, different]

/-- Where the keyword cannot start the test goes on. -/
theorem wordTest_skip (nonempty : keyword ≠ []) {front : List Char}
    (others : ∀ char ∈ front, keyword.head? ≠ some char) (afterWord : Bool) (back : List Char) :
    ∃ later, wordTest (pairPattern keyword number) afterWord (front ++ back) =
      wordTest (pairPattern keyword number) later back := by
  induction front generalizing afterWord with
  | nil => exact ⟨afterWord, rfl⟩
  | cons char front ih =>
    rw [List.forall_mem_cons] at others
    obtain ⟨later, same⟩ := ih others.2 (isJsWordCharacter char)
    refine ⟨later, ?_⟩
    rw [List.cons_append, wordTest, matchHere_other _ nonempty others.1, Bool.and_false,
      Bool.false_or, same]

end Pair

/-- A number at a word boundary is matched as a whole. -/
theorem matchHere_number {number other : Nat} {rest : List Char} (ends : endsWord rest = true) :
    matchHere [.literal (decimal number), .wordEnd] (decimal other ++ rest) =
      decide (number = other) := by
  have noDigit {digit : Char} {more digits : List Char} (value : Nat)
      (inNumber : decimal value = digits ++ digit :: more) {tail : List Char}
      (isTail : endsWord (digit :: tail) = true) : False := by
    have isDigit : digit.isDigit = true := by
      apply @isDigit_of_mem_decimal value
      rw [inNumber]
      exact List.mem_append_right _ List.mem_cons_self
    rw [endsWord, isJsWordCharacter_of_isDigit isDigit] at isTail
    cases isTail
  rw [Bool.eq_iff_iff, matchHere_literal_iff, decide_eq_true_iff]
  constructor
  · rintro ⟨later, split, matched⟩
    rw [matchHere, Bool.and_eq_true] at matched
    rcases List.append_eq_append_iff.1 split with
      ⟨more, isNumber, isRest⟩ | ⟨more, isOther, isLater⟩
    · cases more with
      | nil => exact decimal_injective (by rw [isNumber, List.append_nil])
      | cons digit more =>
        rw [isRest] at ends
        exact absurd ends fun isTail => noDigit number isNumber isTail
    · cases more with
      | nil => exact decimal_injective (by rw [isOther, List.append_nil])
      | cons digit more =>
        rw [isLater] at matched
        exact absurd matched.1 fun isTail => noDigit other isOther isTail
  · rintro rfl
    exact ⟨rest, rfl, by rw [matchHere, ends]; rfl⟩

end Foundation
