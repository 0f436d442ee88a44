/-
Module: Paratix.Foundation.Words
Purpose: Trimming a text and splitting it at its white space.
Main exports: trim, splitSpaces_joinWords
-/
import Mathlib.Data.List.DropRight
import Paratix.Foundation.Columns

namespace Foundation

/-- `text.trim()` -/
def trim (text : List Char) : List Char :=
  ((text.dropWhile isJsSpace).reverse.dropWhile isJsSpace).reverse

/-- `text.trimEnd()` -/
def trimEnd (text : List Char) : List Char := text.rdropWhile isJsSpace

/-- `split(/\s+/)` of a text that follows white space or not -/
def splitSpacesFrom : Bool → List Char → List (List Char)
  | _, [] => [[]]
  | afterSpace, char :: rest =>
      if isJsSpace char then
        if afterSpace then splitSpacesFrom true rest else [] :: splitSpacesFrom true rest
      else
        match splitSpacesFrom false rest with
        | [] => [[char]]
        | word :: words => (char :: word) :: words

/-- `text.split(/\s+/)` -/
def splitSpaces (text : List Char) : List (List Char) := splitSpacesFrom false text

/-! ### Trimming -/

theorem dropWhile_space_eq_self {text : List Char}
    (starts : ∀ head, text.head? = some head → isJsSpace head = false) :
    text.dropWhile isJsSpace = text := by
  cases text with
  | nil => rfl
  | cons head rest => rw [List.dropWhile_cons_of_neg (by simp [starts head rfl])]

/-- A text without white space at its ends is trimmed already. -/
theorem trim_eq_self {text : List Char}
    (starts : ∀ head, text.head? = some head → isJsSpace head = false)
    (ends : ∀ last, text.getLast? = some last → isJsSpace last = false) : trim text = text := by
  have reversed : text.reverse.dropWhile isJsSpace = text.reverse := by
    refine dropWhile_space_eq_self fun head isHead => ends head ?_
    rwa [List.head?_reverse] at isHead
  rw [trim, dropWhile_space_eq_self starts, reversed, List.reverse_reverse]

/-- White space before a text is trimmed. -/
theorem trim_append {blank text : List Char} (isBlank : ∀ char ∈ blank, isJsSpace char = true) :
    trim (blank ++ text) = trim text := by
  rw [trim, List.dropWhile_append_of_pos isBlank, trim]

theorem trim_blank {blank : List Char} (isBlank : ∀ char ∈ blank, isJsSpace char = true) :
    trim blank = [] := by
  have trimmed := @trim_append blank [] isBlank
  rwa [List.append_nil] at trimmed

/-- A trimmed text does not start with white space. -/
theorem trim_head {text : List Char} {head : Char} (isHead : (trim text).head? = some head) :
    isJsSpace head = false := by
  have isPrefix : trim text <+: text.dropWhile isJsSpace := List.rdropWhile_prefix _ _
  obtain ⟨behind, split⟩ := isPrefix
  have nonempty : trim text ≠ [] := by
    intro empty
    rw [empty] at isHead
    cases isHead
  have first : (text.dropWhile isJsSpace).head? = some head := by
    rw [← split, List.head?_append_of_ne_nil _ nonempty]
    exact isHead
  have notSpace := List.head?_dropWhile_not isJsSpace text
  rw [first] at notSpace
  exact notSpace

/-- It does not end with white space. -/
theorem trim_last {text : List Char} {last : Char} (isLast : (trim text).getLast? = some last) :
    isJsSpace last = false := by
  rw [trim, List.getLast?_reverse] at isLast
  have notSpace := List.head?_dropWhile_not isJsSpace (text.dropWhile isJsSpace).reverse
  rw [isLast] at notSpace
  exact notSpace

theorem trim_trim (text : List Char) : trim (trim text) = trim text :=
  trim_eq_self (fun _ => trim_head) fun _ => trim_last

theorem isPrefix_trimEnd (text : List Char) : trimEnd text <+: text := List.rdropWhile_prefix _ _

theorem trimEnd_idem (text : List Char) : trimEnd (trimEnd text) = trimEnd text :=
  List.rdropWhile_idempotent _ _

theorem trimEnd_eq_nil_iff {text : List Char} :
    trimEnd text = [] ↔ ∀ char ∈ text, isJsSpace char = true :=
  List.rdropWhile_eq_nil_iff

/-- White space behind a text is trimmed. -/
theorem trimEnd_append_blank {blank : List Char} (text : List Char)
    (isBlank : ∀ char ∈ blank, isJsSpace char = true) :
    trimEnd (text ++ blank) = trimEnd text := by
  have reversed : ∀ char ∈ blank.reverse, isJsSpace char = true := fun char mem =>
    isBlank char (List.mem_reverse.1 mem)
  rw [trimEnd, List.rdropWhile, List.reverse_append, List.dropWhile_append_of_pos reversed,
    trimEnd, List.rdropWhile]

/-- What stands before a text that is not blank is not trimmed. -/
theorem trimEnd_append {last : List Char} (text : List Char) (notBlank : trimEnd last ≠ []) :
    trimEnd (text ++ last) = text ++ trimEnd last := by
  have kept : last.reverse.dropWhile isJsSpace ≠ [] := by
    intro empty
    apply notBlank
    rw [trimEnd, List.rdropWhile, empty]
    rfl
  rw [trimEnd, List.rdropWhile, List.reverse_append, List.dropWhile_append, if_neg,
    List.reverse_append, List.reverse_reverse, trimEnd, List.rdropWhile]
  rw [List.isEmpty_iff]
  exact kept

/-- White space behind a text is trimmed. -/
theorem trim_append_blank {blank : List Char} (text : List Char)
    (isBlank : ∀ char ∈ blank, isJsSpace char = true) : trim (text ++ blank) = trim text := by
  have trimmed : ∀ text, trim text = trimEnd (text.dropWhile isJsSpace) := fun _ => rfl
  rw [trimmed, trimmed, List.dropWhile_append]
  split
  · next allBlank =>
    rw [List.isEmpty_iff] at allBlank
    rw [allBlank, List.dropWhile_eq_nil_iff.2 isBlank]
  · exact trimEnd_append_blank _ isBlank

/-- Only white space is trimmed. -/
theorem exists_trim (text : List Char) : ∃ before behind, text = before ++ (trim text ++ behind) ∧
    (∀ char ∈ before, isJsSpace char = true) ∧ ∀ char ∈ behind, isJsSpace char = true := by
  refine ⟨text.takeWhile isJsSpace, (text.dropWhile isJsSpace).rtakeWhile isJsSpace, ?_,
    fun char mem => List.mem_takeWhile_imp mem, fun char mem => List.mem_rtakeWhile_imp mem⟩
  have ends : trim text ++ (text.dropWhile isJsSpace).rtakeWhile isJsSpace =
      text.dropWhile isJsSpace := List.rdropWhile_append_rtakeWhile
  rw [ends, List.takeWhile_append_dropWhile]

theorem mem_of_mem_trim {text : List Char} {char : Char} (mem : char ∈ trim text) :
    char ∈ text := by
  obtain ⟨before, behind, split, _, _⟩ := exists_trim text
  rw [split]
  exact List.mem_append_right _ (List.mem_append_left _ mem)

/-! ### Splitting -/

/-- A word as a line keeps it: not empty and without white space. -/
def IsWord (word : List Char) : Prop := word ≠ [] ∧ ∀ char ∈ word, isJsSpace char = false

theorem splitSpacesFrom_ne_nil (afterSpace : Bool) (text : List Char) :
    splitSpacesFrom afterSpace text ≠ [] := by
  induction text generalizing afterSpace with
  | nil => exact List.cons_ne_nil _ _
  | cons char rest ih =>
    rw [splitSpacesFrom]
    split
    · split
      · exact ih true
      · exact List.cons_ne_nil _ _
    · split
      · exact List.cons_ne_nil _ _
      · exact List.cons_ne_nil _ _

theorem splitSpacesFrom_space {char : Char} (isSpace : isJsSpace char = true) (afterSpace : Bool)
    (rest : List Char) : splitSpacesFrom afterSpace (char :: rest) =
      if afterSpace then splitSpacesFrom true rest else [] :: splitSpacesFrom true rest :=
  if_pos isSpace

/-- Another character belongs to the first word. -/
theorem splitSpacesFrom_char {char : Char} (notSpace : isJsSpace char = false) (rest : List Char) :
    ∃ word words, splitSpacesFrom false rest = word :: words ∧
      ∀ afterSpace, splitSpacesFrom afterSpace (char :: rest) = (char :: word) :: words := by
  obtain ⟨word, words, split⟩ := List.exists_cons_of_ne_nil (splitSpacesFrom_ne_nil false rest)
  refine ⟨word, words, split, fun afterSpace => (if_neg (Bool.eq_false_iff.1 notSpace)).trans ?_⟩
  rw [split]

theorem splitSpacesFrom_true {text : List Char}
    (starts : ∀ head, text.head? = some head → isJsSpace head = false) :
    splitSpacesFrom true text = splitSpacesFrom false text := by
  cases text with
  | nil => rfl
  | cons head rest =>
    obtain ⟨word, words, _, first⟩ := splitSpacesFrom_char (starts head rfl) rest
    rw [first, first]

theorem splitSpaces_word {word : List Char} (noSpace : ∀ char ∈ word, isJsSpace char = false) :
    splitSpaces word = [word] := by
  unfold splitSpaces
  induction word with
  | nil => rfl
  | cons char word ih =>
    rw [List.forall_mem_cons] at noSpace
    obtain ⟨first, words, split, whole⟩ := splitSpacesFrom_char noSpace.1 word
    rw [ih noSpace.2] at split
    cases split
    exact whole false

/-- No word holds white space. -/
theorem noSpace_of_mem_splitSpaces {text word : List Char} (mem : word ∈ splitSpaces text) :
    ∀ char ∈ word, isJsSpace char = false := by
  have all : ∀ afterSpace, ∀ word ∈ splitSpacesFrom afterSpace text,
      ∀ char ∈ word, isJsSpace char = false := by
    clear mem
    induction text with
    | nil =>
      intro afterSpace
      exact List.forall_mem_singleton.2 nofun
    | cons char rest ih =>
      intro afterSpace
      by_cases isSpace : isJsSpace char = true
      · rw [splitSpacesFrom_space isSpace]
        split
        · exact ih true
        · exact List.forall_mem_cons.2 ⟨nofun, ih true⟩
      · rw [Bool.not_eq_true] at isSpace
        obtain ⟨first, words, split, whole⟩ := splitSpacesFrom_char isSpace rest
        have areWords := ih false
        rw [split, List.forall_mem_cons] at areWords
        rw [whole, List.forall_mem_cons, List.forall_mem_cons]
        exact ⟨⟨isSpace, areWords.1⟩, areWords.2⟩
  exact all false word mem

theorem mem_of_mem_splitSpaces {text word : List Char} {char : Char}
    (mem : word ∈ splitSpaces text) (inWord : char ∈ word) : char ∈ text := by
  have all : ∀ afterSpace, ∀ word ∈ splitSpacesFrom afterSpace text, char ∈ word → char ∈ text := by
    clear mem inWord
    induction text with
    | nil =>
      intro afterSpace
      exact List.forall_mem_singleton.2 id
    | cons first rest ih =>
      intro afterSpace word mem inWord
      rw [List.mem_cons]
      by_cases isSpace : isJsSpace first = true
      · rw [splitSpacesFrom_space isSpace] at mem
        split at mem
        · exact .inr (ih true word mem inWord)
        · rcases List.mem_cons.1 mem with rfl | inRest
          · cases inWord
          · exact .inr (ih true word inRest inWord)
      · rw [Bool.not_eq_true] at isSpace
        obtain ⟨head, words, split, whole⟩ := splitSpacesFrom_char isSpace rest
        have areWords := ih false
        rw [split, List.forall_mem_cons] at areWords
        rw [whole] at mem
        rcases List.mem_cons.1 mem with rfl | inWords
        · exact (List.mem_cons.1 inWord).imp_right areWords.1
        · exact .inr (areWords.2 word inWords inWord)
  exact all false word mem inWord

theorem nonempty_of_mem_splitSpacesFrom {text : List Char} {afterSpace : Bool}
    (nonempty : text ≠ [])
    (starts : afterSpace = true ∨ ∀ head, text.head? = some head → isJsSpace head = false)
    (ends : ∀ last, text.getLast? = some last → isJsSpace last = false) :
    ∀ word ∈ splitSpacesFrom afterSpace text, word ≠ [] := by
  induction text generalizing afterSpace with
  | nil => exact absurd rfl nonempty
  | cons char rest ih =>
    have restEnds : ∀ last, rest.getLast? = some last → isJsSpace last = false := by
      intro last isLast
      apply ends
      rw [List.getLast?_cons, isLast]
      rfl
    by_cases isSpace : isJsSpace char = true
    · have isAfter : afterSpace = true := by
        rcases starts with isAfter | notSpace
        · exact isAfter
        · rw [notSpace char rfl] at isSpace
          cases isSpace
      have restNonempty : rest ≠ [] := by
        rintro rfl
        rw [ends char rfl] at isSpace
        cases isSpace
      rw [splitSpacesFrom_space isSpace, if_pos isAfter]
      exact ih restNonempty (.inl rfl) restEnds
    · -- the word goes on into the rest; the words behind it are those after its first blank
      rw [Bool.not_eq_true] at isSpace
      obtain ⟨first, words, split, whole⟩ := splitSpacesFrom_char isSpace rest
      rw [whole, List.forall_mem_cons]
      refine ⟨List.cons_ne_nil _ _, ?_⟩
      cases rest with
      | nil =>
        cases split
        exact nofun
      | cons next rest =>
        have behind := ih (List.cons_ne_nil _ _) (.inl rfl) restEnds
        by_cases nextSpace : isJsSpace next = true
        · rw [splitSpacesFrom_space nextSpace] at split behind
          cases split
          exact behind
        · rw [Bool.not_eq_true] at nextSpace
          obtain ⟨_, _, _, same⟩ := splitSpacesFrom_char nextSpace rest
          rw [same] at split behind
          cases split
          exact (List.forall_mem_cons.1 behind).2

/-- The parts of a trimmed text that is not empty are words. -/
theorem isWord_of_mem_splitSpaces_trim {text word : List Char} (nonempty : trim text ≠ [])
    (mem : word ∈ splitSpaces (trim text)) : IsWord word :=
  ⟨nonempty_of_mem_splitSpacesFrom nonempty (.inr fun _ => trim_head) (fun _ => trim_last) word mem,
    noSpace_of_mem_splitSpaces mem⟩

/-- The first word ends at the first blank. -/
theorem splitSpaces_append {word rest : List Char} (noSpace : ∀ char ∈ word, isJsSpace char = false)
    (starts : ∀ head, rest.head? = some head → isJsSpace head = false) :
    splitSpaces (word ++ ' ' :: rest) = word :: splitSpaces rest := by
  unfold splitSpaces
  induction word with
  | nil =>
    rw [List.nil_append, splitSpacesFrom_space rfl, splitSpacesFrom_true starts]
    rfl
  | cons char word ih =>
    rw [List.forall_mem_cons] at noSpace
    obtain ⟨first, words, split, whole⟩ := splitSpacesFrom_char noSpace.1 (word ++ ' ' :: rest)
    rw [ih noSpace.2] at split
    cases split
    exact whole false

/-! ### Words with one blank between them -/

def joinWords : List (List Char) → List Char
  | [] => []
  | [word] => word
  | word :: words => word ++ ' ' :: joinWords words

instance (word : List Char) : Decidable (IsWord word) :=
  @instDecidableAnd _ _ _ (List.decidableBAll (fun char => isJsSpace char = false) word)

theorem IsWord.head {word : List Char} (isWord : IsWord word) (rest : List Char) :
    ∀ head, (word ++ rest).head? = some head → isJsSpace head = false := by
  intro head isHead
  rw [List.head?_append_of_ne_nil _ isWord.1] at isHead
  exact isWord.2 head (List.mem_of_mem_head? isHead)

/-- White space behind a word is trimmed. -/
theorem trim_word_append {word blank : List Char} (isWord : IsWord word)
    (isBlank : ∀ char ∈ blank, isJsSpace char = true) : trim (word ++ blank) = word := by
  have reversedBlank : ∀ char ∈ blank.reverse, isJsSpace char = true := fun char mem =>
    isBlank char (List.mem_reverse.1 mem)
  have reversedWord : word.reverse.dropWhile isJsSpace = word.reverse := by
    refine dropWhile_space_eq_self fun head isHead => isWord.2 head ?_
    exact List.mem_reverse.1 (List.mem_of_mem_head? isHead)
  rw [trim, dropWhile_space_eq_self (isWord.head blank), List.reverse_append,
    List.dropWhile_append_of_pos reversedBlank, reversedWord, List.reverse_reverse]

theorem joinWords_head {words : List (List Char)} (areWords : ∀ word ∈ words, IsWord word) :
    ∀ head, (joinWords words).head? = some head → isJsSpace head = false := by
  intro head isHead
  match words, areWords with
  | [], _ => cases isHead
  | [word], areWords =>
    have isWord := areWords word (List.mem_singleton_self _)
    exact isWord.2 head (List.mem_of_mem_head? isHead)
  | word :: next :: words, areWords =>
    exact (areWords word List.mem_cons_self).head _ head isHead

theorem joinWords_last {words : List (List Char)} (areWords : ∀ word ∈ words, IsWord word) :
    ∀ last, (joinWords words).getLast? = some last → isJsSpace last = false := by
  induction words with
  | nil => nofun
  | cons word words ih =>
    intro last isLast
    have rest : ∀ other ∈ words, IsWord other := fun other mem =>
      areWords other (List.mem_cons_of_mem _ mem)
    cases words with
    | nil => exact (areWords word List.mem_cons_self).2 last (List.mem_of_getLast? isLast)
    | cons next words =>
      have nonempty : joinWords (next :: words) ≠ [] := by
        have isWord := rest next List.mem_cons_self
        cases words with
        | nil => exact isWord.1
        | cons other words => exact List.append_ne_nil_of_left_ne_nil isWord.1 _
      have split : joinWords (word :: next :: words) =
          (word ++ [' ']) ++ joinWords (next :: words) := by
        rw [joinWords, List.append_assoc]
        · rfl
        · exact List.cons_ne_nil _ _
      rw [split, List.getLast?_append_of_ne_nil _ nonempty] at isLast
      exact ih rest last isLast

theorem notMem_joinWords {words : List (List Char)} {char : Char} (notBlank : char ≠ ' ')
    (outside : ∀ word ∈ words, char ∉ word) : char ∉ joinWords words := by
  induction words with
  | nil => exact List.not_mem_nil
  | cons word words ih =>
    rw [List.forall_mem_cons] at outside
    cases words with
    | nil => exact outside.1
    | cons next words =>
      rw [joinWords, List.mem_append, List.mem_cons, not_or, not_or]
      · exact ⟨outside.1, notBlank, ih outside.2⟩
      · exact List.cons_ne_nil _ _

theorem IsWord.newline_notMem {word : List Char} (isWord : IsWord word) : '\n' ∉ word := by
  intro mem
  exact absurd (isWord.2 '\n' mem) (by decide)

theorem newline_notMem_joinWords {words : List (List Char)}
    (areWords : ∀ word ∈ words, IsWord word) : '\n' ∉ joinWords words :=
  notMem_joinWords (by decide) fun word mem => (areWords word mem).newline_notMem

theorem trim_joinWords {words : List (List Char)} (areWords : ∀ word ∈ words, IsWord word) :
    trim (joinWords words) = joinWords words :=
  trim_eq_self (joinWords_head areWords) (joinWords_last areWords)

theorem splitSpaces_joinWords {words : List (List Char)} (nonempty : words ≠ [])
    (areWords : ∀ word ∈ words, IsWord word) : splitSpaces (joinWords words) = words := by
  induction words with
  | nil => exact absurd rfl nonempty
  | cons word words ih =>
    have isWord := areWords word List.mem_cons_self
    have rest : ∀ other ∈ words, IsWord other := fun other mem =>
      areWords other (List.mem_cons_of_mem _ mem)
    cases words with
    | nil => exact splitSpaces_word isWord.2
    | cons next words =>
      rw [joinWords, splitSpaces_append isWord.2 (joinWords_head rest),
        ih (List.cons_ne_nil _ _) rest]
      exact List.cons_ne_nil _ _

end Foundation
