/-
Module: Paratix.Foundation.UnitFile
Purpose: Unit files in sections, when a written file reads as it was meant, and the words of values.
Main exports: readUnit_unitText_differs, readUnit_unterminated
-/
import Mathlib.Data.List.DropRight
import Paratix.Foundation.Lines
import Paratix.Foundation.Separator

namespace Foundation

/-! ### The grammar -/

def isUnitBlank (char : Char) : Bool :=
  char = ' ' || char = '\t' || char = '\n' || char = '\r'

def stripBlanks (text : List Char) : List Char :=
  (text.dropWhile isUnitBlank).rdropWhile isUnitBlank

def isUnitComment (line : List Char) : Bool := line.head? = some '#' || line.head? = some ';'

/-- A line that ends in a backslash goes on with the next one that is no comment; the backslash is
replaced by a space. The first argument is the part that was read so far. -/
def logicalLines : Option (List Char) → List (List Char) → List (List Char)
  | none, [] => []
  | some pending, [] => [pending]
  | pending, line :: lines =>
      let content := line.dropWhile isUnitBlank
      if isUnitComment content then logicalLines pending lines
      else
        let whole := pending.getD [] ++ content
        if whole.getLast? = some '\\' then logicalLines (some (whole.dropLast ++ [' '])) lines
        else whole :: logicalLines none lines

structure UnitDirective where
  sectionName : List Char
  key : List Char
  value : List Char
deriving DecidableEq

/-- A header that is not closed makes the file invalid; other lines that are no settings in a
section are skipped. -/
def readLogicalLines : Option (List Char) → List (List Char) → Option (List UnitDirective)
  | _, [] => some []
  | current, line :: lines =>
      match stripBlanks line with
      | [] => readLogicalLines current lines
      | '[' :: name =>
          if name.getLast? = some ']' then readLogicalLines (some name.dropLast) lines else none
      | setting =>
          match current, cutFirst ['='] setting with
          | some sectionName, some (key, value) =>
              (readLogicalLines current lines).map
                (⟨sectionName, stripBlanks key, stripBlanks value⟩ :: ·)
          | _, _ => readLogicalLines current lines

def readUnit (content : List Char) : Option (List UnitDirective) :=
  readLogicalLines none (logicalLines none (fileLines '\n' content))

/-! ### Files that are written -/

/-- A line as it is meant. -/
inductive UnitLine where
  | blank
  | header (name : List Char)
  | entry (key value : List Char)

def UnitLine.text : UnitLine → List Char
  | .blank => []
  | .header name => '[' :: (name ++ [']'])
  | .entry key value => key ++ '=' :: value

def unitText (lines : List UnitLine) : List Char := fileText '\n' (lines.map UnitLine.text)

def directivesFrom : Option (List Char) → List UnitLine → List UnitDirective
  | _, [] => []
  | current, .blank :: lines => directivesFrom current lines
  | _, .header name :: lines => directivesFrom (some name) lines
  | none, .entry _ _ :: lines => directivesFrom none lines
  | some sectionName, .entry key value :: lines =>
      ⟨sectionName, key, value⟩ :: directivesFrom (some sectionName) lines

/-- The section that is open behind the lines. -/
def sectionBehind : Option (List Char) → List UnitLine → Option (List Char)
  | current, [] => current
  | _, .header name :: lines => sectionBehind (some name) lines
  | current, .blank :: lines | current, .entry _ _ :: lines => sectionBehind current lines

/-- Names of sections and keys: letters and digits. -/
def IsUnitName (name : List Char) : Prop := name ≠ [] ∧ ∀ char ∈ name, char.isAlphanum = true

/-- Names are words and every value is on one line. -/
def UnitLine.Proper : UnitLine → Prop
  | .blank => True
  | .header name => IsUnitName name
  | .entry key value => IsUnitName key ∧ '\n' ∉ value

/-- A value with no blanks around it and no backslash at its end. -/
def StandsAsWritten (value : List Char) : Prop :=
  stripBlanks value = value ∧ value.getLast? ≠ some '\\'

instance (value : List Char) : Decidable (StandsAsWritten value) :=
  inferInstanceAs (Decidable (_ ∧ _))

def UnitLine.Stands : UnitLine → Prop
  | .entry _ value => StandsAsWritten value
  | _ => True

/-! ### Blanks -/

theorem isUnitBlank_of_alphanum {char : Char} (isAlphanum : char.isAlphanum = true) :
    isUnitBlank char = false := by
  rw [Bool.eq_false_iff]
  intro isBlank
  simp only [isUnitBlank, Bool.or_eq_true, decide_eq_true_eq] at isBlank
  rcases isBlank with ((rfl | rfl) | rfl) | rfl
  · exact absurd isAlphanum (by decide)
  · exact absurd isAlphanum (by decide)
  · exact absurd isAlphanum (by decide)
  · exact absurd isAlphanum (by decide)

theorem IsUnitName.notMem {name : List Char} (isName : IsUnitName name) {char : Char}
    (noLetter : char.isAlphanum = false) : char ∉ name := by
  intro mem
  rw [isName.2 char mem] at noLetter
  cases noLetter

theorem IsUnitName.blankless {name : List Char} (isName : IsUnitName name) :
    ∀ char ∈ name, isUnitBlank char = false :=
  fun char mem => isUnitBlank_of_alphanum (isName.2 char mem)

theorem IsUnitName.exists_cons {name : List Char} (isName : IsUnitName name) :
    ∃ head rest, name = head :: rest ∧ head.isAlphanum = true := by
  obtain ⟨head, rest, rfl⟩ := List.exists_cons_of_ne_nil isName.1
  exact ⟨head, rest, rfl, isName.2 head List.mem_cons_self⟩

theorem stripBlanks_blankless {text : List Char}
    (blankless : ∀ char ∈ text, isUnitBlank char = false) : stripBlanks text = text := by
  have front : text.dropWhile isUnitBlank = text := by
    cases text with
    | nil => rfl
    | cons head rest =>
      rw [List.dropWhile_cons, blankless head List.mem_cons_self]
      rfl
  rw [stripBlanks, front, List.rdropWhile_eq_self_iff]
  intro nonempty
  rw [blankless _ (List.getLast_mem nonempty)]
  exact Bool.noConfusion

theorem stripBlanks_cons {head : Char} (notBlank : isUnitBlank head = false) (rest : List Char) :
    stripBlanks (head :: rest) = (head :: rest).rdropWhile isUnitBlank := by
  rw [stripBlanks, List.dropWhile_cons, notBlank]
  rfl

theorem length_stripBlanks_le (text : List Char) : (stripBlanks text).length ≤ text.length :=
  Nat.le_trans (List.rdropWhile_prefix isUnitBlank _).length_le
    (List.dropWhile_suffix isUnitBlank).length_le

/-- Blanks at the end are taken from the last part only. -/
theorem rdropWhile_append_cons {front : List Char} {cell : Char}
    (notBlank : isUnitBlank cell = false) (back : List Char) :
    (front ++ cell :: back).rdropWhile isUnitBlank =
      front ++ cell :: back.rdropWhile isUnitBlank := by
  induction back using List.reverseRecOn with
  | nil =>
    rw [List.rdropWhile_nil, List.rdropWhile_concat_neg _ _ _ (by rw [notBlank]; decide)]
  | append_singleton back last ih =>
    cases isBlank : isUnitBlank last with
    | true =>
      rw [List.rdropWhile_concat_pos _ _ _ isBlank, ← ih, ← List.cons_append,
        ← List.append_assoc, List.rdropWhile_concat_pos _ _ _ isBlank]
    | false =>
      have kept : ¬isUnitBlank last = true := by rw [isBlank]; exact Bool.noConfusion
      rw [List.rdropWhile_concat_neg _ _ _ kept, ← List.cons_append, ← List.append_assoc,
        List.rdropWhile_concat_neg _ _ _ kept]

theorem stripBlanks_rdropWhile (text : List Char) :
    stripBlanks (text.rdropWhile isUnitBlank) = stripBlanks text := by
  induction text using List.reverseRecOn with
  | nil => rfl
  | append_singleton text last ih =>
    cases isBlank : isUnitBlank last with
    | false =>
      rw [List.rdropWhile_concat_neg _ _ _ (by rw [isBlank]; exact Bool.noConfusion)]
    | true =>
      rw [List.rdropWhile_concat_pos _ _ _ isBlank, ih, stripBlanks,
        stripBlanks, List.dropWhile_append]
      split
      · next allBlank =>
        rw [List.isEmpty_iff] at allBlank
        rw [allBlank, List.dropWhile_cons, if_pos isBlank]
        rfl
      · rw [List.rdropWhile_concat_pos _ _ _ isBlank]

/-! ### Logical lines that are read -/

theorem stripBlanks_setting {key : List Char} (isName : IsUnitName key) (value : List Char) :
    stripBlanks (key ++ '=' :: value) = key ++ '=' :: value.rdropWhile isUnitBlank := by
  have isEnd := @rdropWhile_append_cons key '=' (by decide) value
  obtain ⟨head, rest, rfl, isAlphanum⟩ := isName.exists_cons
  rw [List.cons_append, stripBlanks_cons (isUnitBlank_of_alphanum isAlphanum), ← List.cons_append]
  exact isEnd

theorem readLogicalLines_blank (current : Option (List Char)) (lines : List (List Char)) :
    readLogicalLines current ([] :: lines) = readLogicalLines current lines := by
  rw [readLogicalLines.eq_def]
  rfl

theorem readLogicalLines_header (current : Option (List Char)) (name : List Char)
    (lines : List (List Char)) : readLogicalLines current (('[' :: (name ++ [']'])) :: lines) =
      readLogicalLines (some name) lines := by
  have stripped : stripBlanks ('[' :: (name ++ [']'])) = '[' :: (name ++ [']']) := by
    rw [stripBlanks_cons (by decide), ← List.cons_append]
    exact rdropWhile_append_cons (by decide) []
  rw [readLogicalLines.eq_def]
  simp only [stripped, List.getLast?_concat, List.dropLast_concat, if_true]

theorem readLogicalLines_setting (sectionName : List Char) {key : List Char}
    (isName : IsUnitName key) (value : List Char) (lines : List (List Char)) :
    readLogicalLines (some sectionName) ((key ++ '=' :: value) :: lines) =
      (readLogicalLines (some sectionName) lines).map
        (⟨sectionName, key, stripBlanks value⟩ :: ·) := by
  have cut := cutFirst_singleton (isName.notMem (by decide : '='.isAlphanum = false))
    (value.rdropWhile isUnitBlank)
  rw [readLogicalLines.eq_def]
  dsimp only
  split
  · next empty =>
    rw [stripBlanks_setting isName] at empty
    cases List.append_eq_nil_iff.1 empty |>.2
  · next name isHeader =>
    rw [stripBlanks_setting isName] at isHeader
    obtain ⟨head, rest, rfl, isAlphanum⟩ := isName.exists_cons
    rw [List.cons_append, List.cons.injEq] at isHeader
    rw [isHeader.1] at isAlphanum
    cases isAlphanum
  · rw [stripBlanks_setting isName, cut]
    dsimp only
    rw [stripBlanks_blankless isName.blankless, stripBlanks_rdropWhile]

theorem readLogicalLines_outside {key : List Char} (isName : IsUnitName key)
    (value : List Char) (lines : List (List Char)) :
    readLogicalLines none ((key ++ '=' :: value) :: lines) = readLogicalLines none lines := by
  rw [readLogicalLines.eq_def]
  dsimp only
  split
  · rfl
  · next name isHeader =>
    rw [stripBlanks_setting isName] at isHeader
    obtain ⟨head, rest, rfl, isAlphanum⟩ := isName.exists_cons
    rw [List.cons_append, List.cons.injEq] at isHeader
    rw [isHeader.1] at isAlphanum
    cases isAlphanum
  · rfl

/-! ### Physical lines that stand as written -/

theorem UnitLine.Proper.oneLine {line : UnitLine} (proper : line.Proper) :
    '\n' ∉ line.text := by
  cases line with
  | blank => exact List.not_mem_nil
  | header name =>
    have notIn := IsUnitName.notMem proper (by decide : '\n'.isAlphanum = false)
    rw [UnitLine.text, List.mem_cons, List.mem_append, List.mem_singleton]
    rintro (same | mem | same)
    · cases same
    · exact notIn mem
    · cases same
  | entry key value =>
    have notIn := IsUnitName.notMem proper.1 (by decide : '\n'.isAlphanum = false)
    rw [UnitLine.text, List.mem_append, List.mem_cons]
    rintro (mem | same | mem)
    · exact notIn mem
    · cases same
    · exact proper.2 mem

/-- A proper line that is not empty starts with a letter, a digit or a bracket. -/
theorem UnitLine.Proper.head {line : UnitLine} (proper : line.Proper) :
    line.text = [] ∨ ∃ head rest, line.text = head :: rest ∧
      (head = '[' ∨ head.isAlphanum = true) := by
  cases line with
  | blank => exact .inl rfl
  | header name => exact .inr ⟨'[', _, rfl, .inl rfl⟩
  | entry key value =>
    obtain ⟨head, rest, isKey, isAlphanum⟩ := IsUnitName.exists_cons proper.1
    exact .inr ⟨head, rest ++ '=' :: value, by rw [UnitLine.text, isKey]; rfl, .inr isAlphanum⟩

/-- Nothing is skipped at the start of a proper line. -/
theorem UnitLine.Proper.content {line : UnitLine} (proper : line.Proper) :
    line.text.dropWhile isUnitBlank = line.text ∧ isUnitComment line.text = false := by
  rcases proper.head with empty | ⟨head, rest, isText, isStart⟩
  · rw [empty]
    exact ⟨rfl, rfl⟩
  · rw [isText]
    rcases isStart with rfl | isAlphanum
    · exact ⟨rfl, rfl⟩
    · refine ⟨by rw [List.dropWhile_cons, isUnitBlank_of_alphanum isAlphanum]; rfl, ?_⟩
      rw [Bool.eq_false_iff]
      intro isComment
      simp only [isUnitComment, List.head?_cons, Bool.or_eq_true, decide_eq_true_eq,
        Option.some.injEq] at isComment
      rcases isComment with rfl | rfl
      · cases isAlphanum
      · cases isAlphanum

theorem getLast?_setting (key value : List Char) :
    (key ++ '=' :: value).getLast? = some (value.getLast?.getD '=') := by
  rw [List.getLast?_append, List.getLast?_cons]
  rfl

/-- A line that stands is a logical line. -/
theorem logicalLines_stands {line : UnitLine} (proper : line.Proper) (stands : line.Stands)
    (lines : List (List Char)) :
    logicalLines none (line.text :: lines) = line.text :: logicalLines none lines := by
  have noBackslash : line.text.getLast? ≠ some '\\' := by
    cases line with
    | blank => exact (Option.some_ne_none _).symm
    | header name =>
      rw [UnitLine.text, ← List.cons_append, List.getLast?_concat]
      decide
    | entry key value =>
      rw [UnitLine.text, getLast?_setting]
      intro isLast
      apply stands.2
      cases found : value.getLast? with
      | none =>
        rw [found] at isLast
        cases isLast
      | some last =>
        rw [found] at isLast
        exact isLast
  rw [logicalLines.eq_def]
  simp only [proper.content.1, proper.content.2, Option.getD_none, List.nil_append, noBackslash,
    if_false, Bool.false_eq_true]

theorem readLogicalLines_front {front : List UnitLine} (proper : ∀ line ∈ front, line.Proper)
    (stands : ∀ line ∈ front, line.Stands) (current : Option (List Char))
    (rest : List (List Char)) :
    readLogicalLines current (logicalLines none (front.map UnitLine.text ++ rest)) =
      (readLogicalLines (sectionBehind current front) (logicalLines none rest)).map
        (directivesFrom current front ++ ·) := by
  induction front generalizing current with
  | nil =>
    show _ = Option.map (fun directives => directives) _
    exact Option.map_id'.symm
  | cons line front ih =>
    have below := ih (fun other mem => proper other (List.mem_cons_of_mem _ mem))
      fun other mem => stands other (List.mem_cons_of_mem _ mem)
    rw [List.map_cons, List.cons_append, logicalLines_stands (proper line List.mem_cons_self)
      (stands line List.mem_cons_self)]
    cases line with
    | blank =>
      rw [UnitLine.text, readLogicalLines_blank, below]
      rfl
    | header name =>
      rw [UnitLine.text, readLogicalLines_header, below]
      rfl
    | entry key value =>
      obtain ⟨isName, _⟩ := proper _ List.mem_cons_self
      have asWritten : stripBlanks value = value := (stands _ List.mem_cons_self).1
      cases current with
      | none =>
        rw [UnitLine.text, readLogicalLines_outside isName, below]
        rfl
      | some sectionName =>
        rw [UnitLine.text, readLogicalLines_setting sectionName isName, below, Option.map_map,
          asWritten]
        rfl

/-- A file whose values all stand is read as it was meant. -/
theorem readUnit_unitText {lines : List UnitLine} (proper : ∀ line ∈ lines, line.Proper)
    (stands : ∀ line ∈ lines, line.Stands) :
    readUnit (unitText lines) = some (directivesFrom none lines) := by
  have oneLine : ∀ text ∈ lines.map UnitLine.text, '\n' ∉ text := by
    rw [List.forall_mem_map]
    exact fun line mem => (proper line mem).oneLine
  have front := readLogicalLines_front proper stands none []
  rw [List.append_nil] at front
  rw [readUnit, unitText, fileLines_fileText oneLine, front, logicalLines, readLogicalLines,
    Option.map_some, List.append_nil]

/-! ### The first value that does not stand -/

/-- What is joined to a line that goes on does not start with a blank or a backslash. -/
theorem exists_joined {lines : List UnitLine} (proper : ∀ line ∈ lines, line.Proper)
    (pending : List Char) :
    ∃ more rest, logicalLines (some (pending ++ [' '])) (lines.map UnitLine.text) =
        (pending ++ ' ' :: more) :: rest ∧
      ∀ head, more.head? = some head → head = '[' ∨ head.isAlphanum = true := by
  induction lines generalizing pending with
  | nil => exact ⟨[], [], rfl, fun _ isHead => absurd isHead.symm (Option.some_ne_none _)⟩
  | cons line lines ih =>
    have isProper := proper line List.mem_cons_self
    rw [List.map_cons, logicalLines.eq_def]
    simp only [isProper.content.1, isProper.content.2, Bool.false_eq_true, if_false,
      Option.getD_some]
    rcases isProper.head with empty | ⟨head, rest, isText, isStart⟩
    · rw [empty, List.append_nil, List.getLast?_concat, if_neg (by decide)]
      exact ⟨[], _, rfl, fun _ isHead => absurd isHead.symm (Option.some_ne_none _)⟩
    · rw [isText, List.append_assoc, List.singleton_append]
      split
      · next goesOn =>
        have nonempty : rest ≠ [] := by
          rintro rfl
          rw [List.getLast?_append, List.getLast?_cons_cons, List.getLast?_singleton] at goesOn
          obtain rfl := Option.some.inj goesOn
          rcases isStart with same | isAlphanum
          · cases same
          · cases isAlphanum
        obtain ⟨more, after, joined, _⟩ := ih
          (fun other mem => proper other (List.mem_cons_of_mem _ mem))
          (pending ++ ' ' :: head :: rest.dropLast)
        refine ⟨head :: (rest.dropLast ++ ' ' :: more), after, ?_, ?_⟩
        · rw [List.dropLast_append_of_ne_nil (List.cons_ne_nil _ _),
            List.dropLast_cons_of_ne_nil (List.cons_ne_nil _ _),
            List.dropLast_cons_of_ne_nil nonempty, joined, List.append_assoc]
          rfl
        · intro other isHead
          rw [List.head?_cons, Option.some.injEq] at isHead
          rwa [← isHead]
      · refine ⟨head :: rest, _, rfl, ?_⟩
        intro other isHead
        rw [List.head?_cons, Option.some.injEq] at isHead
        rwa [← isHead]

/-- A value that goes on never reads as it is written. -/
theorem stripBlanks_joined_ne {value more : List Char}
    (starts : ∀ head, more.head? = some head → head = '[' ∨ head.isAlphanum = true) :
    stripBlanks (value ++ ' ' :: more) ≠ value ++ ['\\'] := by
  have notBlank : ∀ head, head = '[' ∨ head.isAlphanum = true → isUnitBlank head = false := by
    rintro head (rfl | isAlphanum)
    · rfl
    · exact isUnitBlank_of_alphanum isAlphanum
  intro same
  cases value with
  | nil =>
    have skipped : stripBlanks (' ' :: more) = stripBlanks more := rfl
    rw [List.nil_append, List.nil_append, skipped] at same
    cases more with
    | nil => cases same
    | cons head more =>
      have isStart := starts head rfl
      rw [stripBlanks_cons (notBlank head isStart)] at same
      have isPrefix := List.rdropWhile_prefix isUnitBlank (head :: more)
      rw [same, List.cons_prefix_cons] at isPrefix
      rw [← isPrefix.1] at isStart
      rcases isStart with other | isAlphanum
      · cases other
      · cases isAlphanum
  | cons head value =>
    have isPrefix : stripBlanks (head :: (value ++ ' ' :: more)) <+:
        (head :: (value ++ ' ' :: more)).dropWhile isUnitBlank :=
      List.rdropWhile_prefix isUnitBlank _
    rw [List.cons_append] at same
    rw [same] at isPrefix
    cases isBlank : isUnitBlank head with
    | false =>
      rw [List.dropWhile_cons, isBlank, if_neg Bool.noConfusion, List.cons_append,
        List.cons_prefix_cons, List.prefix_append_right_inj] at isPrefix
      cases (List.cons_prefix_cons.1 isPrefix.2).1
    | true =>
      have notHead := List.head?_dropWhile_not isUnitBlank (head :: (value ++ ' ' :: more))
      obtain ⟨behind, split⟩ := isPrefix
      rw [← split] at notHead
      have isStart : isUnitBlank head = false := notHead
      rw [isBlank] at isStart
      cases isStart

/-- The logical line of a value that does not stand. -/
theorem logicalLines_standsNot {back : List UnitLine} {key value : List Char}
    (isProper : (UnitLine.entry key value).Proper) (proper : ∀ line ∈ back, line.Proper)
    (standsNot : ¬StandsAsWritten value) :
    ∃ read rest, stripBlanks read ≠ value ∧ (back = [] → read.length ≤ value.length) ∧
      logicalLines none ((UnitLine.entry key value).text :: back.map UnitLine.text) =
        (key ++ '=' :: read) :: rest := by
  rw [logicalLines.eq_def]
  simp only [isProper.content.1, isProper.content.2, Bool.false_eq_true, if_false,
    Option.getD_none, List.nil_append]
  rw [UnitLine.text, getLast?_setting]
  by_cases goesOn : value.getLast? = some '\\'
  · obtain ⟨front, rfl⟩ := List.getLast?_eq_some_iff.1 goesOn
    rw [goesOn, Option.getD_some, if_pos rfl, ← List.cons_append, ← List.append_assoc,
      List.dropLast_concat]
    obtain ⟨more, rest, joined, starts⟩ := exists_joined proper (key ++ '=' :: front)
    refine ⟨front ++ ' ' :: more, rest, stripBlanks_joined_ne starts, ?_, ?_⟩
    · rintro rfl
      have nothing : more = [] :=
        (List.cons.inj (List.append_cancel_left (List.cons.inj joined).1)).2.symm
      rw [nothing, List.length_append, List.length_append, List.length_singleton,
        List.length_singleton]
    · rw [joined, List.append_assoc, List.cons_append]
  · have noBackslash : some (value.getLast?.getD '=') ≠ some '\\' := by
      intro isLast
      apply goesOn
      cases found : value.getLast? with
      | none =>
        rw [found] at isLast
        cases isLast
      | some last =>
        rw [found] at isLast
        exact isLast
    rw [if_neg noBackslash]
    refine ⟨value, _, ?_, fun _ => Nat.le_refl _, rfl⟩
    intro asWritten
    exact standsNot ⟨asWritten, goesOn⟩

/-- The first value that does not stand is read as another one. -/
theorem readUnit_unitText_differs {front back : List UnitLine} {key value sectionName : List Char}
    {result : List UnitDirective} (proper : ∀ line ∈ front ++ .entry key value :: back, line.Proper)
    (stands : ∀ line ∈ front, line.Stands) (inSection : sectionBehind none front = some sectionName)
    (standsNot : ¬StandsAsWritten value)
    (reads : readUnit (unitText (front ++ .entry key value :: back)) = some result) :
    ∃ other rest, other ≠ value ∧ (back = [] → other.length ≤ value.length) ∧
      result = directivesFrom none front ++ ⟨sectionName, key, other⟩ :: rest := by
  have oneLine : ∀ text ∈ (front ++ .entry key value :: back).map UnitLine.text, '\n' ∉ text := by
    rw [List.forall_mem_map]
    exact fun line mem => (proper line mem).oneLine
  have isProper : (UnitLine.entry key value).Proper :=
    proper _ (List.mem_append_right _ List.mem_cons_self)
  obtain ⟨read, tail, differs, isShort, isLogical⟩ := logicalLines_standsNot isProper
    (fun line mem => proper line (List.mem_append_right _ (List.mem_cons_of_mem _ mem))) standsNot
  rw [readUnit, unitText, fileLines_fileText oneLine, List.map_append, List.map_cons,
    readLogicalLines_front (fun line mem => proper line (List.mem_append_left _ mem)) stands,
    inSection, isLogical, readLogicalLines_setting sectionName isProper.1, Option.map_map,
    Option.map_eq_some_iff] at reads
  obtain ⟨rest, _, isResult⟩ := reads
  refine ⟨stripBlanks read, rest, differs, ?_, isResult.symm⟩
  intro isLast
  exact Nat.le_trans (length_stripBlanks_le read) (isShort isLast)

theorem standsAsWritten_of_mem_directivesFrom {lines : List UnitLine}
    (stands : ∀ line ∈ lines, line.Stands) (current : Option (List Char))
    {directive : UnitDirective} (mem : directive ∈ directivesFrom current lines) :
    StandsAsWritten directive.value := by
  induction lines generalizing current with
  | nil => cases mem
  | cons line lines ih =>
    have below := ih fun other inLines =>
      stands other (List.mem_cons_of_mem _ inLines)
    cases line with
    | blank => exact below current mem
    | header name => exact below (some name) mem
    | entry key value =>
      cases current with
      | none => exact below none mem
      | some sectionName =>
        rcases List.mem_cons.1 mem with rfl | inRest
        · exact stands _ List.mem_cons_self
        · exact below (some sectionName) inRest

/-- Behind a header a section is open. -/
theorem exists_sectionBehind (sectionName : List Char) (lines : List UnitLine) :
    ∃ current, sectionBehind (some sectionName) lines = some current := by
  induction lines generalizing sectionName with
  | nil => exact ⟨sectionName, rfl⟩
  | cons line lines ih =>
    cases line with
    | blank => exact ih sectionName
    | header name => exact ih name
    | entry key value => exact ih sectionName

/-- The first line that does not stand is a setting. -/
theorem exists_first_standsNot {lines : List UnitLine} (standsNot : ¬∀ line ∈ lines, line.Stands) :
    ∃ front key value back, lines = front ++ .entry key value :: back ∧
      (∀ line ∈ front, line.Stands) ∧ ¬StandsAsWritten value := by
  induction lines with
  | nil => exact absurd (fun line mem => absurd mem List.not_mem_nil) standsNot
  | cons line lines ih =>
    by_cases here : line.Stands
    · rw [List.forall_mem_cons, not_and] at standsNot
      obtain ⟨front, key, value, back, rfl, stands, differs⟩ := ih (standsNot here)
      exact ⟨line :: front, key, value, back, rfl, List.forall_mem_cons.2 ⟨here, stands⟩, differs⟩
    · cases line with
      | blank => exact absurd trivial here
      | header name => exact absurd trivial here
      | entry key value =>
        exact ⟨[], key, value, lines, rfl, fun _ mem => absurd mem List.not_mem_nil, here⟩

/-- A text without blanks at its ends and without a backslash there stands. -/
theorem standsAsWritten_of_ends {text : List Char}
    (starts : ∀ head, text.head? = some head → isUnitBlank head = false)
    (ends : ∀ last, text.getLast? = some last → isUnitBlank last = false ∧ last ≠ '\\') :
    StandsAsWritten text := by
  constructor
  · cases text with
    | nil => rfl
    | cons head rest =>
      rw [stripBlanks_cons (starts head rfl), List.rdropWhile_eq_self_iff]
      intro nonempty
      rw [(ends _ (List.getLast?_eq_some_getLast nonempty)).1]
      exact Bool.noConfusion
  · intro isLast
    exact (ends _ isLast).2 rfl

theorem StandsAsWritten.head {text : List Char} (stands : StandsAsWritten text) {head : Char}
    (isHead : text.head? = some head) : isUnitBlank head = false := by
  cases text with
  | nil => cases isHead
  | cons first rest =>
    obtain rfl := Option.some.inj isHead
    have isPrefix : stripBlanks (first :: rest) <+: (first :: rest).dropWhile isUnitBlank :=
      List.rdropWhile_prefix isUnitBlank _
    rw [stands.1] at isPrefix
    obtain ⟨behind, split⟩ := isPrefix
    have notHead := List.head?_dropWhile_not isUnitBlank (first :: rest)
    rw [← split] at notHead
    exact notHead

/-- The escapes of one letter; escapes by number are not read. -/
def unescapeUnitChar (char : Char) : Option Char :=
  if char = '\\' || char = '"' || char = '\'' then some char
  else if char = 'n' then some '\n'
  else if char = 't' then some '\t'
  else if char = 'r' then some '\r'
  else if char = 's' then some ' '
  else none

/-- The words of a value: the open quote, the word that was begun, the rest. -/
def unitWords : Option Char → Option (List Char) → List Char → Option (List (List Char))
  | some _, _, [] => none
  | none, none, [] => some []
  | none, some word, [] => some [word]
  | quote, word, char :: rest =>
      if char = '\\' then
        match rest with
        | [] => none
        | escape :: rest =>
            match unescapeUnitChar escape with
            | none => none
            | some escaped => unitWords quote (some (word.getD [] ++ [escaped])) rest
      else if quote = some char then unitWords none word rest
      else if quote = none && (char = '"' || char = '\'') then
        unitWords (some char) (some (word.getD [])) rest
      else if quote = none && isUnitBlank char then
        match word with
        | none => unitWords none none rest
        | some word => (unitWords none none rest).map (word :: ·)
      else unitWords quote (some (word.getD [] ++ [char])) rest

/-- `%` and a specifier are replaced, a doubled `%` is one, all else is copied. -/
def expandSpecifiers (resolve : Char → Option (List Char)) : List Char → List Char
  | [] => []
  | char :: rest =>
      if char = '%' then
        match rest with
        | [] => ['%']
        | specifier :: rest =>
            (if specifier = '%' then ['%'] else (resolve specifier).getD ['%', specifier]) ++
              expandSpecifiers resolve rest
      else char :: expandSpecifiers resolve rest

def escapeUnitChar (char : Char) : List Char :=
  if char = '\\' || char = '"' then ['\\', char] else [char]

/-- A character that stands for itself outside quotes. -/
def isPlainUnitChar (char : Char) : Bool :=
  !isUnitBlank char && char ≠ '\\' && char ≠ '"' && char ≠ '\''

theorem unitWords_plain {plain : List Char} (isPlain : ∀ char ∈ plain, isPlainUnitChar char = true)
    (word rest : List Char) :
    unitWords none (some word) (plain ++ rest) = unitWords none (some (word ++ plain)) rest := by
  induction plain generalizing word with
  | nil => rw [List.append_nil, List.nil_append]
  | cons char plain ih =>
    have here := isPlain char List.mem_cons_self
    simp only [isPlainUnitChar, Bool.and_eq_true, Bool.not_eq_true', decide_eq_true_eq] at here
    obtain ⟨⟨⟨notBlank, notBackslash⟩, notQuote⟩, notApostrophe⟩ := here
    have step : unitWords none (some word) (char :: (plain ++ rest)) =
        unitWords none (some (word ++ [char])) (plain ++ rest) := by
      rw [unitWords.eq_def]
      simp only [notBackslash, notBlank, notQuote, notApostrophe, if_false, decide_false,
        Bool.or_false, Bool.and_false, Bool.false_eq_true, Option.getD_some, reduceCtorEq]
    rw [List.cons_append, step, ih (fun other mem =>
      isPlain other (List.mem_cons_of_mem _ mem)), List.append_assoc, List.singleton_append]

/-- A first plain character begins a word. -/
theorem unitWords_begin {char : Char} (isPlain : isPlainUnitChar char = true) (rest : List Char) :
    unitWords none none (char :: rest) = unitWords none (some [char]) rest := by
  simp only [isPlainUnitChar, Bool.and_eq_true, Bool.not_eq_true', decide_eq_true_eq] at isPlain
  obtain ⟨⟨⟨notBlank, notBackslash⟩, notQuote⟩, notApostrophe⟩ := isPlain
  rw [unitWords.eq_def]
  simp only [notBackslash, notBlank, notQuote, notApostrophe, if_false, decide_false,
    Bool.or_false, Bool.and_false, Bool.false_eq_true, Option.getD_none, reduceCtorEq,
    List.nil_append]

/-- A word of plain characters is begun. -/
theorem unitWords_word {word : List Char} (nonempty : word ≠ [])
    (isPlain : ∀ char ∈ word, isPlainUnitChar char = true) (rest : List Char) :
    unitWords none none (word ++ rest) = unitWords none (some word) rest := by
  obtain ⟨head, tail, rfl⟩ := List.exists_cons_of_ne_nil nonempty
  rw [List.forall_mem_cons] at isPlain
  rw [List.cons_append, unitWords_begin isPlain.1, unitWords_plain isPlain.2]
  rfl

theorem unitWords_escaped (value word rest : List Char) :
    unitWords (some '"') (some word) (value.flatMap escapeUnitChar ++ rest) =
      unitWords (some '"') (some (word ++ value)) rest := by
  induction value generalizing word with
  | nil => rw [List.append_nil, List.flatMap_nil, List.nil_append]
  | cons char value ih =>
    have step : ∀ more, unitWords (some '"') (some word) (escapeUnitChar char ++ more) =
        unitWords (some '"') (some (word ++ [char])) more := by
      intro more
      rw [escapeUnitChar]
      split
      · next escapes =>
        have reads : unescapeUnitChar char = some char := by
          rw [unescapeUnitChar, escapes]
          rfl
        rw [unitWords.eq_def]
        simp only [List.cons_append, List.nil_append, if_true, reads, Option.getD_some]
      · next plain =>
        simp only [Bool.or_eq_true, decide_eq_true_eq, not_or] at plain
        rw [unitWords.eq_def]
        simp only [List.cons_append, List.nil_append, plain.1, plain.2, if_false,
          Option.some.injEq, Ne.symm plain.2, Option.getD_some, reduceCtorEq, decide_false,
          Bool.false_and, Bool.false_eq_true]
    rw [List.flatMap_cons, List.append_assoc, step, ih, List.append_assoc, List.singleton_append]

/-- A quoted part of a word is read as it was before it was escaped. -/
theorem unitWords_quoted (value word : List Char) :
    unitWords none (some word) ('"' :: (value.flatMap escapeUnitChar ++ ['"'])) =
      some [word ++ value] := by
  have opened : unitWords none (some word) ('"' :: (value.flatMap escapeUnitChar ++ ['"'])) =
      unitWords (some '"') (some word) (value.flatMap escapeUnitChar ++ ['"']) := by
    rw [unitWords.eq_def]
    rfl
  rw [opened, unitWords_escaped]
  rfl

theorem expandSpecifiers_append (resolve : Char → Option (List Char)) {front : List Char}
    (absent : '%' ∉ front) (back : List Char) :
    expandSpecifiers resolve (front ++ back) = front ++ expandSpecifiers resolve back := by
  induction front with
  | nil => rfl
  | cons char front ih =>
    rw [List.mem_cons, not_or] at absent
    rw [List.cons_append, expandSpecifiers.eq_def]
    simp only [Ne.symm absent.1, if_false, ih absent.2, List.cons_append]

theorem expandSpecifiers_absent (resolve : Char → Option (List Char)) {value : List Char}
    (absent : '%' ∉ value) : expandSpecifiers resolve value = value := by
  have expanded := expandSpecifiers_append resolve absent []
  rw [List.append_nil] at expanded
  rw [expanded]
  exact List.append_nil value

/-- A percent sign that stands for itself. -/
def doublePercent (char : Char) : List Char := if char = '%' then ['%', '%'] else [char]

/-- Doubled percent signs are read back. -/
theorem expandSpecifiers_doubled (resolve : Char → Option (List Char)) (value : List Char) :
    expandSpecifiers resolve (value.flatMap doublePercent) = value := by
  induction value with
  | nil => rfl
  | cons char value ih =>
    rw [List.flatMap_cons, doublePercent]
    split
    · next isPercent =>
      rw [List.cons_append, expandSpecifiers.eq_def]
      simp only [List.cons_append, List.nil_append, if_true, ih, isPercent]
    · next notPercent =>
      rw [List.cons_append, List.nil_append, expandSpecifiers.eq_def]
      simp only [notPercent, if_false, ih]

section Sections

variable {σ : Type} (key written : σ → List Char)

/-- The lines of the sections with an empty line between two of them. -/
def sectionLines : List (List Char × List σ) → List UnitLine
  | [] => []
  | [(sectionName, settings)] =>
      .header sectionName :: settings.map fun setting => .entry (key setting) (written setting)
  | (sectionName, settings) :: rest =>
      .header sectionName ::
        (settings.map fun setting => .entry (key setting) (written setting)) ++
          .blank :: sectionLines rest

/-- The settings of all sections in order. -/
def sectionSettings (sections : List (List Char × List σ)) : List (List Char × σ) :=
  sections.flatMap fun one => one.2.map fun setting => (one.1, setting)

def settingDirective (entry : List Char × σ) : UnitDirective :=
  ⟨entry.1, key entry.2, written entry.2⟩

/-- Sections and keys are names and every value is on one line. -/
def ProperSections (sections : List (List Char × List σ)) : Prop :=
  (∀ one ∈ sections, IsUnitName one.1) ∧
    ∀ entry ∈ sectionSettings sections, IsUnitName (key entry.2) ∧ '\n' ∉ written entry.2

theorem sectionSettings_cons (sectionName : List Char) (settings : List σ)
    (sections : List (List Char × List σ)) : sectionSettings ((sectionName, settings) :: sections) =
      settings.map (fun setting => (sectionName, setting)) ++ sectionSettings sections := by
  rw [sectionSettings, List.flatMap_cons, sectionSettings]

theorem directivesFrom_append (current : Option (List Char)) (front back : List UnitLine) :
    directivesFrom current (front ++ back) =
      directivesFrom current front ++ directivesFrom (sectionBehind current front) back := by
  induction front generalizing current with
  | nil => rfl
  | cons line front ih =>
    cases line with
    | blank => exact ih current
    | header name => exact ih (some name)
    | entry key value =>
      cases current with
      | none => exact ih none
      | some sectionName =>
        rw [List.cons_append, directivesFrom, ih]
        rfl

theorem directivesFrom_settings (sectionName : List Char) (settings : List σ) :
    directivesFrom (some sectionName)
        (settings.map fun setting => .entry (key setting) (written setting)) =
      settings.map fun setting => settingDirective key written (sectionName, setting) := by
  induction settings with
  | nil => rfl
  | cons setting settings ih =>
    rw [List.map_cons, List.map_cons, directivesFrom, ih]
    rfl

theorem directivesFrom_sectionLines (current : Option (List Char))
    (sections : List (List Char × List σ)) :
    directivesFrom current (sectionLines key written sections) =
      (sectionSettings sections).map (settingDirective key written) := by
  induction sections generalizing current with
  | nil => rfl
  | cons one sections ih =>
    obtain ⟨sectionName, settings⟩ := one
    rw [sectionSettings_cons, List.map_append, List.map_map]
    cases sections with
    | nil =>
      rw [sectionLines, directivesFrom, directivesFrom_settings]
      exact (List.append_nil _).symm
    | cons next sections =>
      show directivesFrom current (.header sectionName ::
        ((settings.map fun setting => .entry (key setting) (written setting)) ++
          .blank :: sectionLines key written (next :: sections))) = _
      rw [directivesFrom, directivesFrom_append, directivesFrom_settings, directivesFrom, ih]
      rfl

/-- A setting behind all others is the last line. -/
theorem sectionLines_concat (sections : List (List Char × List σ)) (sectionName : List Char)
    (settings : List σ) (setting : σ) :
    sectionLines key written (sections ++ [(sectionName, settings ++ [setting])]) =
      sectionLines key written (sections ++ [(sectionName, settings)]) ++
        [.entry (key setting) (written setting)] := by
  induction sections with
  | nil =>
    show UnitLine.header sectionName :: (settings ++ [setting]).map _ = _
    rw [List.map_append]
    rfl
  | cons one sections ih =>
    have split : ∀ more : List (List Char × List σ), more ≠ [] →
        sectionLines key written (one :: more) = (.header one.1 ::
          (one.2.map fun setting => .entry (key setting) (written setting))) ++
            .blank :: sectionLines key written more := by
      intro more nonempty
      obtain ⟨next, rest, rfl⟩ := List.exists_cons_of_ne_nil nonempty
      rfl
    rw [List.cons_append, List.cons_append, split _ (List.append_ne_nil_of_right_ne_nil _
      (List.cons_ne_nil _ _)), split _ (List.append_ne_nil_of_right_ne_nil _
      (List.cons_ne_nil _ _)), ih, List.append_assoc]
    rfl

variable {key written}

/-- The lines are empty lines, headers and the settings. -/
theorem mem_sectionLines {sections : List (List Char × List σ)} {line : UnitLine}
    (mem : line ∈ sectionLines key written sections) :
    line = .blank ∨ (∃ one ∈ sections, line = .header one.1) ∨
      ∃ entry ∈ sectionSettings sections, line = .entry (key entry.2) (written entry.2) := by
  induction sections with
  | nil => cases mem
  | cons one sections ih =>
    obtain ⟨sectionName, settings⟩ := one
    have ofSection : line ∈ UnitLine.header sectionName ::
          settings.map (fun setting => .entry (key setting) (written setting)) →
        line = .blank ∨ (∃ one ∈ (sectionName, settings) :: sections, line = .header one.1) ∨
          ∃ entry ∈ sectionSettings ((sectionName, settings) :: sections),
            line = .entry (key entry.2) (written entry.2) := by
      intro inSection
      rcases List.mem_cons.1 inSection with isHeader | isSetting
      · exact .inr (.inl ⟨_, List.mem_cons_self, isHeader⟩)
      · obtain ⟨setting, inSettings, isEntry⟩ := List.mem_map.1 isSetting
        refine .inr (.inr ⟨(sectionName, setting), ?_, isEntry.symm⟩)
        rw [sectionSettings_cons]
        exact List.mem_append_left _ (List.mem_map.2 ⟨setting, inSettings, rfl⟩)
    cases sections with
    | nil => exact ofSection mem
    | cons next sections =>
      rcases List.mem_append.1 mem with inSection | behind
      · exact ofSection inSection
      · rcases List.mem_cons.1 behind with isBlank | inRest
        · exact .inl isBlank
        · rcases ih inRest with isBlank | ⟨other, inSections, isHeader⟩ |
            ⟨entry, inSettings, isEntry⟩
          · exact .inl isBlank
          · exact .inr (.inl ⟨other, List.mem_cons_of_mem _ inSections, isHeader⟩)
          · refine .inr (.inr ⟨entry, ?_, isEntry⟩)
            rw [sectionSettings_cons]
            exact List.mem_append_right _ inSettings

section Reading

variable {sections : List (List Char × List σ)} (proper : ProperSections key written sections)

include proper

theorem sectionLines_proper : ∀ line ∈ sectionLines key written sections, line.Proper := by
  intro line mem
  rcases mem_sectionLines mem with rfl | ⟨one, inSections, rfl⟩ | ⟨entry, inSettings, rfl⟩
  · exact trivial
  · exact proper.1 one inSections
  · exact proper.2 entry inSettings

/-- If all values stand the file is read setting by setting. -/
theorem readUnit_sectionLines
    (stands : ∀ entry ∈ sectionSettings sections, StandsAsWritten (written entry.2)) :
    readUnit (unitText (sectionLines key written sections)) =
      some ((sectionSettings sections).map (settingDirective key written)) := by
  rw [← directivesFrom_sectionLines key written none sections]
  apply readUnit_unitText (sectionLines_proper proper)
  intro line mem
  rcases mem_sectionLines mem with rfl | ⟨one, inSections, rfl⟩ | ⟨entry, inSettings, rfl⟩
  · exact trivial
  · exact trivial
  · exact stands entry inSettings

/-- If a value does not stand, the first such value is read as another one. -/
theorem readUnit_sectionLines_differs {result : List UnitDirective}
    (standsNot : ¬∀ entry ∈ sectionSettings sections, StandsAsWritten (written entry.2))
    (reads : readUnit (unitText (sectionLines key written sections)) = some result) :
    ∃ before entry behind other rest, sectionSettings sections = before ++ entry :: behind ∧
      (∀ own ∈ before, StandsAsWritten (written own.2)) ∧ ¬StandsAsWritten (written entry.2) ∧
      other ≠ written entry.2 ∧
      result = before.map (settingDirective key written) ++
        ⟨entry.1, key entry.2, other⟩ :: rest := by
  have someLine : ¬∀ line ∈ sectionLines key written sections, line.Stands := by
    intro stands
    apply standsNot
    intro entry mem
    have inDirectives : settingDirective key written entry ∈
        directivesFrom none (sectionLines key written sections) := by
      rw [directivesFrom_sectionLines]
      exact List.mem_map_of_mem mem
    exact standsAsWritten_of_mem_directivesFrom stands none inDirectives
  obtain ⟨front, name, value, back, isLines, stands, differs⟩ := exists_first_standsNot someLine
  have allProper := sectionLines_proper proper
  have isDirectives := directivesFrom_sectionLines key written none sections
  rw [isLines] at reads allProper isDirectives
  obtain ⟨sectionName, inSection⟩ : ∃ name, sectionBehind none front = some name := by
    cases sections with
    | nil => cases front <;> cases isLines
    | cons one sections =>
      obtain ⟨first, settings⟩ := one
      cases front with
      | nil => cases sections <;> cases isLines
      | cons line front =>
        have isHeader : line = .header first := by
          cases sections with
          | nil => exact (List.cons.inj isLines).1.symm
          | cons next sections => exact (List.cons.inj isLines).1.symm
        rw [isHeader]
        exact exists_sectionBehind first front
  obtain ⟨other, rest, otherValue, _, isResult⟩ :=
    readUnit_unitText_differs allProper stands inSection differs reads
  rw [directivesFrom_append, inSection, directivesFrom] at isDirectives
  obtain ⟨before, behind, isSettings, isBefore, isBehind⟩ :=
    List.map_eq_append_iff.1 isDirectives.symm
  obtain ⟨entry, after, rfl, isEntry, _⟩ := List.map_eq_cons_iff.1 isBehind
  obtain ⟨isSection, isKey, isValue⟩ := UnitDirective.mk.inj isEntry
  rw [← isValue] at differs otherValue
  refine ⟨before, entry, after, other, rest, isSettings, ?_, differs, otherValue, ?_⟩
  · intro own mem
    have inFront : settingDirective key written own ∈ directivesFrom none front := by
      rw [← isBefore]
      exact List.mem_map_of_mem mem
    exact standsAsWritten_of_mem_directivesFrom stands none inFront
  · rw [isResult, isBefore, isSection, isKey]

end Reading

end Sections

/-- The newline behind the last line makes no difference. -/
theorem readUnit_unterminated {lines : List UnitLine} {last : UnitLine}
    (proper : ∀ line ∈ lines ++ [last], line.Proper) (nonempty : last.text ≠ []) :
    readUnit (fileText '\n' (lines.map UnitLine.text) ++ last.text) =
      readUnit (unitText (lines ++ [last])) := by
  have oneLine : ∀ text ∈ (lines ++ [last]).map UnitLine.text, '\n' ∉ text := by
    rw [List.forall_mem_map]
    exact fun line mem => (proper line mem).oneLine
  rw [readUnit, readUnit, unitText, fileLines_fileText oneLine]
  rw [List.map_append, List.forall_mem_append] at oneLine
  rw [fileLines_fileText_append oneLine.1, fileLines_last (oneLine.2 _ List.mem_cons_self) nonempty,
    List.map_append, List.map_singleton]

end Foundation
