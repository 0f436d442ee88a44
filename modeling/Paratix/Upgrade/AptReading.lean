/-
Module: Paratix.Upgrade.AptReading
Purpose: The grammar of apt sources files, one-line style and deb822, whose text is read in one way
  only; a file is kept with all of its text, so that it can be written back.
Main exports: AptPiece, AptSourcesFile.render_injective
-/
import Paratix.Upgrade.DebianUpgrade

namespace Paratix.Upgrade

open Foundation Archive

/-! ### Words -/

/-- A part of a list of words. -/
inductive AptPiece where
  | blank (char : Char)
  | word (name : Text)
deriving DecidableEq

def AptPiece.render : AptPiece → Text
  | .blank char => [char]
  | .word name => name

def AptPiece.isWord : AptPiece → Bool
  | .blank _ => false
  | .word _ => true

def AptPiece.mapWord (convert : Text → Text) : AptPiece → AptPiece
  | .blank char => .blank char
  | .word name => .word (convert name)

def renderPieces (pieces : List AptPiece) : Text := pieces.flatMap AptPiece.render

/-- Words of these characters, with blanks between them. -/
def arePieces (isWordCharacter : Char → Bool) : List AptPiece → Bool
  | [] => true
  | .blank char :: rest => isBlank char && arePieces isWordCharacter rest
  | .word name :: rest =>
      name ≠ [] && name.all isWordCharacter && !rest.head?.any AptPiece.isWord &&
        arePieces isWordCharacter rest

/-- A character of a suite, no white space -/
def isSuiteCharacter (char : Char) : Bool := !isJsSpace char

/-- A character of a word of a one-line source, where `#` starts a comment -/
def isEntryCharacter (char : Char) : Bool := isSuiteCharacter char && char ≠ '#'

def isGap (gap : Text) : Bool := gap ≠ [] && gap.all isBlank

/-! ### One-line style -/

/-- Whether the next character is between brackets, where blanks are allowed. -/
def bracketStep (inside : Bool) (char : Char) : Option Bool :=
  if char = '[' then some true
  else if char = ']' then some false
  else if isBlank char && !inside then none
  else some inside

def isUri (uri : Text) : Bool :=
  uri ≠ [] && uri.head? ≠ some '[' && uri.all (fun char => isBlank char || isEntryCharacter char) &&
    uri.foldlM bracketStep false = some false

/-- `deb [ options ] uri suite components # comment` -/
structure AptEntry where
  indent : Text
  type : Text
  typeGap : Text
  options : Option (Text × Text)
  uri : Text
  uriGap : Text
  suite : Text
  components : List AptPiece
  comment : Option Text
deriving DecidableEq

def AptEntry.renderOptions (entry : AptEntry) : Text :=
  match entry.options with
  | none => []
  | some (options, gap) => '[' :: (options ++ ']' :: gap)

/-- What follows the suite. -/
def AptEntry.tail (entry : AptEntry) : Text :=
  renderPieces entry.components ++ (entry.comment.map ('#' :: ·)).getD []

/-- What stands before the suite. -/
def AptEntry.front (entry : AptEntry) : Text :=
  entry.indent ++ (entry.type ++ (entry.typeGap ++ (entry.renderOptions ++
    (entry.uri ++ entry.uriGap))))

def AptEntry.render (entry : AptEntry) : Text := entry.front ++ (entry.suite ++ entry.tail)

/-- A suite that is a path ends with a slash and has no components. -/
structure AptEntry.WellFormed (entry : AptEntry) : Prop where
  indent : entry.indent.all isBlank = true
  type : entry.type ∈ [text "deb", text "deb-src"]
  typeGap : isGap entry.typeGap = true
  options : ∀ options gap, entry.options = some (options, gap) →
    options.all (fun char => isBlank char || (isEntryCharacter char && char ≠ ']')) = true ∧
      isGap gap = true
  uri : isUri entry.uri = true
  uriGap : isGap entry.uriGap = true
  suiteNonempty : entry.suite ≠ []
  suite : entry.suite.all isEntryCharacter = true
  components : arePieces isEntryCharacter entry.components = true
  apart : entry.components.head?.any AptPiece.isWord = false
  path : entry.components.any AptPiece.isWord = false ↔ entry.suite.getLast? = some '/'
  comment : ∀ comment, entry.comment = some comment → '\n' ∉ comment

inductive AptLine where
  | blank (value : Text)
  | comment (indent value : Text)
  | entry (source : AptEntry)

def AptLine.render : AptLine → Text
  | .blank value => value
  | .comment indent value => indent ++ '#' :: value
  | .entry source => source.render

def AptLine.WellFormed : AptLine → Prop
  | .blank value => value.all isBlank = true
  | .comment indent value => indent.all isBlank = true ∧ '\n' ∉ value
  | .entry source => source.WellFormed

def AptLine.mapSuites (convert : Text → Text) : AptLine → AptLine
  | .entry source => .entry { source with suite := convert source.suite }
  | line => line

/-! ### deb822 style -/

/-- A continuation line belongs to the field before it, also behind comments. -/
inductive Deb822Line where
  | blank (value : Text)
  | comment (value : Text)
  | field (name value : Text)
  | suites (name : Text) (pieces : List AptPiece)
  | continuation (value : Text)
  | moreSuites (pieces : List AptPiece)

def Deb822Line.render : Deb822Line → Text
  | .blank value => value
  | .comment value => '#' :: value
  | .field name value => name ++ ':' :: value
  | .suites name pieces => name ++ ':' :: renderPieces pieces
  | .continuation value => value
  | .moreSuites pieces => renderPieces pieces

inductive Deb822Context where
  | start
  | otherField
  | suitesField
deriving DecidableEq

def Deb822Line.next (context : Deb822Context) : Deb822Line → Deb822Context
  | .blank _ => .start
  | .field _ _ => .otherField
  | .suites _ _ => .suitesField
  | .comment _ | .continuation _ | .moreSuites _ => context

/-- Names of fields are the same in upper and in lower case. -/
def isSuitesName (name : Text) : Bool := name.map Char.toLower = text "suites"

def isFieldName (name : Text) : Bool :=
  name ≠ [] && name.head? ≠ some '#' && name.head? ≠ some '-' &&
    name.all fun char => 0x21 ≤ char.toNat && char.toNat ≤ 0x7e && char ≠ ':'

def Deb822Line.FitsIn (context : Deb822Context) : Deb822Line → Prop
  | .blank value => value.all isBlank = true
  | .comment value => '\n' ∉ value
  | .field name value => isFieldName name = true ∧ isSuitesName name = false ∧ '\n' ∉ value
  | .suites name pieces =>
      isFieldName name = true ∧ isSuitesName name = true ∧ arePieces isSuiteCharacter pieces = true
  | .continuation value =>
      context = .otherField ∧ value.head?.any isBlank = true ∧ value.all isBlank = false ∧
        '\n' ∉ value
  | .moreSuites pieces =>
      context = .suitesField ∧ arePieces isSuiteCharacter pieces = true ∧
        pieces.head?.any AptPiece.isWord = false ∧ pieces.any AptPiece.isWord = true

def deb822FitsIn : Deb822Context → List Deb822Line → Prop
  | _, [] => True
  | context, line :: lines => line.FitsIn context ∧ deb822FitsIn (line.next context) lines

instance (context : Deb822Context) (line : Deb822Line) : Decidable (line.FitsIn context) :=
  match line with
  | .blank _ | .comment _ | .field _ _ | .suites _ _ | .continuation _ | .moreSuites _ => by
    unfold Deb822Line.FitsIn
    infer_instance

instance decidableDeb822FitsIn :
    (context : Deb822Context) → (lines : List Deb822Line) → Decidable (deb822FitsIn context lines)
  | _, [] => inferInstanceAs (Decidable True)
  | context, line :: lines =>
    have := decidableDeb822FitsIn (line.next context) lines
    inferInstanceAs (Decidable (_ ∧ _))

def Deb822Line.mapSuites (convert : Text → Text) : Deb822Line → Deb822Line
  | .suites name pieces => .suites name (pieces.map (AptPiece.mapWord convert))
  | .moreSuites pieces => .moreSuites (pieces.map (AptPiece.mapWord convert))
  | line => line

/-! ### Files -/

inductive AptSourcesFile where
  | oneLine (lines : List AptLine)
  | deb822 (lines : List Deb822Line)

def AptSourcesFile.render : AptSourcesFile → Text
  | .oneLine lines => joinLines (lines.map AptLine.render)
  | .deb822 lines => joinLines (lines.map Deb822Line.render)

def AptSourcesFile.WellFormed : AptSourcesFile → Prop
  | .oneLine lines => lines ≠ [] ∧ ∀ line ∈ lines, line.WellFormed
  | .deb822 lines => lines ≠ [] ∧ deb822FitsIn .start lines

def AptSourcesFile.mapSuites (convert : Text → Text) : AptSourcesFile → AptSourcesFile
  | .oneLine lines => .oneLine (lines.map (AptLine.mapSuites convert))
  | .deb822 lines => .deb822 (lines.map (Deb822Line.mapSuites convert))

/-- The style of a file is told by its name. -/
def AptSourcesFile.StoredAt (remotePath : Text) : AptSourcesFile → Prop
  | .oneLine _ => ¬text ".sources" <:+ remotePath
  | .deb822 _ => text ".sources" <:+ remotePath

/-! ### Runs -/

/-- The text does not go on with such a character. -/
def EndsRun (isMember : Char → Bool) (rest : Text) : Prop :=
  ∀ char, rest.head? = some char → isMember char = false

theorem run_inj {isMember : Char → Bool} {first second rest others : Text}
    (firstRun : first.all isMember = true) (secondRun : second.all isMember = true)
    (firstEnds : EndsRun isMember rest) (secondEnds : EndsRun isMember others)
    (same : first ++ rest = second ++ others) : first = second ∧ rest = others := by
  induction first generalizing second with
  | nil =>
    cases second with
    | nil => exact ⟨rfl, same⟩
    | cons char second =>
      rw [List.all_cons, Bool.and_eq_true] at secondRun
      have ends := firstEnds char (by rw [← List.nil_append rest, same]; rfl)
      rw [ends] at secondRun
      exact absurd secondRun.1 Bool.false_ne_true
  | cons char first ih =>
    rw [List.all_cons, Bool.and_eq_true] at firstRun
    cases second with
    | nil =>
      have ends := secondEnds char (by rw [← List.nil_append others, ← same]; rfl)
      rw [ends] at firstRun
      exact absurd firstRun.1 Bool.false_ne_true
    | cons other second =>
      rw [List.all_cons, Bool.and_eq_true] at secondRun
      obtain ⟨sameHead, sameRest⟩ := List.cons.inj same
      obtain ⟨sameRun, sameBehind⟩ := ih firstRun.2 secondRun.2 sameRest
      exact ⟨by rw [sameHead, sameRun], sameBehind⟩

theorem endsRun_cons {isMember : Char → Bool} {char : Char} {rest : Text}
    (ends : isMember char = false) : EndsRun isMember (char :: rest) := by
  intro head isHead
  cases Option.some.inj isHead
  exact ends

theorem endsRun_append {isMember : Char → Bool} {front rest : Text} (nonempty : front ≠ [])
    (ends : EndsRun isMember front) : EndsRun isMember (front ++ rest) := by
  intro head isHead
  rw [List.head?_append_of_ne_nil _ nonempty] at isHead
  exact ends head isHead

theorem arePieces_word {isWordCharacter : Char → Bool} {name : Text} {rest : List AptPiece}
    (pieces : arePieces isWordCharacter (.word name :: rest) = true) :
    name ≠ [] ∧ name.all isWordCharacter = true ∧ rest.head?.any AptPiece.isWord = false ∧
      arePieces isWordCharacter rest = true := by
  rw [arePieces, Bool.and_eq_true, Bool.and_eq_true, Bool.and_eq_true, decide_eq_true_eq,
    Bool.not_eq_true'] at pieces
  exact ⟨pieces.1.1.1, pieces.1.1.2, pieces.1.2, pieces.2⟩

theorem arePieces_blank {isWordCharacter : Char → Bool} {char : Char} {rest : List AptPiece}
    (pieces : arePieces isWordCharacter (.blank char :: rest) = true) :
    isBlank char = true ∧ arePieces isWordCharacter rest = true := by
  rwa [arePieces, Bool.and_eq_true] at pieces

theorem renderPieces_cons (piece : AptPiece) (pieces : List AptPiece) :
    renderPieces (piece :: pieces) = piece.render ++ renderPieces pieces :=
  List.flatMap_cons

section Pieces

variable {isWordCharacter : Char → Bool}

/-- A word ends before the pieces that follow it. -/
theorem endsRun_pieces (noBlank : ∀ char, isBlank char = true → isWordCharacter char = false)
    {pieces : List AptPiece} {rest : Text} (valid : arePieces isWordCharacter pieces = true)
    (apart : pieces.head?.any AptPiece.isWord = false) (ends : EndsRun isWordCharacter rest) :
    EndsRun isWordCharacter (renderPieces pieces ++ rest) := by
  cases pieces with
  | nil => exact ends
  | cons piece pieces =>
    cases piece with
    | blank char => exact endsRun_cons (noBlank char (arePieces_blank valid).1)
    | word name => exact absurd apart.symm Bool.false_ne_true

/-- No piece starts where a text of pieces ends. -/
theorem piece_notStarts {piece : AptPiece} {pieces : List AptPiece} {rest behind : Text}
    (valid : arePieces isWordCharacter (piece :: pieces) = true)
    (ends : EndsRun (fun char => isBlank char || isWordCharacter char) behind) :
    behind ≠ renderPieces (piece :: pieces) ++ rest := by
  intro isPiece
  cases piece with
  | blank char =>
    have noHead : (isBlank char || isWordCharacter char) = false := ends char (by rw [isPiece]; rfl)
    rw [(arePieces_blank valid).1] at noHead
    exact Bool.noConfusion noHead
  | word name =>
    obtain ⟨nonempty, members, -, -⟩ := arePieces_word valid
    obtain ⟨head, name, rfl⟩ := List.exists_cons_of_ne_nil nonempty
    rw [List.all_cons, Bool.and_eq_true] at members
    have noHead : (isBlank head || isWordCharacter head) = false := ends head (by rw [isPiece]; rfl)
    rw [members.1, Bool.or_true] at noHead
    exact Bool.noConfusion noHead

theorem pieces_inj (noBlank : ∀ char, isBlank char = true → isWordCharacter char = false)
    {first second : List AptPiece} {rest others : Text}
    (firstValid : arePieces isWordCharacter first = true)
    (secondValid : arePieces isWordCharacter second = true)
    (ends : EndsRun (fun char => isBlank char || isWordCharacter char) rest)
    (othersEnd : EndsRun (fun char => isBlank char || isWordCharacter char) others)
    (same : renderPieces first ++ rest = renderPieces second ++ others) :
    first = second ∧ rest = others := by
  have wordEnds : EndsRun isWordCharacter rest :=
    fun char isHead => (Bool.or_eq_false_iff.1 (ends char isHead)).2
  have othersWordEnd : EndsRun isWordCharacter others :=
    fun char isHead => (Bool.or_eq_false_iff.1 (othersEnd char isHead)).2
  induction first generalizing second with
  | nil =>
    cases second with
    | nil => exact ⟨rfl, same⟩
    | cons piece second => exact absurd same (piece_notStarts secondValid ends)
  | cons piece first ih =>
    cases second with
    | nil => exact absurd same.symm (piece_notStarts firstValid othersEnd)
    | cons other second =>
      cases piece with
      | blank char =>
        obtain ⟨charBlank, firstRest⟩ := arePieces_blank firstValid
        cases other with
        | blank otherChar =>
          obtain ⟨sameChar, sameRest⟩ := List.cons.inj same
          obtain ⟨samePieces, sameEnd⟩ := ih firstRest (arePieces_blank secondValid).2 sameRest
          exact ⟨by rw [sameChar, samePieces], sameEnd⟩
        | word name =>
          obtain ⟨nonempty, members, -, -⟩ := arePieces_word secondValid
          obtain ⟨head, name, rfl⟩ := List.exists_cons_of_ne_nil nonempty
          rw [List.all_cons, Bool.and_eq_true] at members
          have sameChar : char = head := (List.cons.inj same).1
          rw [← sameChar, noBlank char charBlank] at members
          exact absurd members.1 Bool.false_ne_true
      | word name =>
        obtain ⟨nonempty, members, apart, firstRest⟩ := arePieces_word firstValid
        cases other with
        | blank otherChar =>
          obtain ⟨head, name, rfl⟩ := List.exists_cons_of_ne_nil nonempty
          rw [List.all_cons, Bool.and_eq_true] at members
          have sameChar : head = otherChar := (List.cons.inj same).1
          rw [sameChar, noBlank otherChar (arePieces_blank secondValid).1] at members
          exact absurd members.1 Bool.false_ne_true
        | word otherName =>
          obtain ⟨-, otherMembers, otherApart, secondRest⟩ := arePieces_word secondValid
          rw [renderPieces_cons, renderPieces_cons, List.append_assoc, List.append_assoc] at same
          obtain ⟨sameName, sameRest⟩ := run_inj members otherMembers
            (endsRun_pieces noBlank firstRest apart wordEnds)
            (endsRun_pieces noBlank secondRest otherApart othersWordEnd) same
          have sameWord : name = otherName := sameName
          obtain ⟨samePieces, sameEnd⟩ := ih firstRest secondRest sameRest
          exact ⟨by rw [sameWord, samePieces], sameEnd⟩

end Pieces

theorem not_isSuiteCharacter_of_isBlank (char : Char) (blank : isBlank char = true) :
    isSuiteCharacter char = false := by
  rw [isBlank, Bool.or_eq_true, decide_eq_true_eq, decide_eq_true_eq] at blank
  rcases blank with rfl | rfl
  · rfl
  · rfl

theorem not_isEntryCharacter_of_isBlank (char : Char) (blank : isBlank char = true) :
    isEntryCharacter char = false := by
  rw [isEntryCharacter, not_isSuiteCharacter_of_isBlank char blank, Bool.false_and]

theorem not_isBlank_of_isEntryCharacter {char : Char} (inWord : isEntryCharacter char = true) :
    isBlank char = false := by
  by_contra blank
  rw [not_isEntryCharacter_of_isBlank char (Bool.not_eq_false _ ▸ blank)] at inWord
  exact Bool.false_ne_true inWord

theorem isGap_spec {gap : Text} (valid : isGap gap = true) :
    gap ≠ [] ∧ gap.all isBlank = true := by
  rwa [isGap, Bool.and_eq_true, decide_eq_true_eq] at valid

/-! ### Entries -/

structure IsUri (uri : Text) : Prop where
  nonempty : uri ≠ []
  noBracket : uri.head? ≠ some '['
  members : ∀ char ∈ uri, isBlank char = true ∨ isEntryCharacter char = true
  closed : uri.foldlM bracketStep false = some false

theorem isUri_spec {uri : Text} (valid : isUri uri = true) : IsUri uri := by
  rw [isUri, Bool.and_eq_true, Bool.and_eq_true, Bool.and_eq_true, decide_eq_true_eq,
    decide_eq_true_eq, decide_eq_true_eq, List.all_eq_true] at valid
  refine ⟨valid.1.1.1, valid.1.1.2, ?_, valid.2⟩
  intro char mem
  exact Bool.or_eq_true_iff.1 (valid.1.2 char mem)

theorem bracketStep_blank {char : Char} (blank : isBlank char = true) :
    bracketStep false char = none := by
  rw [isBlank, Bool.or_eq_true, decide_eq_true_eq, decide_eq_true_eq] at blank
  rcases blank with rfl | rfl
  · rfl
  · rfl

theorem IsUri.head_notBlank {uri : Text} (valid : IsUri uri) : EndsRun isBlank uri := by
  intro char isHead
  obtain ⟨rest, rfl⟩ := List.head?_eq_some_iff.1 isHead
  have closed := valid.closed
  rw [List.foldlM_cons] at closed
  by_contra blank
  rw [bracketStep_blank (Bool.not_eq_false _ ▸ blank)] at closed
  cases closed

theorem uri_le {first second gap rest others : Text} (firstUri : IsUri first)
    (secondUri : IsUri second) (isGap : gap ≠ [] ∧ gap.all isBlank = true)
    (same : first ++ (gap ++ rest) = second ++ others) : second.length ≤ first.length := by
  by_contra longer
  obtain ⟨more, isSecond, isRest⟩ : ∃ more, second = first ++ more ∧ gap ++ rest = more ++ others := by
    rcases List.append_eq_append_iff.1 same with ⟨more, isSecond, isRest⟩ | ⟨more, isFirst, -⟩
    · exact ⟨more, isSecond, isRest⟩
    · rw [isFirst, List.length_append] at longer
      exact absurd (Nat.le_add_right _ _) longer
  have moreNonempty : more ≠ [] := by
    rintro rfl
    rw [List.append_nil] at isSecond
    exact longer (isSecond ▸ Nat.le_refl _)
  obtain ⟨head, more, rfl⟩ := List.exists_cons_of_ne_nil moreNonempty
  obtain ⟨blank, gap, rfl⟩ := List.exists_cons_of_ne_nil isGap.1
  have isBlankHead := isGap.2
  rw [List.all_cons, Bool.and_eq_true] at isBlankHead
  have sameHead : blank = head := (List.cons.inj isRest).1
  have closed := secondUri.closed
  rw [isSecond, List.foldlM_append, firstUri.closed] at closed
  have stepped : (head :: more).foldlM bracketStep false = some false := closed
  rw [List.foldlM_cons, bracketStep_blank (sameHead ▸ isBlankHead.1)] at stepped
  cases stepped

theorem uri_inj {first second gap otherGap rest others : Text} (firstUri : IsUri first)
    (secondUri : IsUri second) (isGap : gap ≠ [] ∧ gap.all isBlank = true)
    (isOtherGap : otherGap ≠ [] ∧ otherGap.all isBlank = true)
    (same : first ++ (gap ++ rest) = second ++ (otherGap ++ others)) :
    first = second ∧ gap ++ rest = otherGap ++ others := by
  apply List.append_inj same
  apply Nat.le_antisymm
  · exact uri_le secondUri firstUri isOtherGap same.symm
  · exact uri_le firstUri secondUri isGap same

theorem endsRun_tail {source : AptEntry} (valid : source.WellFormed) :
    EndsRun isEntryCharacter source.tail := by
  apply endsRun_pieces not_isEntryCharacter_of_isBlank valid.components valid.apart
  cases source.comment with
  | none => exact fun char isHead => absurd isHead (Option.some_ne_none _).symm
  | some comment => exact endsRun_cons rfl

theorem tail_inj {first second : AptEntry} (firstValid : first.WellFormed)
    (secondValid : second.WellFormed) (same : first.tail = second.tail) :
    first.components = second.components ∧ first.comment = second.comment := by
  have ends : ∀ comment : Option Text,
      EndsRun (fun char => isBlank char || isEntryCharacter char)
        ((comment.map ('#' :: ·)).getD []) := by
    intro comment
    cases comment with
    | none => exact fun char isHead => absurd isHead (Option.some_ne_none _).symm
    | some comment => exact endsRun_cons rfl
  obtain ⟨sameComponents, sameComment⟩ := pieces_inj not_isEntryCharacter_of_isBlank
    firstValid.components secondValid.components (ends _) (ends _) same
  refine ⟨sameComponents, ?_⟩
  cases isFirst : first.comment with
  | none =>
    cases isSecond : second.comment with
    | none => rfl
    | some comment =>
      rw [isFirst, isSecond] at sameComment
      cases sameComment
  | some comment =>
    cases isSecond : second.comment with
    | none =>
      rw [isFirst, isSecond] at sameComment
      cases sameComment
    | some other =>
      rw [isFirst, isSecond] at sameComment
      exact congrArg some (List.cons.inj sameComment).2

theorem endsRun_word {word : Text} (nonempty : word ≠ [])
    (members : word.all isEntryCharacter = true) (rest : Text) :
    EndsRun isBlank (word ++ rest) := by
  apply endsRun_append nonempty
  intro char isHead
  exact not_isBlank_of_isEntryCharacter
    (List.all_eq_true.1 members char (List.mem_of_head? isHead))

theorem AptEntry.WellFormed.type_spec {source : AptEntry} (valid : source.WellFormed) :
    source.type ≠ [] ∧ source.type.all isEntryCharacter = true := by
  have each : ∀ type ∈ [text "deb", text "deb-src"],
      type ≠ [] ∧ type.all isEntryCharacter = true := by decide
  exact each source.type valid.type

theorem renderOptions_none {source : AptEntry} (isNone : source.options = none) (rest : Text) :
    source.renderOptions ++ rest = rest := by
  rw [AptEntry.renderOptions, isNone]
  rfl

theorem renderOptions_some {source : AptEntry} {options gap : Text}
    (isSome : source.options = some (options, gap)) (rest : Text) :
    source.renderOptions ++ rest = '[' :: (options ++ ']' :: (gap ++ rest)) := by
  rw [AptEntry.renderOptions, isSome]
  show '[' :: ((options ++ ']' :: gap) ++ rest) = _
  rw [List.append_assoc]
  rfl

/-- What stands between the type and the address. -/
theorem options_inj {first second : AptEntry} {rest others : Text}
    (firstValid : first.WellFormed) (secondValid : second.WellFormed)
    (same : first.renderOptions ++ (first.uri ++ rest) =
      second.renderOptions ++ (second.uri ++ others)) :
    first.options = second.options ∧ first.uri ++ rest = second.uri ++ others := by
  have firstUri := isUri_spec firstValid.uri
  have secondUri := isUri_spec secondValid.uri
  cases isFirst : first.options with
  | none =>
    cases isSecond : second.options with
    | none =>
      rw [renderOptions_none isFirst, renderOptions_none isSecond] at same
      exact ⟨rfl, same⟩
    | some options =>
      rw [renderOptions_none isFirst, renderOptions_some isSecond] at same
      have bracket : (first.uri ++ rest).head? = some '[' := by
        rw [same]
        rfl
      rw [List.head?_append_of_ne_nil _ firstUri.nonempty] at bracket
      exact absurd bracket firstUri.noBracket
  | some options =>
    obtain ⟨options, gap⟩ := options
    obtain ⟨optionsValid, gapValid⟩ := firstValid.options _ _ isFirst
    cases isSecond : second.options with
    | none =>
      rw [renderOptions_some isFirst, renderOptions_none isSecond] at same
      have bracket : (second.uri ++ others).head? = some '[' := by
        rw [← same]
        rfl
      rw [List.head?_append_of_ne_nil _ secondUri.nonempty] at bracket
      exact absurd bracket secondUri.noBracket
    | some otherOptions =>
      obtain ⟨otherOptions, otherGap⟩ := otherOptions
      obtain ⟨otherValid, otherGapValid⟩ := secondValid.options _ _ isSecond
      have noBracket : ∀ options : Text,
          options.all (fun char => isBlank char || (isEntryCharacter char && char ≠ ']')) = true →
            options.all (fun char => char ≠ ']') = true := by
        intro options valid
        rw [List.all_eq_true] at valid ⊢
        intro char mem
        rcases Bool.or_eq_true_iff.1 (valid char mem) with blank | inWord
        · apply decide_eq_true
          rintro rfl
          exact Bool.false_ne_true blank
        · exact (Bool.and_eq_true_iff.1 inWord).2
      rw [renderOptions_some isFirst, renderOptions_some isSecond] at same
      obtain ⟨sameOptions, closed⟩ := run_inj (noBracket _ optionsValid) (noBracket _ otherValid)
        (endsRun_cons rfl) (endsRun_cons rfl) (List.cons.inj same).2
      obtain ⟨sameGap, sameRest⟩ := run_inj (isGap_spec gapValid).2 (isGap_spec otherGapValid).2
        (endsRun_append firstUri.nonempty firstUri.head_notBlank)
        (endsRun_append secondUri.nonempty secondUri.head_notBlank) (List.cons.inj closed).2
      exact ⟨by rw [sameOptions, sameGap], sameRest⟩

theorem endsRun_options {source : AptEntry} (valid : source.WellFormed) (rest : Text) :
    EndsRun isBlank (source.renderOptions ++ (source.uri ++ rest)) := by
  have isUri := isUri_spec valid.uri
  cases hasOptions : source.options with
  | none =>
    rw [renderOptions_none hasOptions]
    exact endsRun_append isUri.nonempty isUri.head_notBlank
  | some options =>
    rw [renderOptions_some hasOptions]
    exact endsRun_cons rfl

theorem endsRun_gap {gap : Text} (valid : isGap gap = true) (rest : Text) :
    EndsRun isEntryCharacter (gap ++ rest) := by
  obtain ⟨nonempty, blank⟩ := isGap_spec valid
  apply endsRun_append nonempty
  intro char isHead
  exact not_isEntryCharacter_of_isBlank char
    (List.all_eq_true.1 blank char (List.mem_of_head? isHead))

theorem AptEntry.render_eq (source : AptEntry) :
    source.render = source.indent ++ (source.type ++ (source.typeGap ++ (source.renderOptions ++
      (source.uri ++ (source.uriGap ++ (source.suite ++ source.tail)))))) := by
  simp only [AptEntry.render, AptEntry.front, List.append_assoc]

theorem entry_inj {first second : AptEntry} (firstValid : first.WellFormed)
    (secondValid : second.WellFormed) (same : first.render = second.render) : first = second := by
  rw [AptEntry.render_eq, AptEntry.render_eq] at same
  obtain ⟨firstType, firstTypeWord⟩ := firstValid.type_spec
  obtain ⟨secondType, secondTypeWord⟩ := secondValid.type_spec
  obtain ⟨sameIndent, behindIndent⟩ := run_inj firstValid.indent secondValid.indent
    (endsRun_word firstType firstTypeWord _) (endsRun_word secondType secondTypeWord _) same
  obtain ⟨sameType, behindType⟩ := run_inj firstTypeWord secondTypeWord
    (endsRun_gap firstValid.typeGap _) (endsRun_gap secondValid.typeGap _) behindIndent
  obtain ⟨sameTypeGap, behindTypeGap⟩ := run_inj (isGap_spec firstValid.typeGap).2
    (isGap_spec secondValid.typeGap).2 (endsRun_options firstValid _)
    (endsRun_options secondValid _) behindType
  obtain ⟨sameOptions, behindOptions⟩ := options_inj firstValid secondValid behindTypeGap
  obtain ⟨sameUri, behindUri⟩ := uri_inj (isUri_spec firstValid.uri) (isUri_spec secondValid.uri)
    (isGap_spec firstValid.uriGap) (isGap_spec secondValid.uriGap) behindOptions
  obtain ⟨sameUriGap, behindUriGap⟩ := run_inj (isGap_spec firstValid.uriGap).2
    (isGap_spec secondValid.uriGap).2
    (endsRun_word firstValid.suiteNonempty firstValid.suite _)
    (endsRun_word secondValid.suiteNonempty secondValid.suite _) behindUri
  obtain ⟨sameSuite, sameTail⟩ := run_inj firstValid.suite secondValid.suite
    (endsRun_tail firstValid) (endsRun_tail secondValid) behindUriGap
  obtain ⟨sameComponents, sameComment⟩ := tail_inj firstValid secondValid sameTail
  cases first
  cases second
  simp only [AptEntry.mk.injEq]
  exact ⟨sameIndent, sameType, sameTypeGap, sameOptions, sameUri, sameUriGap, sameSuite,
    sameComponents, sameComment⟩

/-! ### Lines -/

/-- What a line of the one-line style is told by: what follows its blanks. -/
inductive LineKind where
  | blank
  | comment
  | indented
  | other
deriving DecidableEq

def AptLine.kind : AptLine → LineKind
  | .blank _ => .blank
  | .comment _ _ => .comment
  | .entry _ => .other

def oneLineKind (value : Text) : LineKind :=
  if value.dropWhile isBlank = [] then .blank
  else if (value.dropWhile isBlank).head? = some '#' then .comment
  else .other

theorem dropWhile_run {isMember : Char → Bool} {run rest : Text} (members : run.all isMember = true)
    (ends : EndsRun isMember rest) : (run ++ rest).dropWhile isMember = rest := by
  rw [List.dropWhile_append_of_pos (List.all_eq_true.1 members)]
  cases rest with
  | nil => rfl
  | cons char rest => exact List.dropWhile_cons_of_neg (by rw [ends char rfl]; exact Bool.false_ne_true)

theorem takeWhile_run {isMember : Char → Bool} {run rest : Text} (members : run.all isMember = true)
    (ends : EndsRun isMember rest) : (run ++ rest).takeWhile isMember = run := by
  rw [List.takeWhile_append_of_pos (List.all_eq_true.1 members)]
  cases rest with
  | nil => exact List.append_nil run
  | cons char rest =>
    rw [List.takeWhile_cons_of_neg (by rw [ends char rfl]; exact Bool.false_ne_true),
      List.append_nil]

theorem AptEntry.WellFormed.dropWhile_indent {source : AptEntry} (valid : source.WellFormed) :
    source.render.dropWhile isBlank = source.type ++ (source.typeGap ++ (source.renderOptions ++
      (source.uri ++ (source.uriGap ++ (source.suite ++ source.tail))))) := by
  rw [AptEntry.render_eq]
  exact dropWhile_run valid.indent (endsRun_word valid.type_spec.1 valid.type_spec.2 _)

theorem oneLineKind_render {line : AptLine} (valid : line.WellFormed) :
    oneLineKind line.render = line.kind := by
  cases line with
  | blank value =>
    have dropped := @dropWhile_run isBlank value [] valid fun char isHead => by cases isHead
    rw [List.append_nil] at dropped
    exact if_pos dropped
  | comment indent value =>
    have dropped := @dropWhile_run isBlank indent ('#' :: value) valid.1 (endsRun_cons rfl)
    rw [AptLine.render, oneLineKind, dropped]
    rfl
  | entry source =>
    have valid : source.WellFormed := valid
    have hashless : ∀ type ∈ [text "deb", text "deb-src"], type.head? ≠ some '#' := by decide
    rw [AptLine.render, oneLineKind, valid.dropWhile_indent, if_neg, if_neg]
    · rfl
    · rw [List.head?_append_of_ne_nil _ valid.type_spec.1]
      exact hashless _ valid.type
    · exact List.append_ne_nil_of_left_ne_nil valid.type_spec.1 _

theorem aptLine_inj {first second : AptLine} (firstValid : first.WellFormed)
    (secondValid : second.WellFormed) (same : first.render = second.render) : first = second := by
  have kinds : first.kind = second.kind := by
    rw [← oneLineKind_render firstValid, ← oneLineKind_render secondValid, same]
  cases first with
  | blank value =>
    cases second with
    | blank other => exact congrArg AptLine.blank same
    | comment indent other => cases kinds
    | entry source => cases kinds
  | comment indent value =>
    cases second with
    | blank other => cases kinds
    | entry source => cases kinds
    | comment otherIndent other =>
      obtain ⟨sameIndent, sameValue⟩ := run_inj firstValid.1 secondValid.1 (endsRun_cons rfl)
        (endsRun_cons rfl) same
      rw [sameIndent, (List.cons.inj sameValue).2]
  | entry source =>
    cases second with
    | blank other => cases kinds
    | comment indent other => cases kinds
    | entry other => exact congrArg AptLine.entry (entry_inj firstValid secondValid same)

def Deb822Line.kind : Deb822Line → LineKind
  | .blank _ => .blank
  | .comment _ => .comment
  | .continuation _ | .moreSuites _ => .indented
  | .field _ _ | .suites _ _ => .other

def deb822Kind (value : Text) : LineKind :=
  if value.all isBlank then .blank
  else if value.head? = some '#' then .comment
  else if value.head?.any isBlank then .indented
  else .other

theorem all_blank_renderPieces {isWordCharacter : Char → Bool}
    (noBlank : ∀ char, isBlank char = true → isWordCharacter char = false)
    {pieces : List AptPiece} (valid : arePieces isWordCharacter pieces = true)
    (hasWord : pieces.any AptPiece.isWord = true) : (renderPieces pieces).all isBlank = false := by
  induction pieces with
  | nil => cases hasWord
  | cons piece pieces ih =>
    rw [renderPieces_cons, List.all_append, Bool.and_eq_false_iff]
    cases piece with
    | blank char => exact .inr (ih (arePieces_blank valid).2 hasWord)
    | word name =>
      obtain ⟨nonempty, members, -, -⟩ := arePieces_word valid
      obtain ⟨head, name, rfl⟩ := List.exists_cons_of_ne_nil nonempty
      rw [List.all_cons, Bool.and_eq_true] at members
      apply Or.inl
      show (isBlank head && name.all isBlank) = false
      rw [Bool.and_eq_false_iff]
      apply Or.inl
      by_contra blank
      rw [noBlank head (Bool.not_eq_false _ ▸ blank)] at members
      exact Bool.false_ne_true members.1

structure IsFieldName (name : Text) : Prop where
  nonempty : name ≠ []
  noHash : name.head? ≠ some '#'
  members : ∀ char ∈ name, 0x21 ≤ char.toNat ∧ char.toNat ≤ 0x7e ∧ char ≠ ':'

theorem isFieldName_spec {name : Text} (valid : isFieldName name = true) : IsFieldName name := by
  rw [isFieldName, Bool.and_eq_true, Bool.and_eq_true, Bool.and_eq_true, decide_eq_true_eq,
    decide_eq_true_eq, List.all_eq_true] at valid
  refine ⟨valid.1.1.1, valid.1.1.2, ?_⟩
  intro char mem
  have member := valid.2 char mem
  rw [Bool.and_eq_true, Bool.and_eq_true, decide_eq_true_eq, decide_eq_true_eq,
    decide_eq_true_eq] at member
  exact ⟨member.1.1, member.1.2, member.2⟩

theorem deb822Kind_name {name : Text} (valid : isFieldName name = true) (rest : Text) :
    deb822Kind (name ++ rest) = .other := by
  have isName := isFieldName_spec valid
  obtain ⟨head, name, rfl⟩ := List.exists_cons_of_ne_nil isName.nonempty
  have visible := isName.members head List.mem_cons_self
  have notBlank : isBlank head = false := by
    by_contra blank
    rw [Bool.not_eq_false, isBlank, Bool.or_eq_true, decide_eq_true_eq, decide_eq_true_eq] at blank
    rcases blank with rfl | rfl
    · exact absurd visible.1 (by decide)
    · exact absurd visible.1 (by decide)
  rw [deb822Kind, List.cons_append, List.all_cons, notBlank, List.head?_cons, Option.any_some,
    notBlank, if_neg, if_neg, if_neg]
  · exact Bool.false_ne_true
  · exact isName.noHash
  · exact Bool.false_ne_true

theorem deb822Kind_indented {value : Text} (blankHead : value.head?.any isBlank = true)
    (notBlank : value.all isBlank = false) : deb822Kind value = .indented := by
  rw [deb822Kind, notBlank, blankHead, if_neg Bool.false_ne_true, if_neg, if_pos rfl]
  intro hash
  rw [hash] at blankHead
  exact Bool.false_ne_true blankHead

theorem head_renderPieces {isWordCharacter : Char → Bool} {pieces : List AptPiece}
    (valid : arePieces isWordCharacter pieces = true)
    (apart : pieces.head?.any AptPiece.isWord = false)
    (hasWord : pieces.any AptPiece.isWord = true) :
    (renderPieces pieces).head?.any isBlank = true := by
  cases pieces with
  | nil => cases hasWord
  | cons piece pieces =>
    cases piece with
    | blank char => exact (arePieces_blank valid).1
    | word name => exact absurd apart.symm Bool.false_ne_true

theorem deb822Kind_render {context : Deb822Context} {line : Deb822Line}
    (fits : line.FitsIn context) : deb822Kind line.render = line.kind := by
  cases line with
  | blank value => exact if_pos fits
  | comment value => rfl
  | field name value => exact deb822Kind_name fits.1 _
  | suites name pieces => exact deb822Kind_name fits.1 _
  | continuation value => exact deb822Kind_indented fits.2.1 fits.2.2.1
  | moreSuites pieces =>
    obtain ⟨-, valid, apart, hasWord⟩ := fits
    exact deb822Kind_indented (head_renderPieces valid apart hasWord)
      (all_blank_renderPieces not_isSuiteCharacter_of_isBlank valid hasWord)

theorem name_inj {first second rest others : Text} (firstName : isFieldName first = true)
    (secondName : isFieldName second = true)
    (same : first ++ ':' :: rest = second ++ ':' :: others) : first = second ∧ rest = others := by
  have colonless : ∀ name : Text, isFieldName name = true →
      name.all (fun char => char ≠ ':') = true := by
    intro name valid
    rw [List.all_eq_true]
    intro char mem
    exact decide_eq_true ((isFieldName_spec valid).members char mem).2.2
  obtain ⟨sameName, sameRest⟩ := run_inj (colonless _ firstName) (colonless _ secondName)
    (endsRun_cons rfl) (endsRun_cons rfl) same
  exact ⟨sameName, (List.cons.inj sameRest).2⟩

theorem suites_inj {first second : List AptPiece}
    (firstValid : arePieces isSuiteCharacter first = true)
    (secondValid : arePieces isSuiteCharacter second = true)
    (same : renderPieces first = renderPieces second) : first = second := by
  have ends : EndsRun (fun char => isBlank char || isSuiteCharacter char) [] :=
    fun char isHead => by cases isHead
  apply (pieces_inj not_isSuiteCharacter_of_isBlank firstValid secondValid ends ends _).1
  rw [same]

theorem deb822Line_inj {context : Deb822Context} {first second : Deb822Line}
    (firstFits : first.FitsIn context) (secondFits : second.FitsIn context)
    (same : first.render = second.render) : first = second := by
  have kinds : first.kind = second.kind := by
    rw [← deb822Kind_render firstFits, ← deb822Kind_render secondFits, same]
  cases first with
  | blank value =>
    cases second with
    | blank other => exact congrArg Deb822Line.blank same
    | _ => cases kinds
  | comment value =>
    cases second with
    | comment other => exact congrArg Deb822Line.comment (List.cons.inj same).2
    | _ => cases kinds
  | field name value =>
    cases second with
    | field otherName other =>
      obtain ⟨rfl, rfl⟩ := name_inj firstFits.1 secondFits.1 same
      rfl
    | suites otherName pieces =>
      obtain ⟨rfl, -⟩ := name_inj firstFits.1 secondFits.1 same
      exact absurd (firstFits.2.1.symm.trans secondFits.2.1) Bool.false_ne_true
    | _ => cases kinds
  | suites name pieces =>
    cases second with
    | field otherName other =>
      obtain ⟨rfl, -⟩ := name_inj firstFits.1 secondFits.1 same
      exact absurd (secondFits.2.1.symm.trans firstFits.2.1) Bool.false_ne_true
    | suites otherName others =>
      obtain ⟨rfl, samePieces⟩ := name_inj firstFits.1 secondFits.1 same
      rw [suites_inj firstFits.2.2 secondFits.2.2 samePieces]
    | _ => cases kinds
  | continuation value =>
    cases second with
    | continuation other => exact congrArg Deb822Line.continuation same
    | moreSuites pieces => cases firstFits.1.symm.trans secondFits.1
    | _ => cases kinds
  | moreSuites pieces =>
    cases second with
    | continuation other => cases firstFits.1.symm.trans secondFits.1
    | moreSuites others => rw [suites_inj firstFits.2.1 secondFits.2.1 same]
    | _ => cases kinds

/-! ### Files -/

theorem newline_notMem_of_all {isMember : Char → Bool} (ends : isMember '\n' = false) {value : Text}
    (members : value.all isMember = true) : '\n' ∉ value := by
  intro mem
  rw [List.all_eq_true.1 members _ mem] at ends
  exact Bool.noConfusion ends

theorem newline_notMem_renderPieces {isWordCharacter : Char → Bool}
    (ends : isWordCharacter '\n' = false) {pieces : List AptPiece}
    (valid : arePieces isWordCharacter pieces = true) : '\n' ∉ renderPieces pieces := by
  induction pieces with
  | nil => exact List.not_mem_nil
  | cons piece pieces ih =>
    rw [renderPieces_cons, List.mem_append, not_or]
    cases piece with
    | blank char =>
      obtain ⟨blank, rest⟩ := arePieces_blank valid
      refine ⟨?_, ih rest⟩
      apply @newline_notMem_of_all isBlank rfl
      rw [AptPiece.render, List.all_cons, blank]
      rfl
    | word name =>
      obtain ⟨-, members, -, rest⟩ := arePieces_word valid
      exact ⟨newline_notMem_of_all ends members, ih rest⟩

theorem newline_notMem_options {source : AptEntry} (valid : source.WellFormed) :
    '\n' ∉ source.renderOptions := by
  rw [← List.append_nil source.renderOptions]
  cases hasOptions : source.options with
  | none =>
    rw [renderOptions_none hasOptions]
    exact List.not_mem_nil
  | some options =>
    obtain ⟨inside, gap⟩ := valid.options _ _ hasOptions
    rw [renderOptions_some hasOptions, List.append_nil]
    simp only [List.mem_cons, List.mem_append, not_or]
    refine ⟨by decide, ?_, by decide, newline_notMem_of_all rfl (isGap_spec gap).2⟩
    exact newline_notMem_of_all rfl inside

theorem newline_notMem_uri {uri : Text} (isUri : IsUri uri) : '\n' ∉ uri := by
  intro mem
  rcases isUri.members _ mem with blank | inWord
  · exact absurd blank Bool.false_ne_true
  · exact absurd inWord Bool.false_ne_true

theorem newline_notMem_tail {source : AptEntry} (valid : source.WellFormed) :
    '\n' ∉ source.tail := by
  rw [AptEntry.tail, List.mem_append, not_or]
  refine ⟨newline_notMem_renderPieces rfl valid.components, ?_⟩
  cases hasComment : source.comment with
  | none => exact List.not_mem_nil
  | some comment =>
    show '\n' ∉ '#' :: comment
    rw [List.mem_cons, not_or]
    exact ⟨by decide, valid.comment _ hasComment⟩

theorem newline_notMem_aptLine {line : AptLine} (valid : line.WellFormed) : '\n' ∉ line.render := by
  cases line with
  | blank value => exact newline_notMem_of_all rfl valid
  | comment indent value =>
    rw [AptLine.render, List.mem_append, List.mem_cons, not_or, not_or]
    exact ⟨newline_notMem_of_all rfl valid.1, by decide, valid.2⟩
  | entry source =>
    have valid : source.WellFormed := valid
    rw [AptLine.render, AptEntry.render_eq]
    simp only [List.mem_append, not_or]
    exact ⟨newline_notMem_of_all rfl valid.indent,
      newline_notMem_of_all rfl valid.type_spec.2,
      newline_notMem_of_all rfl (isGap_spec valid.typeGap).2, newline_notMem_options valid,
      newline_notMem_uri (isUri_spec valid.uri),
      newline_notMem_of_all rfl (isGap_spec valid.uriGap).2,
      newline_notMem_of_all rfl valid.suite, newline_notMem_tail valid⟩

theorem newline_notMem_name {name : Text} (valid : isFieldName name = true) : '\n' ∉ name :=
  fun mem => absurd ((isFieldName_spec valid).members _ mem).1 (by decide)

theorem newline_notMem_deb822Line {context : Deb822Context} {line : Deb822Line}
    (fits : line.FitsIn context) : '\n' ∉ line.render := by
  cases line with
  | blank value => exact newline_notMem_of_all rfl fits
  | comment value =>
    rw [Deb822Line.render, List.mem_cons, not_or]
    exact ⟨by decide, fits⟩
  | field name value =>
    rw [Deb822Line.render, List.mem_append, List.mem_cons, not_or, not_or]
    exact ⟨newline_notMem_name fits.1, by decide, fits.2.2⟩
  | suites name pieces =>
    rw [Deb822Line.render, List.mem_append, List.mem_cons, not_or, not_or]
    exact ⟨newline_notMem_name fits.1, by decide, newline_notMem_renderPieces rfl fits.2.2⟩
  | continuation value => exact fits.2.2.2
  | moreSuites pieces => exact newline_notMem_renderPieces rfl fits.2.1

theorem joinLines_inj {first second : List Line} (firstNonempty : first ≠ [])
    (secondNonempty : second ≠ []) (firstLines : ∀ line ∈ first, '\n' ∉ line)
    (secondLines : ∀ line ∈ second, '\n' ∉ line) (same : joinLines first = joinLines second) :
    first = second := by
  have plain : ∀ {line : Line}, '\n' ∉ line → line.all (fun char => char ≠ '\n') = true := by
    intro line oneLine
    rw [List.all_eq_true]
    intro char mem
    apply decide_eq_true
    rintro rfl
    exact oneLine mem
  induction first generalizing second with
  | nil => exact absurd rfl firstNonempty
  | cons line first ih =>
    obtain ⟨other, second, rfl⟩ := List.exists_cons_of_ne_nil secondNonempty
    obtain ⟨here, below⟩ := List.forall_mem_cons.1 firstLines
    obtain ⟨otherHere, otherBelow⟩ := List.forall_mem_cons.1 secondLines
    cases first with
    | nil =>
      cases second with
      | nil => exact congrArg (fun line => [line]) same
      | cons next second =>
        have whole : line = other ++ '\n' :: joinLines (next :: second) := same
        exact absurd (whole ▸ List.mem_append_right _ List.mem_cons_self) here
    | cons next first =>
      cases second with
      | nil =>
        have whole : line ++ '\n' :: joinLines (next :: first) = other := same
        exact absurd (whole ▸ List.mem_append_right _ List.mem_cons_self) otherHere
      | cons otherNext second =>
        have whole : line ++ '\n' :: joinLines (next :: first) =
            other ++ '\n' :: joinLines (otherNext :: second) := same
        obtain ⟨sameLine, sameRest⟩ := run_inj (plain here) (plain otherHere)
          (endsRun_cons rfl) (endsRun_cons rfl) whole
        have behind := ih (List.cons_ne_nil _ _) (List.cons_ne_nil _ _) below
          otherBelow (List.cons.inj sameRest).2
        rw [sameLine, behind]

theorem deb822Lines_inj {context : Deb822Context} {first second : List Deb822Line}
    (firstFits : deb822FitsIn context first) (secondFits : deb822FitsIn context second)
    (same : first.map Deb822Line.render = second.map Deb822Line.render) : first = second := by
  induction first generalizing context second with
  | nil => exact (List.map_eq_nil_iff.1 same.symm).symm
  | cons line first ih =>
    cases second with
    | nil => cases same
    | cons other second =>
      obtain ⟨sameLine, sameRest⟩ := List.cons.inj same
      cases deb822Line_inj firstFits.1 secondFits.1 sameLine
      rw [ih firstFits.2 secondFits.2 sameRest]

theorem newline_notMem_deb822 {context : Deb822Context} {lines : List Deb822Line}
    (fits : deb822FitsIn context lines) :
    ∀ line ∈ lines.map Deb822Line.render, '\n' ∉ line := by
  induction lines generalizing context with
  | nil => exact fun line mem => absurd mem List.not_mem_nil
  | cons line lines ih =>
    rw [List.map_cons, List.forall_mem_cons]
    exact ⟨newline_notMem_deb822Line fits.1, ih fits.2⟩

theorem newline_notMem_oneLine {lines : List AptLine} (valid : ∀ line ∈ lines, line.WellFormed) :
    ∀ line ∈ lines.map AptLine.render, '\n' ∉ line := by
  rw [List.forall_mem_map]
  exact fun line mem => newline_notMem_aptLine (valid line mem)

/-- The text of a file is read in one way only. -/
theorem AptSourcesFile.render_injective {remotePath : Text} {first second : AptSourcesFile}
    (firstStored : first.StoredAt remotePath) (secondStored : second.StoredAt remotePath)
    (firstValid : first.WellFormed) (secondValid : second.WellFormed)
    (same : first.render = second.render) : first = second := by
  have lines : ∀ {α : Type} {render : α → Text} {lines : List α}, lines ≠ [] →
      lines.map render ≠ [] := fun nonempty mapped => nonempty (List.map_eq_nil_iff.1 mapped)
  cases first with
  | oneLine first =>
    cases second with
    | deb822 second => exact absurd secondStored firstStored
    | oneLine second =>
      have sameLines := joinLines_inj (lines firstValid.1) (lines secondValid.1)
        (newline_notMem_oneLine firstValid.2) (newline_notMem_oneLine secondValid.2) same
      congr 1
      have inj : ∀ {first second : List AptLine}, (∀ line ∈ first, line.WellFormed) →
          (∀ line ∈ second, line.WellFormed) →
          first.map AptLine.render = second.map AptLine.render → first = second := by
        intro first
        induction first with
        | nil => exact fun _ _ same => (List.map_eq_nil_iff.1 same.symm).symm
        | cons line first ih =>
          intro second firstValid secondValid same
          cases second with
          | nil => cases same
          | cons other second =>
            obtain ⟨here, below⟩ := List.forall_mem_cons.1 firstValid
            obtain ⟨otherHere, otherBelow⟩ := List.forall_mem_cons.1 secondValid
            obtain ⟨sameLine, sameRest⟩ := List.cons.inj same
            rw [aptLine_inj here otherHere sameLine, ih below otherBelow sameRest]
      exact inj firstValid.2 secondValid.2 sameLines
  | deb822 first =>
    cases second with
    | oneLine second => exact absurd firstStored secondStored
    | deb822 second =>
      have sameLines := joinLines_inj (lines firstValid.1) (lines secondValid.1)
        (newline_notMem_deb822 firstValid.2) (newline_notMem_deb822 secondValid.2) same
      rw [deb822Lines_inj firstValid.2 secondValid.2 sameLines]

/-! ### Mapped suites -/

/-- A conversion of suites to suites: of words to words and of paths to paths. -/
structure SuiteConversion (convert : Text → Text) : Prop where
  word : ∀ isMember ∈ [isSuiteCharacter, isEntryCharacter], ∀ suite : Text,
    suite ≠ [] → suite.all isMember = true →
      convert suite ≠ [] ∧ (convert suite).all isMember = true
  path : ∀ suite, (convert suite).getLast? = some '/' ↔ suite.getLast? = some '/'

theorem isWord_mapWord (convert : Text → Text) (piece : AptPiece) :
    (piece.mapWord convert).isWord = piece.isWord := by
  cases piece with
  | blank char => rfl
  | word name => rfl

theorem any_isWord_map (convert : Text → Text) (pieces : List AptPiece) :
    (pieces.map (AptPiece.mapWord convert)).any AptPiece.isWord = pieces.any AptPiece.isWord := by
  rw [List.any_map]
  congr 1
  exact funext (isWord_mapWord convert)

theorem head_isWord_map (convert : Text → Text) (pieces : List AptPiece) :
    (pieces.map (AptPiece.mapWord convert)).head?.any AptPiece.isWord =
      pieces.head?.any AptPiece.isWord := by
  cases pieces with
  | nil => rfl
  | cons piece pieces => exact isWord_mapWord convert piece

theorem arePieces_map {convert : Text → Text} {isMember : Char → Bool}
    (keeps : ∀ suite : Text, suite ≠ [] → suite.all isMember = true →
      convert suite ≠ [] ∧ (convert suite).all isMember = true)
    {pieces : List AptPiece} (valid : arePieces isMember pieces = true) :
    arePieces isMember (pieces.map (AptPiece.mapWord convert)) = true := by
  induction pieces with
  | nil => rfl
  | cons piece pieces ih =>
    cases piece with
    | blank char =>
      obtain ⟨blank, rest⟩ := arePieces_blank valid
      show (isBlank char && arePieces isMember (pieces.map (AptPiece.mapWord convert))) = true
      rw [blank, ih rest]
      rfl
    | word name =>
      obtain ⟨nonempty, members, apart, rest⟩ := arePieces_word valid
      obtain ⟨converted, convertedMembers⟩ := keeps name nonempty members
      show (decide (convert name ≠ []) && (convert name).all isMember &&
        !(pieces.map (AptPiece.mapWord convert)).head?.any AptPiece.isWord &&
        arePieces isMember (pieces.map (AptPiece.mapWord convert))) = true
      rw [decide_eq_true converted, convertedMembers, head_isWord_map, apart, ih rest]
      rfl

section Mapping

variable {convert : Text → Text} (conversion : SuiteConversion convert)

include conversion

theorem AptLine.WellFormed.mapSuites {line : AptLine} (valid : line.WellFormed) :
    (line.mapSuites convert).WellFormed := by
  cases line with
  | blank value => exact valid
  | comment indent value => exact valid
  | entry source =>
    have valid : source.WellFormed := valid
    obtain ⟨nonempty, members⟩ := conversion.word isEntryCharacter (by simp) source.suite
      valid.suiteNonempty valid.suite
    exact { valid with
      suiteNonempty := nonempty
      suite := members
      path := valid.path.trans (conversion.path _).symm }

theorem Deb822Line.FitsIn.mapSuites {context : Deb822Context} {line : Deb822Line}
    (fits : line.FitsIn context) : (line.mapSuites convert).FitsIn context := by
  have keeps := conversion.word isSuiteCharacter (by simp)
  cases line with
  | blank value => exact fits
  | comment value => exact fits
  | field name value => exact fits
  | continuation value => exact fits
  | suites name pieces => exact ⟨fits.1, fits.2.1, arePieces_map keeps fits.2.2⟩
  | moreSuites pieces =>
    obtain ⟨isContext, valid, apart, hasWord⟩ := fits
    refine ⟨isContext, arePieces_map keeps valid, ?_, ?_⟩
    · rwa [head_isWord_map]
    · rwa [any_isWord_map]

omit conversion in
theorem Deb822Line.next_mapSuites (context : Deb822Context) (line : Deb822Line) :
    (line.mapSuites convert).next context = line.next context := by
  cases line with
  | _ => rfl

theorem deb822FitsIn_mapSuites {context : Deb822Context} {lines : List Deb822Line}
    (fits : deb822FitsIn context lines) :
    deb822FitsIn context (lines.map (Deb822Line.mapSuites convert)) := by
  induction lines generalizing context with
  | nil => trivial
  | cons line lines ih =>
    refine ⟨fits.1.mapSuites conversion, ?_⟩
    rw [Deb822Line.next_mapSuites]
    exact ih fits.2

/-- A file whose suites are mapped is a file. -/
theorem AptSourcesFile.WellFormed.mapSuites {file : AptSourcesFile} (valid : file.WellFormed) :
    (file.mapSuites convert).WellFormed := by
  cases file with
  | oneLine lines =>
    refine ⟨fun mapped => valid.1 (List.map_eq_nil_iff.1 mapped), ?_⟩
    rw [List.forall_mem_map]
    exact fun line mem => (valid.2 line mem).mapSuites conversion
  | deb822 lines =>
    exact ⟨fun mapped => valid.1 (List.map_eq_nil_iff.1 mapped),
      deb822FitsIn_mapSuites conversion valid.2⟩

end Mapping

theorem AptSourcesFile.StoredAt.mapSuites {remotePath : Text} {file : AptSourcesFile}
    (stored : file.StoredAt remotePath) (convert : Text → Text) :
    (file.mapSuites convert).StoredAt remotePath := by
  cases file with
  | oneLine lines => exact stored
  | deb822 lines => exact stored

end Paratix.Upgrade
