/-
Module: Paratix.Archive.TarListingExact
Purpose: The lines GNU tar prints for members, and when the names the listing parser reads from them
  are the names of the members.
Main exports: TarColumns, lineName_exact_iff
-/
import Paratix.Archive.TarRendering

namespace Paratix.Archive

open Foundation

/-- A column of a listing line: one token. -/
def IsColumn (column : Text) : Prop :=
  column ≠ [] ∧ ∀ char ∈ column, isJsSpace char = false

theorem IsColumn.of_all {column : Text} (nonempty : column ≠ [])
    (noSpace : column.all (fun char => !isJsSpace char) = true) : IsColumn column := by
  refine ⟨nonempty, fun char member => ?_⟩
  have here := List.all_eq_true.1 noSpace char member
  simpa using here

/-- What a line shows of a member in front of its name. -/
structure TarColumns where
  permissions : Text
  owner : Text
  padding : Nat
  size : Text
  date : Text
  time : Text
  permissionsShape : permissions.length = 9 ∧
    permissions.all (fun char => (text "-rwxStTs").contains char) = true
  ownerColumn : IsColumn owner
  sizeColumn : IsColumn size
  dateColumn : IsColumn date
  timeColumn : IsColumn time

/-- The members that are listed without a link target. -/
inductive PlainKind where
  | file
  | directory
  | block
  | character
  | fifo
deriving DecidableEq, Repr

def PlainKind.modeChar : PlainKind → Char
  | .file => '-'
  | .directory => 'd'
  | .block => 'b'
  | .character => 'c'
  | .fifo => 'p'

def PlainKind.memberKind : PlainKind → MemberKind
  | .file => .file
  | .directory => .directory
  | .block | .character | .fifo => .special

inductive LinkKind where
  | symlink
  | hardlink
deriving DecidableEq, Repr

def LinkKind.modeChar : LinkKind → Char
  | .symlink => 'l'
  | .hardlink => 'h'

def LinkKind.memberKind : LinkKind → MemberKind
  | .symlink => .symlink
  | .hardlink => .hardlink

/-- What is printed between the name and the target. -/
def LinkKind.separator : LinkKind → Text
  | .symlink => text " -> "
  | .hardlink => text " link to "

/-- A member of an archive as GNU tar lists it. -/
inductive ListedMember where
  | plain (kind : PlainKind) (name : TarName)
  | link (kind : LinkKind) (name target : TarName)

namespace ListedMember

def name : ListedMember → TarName
  | .plain _ name => name
  | .link _ name _ => name

def modeChar : ListedMember → Char
  | .plain kind _ => kind.modeChar
  | .link kind _ _ => kind.modeChar

def memberKind : ListedMember → MemberKind
  | .plain kind _ => kind.memberKind
  | .link kind _ _ => kind.memberKind

/-- What is printed after the columns. -/
def remainder (locale : TarLocale) : ListedMember → Text
  | .plain _ name => escapeQuote locale name
  | .link kind name target =>
      escapeQuote locale name ++ (kind.separator ++ escapeQuote locale target)

/-- The name, and for a link the separator and the target, as one name. -/
def units : ListedMember → TarName
  | .plain _ name => name
  | .link kind name target => name ++ (kind.separator.map .char ++ target)

end ListedMember

/-- The line of a verbose listing for one member. -/
def tarLine (locale : TarLocale) (columns : TarColumns) (member : ListedMember) : Text :=
  member.modeChar :: (columns.permissions ++
    ([' '] ++ (columns.owner ++ (List.replicate (columns.padding + 1) ' ' ++
      (columns.size ++ ([' '] ++ (columns.date ++ ([' '] ++ (columns.time ++
        ([' '] ++ member.remainder locale))))))))))

theorem LinkKind.separator_plain (kind : LinkKind) :
    ∀ char ∈ kind.separator, 0x20 ≤ char.toNat ∧ char.toNat < 0x7f ∧ char ≠ '\\' := by
  have every : kind.separator.all (fun char =>
      0x20 ≤ char.toNat && char.toNat < 0x7f && char ≠ '\\') = true := by
    cases kind <;> decide
  intro char member
  have here := List.all_eq_true.1 every char member
  simp only [Bool.and_eq_true, decide_eq_true_eq] at here
  exact ⟨here.1.1, here.1.2, here.2⟩

theorem LinkKind.separator_lone (kind : LinkKind) : LoneBorder kind.separator := by
  cases kind <;> decide +kernel

theorem LinkKind.separator_blank (kind : LinkKind) :
    ∃ tail, kind.separator = ' ' :: tail := by
  cases kind
  · exact ⟨['-', '>', ' '], by decide⟩
  · exact ⟨['l', 'i', 'n', 'k', ' ', 't', 'o', ' '], by decide⟩

/-- The remainder is one printed name. -/
theorem ListedMember.remainder_eq (locale : TarLocale) (member : ListedMember) :
    member.remainder locale = escapeQuote locale member.units := by
  cases member with
  | plain kind name => rfl
  | link kind name target =>
    simp only [remainder, units, escapeQuote_append, escapeQuote_word locale kind.separator_plain]

/-! ### Matching the columns -/

section Columns

variable (locale : TarLocale) (columns : TarColumns) (member : ListedMember)

/-- The mode of the member. -/
def tarMode : Text := member.modeChar :: columns.permissions

/-- What the parser takes for the remainder: white space at its start is gone. -/
def listedRest : Text := (member.remainder locale).dropWhile isJsSpace

theorem modeChar_known : (text "-bcdhlps").contains member.modeChar = true := by
  cases member with
  | plain kind _ =>
    change (text "-bcdhlps").contains kind.modeChar = true
    cases kind <;> decide
  | link kind _ _ =>
    change (text "-bcdhlps").contains kind.modeChar = true
    cases kind <;> decide

theorem isTarMode_tarMode : isTarMode (tarMode columns member) = true := by
  have shape := columns.permissionsShape
  simp only [isTarMode, tarMode, List.length_cons, shape.1, List.headD_cons,
    modeChar_known, List.tail_cons, shape.2, decide_true, Bool.and_self]

theorem archiveMemberKindFromMode_tarMode :
    archiveMemberKindFromMode (tarMode columns member) = member.memberKind := by
  cases member with
  | plain kind _ =>
    cases kind <;> simp [archiveMemberKindFromMode, tarMode, ListedMember.modeChar,
      PlainKind.modeChar, ListedMember.memberKind, PlainKind.memberKind,
      List.isPrefixOf]
  | link kind _ _ =>
    cases kind <;> simp [archiveMemberKindFromMode, tarMode, ListedMember.modeChar,
      LinkKind.modeChar, ListedMember.memberKind, LinkKind.memberKind, List.isPrefixOf]

theorem dropColumns_tarLine : dropColumns isJsSpace 4 ((tarLine locale columns member).drop 10) =
      if listedRest locale member = [] then none else some (listedRest locale member) := by
  have columnsAfterMode : (tarLine locale columns member).drop 10 =
      [' '] ++ (columns.owner ++ ' ' :: (List.replicate columns.padding ' ' ++
      (columns.size ++ ' ' :: (columns.date ++ ' ' :: (columns.time ++
        ' ' :: member.remainder locale))))) := by
    have modeLength : (tarMode columns member).length = 10 := by
      rw [tarMode, List.length_cons, columns.permissionsShape.1]
    rw [← modeLength]
    exact List.drop_left
  have blank : ∀ char ∈ [' '], isJsSpace char = true := List.all_eq_true.1 (by decide)
  have blanks : ∀ count, ∀ char ∈ ' ' :: List.replicate count ' ', isJsSpace char = true := by
    intro count char member
    rcases List.mem_cons.1 member with rfl | inRest
    · decide
    · obtain rfl := List.eq_of_mem_replicate inRest
      decide
  rw [columnsAfterMode,
    dropColumns_succ (List.cons_ne_nil _ _) blank columns.ownerColumn.1
      columns.ownerColumn.2 (by decide),
    ← List.cons_append,
    dropColumns_succ (List.cons_ne_nil _ _) (blanks _) columns.sizeColumn.1
      columns.sizeColumn.2 (by decide),
    ← List.singleton_append,
    dropColumns_succ (List.cons_ne_nil _ _) blank columns.dateColumn.1
      columns.dateColumn.2 (by decide),
    ← List.singleton_append,
    dropColumns_succ (List.cons_ne_nil _ _) blank columns.timeColumn.1
      columns.timeColumn.2 (by decide),
    ← List.singleton_append, dropColumns_zero (List.cons_ne_nil _ _) blank]
  rfl

/-- The rest is a printed name as well: the white space in front of it was
printed for characters. -/
theorem listedRest_eq : ∃ blanks rest, member.units = blanks.map .char ++ rest ∧
      (∀ char ∈ blanks, isJsSpace char = true) ∧
      (member.remainder locale).takeWhile isJsSpace = blanks ∧
      listedRest locale member = escapeQuote locale rest := by
  obtain ⟨blanks, rest, unitsEq, areBlank, taken, dropped⟩ :=
    @escapeQuote_dropWhile locale member.units
  rw [← member.remainder_eq locale] at taken dropped
  exact ⟨blanks, rest, unitsEq, fun char inBlanks => (areBlank char inBlanks).1, taken, dropped⟩

theorem matchVerboseLine_tarLine : matchVerboseLine 4 (tarLine locale columns member) =
      if listedRest locale member = [] then none
      else some (tarMode columns member, listedRest locale member) := by
  have taken : (tarLine locale columns member).take 10 = tarMode columns member := by
    have modeLength : (tarMode columns member).length = 10 := by
      rw [tarMode, List.length_cons, columns.permissionsShape.1]
    rw [← modeLength]
    exact List.take_left
  have noTerminator : (listedRest locale member).any isLineTerminator = false := by
    obtain ⟨_, rest, _, _, _, restEq⟩ := listedRest_eq locale member
    rw [restEq, List.any_eq_false]
    intro char inRest
    rw [(escapeQuote_clean inRest).2]
    exact Bool.false_ne_true
  simp only [matchVerboseLine, taken, isTarMode_tarMode, if_true, dropColumns_tarLine]
  by_cases empty : listedRest locale member = []
  · simp only [empty, if_true]
  · simp only [empty, if_false, noTerminator, Bool.false_eq_true]

theorem tarLine_not_carriageReturn :
    (tarLine locale columns member).getLast? ≠ some '\r' := by
  intro isReturn
  have lineEq : ∃ front, tarLine locale columns member =
      front ++ ' ' :: member.remainder locale := by
    refine ⟨member.modeChar :: (columns.permissions ++
      ([' '] ++ (columns.owner ++ (List.replicate (columns.padding + 1) ' ' ++
        (columns.size ++ ([' '] ++ (columns.date ++ ([' '] ++ columns.time)))))))), ?_⟩
    simp [tarLine]
  obtain ⟨front, frontEq⟩ := lineEq
  rw [frontEq, List.getLast?_append_cons] at isReturn
  have member := List.mem_of_getLast? isReturn
  rcases List.mem_cons.1 member with isBlank | inRemainder
  · cases isBlank
  · rw [ListedMember.remainder_eq] at inRemainder
    exact absurd (escapeQuote_clean inRemainder).1 (by decide)

/-- The parser reads a listed line from its rest alone. -/
theorem parseTarVerboseLine_tarLine (locale' : TarListingLocale)
    (nonempty : listedRest locale member ≠ []) :
    parseTarVerboseLine (tarLine locale columns member) ⟨.gnu, locale'⟩ = decodeTarMemberNames
        ((parseTarLinkRemainder member.memberKind (tarLine locale columns member)
            (tarMode columns member) (listedRest locale member)).getD
          (.parsed ⟨.tar, member.memberKind, none, tarMode columns member,
            listedRest locale member⟩)) := by
  have lineNonempty : tarLine locale columns member ≠ [] := List.cons_ne_nil _ _
  have kindEq : tarListingMemberKind (tarMode columns member) (listedRest locale member)
      .gnu = member.memberKind := by
    simp [tarListingMemberKind, archiveMemberKindFromMode_tarMode]
  simp only [parseTarVerboseLine, tarListingDecodesNames, parseListedTarVerboseLine,
    tarLine_not_carriageReturn, if_false, lineNonempty, matchVerboseLine_tarLine, nonempty,
    kindEq, ne_eq, reduceCtorEq, not_false_eq_true, decide_true, if_true]
  cases parseTarLinkRemainder member.memberKind (tarLine locale columns member)
    (tarMode columns member) (listedRest locale member) <;> rfl

theorem parseTarVerboseLine_tarLine_blank (locale' : TarListingLocale)
    (empty : listedRest locale member = []) :
    ∃ reason, parseTarVerboseLine (tarLine locale columns member) ⟨.gnu, locale'⟩ =
      .invalid reason := by
  have lineNonempty : tarLine locale columns member ≠ [] := List.cons_ne_nil _ _
  simp only [parseTarVerboseLine, tarListingDecodesNames, parseListedTarVerboseLine,
    tarLine_not_carriageReturn, if_false, lineNonempty, matchVerboseLine_tarLine, empty,
    ne_eq, reduceCtorEq, not_false_eq_true, decide_true, if_true, decodeTarMemberNames]
  exact ⟨_, rfl⟩

end Columns

/-! ### Cutting the rest -/

/-- The lines the parser refuses to cut. -/
def Refused : MemberKind → Text → Prop
  | .file, _ => False
  | .hardlink, rest => (TAR_LINK_ARROW <:+: rest ∧ TAR_HARDLINK_TARGET <:+: rest) ∨
      TwoApart TAR_LINK_ARROW rest ∨ TwoApart TAR_HARDLINK_TARGET rest
  | .directory, rest | .special, rest | .symlink, rest => TwoApart TAR_LINK_ARROW rest

/-- How the parser cuts the rest of a member of a kind into path and target. -/
inductive Splits : MemberKind → Text → Text → Option Text → Prop where
  | whole {kind : MemberKind} {rest : Text}
      (noArrow : kind ≠ .file → ¬ TAR_LINK_ARROW <:+: rest)
      (noLinkTo : kind = .hardlink → ¬ TAR_HARDLINK_TARGET <:+: rest) :
      Splits kind rest rest none
  | arrow {kind : MemberKind} {rest path target : Text} (notFile : kind ≠ .file)
      (cut : CutsAt TAR_LINK_ARROW rest path target)
      (alone : kind = .hardlink → ¬ TAR_HARDLINK_TARGET <:+: rest) :
      Splits kind rest path (some target)
  | linkTo {rest path target : Text} (cut : CutsAt TAR_HARDLINK_TARGET rest path target)
      (alone : ¬ TAR_LINK_ARROW <:+: rest) : Splits .hardlink rest path (some target)

theorem Splits.not_refused {kind : MemberKind} {rest path : Text} {target : Option Text}
    (splits : Splits kind rest path target) : ¬ Refused kind rest := by
  cases splits with
  | whole noArrow noLinkTo =>
    cases kind with
    | file => exact id
    | hardlink =>
      rintro (⟨arrow, _⟩ | arrow | linkTo)
      · exact noArrow (by decide) arrow
      · exact noArrow (by decide) arrow.isInfix
      · exact noLinkTo rfl linkTo.isInfix
    | directory => exact fun arrow => noArrow (by decide) arrow.isInfix
    | special => exact fun arrow => noArrow (by decide) arrow.isInfix
    | symlink => exact fun arrow => noArrow (by decide) arrow.isInfix
  | arrow notFile cut alone =>
    cases kind with
    | file => exact absurd rfl notFile
    | hardlink =>
      rintro (⟨_, linkTo⟩ | apart | linkTo)
      · exact alone rfl linkTo
      · exact cut.not_twoApart apart
      · exact alone rfl linkTo.isInfix
    | directory => exact cut.not_twoApart
    | special => exact cut.not_twoApart
    | symlink => exact cut.not_twoApart
  | linkTo cut alone =>
    rintro (⟨arrow, _⟩ | arrow | apart)
    · exact alone arrow
    · exact alone arrow.isInfix
    · exact cut.not_twoApart apart

/-- Cutting at a separator leaves the rest alone when there is none, refuses two
of them apart, and otherwise cuts at the first. -/
theorem parseTarLinkMember_cases (kind : MemberKind) (line mode rest separator : Text) :
    (parseTarLinkMember kind line mode rest separator = none ∧ ¬ separator <:+: rest) ∨
      (∃ reason, parseTarLinkMember kind line mode rest separator = some (.invalid reason) ∧
        TwoApart separator rest) ∨
      ∃ path target, parseTarLinkMember kind line mode rest separator =
        some (.parsed ⟨.tar, kind, some target, mode, path⟩) ∧
        CutsAt separator rest path target := by
  rw [parseTarLinkMember]
  cases cut : cutFirst separator rest with
  | none => exact Or.inl ⟨rfl, cutFirst_eq_none_iff.1 cut⟩
  | some pieces =>
    obtain ⟨path, target⟩ := pieces
    obtain ⟨restEq, first⟩ := cutFirst_spec cut
    apply Or.inr
    by_cases again : separator <:+: target
    · obtain ⟨gap, back, targetEq⟩ := again
      left
      refine ⟨_, if_pos ⟨gap, back, targetEq⟩, path, gap, back, ?_⟩
      rw [restEq, ← targetEq, List.append_assoc]
    · right
      exact ⟨path, target, if_neg again, restEq, first, again⟩

/-- The parser's reading of a rest: refused, or split. -/
theorem parseTarLinkRemainder_cases (kind : MemberKind) (line mode rest : Text) :
    (∃ reason, (parseTarLinkRemainder kind line mode rest).getD
        (.parsed ⟨.tar, kind, none, mode, rest⟩) = .invalid reason ∧ Refused kind rest) ∨
      ∃ path target, (parseTarLinkRemainder kind line mode rest).getD
        (.parsed ⟨.tar, kind, none, mode, rest⟩) = .parsed ⟨.tar, kind, target, mode, path⟩ ∧
        Splits kind rest path target := by
  have others : kind ≠ .file → kind ≠ .hardlink → (TwoApart TAR_LINK_ARROW rest →
      Refused kind rest) := by
    intro notFile notHardlink apart
    cases kind with
    | file => exact absurd rfl notFile
    | hardlink => exact absurd rfl notHardlink
    | directory => exact apart
    | special => exact apart
    | symlink => exact apart
  by_cases isFile : kind = .file
  · subst isFile
    exact Or.inr ⟨rest, none, rfl, .whole (absurd rfl) (fun absurdity => by cases absurdity)⟩
  by_cases isHardlink : kind = .hardlink
  · subst isHardlink
    simp only [parseTarLinkRemainder, reduceCtorEq, if_false, ne_eq, not_true_eq_false]
    by_cases both : TAR_LINK_ARROW <:+: rest ∧ TAR_HARDLINK_TARGET <:+: rest
    · left
      exact ⟨_, by rw [if_pos both]; rfl, Or.inl both⟩
    · rw [if_neg both]
      rcases parseTarLinkMember_cases .hardlink line mode rest TAR_LINK_ARROW with
        ⟨result, noArrow⟩ | ⟨reason, result, apart⟩ | ⟨path, target, result, cut⟩
      · rw [result]
        rcases parseTarLinkMember_cases .hardlink line mode rest TAR_HARDLINK_TARGET with
          ⟨result, noLinkTo⟩ | ⟨reason, result, apart⟩ | ⟨path, target, result, cut⟩
        · right
          exact ⟨rest, none, by rw [result]; rfl, .whole (fun _ => noArrow) fun _ => noLinkTo⟩
        · left
          exact ⟨reason, by rw [result]; rfl, Or.inr (Or.inr apart)⟩
        · right
          exact ⟨path, some target, by rw [result]; rfl, .linkTo cut noArrow⟩
      · left
        exact ⟨reason, by rw [result]; rfl, Or.inr (Or.inl apart)⟩
      · right
        refine ⟨path, some target, by rw [result]; rfl, .arrow (by decide) cut fun _ linkTo => ?_⟩
        exact both ⟨cut.isInfix, linkTo⟩
  · simp only [parseTarLinkRemainder, isFile, isHardlink, if_false, ne_eq, not_false_eq_true,
      if_true]
    rcases parseTarLinkMember_cases kind line mode rest TAR_LINK_ARROW with
      ⟨result, noArrow⟩ | ⟨reason, result, apart⟩ | ⟨path, target, result, cut⟩
    · right
      exact ⟨rest, none, by rw [result]; rfl,
        .whole (fun _ => noArrow) fun hardlink => absurd hardlink isHardlink⟩
    · left
      exact ⟨reason, by rw [result]; rfl, others isFile isHardlink apart⟩
    · right
      exact ⟨path, some target, by rw [result]; rfl,
        .arrow isFile cut fun hardlink => absurd hardlink isHardlink⟩

/-- A split of a printed name is a split of the name; it is a text if and only if
its pieces are. -/
theorem Splits.units {locale : TarLocale} {kind : MemberKind} {name : TarName} {path : Text}
    {target : Option Text} (splits : Splits kind (escapeQuote locale name) path target) :
    ∃ pathUnits more, name = pathUnits ++ more ∧ path = escapeQuote locale pathUnits ∧
      (target ≠ none → more ≠ []) ∧
      (IsText name ↔ (∃ decoded, decodeTarListingName path = .ok decoded) ∧
        ∀ listed, target = some listed →
          ∃ decoded, decodeTarListingName listed = .ok decoded) := by
  have pieces : ∀ {separator path target : Text}, (∃ tail, separator = ' ' :: tail) →
      (∀ char ∈ separator, char.toNat < 0x7f ∧ char ≠ '\\') →
      CutsAt separator (escapeQuote locale name) path target →
      ∃ pathUnits more, name = pathUnits ++ more ∧ path = escapeQuote locale pathUnits ∧
        (some target ≠ none → more ≠ []) ∧
        (IsText name ↔ (∃ decoded, decodeTarListingName path = .ok decoded) ∧
          ∀ listed, some target = some listed →
            ∃ decoded, decodeTarListingName listed = .ok decoded) := by
    intro separator path target blank plain cut
    have noBackslash : '\\' ∉ separator := fun member => (plain _ member).2 rfl
    obtain ⟨before, after, rfl, rfl, rfl⟩ := escapeQuote_cut_word blank noBackslash cut.textEq
    have nonempty : separator ≠ [] := by
      obtain ⟨tail, rfl⟩ := blank
      exact List.cons_ne_nil _ _
    refine ⟨before, separator.map .char ++ after, rfl, rfl, fun _ => ?_, ?_⟩
    · simp [nonempty]
    · simp only [decodeTarListingName_isText, Option.some.injEq, forall_eq']
      constructor
      · exact IsText.cut_word nonempty fun char member => (plain char member).1
      · rintro ⟨beforeText, afterText⟩
        exact beforeText.append ((isText_chars separator).append afterText)
  cases splits with
  | whole noArrow noLinkTo =>
    refine ⟨name, [], by simp, rfl, absurd rfl, ?_⟩
    simp [decodeTarListingName_isText]
  | arrow notFile cut alone =>
    exact pieces LinkKind.symlink.separator_blank
      (fun char member => (LinkKind.symlink.separator_plain char member).2) cut
  | linkTo cut alone =>
    exact pieces LinkKind.hardlink.separator_blank
      (fun char member => (LinkKind.hardlink.separator_plain char member).2) cut

section Parsed

variable {locale : TarLocale} {columns : TarColumns} {member : ListedMember}
  {locale' : TarListingLocale}

/-- An accepted line was split, and the pieces were decoded. -/
theorem parsed_tarLine {parsed : ArchiveMember}
    (accepted : parseTarVerboseLine (tarLine locale columns member) ⟨.gnu, locale'⟩ =
      .parsed parsed) :
    listedRest locale member ≠ [] ∧ ∃ path target,
      Splits member.memberKind (listedRest locale member) path target ∧
      decodeTarListingName path = .ok parsed.path ∧
      (target = none → parsed.linkTarget = none) ∧
      ∀ listed, target = some listed → ∃ decoded,
        decodeTarListingName listed = .ok decoded ∧ parsed.linkTarget = some decoded := by
  have nonempty : listedRest locale member ≠ [] := by
    intro empty
    obtain ⟨reason, refused⟩ :=
      parseTarVerboseLine_tarLine_blank locale columns member locale' empty
    rw [refused] at accepted
    cases accepted
  refine ⟨nonempty, ?_⟩
  rw [parseTarVerboseLine_tarLine locale columns member locale' nonempty] at accepted
  rcases parseTarLinkRemainder_cases member.memberKind (tarLine locale columns member)
    (tarMode columns member) (listedRest locale member) with
    ⟨reason, result, _⟩ | ⟨path, target, result, splits⟩
  · rw [result] at accepted
    cases accepted
  · rw [result, decodeTarMemberNames] at accepted
    refine ⟨path, target, splits, ?_⟩
    cases decodedPath : decodeTarListingName path with
    | error reason =>
      simp only [decodedPath] at accepted
      cases accepted
    | ok decoded =>
      cases target with
      | none =>
        simp only [decodedPath] at accepted
        cases accepted
        exact ⟨rfl, fun _ => rfl, fun _ absurdity => by cases absurdity⟩
      | some listed =>
        cases decodedTarget : decodeTarListingName listed with
        | error reason =>
          simp only [decodedPath, decodedTarget] at accepted
          cases accepted
        | ok decodedListed =>
          simp only [decodedPath, decodedTarget] at accepted
          cases accepted
          refine ⟨rfl, fun absurdity => (by cases absurdity), fun other isListed => ?_⟩
          cases isListed
          exact ⟨decodedListed, decodedTarget, rfl⟩

/-- A line whose rest is not refused and whose names are texts is accepted. -/
theorem exists_parsed_tarLine (nonempty : listedRest locale member ≠ [])
    (notRefused : ¬ Refused member.memberKind (listedRest locale member))
    (isText : IsText member.units) :
    ∃ parsed, parseTarVerboseLine (tarLine locale columns member) ⟨.gnu, locale'⟩ =
      .parsed parsed := by
  rw [parseTarVerboseLine_tarLine locale columns member locale' nonempty]
  rcases parseTarLinkRemainder_cases member.memberKind (tarLine locale columns member)
    (tarMode columns member) (listedRest locale member) with
    ⟨_, _, refused⟩ | ⟨path, target, result, splits⟩
  · exact absurd refused notRefused
  · rw [result, decodeTarMemberNames]
    obtain ⟨blanks, rest, unitsEq, _, _, restEq⟩ := listedRest_eq locale member
    rw [unitsEq] at isText
    rw [restEq] at splits
    obtain ⟨_, _, _, _, _, pieces⟩ := splits.units
    obtain ⟨⟨decoded, decodedPath⟩, decodedTarget⟩ := pieces.1 isText.of_chars
    cases target with
    | none =>
      simp only [decodedPath]
      exact ⟨_, rfl⟩
    | some listed =>
      obtain ⟨decodedListed, listedEq⟩ := decodedTarget listed rfl
      simp only [decodedPath, listedEq]
      exact ⟨_, rfl⟩

/-- The names of an accepted line are texts. -/
theorem isText_of_parsed_tarLine {parsed : ArchiveMember}
    (accepted : parseTarVerboseLine (tarLine locale columns member) ⟨.gnu, locale'⟩ =
      .parsed parsed) : IsText member.units := by
  obtain ⟨_, path, target, splits, decodedPath, _, decodedTarget⟩ := parsed_tarLine accepted
  obtain ⟨blanks, rest, unitsEq, _, _, restEq⟩ := listedRest_eq locale member
  rw [restEq] at splits
  obtain ⟨_, _, _, _, _, pieces⟩ := splits.units
  rw [unitsEq]
  apply (isText_chars blanks).append
  apply pieces.2
  constructor
  · exact ⟨_, decodedPath⟩
  · intro listed isListed
    obtain ⟨decoded, decodedEq, _⟩ := decodedTarget listed isListed
    exact ⟨decoded, decodedEq⟩

end Parsed

/-! ### Lengths of names -/

theorem NameUnit.bytes_ne_nil (unit : NameUnit) : unit.bytes ≠ [] := by
  cases unit with
  | char char => exact String.utf8EncodeChar_ne_nil
  | byte byte => exact List.cons_ne_nil _ _

/-- A proper part of a name has other bytes. -/
theorem nameBytes_ne_of_part {before name after : TarName} (proper : before ≠ [] ∨ after ≠ []) :
    nameBytes name ≠ nameBytes (before ++ (name ++ after)) := by
  have positive : ∀ {part : TarName}, part ≠ [] → 0 < (nameBytes part).length := by
    intro part nonempty
    obtain ⟨unit, others, rfl⟩ := List.exists_cons_of_ne_nil nonempty
    have := List.length_pos_of_ne_nil unit.bytes_ne_nil
    rw [nameBytes_cons, List.length_append]
    omega
  intro same
  have size := congrArg List.length same
  simp only [nameBytes_append, List.length_append] at size
  rcases proper with beforeNonempty | afterNonempty
  · have := positive beforeNonempty
    omega
  · have := positive afterNonempty
    omega

/-! ### Link lines -/

section LinkLine

variable (locale : TarLocale) (kind : LinkKind) (name target : TarName)

/-- The printed name ends with a separator but for its last blank. -/
def EndsAtSeam : Prop := kind.separator.dropLast <:+ escapeQuote locale name

/-- The printed target begins with a separator but for its first blank. -/
def BeginsAtSeam : Prop := kind.separator.tail <+: escapeQuote locale target

/-- The line holds a separator at two places, which may share a blank, or the
separators of both kinds. -/
def Ambiguous : Prop :=
  let rest := (ListedMember.link kind name target).remainder locale
  (∃ front back otherFront otherBack, rest = front ++ (kind.separator ++ back) ∧
    rest = otherFront ++ (kind.separator ++ otherBack) ∧ front ≠ otherFront) ∨
  (kind = .hardlink ∧ TAR_LINK_ARROW <:+: rest)

/-- The separators of an otherwise acceptable line meet at the seam of name or
target only. -/
def MeetsAtSeam : Prop :=
  IsText name ∧ IsText target ∧ ¬ kind.separator <:+: escapeQuote locale name ∧
    ¬ kind.separator <:+: escapeQuote locale target ∧
    (kind = .hardlink →
      ¬ TAR_LINK_ARROW <:+: (ListedMember.link kind name target).remainder locale) ∧
    ¬ (EndsAtSeam locale kind name ↔ BeginsAtSeam locale kind target)

variable {locale kind name target}

theorem isText_link_iff : IsText (ListedMember.link kind name target).units ↔
    IsText name ∧ IsText target := by
  constructor
  · apply IsText.cut_word
    · obtain ⟨tail, separatorEq⟩ := kind.separator_blank
      rw [separatorEq]
      exact List.cons_ne_nil _ _
    · exact fun char member => (kind.separator_plain char member).2.1
  · rintro ⟨nameText, targetText⟩
    exact nameText.append ((isText_chars _).append targetText)

/-- The refusals of a link line, by its own separator. -/
theorem refused_link_iff {rest : Text} : Refused kind.memberKind rest ↔
    TwoApart kind.separator rest ∨ (kind = .hardlink ∧
      ((TAR_LINK_ARROW <:+: rest ∧ kind.separator <:+: rest) ∨
        TwoApart TAR_LINK_ARROW rest)) := by
  cases kind with
  | symlink => simp [Refused, LinkKind.memberKind, LinkKind.separator, TAR_LINK_ARROW]
  | hardlink =>
    simp only [Refused, LinkKind.memberKind, LinkKind.separator, TAR_HARDLINK_TARGET, true_and]
    constructor
    · rintro (both | arrow | linkTo)
      · exact Or.inr (Or.inl both)
      · exact Or.inr (Or.inr arrow)
      · exact Or.inl linkTo
    · rintro (linkTo | both | arrow)
      · exact Or.inr (Or.inr linkTo)
      · exact Or.inl both
      · exact Or.inr (Or.inl arrow)

/-- Where its own separator occurs, a link line is cut at it. -/
theorem Splits.link_cut {rest path : Text} {listed : Option Text}
    (splits : Splits kind.memberKind rest path listed) (occurs : kind.separator <:+: rest) :
    ∃ targetText, listed = some targetText ∧ CutsAt kind.separator rest path targetText ∧
      (kind = .hardlink → ¬ TAR_LINK_ARROW <:+: rest) := by
  generalize memberKindEq : kind.memberKind = memberKind at splits
  cases splits with
  | whole noArrow noLinkTo =>
    cases kind with
    | symlink =>
      subst memberKindEq
      exact absurd occurs (noArrow (by decide))
    | hardlink =>
      subst memberKindEq
      exact absurd occurs (noLinkTo rfl)
  | @arrow _ _ _ targetText notFile cut alone =>
    cases kind with
    | symlink => exact ⟨targetText, rfl, cut, fun absurdity => by cases absurdity⟩
    | hardlink =>
      subst memberKindEq
      exact absurd occurs (alone rfl)
  | @linkTo _ _ targetText cut alone =>
    cases kind with
    | symlink => cases memberKindEq
    | hardlink => exact ⟨targetText, rfl, cut, fun _ => alone⟩

theorem separator_isInfix_remainder : kind.separator <:+:
    (ListedMember.link kind name target).remainder locale :=
  ⟨escapeQuote locale name, escapeQuote locale target, List.append_assoc _ _ _⟩

/-- White space is cut off a line only where it starts the name. -/
theorem listedRest_of_not_space {member : ListedMember} {head : Char} {tail : Text}
    (starts : member.remainder locale = head :: tail) (notSpace : isJsSpace head = false) :
    listedRest locale member = member.remainder locale := by
  rw [listedRest, starts, List.dropWhile_cons_of_neg (by simp [notSpace])]

theorem link_remainder_starts (nonempty : name ≠ [])
    (notBlank : ∀ char rest, name = .char char :: rest → isJsSpace char = false) :
    ∃ head tail, (ListedMember.link kind name target).remainder locale = head :: tail ∧
      isJsSpace head = false := by
  obtain ⟨unit, others, rfl⟩ := List.exists_cons_of_ne_nil nonempty
  rcases escapeUnit_cases locale unit with
    ⟨raw, rfl, _, _, unitEq⟩ | ⟨escapes, unitEq, _⟩
  · refine ⟨raw, escapeQuote locale others ++
      (kind.separator ++ escapeQuote locale target), ?_, notBlank raw others rfl⟩
    simp [ListedMember.remainder, unitEq]
  · refine ⟨'\\', escapes ++ (escapeQuote locale others ++
      (kind.separator ++ escapeQuote locale target)), ?_, by decide⟩
    simp [ListedMember.remainder, unitEq]

/-- What an accepted line holds, when no white space was cut off. -/
theorem parsed_link {columns : TarColumns} {tarLocale : TarListingLocale} {parsed : ArchiveMember}
    (whole : listedRest locale (.link kind name target) =
      (ListedMember.link kind name target).remainder locale)
    (accepted : parseTarVerboseLine (tarLine locale columns (.link kind name target))
      ⟨.gnu, tarLocale⟩ = .parsed parsed) :
    ∃ path targetText decoded, decodeTarListingName path = .ok parsed.path ∧
      decodeTarListingName targetText = .ok decoded ∧ parsed.linkTarget = some decoded ∧
      CutsAt kind.separator (escapeQuote locale name ++
        (kind.separator ++ escapeQuote locale target)) path targetText ∧
      (kind = .hardlink →
        ¬ TAR_LINK_ARROW <:+: (ListedMember.link kind name target).remainder locale) := by
  obtain ⟨_, path, listed, splits, decodedPath, _, decodedTarget⟩ := parsed_tarLine accepted
  rw [whole] at splits
  have splits : Splits kind.memberKind
    ((ListedMember.link kind name target).remainder locale) path listed := splits
  obtain ⟨targetText, isListed, cut, noArrow⟩ := splits.link_cut separator_isInfix_remainder
  obtain ⟨decoded, decodedEq, linkTargetEq⟩ := decodedTarget targetText isListed
  exact ⟨path, targetText, decoded, decodedPath, decodedEq, linkTargetEq, cut, noArrow⟩

end LinkLine

/-- The locale in which ASCII only is printable. -/
def cLocale : TarLocale where
  printable char := 0x20 ≤ char.toNat && char.toNat < 0x7f
  ascii := by
    intro char low high
    simp [low, high]
  noControl := by
    intro char control
    simp only [Bool.and_eq_false_iff, decide_eq_false_iff_not]
    omega
  noLineSeparator := by
    intro char separator
    simp only [Bool.and_eq_false_iff, decide_eq_false_iff_not]
    omega

def rootColumns : TarColumns where
  permissions := text "rwxrwxrwx"
  owner := text "root/root"
  padding := 8
  size := text "0"
  date := text "2024-01-01"
  time := text "00:00"
  permissionsShape := by decide
  ownerColumn := .of_all (by decide) (by decide)
  sizeColumn := .of_all (by decide) (by decide)
  dateColumn := .of_all (by decide) (by decide)
  timeColumn := .of_all (by decide) (by decide)

def nameOf (name : String) : TarName := (text name).map .char

section NameColumn

variable (locale : TarLocale)

/-- The remainder is cut where the name goes on. -/
def CutsName : ListedMember → Prop
  | .plain .file _ => False
  | .plain _ name => TAR_LINK_ARROW <:+: escapeQuote locale name
  | .link kind name _ => EndsAtSeam locale kind name

/-- The line is accepted although white space at the start of the name is lost
or the name is cut. -/
def Misread (member : ListedMember) : Prop :=
  listedRest locale member ≠ [] ∧ IsText member.units ∧
    ¬ Refused member.memberKind (listedRest locale member) ∧
    (listedRest locale member ≠ member.remainder locale ∨ CutsName locale member)

variable {locale}

/-- The path read from a line, as a part of the printed units. -/
theorem parsed_units {columns : TarColumns} {tarLocale : TarListingLocale}
    {member : ListedMember} {parsed : ArchiveMember}
    (accepted : parseTarVerboseLine (tarLine locale columns member) ⟨.gnu, tarLocale⟩ =
      .parsed parsed) :
    ∃ blanks pathUnits more target, member.units =
        List.map NameUnit.char blanks ++ (pathUnits ++ more) ∧
      (∀ char ∈ blanks, isJsSpace char = true) ∧
      (listedRest locale member = member.remainder locale ↔ blanks = []) ∧
      listedRest locale member = escapeQuote locale (pathUnits ++ more) ∧
      Splits member.memberKind (escapeQuote locale (pathUnits ++ more))
        (escapeQuote locale pathUnits) target ∧
      (target ≠ none → more ≠ []) ∧ utf8Bytes parsed.path = nameBytes pathUnits := by
  obtain ⟨_, path, target, splits, decodedPath, _, _⟩ := parsed_tarLine accepted
  obtain ⟨blanks, rest, unitsEq, areBlank, taken, restEq⟩ := listedRest_eq locale member
  rw [restEq] at splits
  obtain ⟨pathUnits, more, rfl, rfl, moreNonempty, _⟩ := splits.units
  refine ⟨blanks, pathUnits, more, target, unitsEq, areBlank, ?_, restEq, splits,
    moreNonempty, decodeTarListingName_escapeQuote.1 decodedPath⟩
  have whole : (member.remainder locale).takeWhile isJsSpace ++
      listedRest locale member = member.remainder locale :=
    List.takeWhile_append_dropWhile
  rw [taken] at whole
  constructor
  · intro same
    rw [same] at whole
    simpa using whole
  · intro blanksNil
    rwa [blanksNil, List.nil_append] at whole

theorem not_space_of_listedRest {member : ListedMember} {head : Char} {tail : Text}
    (starts : listedRest locale member = head :: tail) : isJsSpace head = false := by
  have nonempty : (member.remainder locale).dropWhile isJsSpace ≠ [] := by
    rw [← listedRest, starts]
    exact List.cons_ne_nil _ _
  obtain ⟨first, rest, dropped, notSpace, _⟩ := exists_dropWhile_eq nonempty
  rw [← listedRest, starts] at dropped
  obtain ⟨rfl, _⟩ := List.cons_eq_cons.1 dropped
  exact notSpace

/-- When the white space in front of a link line covers the name, the path read
starts with a character of the separator. -/
theorem path_ne_of_blank_name {kind : LinkKind} {name target pathUnits more : TarName}
    {blanks : Text} {shared : TarName} {listed : Option Text}
    (areBlank : ∀ char ∈ blanks, isJsSpace char = true)
    (blanksEq : List.map NameUnit.char blanks = name ++ shared) (nonempty : shared ≠ [])
    (texts : kind.separator.map .char ++ target = shared ++ (pathUnits ++ more))
    (splits : Splits kind.memberKind (escapeQuote locale (pathUnits ++ more))
      (escapeQuote locale pathUnits) listed) :
    nameBytes pathUnits ≠ nameBytes name := by
  obtain ⟨edge, inner, separatorEq, notSpace⟩ : ∃ edge inner,
      kind.separator = ' ' :: edge :: inner ∧ isJsSpace edge = false := by
    cases kind
    · exact ⟨'-', ['>', ' '], by decide, by decide⟩
    · exact ⟨'l', ['i', 'n', 'k', ' ', 't', 'o', ' '], by decide, by decide⟩
  have blankUnit : ∀ char, NameUnit.char char ∈ name ++ shared → isJsSpace char = true := by
    intro char member
    rw [← blanksEq] at member
    obtain ⟨blank, inBlanks, same⟩ := List.mem_map.1 member
    cases same
    exact areBlank _ inBlanks
  obtain ⟨first, others, rfl⟩ := List.exists_cons_of_ne_nil nonempty
  rw [separatorEq, List.map_cons, List.map_cons, List.cons_append, List.cons_append,
    List.cons_append] at texts
  obtain ⟨rfl, afterBlank⟩ := List.cons_eq_cons.1 texts
  have othersNil : others = [] := by
    cases others with
    | nil => rfl
    | cons second others =>
      rw [List.cons_append] at afterBlank
      obtain ⟨rfl, _⟩ := List.cons_eq_cons.1 afterBlank
      have isSpace := blankUnit edge (by simp)
      rw [notSpace] at isSpace
      cases isSpace
  subst othersNil
  rw [List.nil_append] at afterBlank
  intro sameBytes
  cases pathUnits with
  | nil =>
    -- an empty path needs a separator at the start of the rest
    rw [List.nil_append] at afterBlank splits
    have startsEdge : ∃ tail, escapeQuote locale more = edge :: tail := by
      have plain := kind.separator_plain edge (by rw [separatorEq]; simp)
      rw [← afterBlank, escapeQuote_cons, escapeUnit_plain locale plain]
      exact ⟨_, rfl⟩
    obtain ⟨tail, startsEdge⟩ := startsEdge
    have notBlank : edge ≠ ' ' := by
      rintro rfl
      cases notSpace
    have noCut : ∀ {separator targetText : Text}, (∃ rest, separator = ' ' :: rest) →
        ¬ CutsAt separator (escapeQuote locale more) (escapeQuote locale []) targetText := by
      rintro separator targetText ⟨rest, rfl⟩ cut
      have restEq := cut.textEq
      rw [startsEdge] at restEq
      exact notBlank (List.cons_eq_cons.1 restEq).1
    generalize pathEq : escapeQuote locale [] = path at splits noCut
    generalize kind.memberKind = memberKind at splits
    cases splits with
    | whole _ _ =>
      rw [startsEdge] at pathEq
      cases pathEq
    | arrow _ cut _ => exact noCut LinkKind.symlink.separator_blank cut
    | linkTo cut _ => exact noCut LinkKind.hardlink.separator_blank cut
  | cons unit pathUnits =>
    rw [List.cons_append] at afterBlank
    obtain ⟨rfl, _⟩ := List.cons_eq_cons.1 afterBlank
    have nameChars : ∃ chars, name = List.map NameUnit.char chars := by
      obtain ⟨chars, _, _, nameEq, _⟩ := List.map_eq_append_iff.1 blanksEq
      exact ⟨chars, nameEq.symm⟩
    obtain ⟨chars, rfl⟩ := nameChars
    rw [nameBytes_chars, nameBytes_cons] at sameBytes
    have split : utf8Bytes chars = utf8Bytes [edge] ++ nameBytes pathUnits := by
      rw [← sameBytes]
      simp [NameUnit.bytes]
    obtain ⟨back, rfl, _⟩ := utf8Bytes_drop split
    have isSpace := blankUnit edge (by simp)
    rw [notSpace] at isSpace
    cases isSpace

/-- The path read from a link line whose name is not lost is a part of the name,
a proper one where the name ends like a separator. -/
theorem path_part_of_name {kind : LinkKind} {name target pathUnits more : TarName}
    {listed : Option Text}
    (texts : pathUnits ++ more = name ++ (kind.separator.map .char ++ target))
    (splits : Splits kind.memberKind (escapeQuote locale (pathUnits ++ more))
      (escapeQuote locale pathUnits) listed) :
    ∃ rest, name = pathUnits ++ rest ∧ (EndsAtSeam locale kind name → rest ≠ []) := by
  have printed : escapeQuote locale (pathUnits ++ more) =
      escapeQuote locale name ++ (kind.separator ++ escapeQuote locale target) := by
    rw [texts, escapeQuote_append, escapeQuote_append, escapeQuote_word locale kind.separator_plain]
  rw [printed] at splits
  obtain ⟨targetText, _, cut, _⟩ := splits.link_cut
    ⟨escapeQuote locale name, escapeQuote locale target, List.append_assoc _ _ _⟩
  have part : ∃ rest, name = pathUnits ++ rest := by
    rcases List.append_eq_append_iff.1 texts with
      ⟨rest, nameEq, _⟩ | ⟨extra, pathEq, _⟩
    · exact ⟨rest, nameEq⟩
    · have early := cut.first (escapeQuote locale name) (escapeQuote locale target) rfl
      have extraNil : extra = [] := by
        by_contra nonempty
        obtain ⟨unit, others, rfl⟩ := List.exists_cons_of_ne_nil nonempty
        have positive : 0 < (escapeUnit locale unit).length := by
          rcases escapeUnit_cases locale unit with
            ⟨_, _, _, _, unitEq⟩ | ⟨_, unitEq, _⟩ <;> simp [unitEq]
        rw [pathEq, escapeQuote_append, escapeQuote_cons, List.length_append,
          List.length_append] at early
        omega
      exact ⟨[], by rw [pathEq, extraNil, List.append_nil, List.append_nil]⟩
  obtain ⟨rest, nameEq⟩ := part
  refine ⟨rest, nameEq, fun ends restNil => ?_⟩
  obtain ⟨front, frontEq⟩ := ends
  obtain ⟨edge, middle, separatorEq, initEq, tailEq⟩ := kind.separator_lone.dropLast_concat
  have early := cut.first front (kind.separator.tail ++ escapeQuote locale target) (by
    rw [← frontEq, initEq, tailEq, separatorEq]
    simp)
  have size := congrArg List.length frontEq
  rw [initEq, nameEq, restNil, List.append_nil, List.length_append, List.length_cons] at size
  omega

theorem Splits.noArrow_of_none {kind : MemberKind} {rest path : Text}
    (splits : Splits kind rest path none) (notFile : kind ≠ .file) :
    ¬ TAR_LINK_ARROW <:+: rest := by
  cases splits with
  | whole noArrow _ => exact noArrow notFile

theorem Splits.path_eq {kind : MemberKind} {rest path : Text} {target : Option Text}
    (splits : Splits kind rest path target) (notHardlink : kind ≠ .hardlink)
    (noArrow : kind ≠ .file → ¬ TAR_LINK_ARROW <:+: rest) : path = rest := by
  cases splits with
  | whole _ _ => rfl
  | arrow notFile cut _ => exact absurd cut.isInfix (noArrow notFile)
  | linkTo _ _ => exact absurd rfl notHardlink

/-- The name of a member listed without target is cut at an arrow in it, unless
it is a file. -/
theorem cutsName_plain_iff {kind : PlainKind} {name : TarName} :
    CutsName locale (.plain kind name) ↔
      kind.memberKind ≠ .file ∧ TAR_LINK_ARROW <:+: escapeQuote locale name := by
  cases kind <;> simp [CutsName, PlainKind.memberKind]

theorem PlainKind.memberKind_ne_hardlink (kind : PlainKind) :
    kind.memberKind ≠ .hardlink := by
  cases kind <;> decide

/-- A name listed without target is read as another one where something of it is
lost. -/
theorem plain_path_ne {columns : TarColumns} {tarLocale : TarListingLocale}
    {kind : PlainKind} {name : TarName} {parsed : ArchiveMember}
    (lost : listedRest locale (.plain kind name) ≠
        (ListedMember.plain kind name).remainder locale ∨ CutsName locale (.plain kind name))
    (accepted : parseTarVerboseLine (tarLine locale columns (.plain kind name))
      ⟨.gnu, tarLocale⟩ = .parsed parsed) :
    utf8Bytes parsed.path ≠ nameBytes name := by
  obtain ⟨blanks, pathUnits, more, target, unitsEq, _, blanksNil, restEq, splits,
    moreNonempty, pathBytes⟩ := parsed_units accepted
  have nameEq : name = List.map NameUnit.char blanks ++ (pathUnits ++ more) := unitsEq
  have different := @nameBytes_ne_of_part (List.map NameUnit.char blanks) pathUnits more
  rw [← nameEq, ← pathBytes] at different
  apply different
  by_cases whole : listedRest locale (.plain kind name) =
      (ListedMember.plain kind name).remainder locale
  · right
    have cuts := lost.resolve_left (absurd whole)
    apply moreNonempty
    rintro rfl
    rw [← restEq, whole] at splits
    obtain ⟨notFile, arrow⟩ := cutsName_plain_iff.1 cuts
    exact splits.noArrow_of_none notFile arrow
  · left
    intro isNil
    exact whole (blanksNil.2 (List.map_eq_nil_iff.1 isNil))

/-- The name of a link line is read as another one where something of it is
lost. -/
theorem link_path_ne {columns : TarColumns} {tarLocale : TarListingLocale}
    {kind : LinkKind} {name target : TarName} {parsed : ArchiveMember}
    (lost : listedRest locale (.link kind name target) ≠
        (ListedMember.link kind name target).remainder locale ∨ EndsAtSeam locale kind name)
    (accepted : parseTarVerboseLine (tarLine locale columns (.link kind name target))
      ⟨.gnu, tarLocale⟩ = .parsed parsed) :
    utf8Bytes parsed.path ≠ nameBytes name := by
  obtain ⟨blanks, pathUnits, more, listed, unitsEq, areBlank, blanksNil, restEq, splits,
    _, pathBytes⟩ := parsed_units accepted
  rw [pathBytes]
  have textsEq : List.map NameUnit.char blanks ++ (pathUnits ++ more) =
      name ++ (kind.separator.map .char ++ target) := unitsEq.symm
  rcases List.append_eq_append_iff.1 textsEq with
    ⟨inner, nameEq, innerEq⟩ | ⟨shared, blanksEq, sharedEq⟩
  · obtain ⟨rest, innerNameEq, ends⟩ := path_part_of_name innerEq splits
    have different := @nameBytes_ne_of_part (List.map NameUnit.char blanks) pathUnits rest
    rw [← innerNameEq, ← nameEq] at different
    apply different
    by_cases blankNil : blanks = []
    · right
      have endsAtSeam := lost.resolve_left (absurd (blanksNil.2 blankNil))
      rw [nameEq, blankNil, List.map_nil, List.nil_append] at endsAtSeam
      exact ends endsAtSeam
    · left
      exact mt List.map_eq_nil_iff.1 blankNil
  · by_cases sharedNil : shared = []
    · -- the rest would start with the separator's blank
      exfalso
      obtain ⟨tail, separatorEq⟩ := kind.separator_blank
      rw [sharedNil, List.nil_append, separatorEq, List.map_cons, List.cons_append]
        at sharedEq
      rw [← sharedEq, escapeQuote_cons, escapeUnit_plain locale (by decide)] at restEq
      exact absurd (not_space_of_listedRest restEq) (by decide)
    · exact path_ne_of_blank_name areBlank blanksEq sharedNil sharedEq splits

/-- A line of which nothing is lost is read as the name. -/
theorem path_eq_of_whole {columns : TarColumns} {tarLocale : TarListingLocale}
    {member : ListedMember} {parsed : ArchiveMember}
    (whole : listedRest locale member = member.remainder locale) (notCut : ¬ CutsName locale member)
    (accepted : parseTarVerboseLine (tarLine locale columns member) ⟨.gnu, tarLocale⟩ =
      .parsed parsed) : utf8Bytes parsed.path = nameBytes member.name := by
  cases member with
  | plain kind name =>
    obtain ⟨_, path, target, splits, decodedPath, _, _⟩ := parsed_tarLine accepted
    rw [whole] at splits
    have splits : Splits kind.memberKind (escapeQuote locale name) path target := splits
    have pathEq := splits.path_eq kind.memberKind_ne_hardlink fun notFile arrow =>
      notCut (cutsName_plain_iff.2 ⟨notFile, arrow⟩)
    rw [pathEq] at decodedPath
    exact decodeTarListingName_escapeQuote.1 decodedPath
  | link kind name target =>
    obtain ⟨path, targetText, _, decodedPath, _, _, cut, _⟩ := parsed_link whole accepted
    rcases kind.separator_lone.cut_join_cases cut with ⟨rfl, _⟩ | ⟨ends, _⟩
    · exact decodeTarListingName_escapeQuote.1 decodedPath
    · exact absurd ends notCut

theorem path_of_not_misread {columns : TarColumns} {tarLocale : TarListingLocale}
    {member : ListedMember} {parsed : ArchiveMember} (notMisread : ¬ Misread locale member)
    (accepted : parseTarVerboseLine (tarLine locale columns member) ⟨.gnu, tarLocale⟩ =
      .parsed parsed) : utf8Bytes parsed.path = nameBytes member.name := by
  obtain ⟨restNonempty, _, _, splits, _⟩ := parsed_tarLine accepted
  have notLost : ¬ (listedRest locale member ≠ member.remainder locale ∨
      CutsName locale member) := fun lost => notMisread
    ⟨restNonempty, isText_of_parsed_tarLine accepted, splits.not_refused, lost⟩
  obtain ⟨whole, notCut⟩ := not_or.1 notLost
  exact path_eq_of_whole (not_not.1 whole) notCut accepted

end NameColumn

end Paratix.Archive
