/-
Module: Paratix.Archive.Member
Purpose: Destination-relative paths; archive members and the rules that judge one at a time.
Main exports: ArchiveMember, keyedMembers
-/
import Paratix.Foundation.Lines
import Paratix.Foundation.PathWalk

namespace Paratix.Archive

open Foundation

/-- A text that was decoded from UTF-8: no lone surrogates. -/
abbrev Text := List Char

/-- A normalized destination-relative path, as its segments; `[]` stands for
the destination root. -/
abbrev Path := List Text

/-- The segments of a path as it is spelled. -/
def splitPath (path : Text) : List Text := path.splitOn '/'

/-- The spelling of a normalized path, `""` for the destination root. -/
def joinPath (path : Path) : Text := (path.intersperse ['/']).flatten

theorem slash_not_mem_of_mem_splitPath {path segment : Text}
    (member : segment ∈ splitPath path) : '/' ∉ segment :=
  separator_notMem_of_mem_splitOn member

theorem splitPath_joinPath {path : Path} (nonempty : path ≠ [])
    (noSlash : ∀ segment ∈ path, '/' ∉ segment) : splitPath (joinPath path) = path :=
  List.splitOn_intercalate '/' noSlash nonempty

/-- A path of proper names is known from its spelling. -/
theorem joinPath_inj {first second : Path}
    (firstNames : ∀ segment ∈ first, segment ≠ [] ∧ '/' ∉ segment)
    (secondNames : ∀ segment ∈ second, segment ≠ [] ∧ '/' ∉ segment)
    (same : joinPath first = joinPath second) : first = second := by
  have nonempty_spelling : ∀ {path : Path}, path ≠ [] →
      (∀ segment ∈ path, segment ≠ [] ∧ '/' ∉ segment) → joinPath path ≠ [] := by
    intro path nonempty names spellingNil
    have split := splitPath_joinPath nonempty fun segment member => (names segment member).2
    rw [spellingNil] at split
    have blank : [] ∈ path := split ▸ List.mem_singleton_self []
    exact (names [] blank).1 rfl
  cases first with
  | nil =>
    by_cases secondNil : second = []
    · exact secondNil.symm
    · exact absurd same.symm (nonempty_spelling secondNil secondNames)
  | cons segment rest =>
    have firstNonempty : segment :: rest ≠ [] := List.cons_ne_nil _ _
    have secondNonempty : second ≠ [] := by
      intro secondNil
      subst secondNil
      exact nonempty_spelling firstNonempty firstNames same
    rw [← splitPath_joinPath firstNonempty fun segment member =>
        (firstNames segment member).2,
      same, splitPath_joinPath secondNonempty fun segment member =>
        (secondNames segment member).2]

/-- The parent of a normalized path, the root for a root-level path. -/
def archiveMemberParentPath (normalizedPath : Path) : Path := normalizedPath.dropLast

/-- The proper, non-empty ancestors of a normalized path, outermost first. -/
def properAncestors (key : Path) : List Path :=
  (List.range (key.length - 1)).map fun index => key.take (index + 1)

theorem mem_properAncestors {key ancestor : Path} : ancestor ∈ properAncestors key ↔
      ∃ below, below ≠ [] ∧ ancestor ≠ [] ∧ key = ancestor ++ below := by
  simp only [properAncestors, List.mem_map, List.mem_range]
  constructor
  · rintro ⟨index, inside, rfl⟩
    refine ⟨key.drop (index + 1), ?_, ?_, (List.take_append_drop _ _).symm⟩
    · apply List.ne_nil_of_length_pos
      rw [List.length_drop]
      omega
    · apply List.ne_nil_of_length_pos
      rw [List.length_take]
      omega
  · rintro ⟨below, belowNonempty, nonempty, rfl⟩
    have belowPositive := List.length_pos_iff.2 belowNonempty
    have positive := List.length_pos_iff.2 nonempty
    refine ⟨ancestor.length - 1, ?_, ?_⟩
    · rw [List.length_append]
      omega
    · rw [Nat.sub_add_cancel positive, List.take_left]

/-- What a segment of a path asks the kernel for. -/
def pathMove (segment : Text) : Move Text :=
  if segment = [] ∨ segment = ['.'] then .stay
  else if segment = ['.', '.'] then .up
  else .down segment

/-- The moves of a path as it is spelled. -/
def pathMoves (path : Text) : List (Move Text) := (splitPath path).map pathMove

theorem pathMove_eq_down {segment name : Text} (move : pathMove segment = .down name) :
    segment = name := by
  simp only [pathMove] at move
  split at move
  · cases move
  · split at move
    · cases move
    · cases move
      rfl

inductive ArchiveFormat where
  | tar
  | zip
deriving DecidableEq, Repr

inductive MemberKind where
  | directory
  | file
  | hardlink
  | special
  | symlink
deriving DecidableEq, Repr

/-- A single archive member extracted from the listing output. -/
structure ArchiveMember where
  format : ArchiveFormat
  kind : MemberKind
  linkTarget : Option Text
  mode : Text
  path : Text
deriving DecidableEq, Repr

/-! ### Texts of the refusals -/

def text (literal : String) : Text := literal.toList

def hexDigit (value : Nat) : Char :=
  Char.ofNat (if value < 10 then 0x30 + value else 0x57 + value)

/-- One character of a JSON string literal. -/
def jsonChar (char : Char) : Text :=
  if char = '"' then text "\\\""
  else if char = '\\' then text "\\\\"
  else if char.toNat = 0x08 then text "\\b"
  else if char.toNat = 0x0c then text "\\f"
  else if char.toNat = 0x0a then text "\\n"
  else if char.toNat = 0x0d then text "\\r"
  else if char.toNat = 0x09 then text "\\t"
  else if char.toNat < 0x20 then
    text "\\u00" ++ [hexDigit (char.toNat / 16), hexDigit (char.toNat % 16)]
  else [char]

/-- `JSON.stringify` of a text. -/
def jsonStringify (value : Text) : Text :=
  text "\"" ++ value.flatMap jsonChar ++ text "\""

/-- How a refusal names a member, with its link target if it has one. -/
def describeLink (member : ArchiveMember) (linkTarget : Text) : Text :=
  text "member " ++ jsonStringify member.path ++ text " -> " ++ jsonStringify linkTarget

/-! ### Normalization -/

/-- The characters `\x00`–`\x1F`. -/
def isControlCharacter (char : Char) : Bool := char.toNat < 0x20

/-- Apply the remaining segments of a path to the stack of resolved ones. -/
def normalizeSegments (stack : Path) : List Text → Option Path
  | [] => some stack
  | segment :: segments =>
      if segment = [] ∨ segment = ['.'] then normalizeSegments stack segments
      else if segment = ['.', '.'] then
        if stack.length = 0 then none else normalizeSegments stack.dropLast segments
      else normalizeSegments (stack ++ [segment]) segments

/-- Normalize a POSIX-style path; nothing when it escapes the root or contains
control characters. -/
def normalizeArchiveMemberPath (input : Text) : Option Path :=
  if input.any isControlCharacter then none else normalizeSegments [] (splitPath input)

/-! ### Rules on one member -/

/-- Whether a slash-separated path has a segment that is exactly `..`. -/
def hasParentSegment (path : Text) : Bool := (splitPath path).contains ['.', '.']

def memberEscapesDestination (member : ArchiveMember) : Bool :=
  if ['/'].isPrefixOf member.path then true
  else
    match normalizeArchiveMemberPath member.path with
    | none => true
    | some memberPath =>
        match member.linkTarget with
        | none => false
        | some linkTarget =>
            if ['/'].isPrefixOf linkTarget then true
            else
              let anchor :=
                if member.kind = .symlink then archiveMemberParentPath memberPath else []
              let anchoredTarget :=
                if anchor = [] then linkTarget else joinPath anchor ++ ['/'] ++ linkTarget
              (normalizeArchiveMemberPath anchoredTarget).isNone

def modeHasSetuidOrSetgid (mode : Text) : Bool :=
  mode[3]? = some 's' || mode[3]? = some 'S' || mode[6]? = some 's' || mode[6]? = some 'S'

def controlCharacterReason (member : ArchiveMember) : Option Text :=
  if member.path.any isControlCharacter then
    some (text "member " ++ jsonStringify member.path ++ text " contains control characters")
  else
    match member.linkTarget with
    | none => none
    | some linkTarget =>
        if linkTarget.any isControlCharacter then
          some (describeLink member linkTarget ++
            text " link target contains control characters")
        else none

/-- A backslash or the replacement character U+FFFD. -/
def isAmbiguousCharacter (char : Char) : Bool := char = '\\' || char.toNat = 0xfffd

def ambiguousNameHint : Text := text
  "member names with a backslash are refused in every listing, because a listing that Paratix does not decode (a tar other than GNU tar or bsdtar, or unzip) cannot tell a real backslash from an escape sequence, and a U+FFFD may stand for bytes a listing tool replaced"

def ambiguousNameReason (member : ArchiveMember) : Option Text :=
  if member.path.any isAmbiguousCharacter then
    some (text "member " ++ jsonStringify member.path ++
      text " contains a backslash or a U+FFFD replacement character; " ++ ambiguousNameHint)
  else
    match member.linkTarget with
    | none => none
    | some linkTarget =>
        if linkTarget.any isAmbiguousCharacter then
          some (describeLink member linkTarget ++
            text " link target contains a backslash or a U+FFFD replacement character; " ++
            ambiguousNameHint)
        else none

def parentSegmentReason (member : ArchiveMember) : Option Text :=
  if hasParentSegment member.path then
    some (text "member " ++ jsonStringify member.path ++
      text " contains a \"..\" path segment")
  else
    match member.linkTarget with
    | none => none
    | some linkTarget =>
        if member.kind = .hardlink ∧ hasParentSegment linkTarget then
          some (describeLink member linkTarget ++
            text " hardlink target contains a \"..\" path segment")
        else none

/-- Why an archive member is unsafe, or nothing when it may be extracted. -/
def archiveMemberUnsafeReason (member : ArchiveMember) : Option Text :=
  let named := text "member " ++ jsonStringify member.path
  if member.format = .zip ∧ member.kind = .symlink then some (named ++ text " is a symlink")
  else if member.kind = .special then some (named ++ text " is a special file")
  else if modeHasSetuidOrSetgid member.mode then
    some (named ++ text " has setuid or setgid bit set (mode " ++ member.mode ++ text ")")
  else
    match (controlCharacterReason member <|> ambiguousNameReason member <|>
        parentSegmentReason member) with
    | some nameProblem => some nameProblem
    | none =>
        if memberEscapesDestination member then
          let detail :=
            match member.linkTarget with
            | none => named
            | some linkTarget => describeLink member linkTarget
          some (detail ++ text " would escape destination")
        else none

/-! ### What a safe member satisfies -/

/-- The facts about a member's names that its rules establish. -/
structure SafeNames (member : ArchiveMember) : Prop where
  notSpecial : member.kind ≠ .special
  noParentSegment : hasParentSegment member.path = false
  normalized : normalizeArchiveMemberPath member.path ≠ none
  relativeTarget : ∀ target, member.linkTarget = some target →
    ['/'].isPrefixOf target = false
  noParentInSource : member.kind = .hardlink → ∀ target,
    member.linkTarget = some target → hasParentSegment target = false
  normalizedSource : member.kind = .hardlink → ∀ target,
    member.linkTarget = some target → normalizeArchiveMemberPath target ≠ none

theorem parentSegmentReason_eq_none {member : ArchiveMember}
    (accepted : parentSegmentReason member = none) : hasParentSegment member.path = false ∧
      (member.kind = .hardlink → ∀ target, member.linkTarget = some target →
        hasParentSegment target = false) := by
  simp only [parentSegmentReason] at accepted
  split at accepted
  · cases accepted
  · next noParent =>
      refine ⟨Bool.eq_false_iff.2 noParent, ?_⟩
      intro isHardlink target hasTarget
      rw [hasTarget] at accepted
      simp only [isHardlink, true_and] at accepted
      split at accepted
      · cases accepted
      · next noParentInTarget => exact Bool.eq_false_iff.2 noParentInTarget

theorem memberEscapesDestination_eq_false {member : ArchiveMember}
    (contained : memberEscapesDestination member = false) :
    normalizeArchiveMemberPath member.path ≠ none ∧
      ∀ target, member.linkTarget = some target → ['/'].isPrefixOf target = false ∧
          (member.kind ≠ .symlink → normalizeArchiveMemberPath target ≠ none) := by
  simp only [memberEscapesDestination] at contained
  split at contained
  · cases contained
  · split at contained
    · cases contained
    · next memberPath normalized =>
        refine ⟨by rw [normalized]; exact Option.some_ne_none _, ?_⟩
        intro target hasTarget
        rw [hasTarget] at contained
        dsimp only at contained
        split at contained
        · cases contained
        · next relative =>
            refine ⟨Bool.eq_false_iff.2 relative, ?_⟩
            intro notSymlink
            simp only [notSymlink, if_false, if_true, Option.isNone_eq_false_iff] at contained
            exact Option.isSome_iff_ne_none.1 contained

theorem SafeNames.of_rules {member : ArchiveMember}
    (safe : archiveMemberUnsafeReason member = none) : SafeNames member := by
  simp only [archiveMemberUnsafeReason] at safe
  split at safe
  · cases safe
  · split at safe
    · cases safe
    · next notSpecial =>
        split at safe
        · cases safe
        · split at safe
          · cases safe
          · next noProblem =>
              have parentAccepted : parentSegmentReason member = none := by
                cases control : controlCharacterReason member with
                | some reason => simp [control] at noProblem
                | none =>
                  cases ambiguous : ambiguousNameReason member with
                  | some reason => simp [control, ambiguous] at noProblem
                  | none => simpa [control, ambiguous] using noProblem
              split at safe
              · cases safe
              · next contained =>
                  obtain ⟨noParent, noParentInSource⟩ := parentSegmentReason_eq_none parentAccepted
                  obtain ⟨normalized, targets⟩ :=
                    memberEscapesDestination_eq_false (Bool.eq_false_iff.2 contained)
                  exact {
                    notSpecial := notSpecial
                    noParentSegment := noParent
                    normalized := normalized
                    relativeTarget := fun target hasTarget => (targets target hasTarget).1
                    noParentInSource := noParentInSource
                    normalizedSource := fun isHardlink target hasTarget =>
                      (targets target hasTarget).2 (by rw [isHardlink]; decide) }

/-- The names a path without `..` asks for: empty and `.` segments name
nothing. -/
def pathNames (path : Text) : Path :=
  (splitPath path).filter fun segment => segment ≠ [] ∧ segment ≠ ['.']

theorem normalizeSegments_of_noParent {segments : List Text}
    (noParent : ['.', '.'] ∉ segments) (stack : Path) : normalizeSegments stack segments =
      some (stack ++ segments.filter fun segment => segment ≠ [] ∧ segment ≠ ['.']) := by
  induction segments generalizing stack with
  | nil => simp [normalizeSegments]
  | cons segment segments ih =>
    have restNoParent : ['.', '.'] ∉ segments :=
      fun member => noParent (List.mem_cons_of_mem _ member)
    have notParent : segment ≠ ['.', '.'] := by
      rintro rfl
      exact noParent List.mem_cons_self
    simp only [normalizeSegments]
    by_cases skipped : segment = [] ∨ segment = ['.']
    · rw [if_pos skipped, ih restNoParent, List.filter_cons_of_neg]
      rcases skipped with rfl | rfl <;> decide
    · rw [if_neg skipped, if_neg notParent, ih restNoParent,
        List.filter_cons_of_pos (by simpa [not_or] using skipped), List.append_assoc,
        List.singleton_append]

/-- Without `..` segments a normalized path consists of the names asked for. -/
theorem normalize_eq_pathNames {path : Text} {key : Path} (noParent : hasParentSegment path = false)
    (normalized : normalizeArchiveMemberPath path = some key) : key = pathNames path := by
  have notMember : ['.', '.'] ∉ splitPath path := by
    intro member
    rw [hasParentSegment, List.contains_iff_mem.2 member] at noParent
    cases noParent
  simp only [normalizeArchiveMemberPath] at normalized
  split at normalized
  · cases normalized
  · rw [normalizeSegments_of_noParent notMember, List.nil_append] at normalized
    exact (Option.some.inj normalized).symm

/-! ### Keyed members -/

/-- A member with its normalized path. -/
structure KeyedMember where
  key : Path
  member : ArchiveMember
deriving DecidableEq, Repr

def keyedMembers (members : List ArchiveMember) : List KeyedMember :=
  members.filterMap fun member =>
    (normalizeArchiveMemberPath member.path).map fun key => { key, member }

theorem mem_keyedMembers {members : List ArchiveMember} {entry : KeyedMember} :
    entry ∈ keyedMembers members ↔
      entry.member ∈ members ∧
        normalizeArchiveMemberPath entry.member.path = some entry.key := by
  simp only [keyedMembers, List.mem_filterMap, Option.map_eq_some_iff]
  constructor
  · rintro ⟨member, memberOf, key, normalized, rfl⟩
    exact ⟨memberOf, normalized⟩
  · rintro ⟨memberOf, normalized⟩
    exact ⟨entry.member, memberOf, entry.key, normalized, rfl⟩

end Paratix.Archive
