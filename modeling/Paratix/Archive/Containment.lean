/-
Module: Paratix.Archive.Containment
Purpose: The file tree below a destination and what extracting accepted archives can do to it:
  nothing is written outside, or through a symlink that leads out.
Main exports: Node, extraction_contained
-/
import Paratix.Archive.Member
import Paratix.Archive.LinkValidation

namespace Paratix.Archive

open Foundation

inductive Node where
  | directory
  | file (inode : Nat)
  | symlink (target : Text)
deriving DecidableEq, Repr

/-- The tree below the destination, by destination-relative path. -/
abbrev Tree := Path → Option Node

def emptyTree : Tree := fun path => if path = [] then some .directory else none

def Tree.set (tree : Tree) (place : Path) (node : Node) : Tree :=
  fun path => if path = place then some node else tree path

theorem Tree.set_self (tree : Tree) (place : Path) (node : Node) :
    tree.set place node place = some node := if_pos rfl

theorem Tree.set_of_ne (tree : Tree) {place path : Path} (different : path ≠ place)
    (node : Node) : tree.set place node path = tree path := if_neg different

def isAbsolute (target : Text) : Bool := ['/'].isPrefixOf target

/-! ### The kernel's lookup -/

/-- How a lookup ends: somewhere below the destination, refused by the kernel
(missing, no directory, too many links), or above the destination. -/
inductive LookupOutcome where
  | found (path : Path)
  | refused
  | escaped
deriving DecidableEq, Repr

/-- The kernel applies `moves` from the directory `current` after having
followed `hops` links. -/
inductive Lookup (tree : Tree) :
    Nat → Path → List (Move Text) → LookupOutcome → Prop where
  | done {hops : Nat} {current : Path} : Lookup tree hops current [] (.found current)
  | stay {hops : Nat} {current : Path} {moves : List (Move Text)}
      {outcome : LookupOutcome} (rest : Lookup tree hops current moves outcome) :
      Lookup tree hops current (.stay :: moves) outcome
  | up {hops : Nat} {parent : Path} {last : Text} {moves : List (Move Text)}
      {outcome : LookupOutcome} (rest : Lookup tree hops parent moves outcome) :
      Lookup tree hops (parent ++ [last]) (.up :: moves) outcome
  | aboveRoot {hops : Nat} {moves : List (Move Text)} :
      Lookup tree hops [] (.up :: moves) .escaped
  | enter {hops : Nat} {current : Path} {name : Text} {moves : List (Move Text)}
      {outcome : LookupOutcome} (node : tree (current ++ [name]) = some .directory)
      (rest : Lookup tree hops (current ++ [name]) moves outcome) :
      Lookup tree hops current (.down name :: moves) outcome
  | file {hops inode : Nat} {current : Path} {name : Text}
      (node : tree (current ++ [name]) = some (.file inode)) :
      Lookup tree hops current [.down name] (.found (current ++ [name]))
  | notDirectory {hops inode : Nat} {current : Path} {name : Text}
      {moves : List (Move Text)} (node : tree (current ++ [name]) = some (.file inode))
      (more : moves ≠ []) : Lookup tree hops current (.down name :: moves) .refused
  | missing {hops : Nat} {current : Path} {name : Text} {moves : List (Move Text)}
      (node : tree (current ++ [name]) = none) :
      Lookup tree hops current (.down name :: moves) .refused
  | follow {hops : Nat} {current : Path} {name target : Text} {moves : List (Move Text)}
      {outcome : LookupOutcome} (node : tree (current ++ [name]) = some (.symlink target))
      (relative : isAbsolute target = false) (fits : hops < 40)
      (rest : Lookup tree (hops + 1) current (pathMoves target ++ moves) outcome) :
      Lookup tree hops current (.down name :: moves) outcome
  | followAbsolute {hops : Nat} {current : Path} {name target : Text}
      {moves : List (Move Text)}
      (node : tree (current ++ [name]) = some (.symlink target))
      (absolute : isAbsolute target = true) (fits : hops < 40) :
      Lookup tree hops current (.down name :: moves) .escaped
  | tooMany {hops : Nat} {current : Path} {name target : Text} {moves : List (Move Text)}
      (node : tree (current ++ [name]) = some (.symlink target)) (full : 40 ≤ hops) :
      Lookup tree hops current (.down name :: moves) .refused

/-- Looking up `path`, its last component followed, leaves the destination. -/
def Escapes (tree : Tree) (path : Path) : Prop :=
  Lookup tree 0 [] (path.map .down) .escaped

/-! ### Extracting one member -/

/-- The moves of a member name; empty and `.` segments ask for nothing. -/
def memberMoves (path : Text) : List (Move Text) :=
  (pathMoves path).filter fun move => move ≠ .stay

/-- Going down to a directory, following the links that stand in the way. With
`create`, missing directories are made. The last argument is where that ends,
nothing when it is outside the destination. -/
inductive Descend (create : Bool) :
    Tree → Path → List (Move Text) → List Path → Tree → Option Path → Prop where
  | done {tree : Tree} {current : Path} :
      Descend create tree current [] [] tree (some current)
  | stay {tree after : Tree} {current : Path} {moves : List (Move Text)}
      {through : List Path} {place : Option Path}
      (rest : Descend create tree current moves through after place) :
      Descend create tree current (.stay :: moves) through after place
  | up {tree after : Tree} {parent : Path} {last : Text} {moves : List (Move Text)}
      {through : List Path} {place : Option Path}
      (rest : Descend create tree parent moves through after place) :
      Descend create tree (parent ++ [last]) (.up :: moves) through after place
  | aboveRoot {tree : Tree} {moves : List (Move Text)} :
      Descend create tree [] (.up :: moves) [] tree none
  | enter {tree after : Tree} {current : Path} {name : Text} {moves : List (Move Text)}
      {through : List Path} {place : Option Path}
      (node : tree (current ++ [name]) = some .directory)
      (rest : Descend create tree (current ++ [name]) moves through after place) :
      Descend create tree current (.down name :: moves) through after place
  | make {tree after : Tree} {current : Path} {name : Text} {moves : List (Move Text)}
      {through : List Path} {place : Option Path} (creates : create = true)
      (node : tree (current ++ [name]) = none)
      (rest : Descend create (tree.set (current ++ [name]) .directory)
        (current ++ [name]) moves through after place) :
      Descend create tree current (.down name :: moves) through after place
  | follow {tree after : Tree} {current : Path} {name target : Text}
      {moves : List (Move Text)} {through : List Path} {place : Option Path}
      (node : tree (current ++ [name]) = some (.symlink target))
      (relative : isAbsolute target = false)
      (rest : Descend create tree current (pathMoves target ++ moves) through after
        place) :
      Descend create tree current (.down name :: moves)
        ((current ++ [name]) :: through) after place
  | followAbsolute {tree : Tree} {current : Path} {name target : Text}
      {moves : List (Move Text)}
      (node : tree (current ++ [name]) = some (.symlink target))
      (absolute : isAbsolute target = true) :
      Descend create tree current (.down name :: moves) [current ++ [name]] tree none

/-- Where something is, and the symlinks that were followed to get there;
nothing stands for a place outside the destination. -/
structure Place where
  through : List Path
  path : Option Path
deriving DecidableEq, Repr

/-- One entry written for a member; a hardlink also names a source. -/
structure Write where
  member : ArchiveMember
  place : Place
  source : Option Place
deriving DecidableEq, Repr

/-- What stands at a place can be removed for a new entry: a directory only
when it is empty. -/
def Replaceable (tree : Tree) (place : Path) : Prop :=
  tree place = some .directory → ∀ name, tree (place ++ [name]) = none

/-- What extracting one member can do. A tool may fail at any member, before or
after it went down some of the member's path; it may remove what stands at that
path, or open it, which follows a link. -/
inductive Extract (tree : Tree) (member : ArchiveMember) :
    Tree → Option Write → Prop where
  | failed : Extract tree member tree none
  | failedBelow {after : Tree} {front back : List (Move Text)} {through : List Path}
      {place : Path} (moves : memberMoves member.path = front ++ back)
      (above : member.kind = .directory ∨ back ≠ [])
      (descend : Descend true tree [] front through after (some place)) :
      Extract tree member after none
  | outside {after : Tree} {front back : List (Move Text)} {through : List Path}
      (moves : memberMoves member.path = front ++ back)
      (above : member.kind = .directory ∨ back ≠ [])
      (descend : Descend true tree [] front through after none) :
      Extract tree member after (some ⟨member, ⟨through, none⟩, none⟩)
  | directory {after : Tree} {through : List Path} {place : Path}
      (kind : member.kind = .directory)
      (descend : Descend true tree [] (memberMoves member.path) through after
        (some place)) :
      Extract tree member after (some ⟨member, ⟨through, some place⟩, none⟩)
  | file {after : Tree} {front : List (Move Text)} {name : Text} {through : List Path}
      {directory : Path} {inode : Nat} (kind : member.kind = .file)
      (moves : memberMoves member.path = front ++ [.down name])
      (descend : Descend true tree [] front through after (some directory))
      (replaceable : Replaceable after (directory ++ [name])) :
      Extract tree member (after.set (directory ++ [name]) (.file inode))
        (some ⟨member, ⟨through, some (directory ++ [name])⟩, none⟩)
  | fileThroughLink {after final : Tree} {front : List (Move Text)} {name target : Text}
      {through more : List Path} {directory place : Path} {inode : Nat}
      (kind : member.kind = .file)
      (moves : memberMoves member.path = front ++ [.down name])
      (descend : Descend true tree [] front through after (some directory))
      (link : after (directory ++ [name]) = some (.symlink target))
      (follow : Descend false after directory (pathMoves target) more final (some place)) :
      Extract tree member (final.set place (.file inode))
        (some ⟨member, ⟨through ++ (directory ++ [name]) :: more, some place⟩, none⟩)
  | symlink {after : Tree} {front : List (Move Text)} {name target : Text}
      {through : List Path} {directory : Path} (kind : member.kind = .symlink)
      (hasTarget : member.linkTarget = some target)
      (moves : memberMoves member.path = front ++ [.down name])
      (descend : Descend true tree [] front through after (some directory))
      (replaceable : Replaceable after (directory ++ [name])) :
      Extract tree member (after.set (directory ++ [name]) (.symlink target))
        (some ⟨member, ⟨through, some (directory ++ [name])⟩, none⟩)
  | hardlink {found after : Tree} {front sourceFront : List (Move Text)}
      {name sourceName target : Text} {through sourceThrough : List Path}
      {directory sourceDirectory : Path} {node : Node}
      (kind : member.kind = .hardlink) (hasTarget : member.linkTarget = some target)
      (sourceMoves : memberMoves target = sourceFront ++ [.down sourceName])
      (locate : Descend false tree [] sourceFront sourceThrough found
        (some sourceDirectory))
      (sourceNode : found (sourceDirectory ++ [sourceName]) = some node)
      (notDirectory : node ≠ .directory)
      (moves : memberMoves member.path = front ++ [.down name])
      (descend : Descend true found [] front through after (some directory))
      (replaceable : Replaceable after (directory ++ [name])) :
      Extract tree member (after.set (directory ++ [name]) node)
        (some ⟨member, ⟨through, some (directory ++ [name])⟩,
          some ⟨sourceThrough, some (sourceDirectory ++ [sourceName])⟩⟩)
  | hardlinkOutside {found : Tree} {sourceFront sourceBack : List (Move Text)}
      {target : Text} {sourceThrough through : List Path} {place : Option Path}
      (kind : member.kind = .hardlink) (hasTarget : member.linkTarget = some target)
      (sourceMoves : memberMoves target = sourceFront ++ sourceBack)
      (locate : Descend false tree [] sourceFront sourceThrough found none) :
      Extract tree member found
        (some ⟨member, ⟨through, place⟩, some ⟨sourceThrough, none⟩⟩)

/-- The members are extracted in listing order; the entries written are
collected. -/
inductive ExtractAll : Tree → List ArchiveMember → Tree → List Write → Prop where
  | nil {tree : Tree} : ExtractAll tree [] tree []
  | cons {tree after final : Tree} {member : ArchiveMember}
      {members : List ArchiveMember} {write : Option Write} {writes : List Write}
      (first : Extract tree member after write)
      (rest : ExtractAll after members final writes) :
      ExtractAll tree (member :: members) final (write.toList ++ writes)

/-! ### Names the rules and the kernel agree on -/

/-- Without `..` segments a member name asks for its names one after the
other. -/
theorem memberMoves_eq {path : Text} (noParent : hasParentSegment path = false) :
    memberMoves path = (pathNames path).map .down := by
  have notMember : ['.', '.'] ∉ splitPath path := by
    intro member
    rw [hasParentSegment, List.contains_iff_mem.2 member] at noParent
    cases noParent
  simp only [memberMoves, pathMoves, pathNames]
  generalize splitPath path = segments at notMember
  induction segments with
  | nil => rfl
  | cons segment segments ih =>
    have rest := ih fun member =>
      notMember (List.mem_cons_of_mem _ member)
    have notParent : segment ≠ ['.', '.'] := by
      rintro rfl
      exact notMember List.mem_cons_self
    rw [List.map_cons]
    by_cases skipped : segment = [] ∨ segment = ['.']
    · have move : pathMove segment = .stay := by
        simp only [pathMove, skipped, if_true]
      rw [move, List.filter_cons_of_neg (by decide), rest, List.filter_cons_of_neg]
      rcases skipped with rfl | rfl <;> decide
    · have move := pathMove_down skipped notParent
      rw [move, List.filter_cons_of_pos (by simp), rest,
        List.filter_cons_of_pos (by simpa [not_or] using skipped), List.map_cons]

theorem map_down_eq_append {names : Path} {front back : List (Move Text)}
    (moves : names.map Move.down = front ++ back) :
    ∃ frontNames backNames, names = frontNames ++ backNames ∧
      front = frontNames.map .down ∧ back = backNames.map .down := by
  obtain ⟨frontNames, backNames, namesEq, frontEq, backEq⟩ := List.map_eq_append_iff.1 moves
  exact ⟨frontNames, backNames, namesEq, frontEq.symm, backEq.symm⟩

theorem map_down_eq_concat {names : Path} {front : List (Move Text)} {name : Text}
    (moves : names.map Move.down = front ++ [.down name]) :
    ∃ frontNames, names = frontNames ++ [name] ∧ front = frontNames.map .down := by
  obtain ⟨frontNames, backNames, namesEq, frontEq, backEq⟩ := map_down_eq_append moves
  cases backNames with
  | nil => cases backEq
  | cons last rest =>
    cases rest with
    | nil =>
      cases backEq
      exact ⟨frontNames, namesEq, frontEq⟩
    | cons next rest => cases backEq

/-! ### The invariant of the tree -/

/-- Every symlink in the tree is an archive symlink with its own target, and
nothing else stands at the path of an archive symlink. -/
structure Contained (entries : List KeyedMember) (tree : Tree) : Prop where
  links : ∀ path target, tree path = some (.symlink target) →
    ∃ entry ∈ entries, entry.key = path ∧ entry.member.kind = .symlink ∧
      entry.member.linkTarget = some target
  others : ∀ path node, tree path = some node → (∀ target, node ≠ .symlink target) →
    path ∉ symlinkKeys entries

namespace Contained

variable {entries : List KeyedMember} {tree : Tree}

theorem mem_symlinkKeys_iff {path : Path} : path ∈ symlinkKeys entries ↔
      ∃ entry ∈ entries, entry.key = path ∧ entry.member.kind = .symlink := by
  simp only [symlinkKeys, List.mem_map, List.mem_filter, decide_eq_true_eq]
  constructor
  · rintro ⟨entry, ⟨member, isSymlink⟩, keyEq⟩
    exact ⟨entry, member, keyEq, isSymlink⟩
  · rintro ⟨entry, member, keyEq, isSymlink⟩
    exact ⟨entry, ⟨member, isSymlink⟩, keyEq⟩

theorem mem_symlinkKeys (contained : Contained entries tree) {path : Path} {target : Text}
    (link : tree path = some (.symlink target)) : path ∈ symlinkKeys entries := by
  obtain ⟨entry, member, keyEq, isSymlink, _⟩ := contained.links path target link
  exact mem_symlinkKeys_iff.2 ⟨entry, member, keyEq, isSymlink⟩

theorem empty (rootNoLink : [] ∉ symlinkKeys entries) : Contained entries emptyTree where
  links := by
    intro path target link
    simp only [emptyTree] at link
    split at link
    · cases link
    · cases link
  others := by
    intro path node stands _
    simp only [emptyTree] at stands
    split at stands
    · next isRoot => exact isRoot ▸ rootNoLink
    · cases stands

/-- A directory or file placed where no archive symlink belongs. -/
theorem set_other (contained : Contained entries tree) {place : Path} {node : Node}
    (notLink : ∀ target, node ≠ .symlink target) (notKey : place ∉ symlinkKeys entries) :
    Contained entries (tree.set place node) where
  links := by
    intro path target link
    by_cases here : path = place
    · rw [here, Tree.set_self] at link
      exact absurd (Option.some.inj link) (notLink target)
    · rw [Tree.set_of_ne _ here] at link
      exact contained.links path target link
  others := by
    intro path other stands otherNoLink
    by_cases here : path = place
    · exact here ▸ notKey
    · rw [Tree.set_of_ne _ here] at stands
      exact contained.others path other stands otherNoLink

/-- An archive symlink placed at its own path. -/
theorem set_link (contained : Contained entries tree) {entry : KeyedMember} {target : Text}
    (member : entry ∈ entries) (isSymlink : entry.member.kind = .symlink)
    (hasTarget : entry.member.linkTarget = some target) :
    Contained entries (tree.set entry.key (.symlink target)) where
  links := by
    intro path other link
    by_cases here : path = entry.key
    · rw [here, Tree.set_self] at link
      cases link
      exact ⟨entry, member, here.symm, isSymlink, hasTarget⟩
    · rw [Tree.set_of_ne _ here] at link
      exact contained.links path other link
  others := by
    intro path node stands notLink
    by_cases here : path = entry.key
    · rw [here, Tree.set_self] at stands
      exact absurd (Option.some.inj stands).symm (notLink target)
    · rw [Tree.set_of_ne _ here] at stands
      exact contained.others path node stands notLink

end Contained

/-- Going down a path on which no archive symlink belongs follows no link, ends
at that path and keeps the invariant. -/
theorem descend_contained {entries : List KeyedMember} {create : Bool}
    {tree after : Tree} {current names : Path} {through : List Path}
    {place : Option Path} (contained : Contained entries tree)
    (noLink : ∀ front, front ≠ [] → front <+: names → current ++ front ∉ symlinkKeys entries)
    (descend : Descend create tree current (names.map .down) through after place) :
    through = [] ∧ place = some (current ++ names) ∧ Contained entries after := by
  generalize movesEq : names.map Move.down = moves at descend
  induction descend generalizing names with
  | done =>
    obtain rfl := List.map_eq_nil_iff.1 movesEq
    exact ⟨rfl, by rw [List.append_nil], contained⟩
  | stay _ _ =>
    obtain ⟨name, _, _, move, _⟩ := List.map_eq_cons_iff.1 movesEq
    cases move
  | up _ _ =>
    obtain ⟨name, _, _, move, _⟩ := List.map_eq_cons_iff.1 movesEq
    cases move
  | aboveRoot =>
    obtain ⟨name, _, _, move, _⟩ := List.map_eq_cons_iff.1 movesEq
    cases move
  | @enter tree after current name moves through place node _ ih =>
    obtain ⟨first, rest, rfl, move, restEq⟩ := List.map_eq_cons_iff.1 movesEq
    cases move
    obtain ⟨noThrough, placeEq, containedAfter⟩ := ih contained
      (fun front nonempty isPrefix => by
        rw [List.append_assoc]
        exact noLink (name :: front) (by simp) (List.cons_prefix_cons.2 ⟨rfl, isPrefix⟩))
      restEq
    refine ⟨noThrough, ?_, containedAfter⟩
    rw [placeEq, List.append_assoc, List.singleton_append]
  | @make tree after current name moves through place creates node _ ih =>
    obtain ⟨first, rest, rfl, move, restEq⟩ := List.map_eq_cons_iff.1 movesEq
    cases move
    have notKey : current ++ [name] ∉ symlinkKeys entries :=
      noLink [name] (by simp) (List.cons_prefix_cons.2 ⟨rfl, List.nil_prefix⟩)
    have containedMade : Contained entries (tree.set (current ++ [name]) .directory) :=
      contained.set_other (by simp) notKey
    obtain ⟨noThrough, placeEq, containedAfter⟩ := ih containedMade
      (fun front nonempty isPrefix => by
        rw [List.append_assoc]
        exact noLink (name :: front) (by simp) (List.cons_prefix_cons.2 ⟨rfl, isPrefix⟩))
      restEq
    refine ⟨noThrough, ?_, containedAfter⟩
    rw [placeEq, List.append_assoc, List.singleton_append]
  | @follow tree after current name target moves through place node relative _ _ =>
    obtain ⟨first, rest, rfl, move, restEq⟩ := List.map_eq_cons_iff.1 movesEq
    cases move
    exact absurd (contained.mem_symlinkKeys node)
      (noLink [name] (by simp) (List.cons_prefix_cons.2 ⟨rfl, List.nil_prefix⟩))
  | @followAbsolute tree current name target moves node absolute =>
    obtain ⟨first, rest, rfl, move, restEq⟩ := List.map_eq_cons_iff.1 movesEq
    cases move
    exact absurd (contained.mem_symlinkKeys node)
      (noLink [name] (by simp) (List.cons_prefix_cons.2 ⟨rfl, List.nil_prefix⟩))

/-! ### One member -/

/-- A write that follows no symlink, to the member's own path, from a source
inside the destination that is reached through no symlink either. -/
structure Direct (write : Write) : Prop where
  noThrough : write.place.through = []
  ownPath : write.place.path = normalizeArchiveMemberPath write.member.path
  inside : write.place.path ≠ none
  source : ∀ source, write.source = some source →
    source.through = [] ∧ source.path ≠ none

section Member

variable {variantKeyRound : Text → Text} {entries : List KeyedMember}

/-- No archive symlink stands on the way to an entry. -/
theorem noLink_above (rules : LinkRules variantKeyRound entries) {entry : KeyedMember}
    (member : entry ∈ entries) {front back : Path} (keyEq : entry.key = front ++ back)
    (backNonempty : back ≠ []) :
    ∀ prior, prior ≠ [] → prior <+: front → [] ++ prior ∉ symlinkKeys entries := by
  rintro prior nonempty ⟨between, frontEq⟩ isKey
  obtain ⟨symlink, symlinkMember, symlinkKey, isSymlink⟩ := Contained.mem_symlinkKeys_iff.1 isKey
  apply rules.notBelowLink symlink symlinkMember isSymlink entry member
  apply mem_properAncestors.2
  refine ⟨between ++ back, by simp [backNonempty], ?_, ?_⟩
  · rw [symlinkKey, List.nil_append]
    exact nonempty
  · rw [symlinkKey, List.nil_append, keyEq, ← frontEq, List.append_assoc]

/-- An entry that is no symlink does not stand at the path of one. -/
theorem key_not_mem_symlinkKeys (rules : LinkRules variantKeyRound entries)
    {entry : KeyedMember} (member : entry ∈ entries)
    (notSymlink : entry.member.kind ≠ .symlink) : entry.key ∉ symlinkKeys entries := by
  intro isKey
  obtain ⟨symlink, symlinkMember, symlinkKey, isSymlink⟩ := Contained.mem_symlinkKeys_iff.1 isKey
  exact notSymlink (rules.sameLink symlink symlinkMember isSymlink entry member symlinkKey.symm).1

/-- Going down any part of an entry's own path follows no link, up to the entry
itself when that is no symlink. -/
theorem descend_key_contained (rules : LinkRules variantKeyRound entries)
    {entry : KeyedMember} (member : entry ∈ entries) {tree after : Tree}
    (contained : Contained entries tree) {frontNames backNames : Path}
    {through : List Path} {place : Option Path}
    (notSymlink : entry.member.kind ≠ .symlink ∨ backNames ≠ [])
    (keyEq : entry.key = frontNames ++ backNames)
    (descend : Descend true tree [] (frontNames.map .down) through after place) :
    through = [] ∧ place = some frontNames ∧ Contained entries after := by
  have noLink : ∀ prior, prior ≠ [] → prior <+: frontNames → [] ++ prior ∉ symlinkKeys entries := by
    by_cases backNil : backNames = []
    · subst backNil
      rw [List.append_nil] at keyEq
      rintro prior nonempty ⟨rest, frontEq⟩
      by_cases restNil : rest = []
      · subst restNil
        rw [List.append_nil] at frontEq
        rw [List.nil_append, frontEq, ← keyEq]
        exact key_not_mem_symlinkKeys rules member
          (notSymlink.resolve_right (not_not_intro rfl))
      · exact noLink_above rules member (keyEq.trans frontEq.symm) restNil prior nonempty
          (List.prefix_refl prior)
    · exact noLink_above rules member keyEq backNil
  obtain ⟨noThrough, placeEq, containedAfter⟩ := descend_contained contained noLink descend
  rw [List.nil_append] at placeEq
  exact ⟨noThrough, placeEq, containedAfter⟩

/-- Going down to the directory of an entry follows no link. -/
theorem descend_parent_contained (rules : LinkRules variantKeyRound entries)
    {entry : KeyedMember} (member : entry ∈ entries) {tree after : Tree}
    (contained : Contained entries tree) {front : List (Move Text)} {name : Text}
    {through : List Path} {directory : Path} (moves : entry.key.map .down = front ++ [.down name])
    (descend : Descend true tree [] front through after (some directory)) :
    through = [] ∧ directory ++ [name] = entry.key ∧ Contained entries after := by
  obtain ⟨frontNames, namesEq, rfl⟩ := map_down_eq_concat moves
  obtain ⟨noThrough, placeEq, containedAfter⟩ := descend_key_contained rules member contained
    (.inr (List.cons_ne_nil _ _)) namesEq descend
  cases placeEq
  exact ⟨noThrough, namesEq.symm, containedAfter⟩

/-- Where the source of a hardlink entry is looked up: through no link, at a
path that is no archive symlink. -/
theorem locate_source (rules : LinkRules variantKeyRound entries)
    {entry : KeyedMember} (member : entry ∈ entries) {tree found : Tree}
    (contained : Contained entries tree) {source sourceFront sourceBack : Path}
    (isSource : hardlinkTargetKey entry.member = some source)
    (sourceEq : source = sourceFront ++ sourceBack) {through : List Path} {place : Option Path}
    (locate : Descend false tree [] (sourceFront.map .down) through found place) :
    through = [] ∧ place = some sourceFront ∧ Contained entries found := by
  have noLink : ∀ prior, prior ≠ [] → prior <+: sourceFront →
      [] ++ prior ∉ symlinkKeys entries := by
    rintro prior nonempty ⟨rest, frontEq⟩ isKey
    rw [List.nil_append] at isKey
    obtain ⟨symlink, symlinkMember, symlinkKey, isSymlink⟩ := Contained.mem_symlinkKeys_iff.1 isKey
    by_cases below : rest ++ sourceBack = []
    · have whole : source = symlink.key := by
        rw [sourceEq, ← frontEq, List.append_assoc, below, List.append_nil, symlinkKey]
      exact rules.sourceIsNoLink symlink symlinkMember isSymlink entry member
        (whole ▸ isSource)
    · apply rules.sourceNotBelowLink symlink symlinkMember isSymlink entry member source isSource
      apply mem_properAncestors.2
      refine ⟨rest ++ sourceBack, below, symlinkKey.symm ▸ nonempty, ?_⟩
      rw [sourceEq, ← frontEq, symlinkKey, List.append_assoc]
  obtain ⟨noThrough, placeEq, containedFound⟩ := descend_contained contained noLink locate
  rw [List.nil_append] at placeEq
  exact ⟨noThrough, placeEq, containedFound⟩

/-- The source key of an accepted hardlink consists of the names its target
asks for. -/
theorem hardlinkTargetKey_eq {member : ArchiveMember} (safe : SafeNames member)
    (kind : member.kind = .hardlink) {target : Text} (hasTarget : member.linkTarget = some target) :
    hardlinkTargetKey member = some (pathNames target) := by
  have noParent := safe.noParentInSource kind target hasTarget
  obtain ⟨source, normalized⟩ :=
    Option.ne_none_iff_exists'.1 (safe.normalizedSource kind target hasTarget)
  simp only [hardlinkTargetKey, kind, ne_eq, not_true_eq_false, if_false, hasTarget,
    Option.bind_some]
  rw [normalized, normalize_eq_pathNames noParent normalized]

/-- Extracting one entry of an accepted archive keeps the invariant and writes
at the entry's own path, through no symlink. -/
theorem extract_contained (rules : LinkRules variantKeyRound entries)
    {entry : KeyedMember} (member : entry ∈ entries) (safe : SafeNames entry.member)
    (normalized : normalizeArchiveMemberPath entry.member.path = some entry.key)
    {tree after : Tree} {write : Option Write} (contained : Contained entries tree)
    (extract : Extract tree entry.member after write) :
    Contained entries after ∧ ∀ written, write = some written → Direct written := by
  have keyEq := normalize_eq_pathNames safe.noParentSegment normalized
  have movesEq : memberMoves entry.member.path = entry.key.map .down := by
    rw [memberMoves_eq safe.noParentSegment, keyEq]
  have direct : ∀ source, (∀ place, source = some place →
      place.through = [] ∧ place.path ≠ none) →
      Direct ⟨entry.member, ⟨[], some entry.key⟩, source⟩ := fun source sourceDirect => {
    noThrough := rfl
    ownPath := normalized.symm
    inside := Option.some_ne_none _
    source := sourceDirect }
  have notSymlink : ∀ {backNames : Path},
      entry.member.kind = .directory ∨ backNames.map Move.down ≠ [] →
        entry.member.kind ≠ .symlink ∨ backNames ≠ [] := by
    rintro backNames (isDirectory | nonempty)
    · exact Or.inl (by rw [isDirectory]; decide)
    · exact Or.inr fun backNil => nonempty (by rw [backNil]; rfl)
  have noSource : ∀ place : Place, none = some place →
      place.through = [] ∧ place.path ≠ none := fun _ absurdity => by cases absurdity
  cases extract with
  | failed => exact ⟨contained, fun written absurdity => by cases absurdity⟩
  | failedBelow moves above descend =>
    rw [movesEq] at moves
    obtain ⟨frontNames, backNames, namesEq, rfl, rfl⟩ := map_down_eq_append moves
    obtain ⟨_, _, containedAfter⟩ := descend_key_contained rules member contained
      (notSymlink above) namesEq descend
    exact ⟨containedAfter, fun written absurdity => by cases absurdity⟩
  | outside moves above descend =>
    rw [movesEq] at moves
    obtain ⟨frontNames, backNames, namesEq, rfl, rfl⟩ := map_down_eq_append moves
    obtain ⟨_, placeEq, _⟩ := descend_key_contained rules member contained
      (notSymlink above) namesEq descend
    cases placeEq
  | directory kind descend =>
    rw [movesEq] at descend
    obtain ⟨rfl, placeEq, containedAfter⟩ := descend_key_contained rules member
      contained (Or.inl (by rw [kind]; decide)) (List.append_nil _).symm descend
    cases placeEq
    exact ⟨containedAfter, fun written isWritten =>
      Option.some.inj isWritten ▸ direct none noSource⟩
  | file kind moves descend replaceable =>
    obtain ⟨rfl, atKey, containedAfter⟩ :=
      descend_parent_contained rules member contained (movesEq.symm.trans moves) descend
    rw [atKey]
    have notKey := key_not_mem_symlinkKeys rules member (by rw [kind]; decide)
    exact ⟨containedAfter.set_other (by simp) notKey, fun written isWritten =>
      Option.some.inj isWritten ▸ direct none noSource⟩
  | fileThroughLink kind moves descend link follow =>
    obtain ⟨rfl, atKey, containedAfter⟩ :=
      descend_parent_contained rules member contained (movesEq.symm.trans moves) descend
    have isKey := containedAfter.mem_symlinkKeys link
    rw [atKey] at isKey
    exact absurd isKey (key_not_mem_symlinkKeys rules member (by rw [kind]; decide))
  | symlink kind hasTarget moves descend replaceable =>
    obtain ⟨rfl, atKey, containedAfter⟩ :=
      descend_parent_contained rules member contained (movesEq.symm.trans moves) descend
    rw [atKey]
    exact ⟨containedAfter.set_link member kind hasTarget, fun written isWritten =>
      Option.some.inj isWritten ▸ direct none noSource⟩
  | hardlink kind hasTarget sourceMoves locate sourceNode notDirectory moves descend
      replaceable =>
      have isSource := hardlinkTargetKey_eq safe kind hasTarget
      rw [memberMoves_eq (safe.noParentInSource kind _ hasTarget)] at sourceMoves
      obtain ⟨sourceNames, sourceEq, rfl⟩ := map_down_eq_concat sourceMoves
      obtain ⟨rfl, sourcePlaceEq, containedFound⟩ :=
        locate_source rules member contained isSource sourceEq locate
      cases sourcePlaceEq
      obtain ⟨rfl, atKey, containedAfter⟩ :=
        descend_parent_contained rules member containedFound (movesEq.symm.trans moves) descend
      rw [atKey]
      have notKey := key_not_mem_symlinkKeys rules member (by rw [kind]; decide)
      refine ⟨containedAfter.set_other ?_ notKey, fun written isWritten =>
        Option.some.inj isWritten ▸ direct _ ?_⟩
      · rintro target rfl
        obtain ⟨symlink, symlinkMember, symlinkKey, isSymlink⟩ :=
          Contained.mem_symlinkKeys_iff.1 (containedFound.mem_symlinkKeys sourceNode)
        apply rules.sourceIsNoLink symlink symlinkMember isSymlink entry member
        rw [isSource, symlinkKey, sourceEq]
      · intro place isPlace
        cases isPlace
        exact ⟨rfl, Option.some_ne_none _⟩
  | hardlinkOutside kind hasTarget sourceMoves locate =>
    have isSource := hardlinkTargetKey_eq safe kind hasTarget
    rw [memberMoves_eq (safe.noParentInSource kind _ hasTarget)] at sourceMoves
    obtain ⟨sourceNames, sourceRest, sourceEq, rfl, _⟩ := map_down_eq_append sourceMoves
    obtain ⟨_, sourcePlaceEq, _⟩ := locate_source rules member contained isSource sourceEq locate
    cases sourcePlaceEq

end Member

/-! ### Symlinks of a contained tree -/

section Escape

variable {variantKeyRound : Text → Text} {entries : List KeyedMember} {tree : Tree}

/-- The links of a contained tree are the links the resolver judged. -/
theorem links_of_contained (rules : LinkRules variantKeyRound entries)
    (contained : Contained entries tree) {path : Path} {target : Text}
    (link : tree path = some (.symlink target)) :
    (archiveResolver variantKeyRound entries).links path =
      some (.inside .parent (pathMoves target)) := by
  obtain ⟨entry, member, keyEq, isSymlink, hasTarget⟩ := contained.links path target link
  obtain ⟨added, origin⟩ := archiveTargets_entries entries
  obtain ⟨stored, found⟩ := Option.isSome_iff_exists.1 (added entry member isSymlink)
  obtain ⟨other, otherMember, otherKey, otherSymlink, rfl⟩ := origin entry.key stored found
  have sameTarget := (rules.sameLink entry member isSymlink other otherMember otherKey).2
  rw [sameTarget, hasTarget] at found
  apply ArchiveSymlinkResolver.links_inside.2
  exact ⟨target, keyEq ▸ found, rfl⟩

theorem links_none_of_contained (contained : Contained entries tree) {path : Path}
    {node : Node} (stands : tree path = some node) (notLink : ∀ target, node ≠ .symlink target) :
    (archiveResolver variantKeyRound entries).links path = none := by
  have notKey := contained.others path node stands notLink
  rw [ArchiveSymlinkResolver.links_eq_none]
  cases found : (archiveResolver variantKeyRound entries).targets.lookup path with
  | none => rfl
  | some target =>
    obtain ⟨entry, member, keyEq, isSymlink, _⟩ :=
      (archiveTargets_entries entries).2 path target found
    exact absurd (Contained.mem_symlinkKeys_iff.2 ⟨entry, member, keyEq, isSymlink⟩) notKey

/-- Where the model's walk stays inside, the kernel's lookup does. -/
theorem lookup_not_escaped (rules : LinkRules variantKeyRound entries)
    (contained : Contained entries tree)
    (relative : ∀ path target, tree path = some (.symlink target) → isAbsolute target = false)
    {current final : Path} {moves : List (Move Text)} {walked hops : Nat} {outcome : LookupOutcome}
    (walk : Walk (archiveResolver variantKeyRound entries).links current moves walked final)
    (lookup : Lookup tree hops current moves outcome) : outcome ≠ .escaped := by
  induction walk generalizing hops outcome with
  | done => cases lookup with
    | done => simp
  | stay _ ih =>
    cases lookup with
    | stay rest => exact ih rest
  | @up parent final last moves walked _ ih =>
    generalize currentEq : parent ++ [last] = current at lookup
    cases lookup with
    | up rest =>
      obtain ⟨rfl, _⟩ := List.append_inj' currentEq rfl
      exact ih rest
    | aboveRoot => simp at currentEq
  | down plain _ ih =>
    cases lookup with
    | enter node rest => exact ih rest
    | file node => simp
    | notDirectory node more => simp
    | missing node => simp
    | follow node _ _ _ =>
      rw [links_of_contained rules contained node] at plain
      cases plain
    | followAbsolute node absolute _ =>
      rw [relative _ _ node] at absolute
      cases absolute
    | tooMany node full => simp
  | @follow current final name moves target anchor walked link _ ih =>
    cases lookup with
    | enter node _ =>
      rw [links_none_of_contained contained node (by simp)] at link
      cases link
    | file node => simp
    | notDirectory node more => simp
    | missing node => simp
    | follow node _ _ rest =>
      rw [links_of_contained rules contained node] at link
      cases link
      exact ih rest
    | followAbsolute node absolute _ =>
      rw [relative _ _ node] at absolute
      cases absolute
    | tooMany node full => simp

/-- No symlink of a contained tree leads out of the destination. -/
theorem not_escapes_of_contained (rules : LinkRules variantKeyRound entries)
    (contained : Contained entries tree)
    (relative : ∀ path target, tree path = some (.symlink target) → isAbsolute target = false)
    {path : Path} {target : Text} (link : tree path = some (.symlink target)) :
    ¬ Escapes tree path := by
  intro escapes
  obtain ⟨entry, member, rfl, isSymlink, _⟩ := contained.links path target link
  obtain ⟨walked, final, walk, _⟩ := rules.resolves entry member isSymlink
  have nonempty : entry.key ≠ [] := fun isRoot =>
    (rules.rootIsNoLink entry member isRoot).1 isSymlink
  have isLink : (archiveResolver variantKeyRound entries).links entry.key ≠ none := by
    rw [links_of_contained rules contained link]
    exact Option.some_ne_none _
  have noLinkAbove : ∀ front back, back ≠ [] → entry.key = front ++ back → front ≠ [] →
      (archiveResolver variantKeyRound entries).links front = none := by
    intro front back backNonempty keyEq frontNonempty
    rw [ArchiveSymlinkResolver.links_eq_none]
    cases found : (archiveResolver variantKeyRound entries).targets.lookup front with
    | none => rfl
    | some stored =>
      obtain ⟨symlink, symlinkMember, symlinkKey, frontSymlink, _⟩ :=
        (archiveTargets_entries entries).2 front stored found
      apply absurd _ (rules.notBelowLink symlink symlinkMember frontSymlink entry member)
      exact mem_properAncestors.2
        ⟨back, backNonempty, symlinkKey.symm ▸ frontNonempty, symlinkKey.symm ▸ keyEq⟩
  have fromRoot := (LinkWalk.iff_walk_root nonempty isLink noLinkAbove).1 walk
  exact lookup_not_escaped rules contained relative fromRoot escapes rfl

end Escape

/-! ### The whole archive -/

/-- Extracting accepted members one after the other keeps the invariant, and
every write is direct. -/
theorem extractAll_contained {variantKeyRound : Text → Text} {entries : List KeyedMember}
    (rules : LinkRules variantKeyRound entries) {members : List ArchiveMember}
    (keyed : ∀ member ∈ members, SafeNames member ∧ ∃ entry ∈ entries,
      entry.member = member ∧ normalizeArchiveMemberPath member.path = some entry.key)
    {tree final : Tree} {writes : List Write} (contained : Contained entries tree)
    (extracted : ExtractAll tree members final writes) :
    Contained entries final ∧ ∀ write ∈ writes, Direct write := by
  induction extracted with
  | nil => exact ⟨contained, fun write absurdity => by cases absurdity⟩
  | @cons tree after final member members write writes first _ ih =>
    obtain ⟨safe, entry, entryMember, rfl, normalized⟩ := keyed member List.mem_cons_self
    obtain ⟨containedAfter, direct⟩ :=
      extract_contained rules entryMember safe normalized contained first
    obtain ⟨containedFinal, restDirect⟩ := ih
      (fun other otherMember => keyed other (List.mem_cons_of_mem _ otherMember))
      containedAfter
    refine ⟨containedFinal, fun written isWritten => ?_⟩
    rcases List.mem_append.1 isWritten with here | later
    · exact direct written (Option.mem_toList.1 here)
    · exact restDirect written later

/-- An archive both sets of rules accept is extracted inside the destination:
no symlink in the tree leads out of it, every entry is written at its own path
through no symlink, and every hardlink source lies inside. -/
theorem extraction_contained {variantKeyRound : Text → Text}
    {members : List ArchiveMember} {calls : List ResolverCall}
    {tree : Tree} {writes : List Write}
    (safe : ∀ member ∈ members, archiveMemberUnsafeReason member = none)
    (accepted : archiveLinkUnsafeReason variantKeyRound members
      (runCalls (archiveResolver variantKeyRound (keyedMembers members)) calls) = none)
    (extracted : ExtractAll emptyTree members tree writes) :
    (∀ path target, tree path = some (.symlink target) → ¬ Escapes tree path) ∧
      (∀ write ∈ writes, write.place.through = [] ∧ write.place.path ≠ none ∧
        write.place.path = normalizeArchiveMemberPath write.member.path) ∧
      ∀ write ∈ writes, ∀ source, write.source = some source →
        source.through = [] ∧ source.path ≠ none := by
  have rules := LinkRules.of_accepted calls accepted
  have keyed : ∀ member ∈ members, SafeNames member ∧ ∃ entry ∈ keyedMembers members,
      entry.member = member ∧
        normalizeArchiveMemberPath member.path = some entry.key := by
    intro member memberOf
    have safeNames := SafeNames.of_rules (safe member memberOf)
    obtain ⟨key, normalized⟩ := Option.ne_none_iff_exists'.mp safeNames.normalized
    exact ⟨safeNames, ⟨key, member⟩, mem_keyedMembers.mpr ⟨memberOf, normalized⟩, rfl,
      normalized⟩
  have rootNoLink : [] ∉ symlinkKeys (keyedMembers members) := by
    intro isKey
    obtain ⟨entry, member, isRoot, isSymlink⟩ :=
      Contained.mem_symlinkKeys_iff.mp isKey
    exact (rules.rootIsNoLink entry member isRoot).1 isSymlink
  obtain ⟨contained, direct⟩ :=
    extractAll_contained rules keyed (.empty rootNoLink) extracted
  have relative : ∀ path target, tree path = some (.symlink target) →
      isAbsolute target = false := by
    intro path target link
    obtain ⟨entry, member, _, _, hasTarget⟩ := contained.links path target link
    have memberOf := (mem_keyedMembers.mp member).1
    exact (SafeNames.of_rules (safe entry.member memberOf)).relativeTarget target hasTarget
  refine ⟨fun path target link => not_escapes_of_contained rules contained relative link,
    fun write written => ?_, fun write written => (direct write written).source⟩
  have writeDirect := direct write written
  exact ⟨writeDirect.noThrough, writeDirect.inside, writeDirect.ownPath⟩

/-- A link up out of a directory, a link through that link, and a hardlink to
the file it leads to. -/
theorem extraction_contained_nested :
    ∃ members tree writes, ExtractAll emptyTree members tree writes ∧
      tree [['b']] = some (.symlink (text "a/u/c")) ∧
      (∀ path target, tree path = some (.symlink target) → ¬ Escapes tree path) ∧
      (∀ write ∈ writes, write.place.through = [] ∧ write.place.path ≠ none ∧
        write.place.path = normalizeArchiveMemberPath write.member.path) ∧
      ∀ write ∈ writes, ∀ source, write.source = some source →
        source.through = [] ∧ source.path ≠ none := by
  let directory : ArchiveMember := ⟨.tar, .directory, none, text "drwxr-xr-x", text "a/"⟩
  let linkUp : ArchiveMember :=
    ⟨.tar, .symlink, some (text ".."), text "lrwxrwxrwx", text "a/u"⟩
  let linkThrough : ArchiveMember :=
    ⟨.tar, .symlink, some (text "a/u/c"), text "lrwxrwxrwx", text "b"⟩
  let file : ArchiveMember := ⟨.tar, .file, none, text "-rw-r--r--", text "c"⟩
  let hardlink : ArchiveMember :=
    ⟨.tar, .hardlink, some (text "c"), text "hrw-r--r--", text "h"⟩
  let withDirectory := emptyTree.set [['a']] .directory
  let withLinkUp := withDirectory.set [['a'], ['u']] (.symlink (text ".."))
  let withLinks := withLinkUp.set [['b']] (.symlink (text "a/u/c"))
  let withFile := withLinks.set [['c']] (.file 0)
  have replaceable : ∀ {tree : Tree} {place : Path}, tree place = none →
      Replaceable tree place := by
    intro tree place missing isDirectory
    rw [missing] at isDirectory
    cases isDirectory
  have directoryMade : Extract emptyTree directory withDirectory
      (some ⟨directory, ⟨[], some [['a']]⟩, none⟩) := by
    apply Extract.directory rfl
    have moves : memberMoves directory.path = [.down ['a']] := by decide +kernel
    rw [moves]
    exact .make rfl (by decide +kernel) .done
  have linkUpMade : Extract withDirectory linkUp withLinkUp
      (some ⟨linkUp, ⟨[], some [['a'], ['u']]⟩, none⟩) := by
    have moves : memberMoves linkUp.path = [.down ['a']] ++ [.down ['u']] := by
      decide +kernel
    exact .symlink rfl rfl moves (.enter (by decide +kernel) .done)
      (replaceable (by decide +kernel))
  have linkThroughMade : Extract withLinkUp linkThrough withLinks
      (some ⟨linkThrough, ⟨[], some [['b']]⟩, none⟩) := by
    have moves : memberMoves linkThrough.path = [] ++ [.down ['b']] := by decide +kernel
    exact .symlink rfl rfl moves .done (replaceable (by decide +kernel))
  have fileMade : Extract withLinks file withFile
      (some ⟨file, ⟨[], some [['c']]⟩, none⟩) := by
    have moves : memberMoves file.path = [] ++ [.down ['c']] := by decide +kernel
    exact .file rfl moves .done (replaceable (by decide +kernel))
  have hardlinkMade : Extract withFile hardlink (withFile.set [['h']] (.file 0))
      (some ⟨hardlink, ⟨[], some [['h']]⟩, some ⟨[], some [['c']]⟩⟩) := by
    have sourceMoves : memberMoves (text "c") = [] ++ [.down ['c']] := by decide +kernel
    have moves : memberMoves hardlink.path = [] ++ [.down ['h']] := by decide +kernel
    exact .hardlink rfl rfl sourceMoves .done (by decide +kernel) (by decide) moves .done
      (replaceable (by decide +kernel))
  have extracted := ExtractAll.cons directoryMade (.cons linkUpMade
    (.cons linkThroughMade (.cons fileMade (.cons hardlinkMade .nil))))
  refine ⟨_, _, _, extracted, by decide +kernel, ?_⟩
  exact @extraction_contained id _ [] _ _ (by decide +kernel) (by decide +kernel) extracted

end Paratix.Archive
