/-
Module: Paratix.Archive.LinkValidation
Purpose: The rules that judge the links of an archive over its whole member
  list, and what an accepted list satisfies.
Main exports: SymlinkVariantIndex, LinkRules.of_accepted
-/
import Mathlib.Data.Option.Basic
import Paratix.Archive.Member
import Paratix.Archive.SymlinkResolverSound

namespace Paratix.Archive

open Foundation

/-! ### The symlinks of an archive by variant key -/

/-- The archive's symlinks by variant key; each key keeps the first literal
path. -/
structure SymlinkVariantIndex where
  variantKey : Path → Text
  symlinks : List (Text × Path)

namespace SymlinkVariantIndex

def add (index : SymlinkVariantIndex) (key : Path) : SymlinkVariantIndex :=
  let variantKey := index.variantKey key
  if (index.symlinks.lookup variantKey).isSome then index
  else { index with symlinks := index.symlinks ++ [(variantKey, key)] }

def ofKeys (variantKey : Path → Text) (symlinkKeys : List Path) : SymlinkVariantIndex :=
  symlinkKeys.foldl add { variantKey, symlinks := [] }

/-- The indexed symlink a path names. -/
def symlinkAt (index : SymlinkVariantIndex) (key : Path) : Option Path :=
  index.symlinks.lookup (index.variantKey key)

/-- The outermost proper ancestor of a path that names an indexed symlink. -/
def symlinkAncestor (index : SymlinkVariantIndex) (key : Path) : Option Path :=
  (properAncestors key).findSome? index.symlinkAt

theorem add_keeps (index : SymlinkVariantIndex) (key : Path) :
    (index.add key).variantKey = index.variantKey ∧
      ((index.add key).symlinkAt key).isSome ∧
      ∀ other, (index.symlinkAt other).isSome → ((index.add key).symlinkAt other).isSome := by
  simp only [add, symlinkAt]
  split
  · next known => exact ⟨rfl, known, fun _ found => found⟩
  · refine ⟨rfl, ?_, fun other found => ?_⟩
    · simp [List.lookup_append]
    · simp [List.lookup_append, Option.isSome_or, found]

/-- Every key the index was built from is found. -/
theorem symlinkAt_isSome {variantKey : Path → Text} {symlinkKeys : List Path} {key : Path}
    (member : key ∈ symlinkKeys) : ((ofKeys variantKey symlinkKeys).symlinkAt key).isSome := by
  have everyKey : ∀ index : SymlinkVariantIndex,
      (∀ other ∈ symlinkKeys, ((symlinkKeys.foldl add index).symlinkAt other).isSome) ∧
        ∀ other, (index.symlinkAt other).isSome →
          ((symlinkKeys.foldl add index).symlinkAt other).isSome := by
    clear member
    induction symlinkKeys with
    | nil => simp
    | cons first symlinkKeys ih =>
      intro index
      obtain ⟨_, addedFirst, kept⟩ := index.add_keeps first
      obtain ⟨rest, keptByRest⟩ := ih (index.add first)
      rw [List.foldl_cons]
      refine ⟨?_, fun other found => keptByRest other (kept other found)⟩
      intro other otherMember
      rcases List.mem_cons.1 otherMember with rfl | inRest
      · exact keptByRest other addedFirst
      · exact rest other inRest
  exact (everyKey { variantKey, symlinks := [] }).1 key member

/-- A path without symlink ancestors in the index has no key as an ancestor. -/
theorem not_mem_of_symlinkAncestor_eq_none {variantKey : Path → Text}
    {symlinkKeys : List Path} {key ancestor : Path}
    (none : (ofKeys variantKey symlinkKeys).symlinkAncestor key = none)
    (isAncestor : ancestor ∈ properAncestors key) : ancestor ∉ symlinkKeys := by
  intro member
  have absent := List.findSome?_eq_none_iff.1 none ancestor isAncestor
  have found : ((ofKeys variantKey symlinkKeys).symlinkAt ancestor).isSome :=
    symlinkAt_isSome member
  rw [absent] at found
  cases found

theorem not_mem_of_symlinkAt_eq_none {variantKey : Path → Text}
    {symlinkKeys : List Path} {key : Path}
    (none : (ofKeys variantKey symlinkKeys).symlinkAt key = none) :
    key ∉ symlinkKeys := by
  intro member
  have found : ((ofKeys variantKey symlinkKeys).symlinkAt key).isSome := symlinkAt_isSome member
  rw [none] at found
  cases found

end SymlinkVariantIndex

/-! ### The archive's own resolver -/

def archiveTargets (entries : List KeyedMember) : List (Path × SymlinkWalkTarget) :=
  entries.foldl
    (fun targets entry =>
      if entry.member.kind = .symlink then
        mapSet targets entry.key (.inside .parent (entry.member.linkTarget.getD []))
      else targets) []

/-- A resolver over the archive's symlinks, whose known paths are exactly the
archive members. -/
def archiveResolver (variantKeyRound : Text → Text) (entries : List KeyedMember) :
    ArchiveSymlinkResolver where
  variantKeyRound := variantKeyRound
  targets := archiveTargets entries
  memberKeys := entries.map KeyedMember.key

/-! ### The rules -/

def isLink (member : ArchiveMember) : Bool :=
  member.kind = .symlink || member.kind = .hardlink

def hardlinkTargetKey (member : ArchiveMember) : Option Path :=
  if member.kind ≠ .hardlink then none
  else member.linkTarget.bind normalizeArchiveMemberPath

def namedMember (member : ArchiveMember) : Text :=
  text "member " ++ jsonStringify member.path

def rootLinkReason (entries : List KeyedMember) : Option Text :=
  (entries.find? fun entry => entry.key = [] && isLink entry.member).map
    fun rootLink => namedMember rootLink.member ++ text " is a link at the destination root"

/-- The first member of a group with a symlink whose members differ in kind or
target. -/
def conflictingDuplicate : List KeyedMember → Option KeyedMember
  | [] => none
  | first :: others =>
      let group := first :: others
      if group.length < 2 then none
      else if !group.any fun entry => entry.member.kind = .symlink then none
      else if group.any fun entry =>
          entry.member.kind ≠ first.member.kind ||
            entry.member.linkTarget ≠ first.member.linkTarget then some first
      else none

/-- The members by variant key, in order of first occurrence. -/
def variantGroups (variantKey : Path → Text) (entries : List KeyedMember) :
    List (List KeyedMember) :=
  (entries.map fun entry => variantKey entry.key).eraseDups.map fun key =>
    entries.filter fun entry => variantKey entry.key = key

def duplicateReason (variantKey : Path → Text) (entries : List KeyedMember) : Option Text :=
  (variantGroups variantKey entries).findSome? fun group =>
    (conflictingDuplicate group).map fun duplicate =>
      let spelling :=
        match group.find? fun entry => entry.key ≠ duplicate.key with
        | none => []
        | some other =>
            text " (also spelled " ++ jsonStringify other.member.path ++ text ")"
      namedMember duplicate.member ++
        text " occurs more than once with conflicting link types or targets" ++ spelling

def ancestorReason (symlinks : SymlinkVariantIndex) (entries : List KeyedMember) :
    Option Text :=
  entries.findSome? fun entry =>
    match symlinks.symlinkAncestor entry.key with
    | some ancestor =>
        some (namedMember entry.member ++ text " is below archive symlink " ++
          jsonStringify (joinPath ancestor))
    | none =>
        ((hardlinkTargetKey entry.member).bind symlinks.symlinkAncestor).map
          fun targetAncestor =>
            namedMember entry.member ++ text " hardlinks to archive symlink " ++
              jsonStringify (joinPath targetAncestor)

def hardlinkToSymlinkReason (symlinks : SymlinkVariantIndex) (entries : List KeyedMember) :
    Option Text :=
  entries.findSome? fun entry =>
    ((hardlinkTargetKey entry.member).bind symlinks.symlinkAt).map fun symlink =>
      namedMember entry.member ++ text " hardlinks to archive symlink " ++
        jsonStringify (joinPath symlink)

/-- Describe a `variant` resolution for a refusal message. -/
def variantDescription (link visited : Path) : Text :=
  text "passes through " ++ jsonStringify (joinPath visited) ++
    text ", a name that differs from existing symlink " ++ jsonStringify (joinPath link) ++
    text " only by letter case or Unicode normalization; a case-insensitive or normalizing filesystem may follow that symlink instead"

/-- What is said about a link that is not resolved inside the destination. -/
def failureDescription : SymlinkFailure → Text
  | .variant link visited => variantDescription link visited
  | .escape => text "would escape destination"
  | _ => text "exceeds the symlink resolution limit"

/-- `JSON.stringify` of a link target, `null` where there is none. -/
def jsonTarget : Option Text → Text
  | none => text "null"
  | some linkTarget => jsonStringify linkTarget

def resolutionReason (resolver : ArchiveSymlinkResolver) :
    List KeyedMember → ResolverState → Option Text
  | [], _ => none
  | entry :: entries, state =>
      if entry.member.kind ≠ .symlink then resolutionReason resolver entries state
      else
        match resolver.resolve entry.key state with
        | (.resolved _ _ _, state) => resolutionReason resolver entries state
        | (.failure reason, _) =>
            some (namedMember entry.member ++ text " -> " ++
              jsonTarget entry.member.linkTarget ++ text " " ++ failureDescription reason)

/-- The keys of the symlink entries. -/
def symlinkKeys (entries : List KeyedMember) : List Path :=
  (entries.filter fun entry => entry.member.kind = .symlink).map KeyedMember.key

/-- Why the links of an archive are unsafe as a whole, or nothing when they may
be extracted. The resolver is shared with other callers: `state` is what their
calls have left behind. -/
def archiveLinkUnsafeReason (variantKeyRound : Text → Text) (members : List ArchiveMember)
    (state : ResolverState) : Option Text :=
  let entries := keyedMembers members
  let resolver := archiveResolver variantKeyRound entries
  let symlinks := SymlinkVariantIndex.ofKeys resolver.variantKey (symlinkKeys entries)
  rootLinkReason entries <|> duplicateReason symlinks.variantKey entries <|>
    ancestorReason symlinks entries <|> hardlinkToSymlinkReason symlinks entries <|>
    resolutionReason resolver entries state

/-! ### The targets of the archive's resolver -/

/-- Every symlink entry has a target, and every target is that of a symlink
entry. -/
theorem archiveTargets_entries (entries : List KeyedMember) :
    (∀ entry ∈ entries, entry.member.kind = .symlink →
      ((archiveTargets entries).lookup entry.key).isSome) ∧
      ∀ key target, (archiveTargets entries).lookup key = some target →
        ∃ entry ∈ entries, entry.key = key ∧ entry.member.kind = .symlink ∧
          target = .inside .parent (entry.member.linkTarget.getD []) := by
  have everyEntry : ∀ known : List (Path × SymlinkWalkTarget),
      let targets := entries.foldl
        (fun targets entry =>
          if entry.member.kind = .symlink then
            mapSet targets entry.key (.inside .parent (entry.member.linkTarget.getD []))
          else targets) known
      (∀ key, (known.lookup key).isSome → (targets.lookup key).isSome) ∧
        (∀ entry ∈ entries, entry.member.kind = .symlink →
          (targets.lookup entry.key).isSome) ∧
        ∀ key target, targets.lookup key = some target →
          known.lookup key = some target ∨
            ∃ entry ∈ entries, entry.key = key ∧ entry.member.kind = .symlink ∧
              target = .inside .parent (entry.member.linkTarget.getD []) := by
    induction entries with
    | nil => exact fun known => ⟨fun _ found => found, by simp, fun _ _ => Or.inl⟩
    | cons first entries ih =>
      intro known
      rw [List.foldl_cons]
      by_cases isSymlink : first.member.kind = .symlink
      · rw [if_pos isSymlink]
        obtain ⟨kept, added, origin⟩ := ih
          (mapSet known first.key (.inside .parent (first.member.linkTarget.getD [])))
        refine ⟨?_, ?_, ?_⟩
        · intro key found
          exact kept key (lookup_mapSet_isSome found _ _)
        · intro entry member entrySymlink
          rcases List.mem_cons.1 member with rfl | inRest
          · apply kept
            rw [lookup_mapSet_self]
            rfl
          · exact added entry inRest entrySymlink
        · intro key target found
          rcases origin key target found with before | ⟨entry, member, facts⟩
          · rw [lookup_mapSet] at before
            split at before
            · next isKey =>
                exact Or.inr ⟨first, List.mem_cons_self,
                  (beq_iff_eq.1 isKey).symm, isSymlink,
                  (Option.some.inj before).symm⟩
            · exact Or.inl before
          · exact Or.inr ⟨entry, List.mem_cons_of_mem _ member, facts⟩
      · rw [if_neg isSymlink]
        obtain ⟨kept, added, origin⟩ := ih known
        refine ⟨kept, ?_, ?_⟩
        · intro entry member entrySymlink
          rcases List.mem_cons.1 member with rfl | inRest
          · exact absurd entrySymlink isSymlink
          · exact added entry inRest entrySymlink
        · intro key target found
          rcases origin key target found with before | ⟨entry, member, facts⟩
          · exact Or.inl before
          · exact Or.inr ⟨entry, List.mem_cons_of_mem _ member, facts⟩
  obtain ⟨_, added, origin⟩ := everyEntry []
  refine ⟨added, fun key target found => ?_⟩
  rcases origin key target found with before | fromEntry
  · cases before
  · exact fromEntry

/-! ### What an accepted archive satisfies -/

/-- The relations between the entries of an archive that its link rules
establish, in terms of literal paths. -/
structure LinkRules (variantKeyRound : Text → Text) (entries : List KeyedMember) :
    Prop where
  rootIsNoLink : ∀ entry ∈ entries, entry.key = [] →
    entry.member.kind ≠ .symlink ∧ entry.member.kind ≠ .hardlink
  sameLink : ∀ symlink ∈ entries, symlink.member.kind = .symlink →
    ∀ entry ∈ entries, entry.key = symlink.key →
      entry.member.kind = .symlink ∧ entry.member.linkTarget = symlink.member.linkTarget
  notBelowLink : ∀ symlink ∈ entries, symlink.member.kind = .symlink →
    ∀ entry ∈ entries, symlink.key ∉ properAncestors entry.key
  sourceNotBelowLink : ∀ symlink ∈ entries, symlink.member.kind = .symlink →
    ∀ entry ∈ entries, ∀ source, hardlinkTargetKey entry.member = some source →
      symlink.key ∉ properAncestors source
  sourceIsNoLink : ∀ symlink ∈ entries, symlink.member.kind = .symlink →
    ∀ entry ∈ entries, hardlinkTargetKey entry.member ≠ some symlink.key
  resolves : ∀ symlink ∈ entries, symlink.member.kind = .symlink →
    ∃ hops segments,
      LinkWalk (archiveResolver variantKeyRound entries).links symlink.key hops segments ∧
        hops ≤ SYMLINK_RESOLUTION_LIMIT

section Rules

variable {variantKey : Path → Text} {entries : List KeyedMember}

theorem rootLinkReason_eq_none (accepted : rootLinkReason entries = none) :
    ∀ entry ∈ entries, entry.key = [] →
      entry.member.kind ≠ .symlink ∧ entry.member.kind ≠ .hardlink := by
  intro entry member isRoot
  have notFound := List.find?_eq_none.1 (Option.map_eq_none_iff.1 accepted) entry member
  simpa [isRoot, isLink] using notFound

theorem conflictingDuplicate_eq_none {group : List KeyedMember}
    (accepted : conflictingDuplicate group = none) {symlink entry : KeyedMember}
    (symlinkMember : symlink ∈ group) (isSymlink : symlink.member.kind = .symlink)
    (entryMember : entry ∈ group) :
    entry.member.kind = .symlink ∧ entry.member.linkTarget = symlink.member.linkTarget := by
  cases group with
  | nil => cases symlinkMember
  | cons first others =>
    simp only [conflictingDuplicate] at accepted
    split at accepted
    · next single =>
        have othersNil : others = [] := by
          cases others with
          | nil => rfl
          | cons second rest =>
            simp only [List.length_cons] at single
            omega
        subst othersNil
        obtain rfl := List.mem_singleton.1 symlinkMember
        obtain rfl := List.mem_singleton.1 entryMember
        exact ⟨isSymlink, rfl⟩
    · split at accepted
      · next noSymlink =>
          simp only [Bool.not_eq_true', List.any_eq_false, decide_eq_true_eq] at noSymlink
          exact absurd isSymlink (noSymlink symlink symlinkMember)
      · split at accepted
        · cases accepted
        · next noConflict =>
            simp only [List.any_eq_true, Bool.or_eq_true, decide_eq_true_eq, not_exists,
              not_and, not_or, not_not] at noConflict
            obtain ⟨symlinkKind, symlinkTarget⟩ := noConflict symlink symlinkMember
            obtain ⟨entryKind, entryTarget⟩ := noConflict entry entryMember
            exact ⟨by rw [entryKind, ← symlinkKind, isSymlink],
              by rw [entryTarget, symlinkTarget]⟩

theorem duplicateReason_eq_none (accepted : duplicateReason variantKey entries = none) :
    ∀ symlink ∈ entries, symlink.member.kind = .symlink →
      ∀ entry ∈ entries, entry.key = symlink.key → entry.member.kind = .symlink ∧
          entry.member.linkTarget = symlink.member.linkTarget := by
  intro symlink symlinkMember isSymlink entry entryMember sameKey
  have groupMember : (entries.filter fun other =>
      variantKey other.key = variantKey symlink.key) ∈ variantGroups variantKey entries := by
    apply List.mem_map.2
    refine ⟨variantKey symlink.key, ?_, rfl⟩
    rw [List.mem_eraseDups]
    exact List.mem_map.2 ⟨symlink, symlinkMember, rfl⟩
  have noConflict := List.findSome?_eq_none_iff.1 accepted _ groupMember
  apply conflictingDuplicate_eq_none (Option.map_eq_none_iff.1 noConflict) _ isSymlink
  · simp [entryMember, sameKey]
  · simp [symlinkMember]

theorem mem_symlinkKeys {symlink : KeyedMember} (member : symlink ∈ entries)
    (isSymlink : symlink.member.kind = .symlink) : symlink.key ∈ symlinkKeys entries := by
  apply List.mem_map_of_mem
  simp [member, isSymlink]

theorem ancestorReason_eq_none
    (accepted : ancestorReason (.ofKeys variantKey (symlinkKeys entries)) entries = none)
    {symlink entry : KeyedMember} (symlinkMember : symlink ∈ entries)
    (isSymlink : symlink.member.kind = .symlink) (entryMember : entry ∈ entries) :
    symlink.key ∉ properAncestors entry.key ∧
      ∀ source, hardlinkTargetKey entry.member = some source →
        symlink.key ∉ properAncestors source := by
  have isKey := mem_symlinkKeys symlinkMember isSymlink
  have accepted := List.findSome?_eq_none_iff.1 accepted entry entryMember
  split at accepted
  · cases accepted
  · next noAncestor =>
      constructor
      · intro below
        exact SymlinkVariantIndex.not_mem_of_symlinkAncestor_eq_none noAncestor below isKey
      · intro source isSource below
        rw [Option.map_eq_none_iff, isSource, Option.bind_some] at accepted
        exact SymlinkVariantIndex.not_mem_of_symlinkAncestor_eq_none accepted below isKey

theorem hardlinkToSymlinkReason_eq_none
    (accepted : hardlinkToSymlinkReason (.ofKeys variantKey (symlinkKeys entries)) entries = none)
    {symlink entry : KeyedMember} (symlinkMember : symlink ∈ entries)
    (isSymlink : symlink.member.kind = .symlink) (entryMember : entry ∈ entries) :
    hardlinkTargetKey entry.member ≠ some symlink.key := by
  intro isSource
  have accepted := List.findSome?_eq_none_iff.1 accepted entry entryMember
  rw [Option.map_eq_none_iff, isSource, Option.bind_some] at accepted
  exact SymlinkVariantIndex.not_mem_of_symlinkAt_eq_none accepted
    (mem_symlinkKeys symlinkMember isSymlink)

theorem resolutionReason_eq_none {resolver : ArchiveSymlinkResolver}
    {state : ResolverState} (sound : MemoSound resolver state.memo)
    (accepted : resolutionReason resolver entries state = none) :
    ∀ symlink ∈ entries, symlink.member.kind = .symlink →
      ∃ hops segments, LinkWalk resolver.links symlink.key hops segments ∧
        hops ≤ SYMLINK_RESOLUTION_LIMIT := by
  induction entries generalizing state with
  | nil => intro symlink member; cases member
  | cons entry entries ih =>
    intro symlink member isSymlink
    simp only [resolutionReason] at accepted
    split at accepted
    · next notSymlink =>
        rcases List.mem_cons.1 member with rfl | inRest
        · exact absurd isSymlink notSymlink
        · exact ih sound accepted symlink inRest isSymlink
    · have soundHere := resolve_sound resolver sound entry.key
      have soundAfter := (memoSound_kept resolver).resolve sound entry.key
      generalize resolver.resolve entry.key state = outcome at *
      obtain ⟨resolution, after⟩ := outcome
      cases resolution with
      | failure reason => cases accepted
      | resolved hops prefixes segments =>
        rcases List.mem_cons.1 member with rfl | inRest
        · exact ⟨hops, segments, soundHere⟩
        · exact ih soundAfter accepted symlink inRest isSymlink

theorem SymlinkVariantIndex.variantKey_ofKeys (variantKey : Path → Text)
    (keys : List Path) : (ofKeys variantKey keys).variantKey = variantKey := by
  have everyKey : ∀ index : SymlinkVariantIndex,
      (keys.foldl add index).variantKey = index.variantKey := by
    induction keys with
    | nil => exact fun _ => rfl
    | cons key keys ih =>
      intro index
      rw [List.foldl_cons, ih, (index.add_keeps key).1]
  exact everyKey _

/-- The link rules of an accepted archive hold, whatever the resolver was asked
before. -/
theorem LinkRules.of_accepted {variantKeyRound : Text → Text}
    {members : List ArchiveMember} (calls : List ResolverCall)
    (accepted : archiveLinkUnsafeReason variantKeyRound members
      (runCalls (archiveResolver variantKeyRound (keyedMembers members)) calls) = none) :
    LinkRules variantKeyRound (keyedMembers members) := by
  simp only [archiveLinkUnsafeReason, SymlinkVariantIndex.variantKey_ofKeys] at accepted
  simp only [Option.orElse_eq_none] at accepted
  obtain ⟨root, duplicates, ancestors, sources, resolutions⟩ := accepted
  have sound := (memoSound_kept
    (archiveResolver variantKeyRound (keyedMembers members))).runCalls .nil calls
  exact {
    rootIsNoLink := rootLinkReason_eq_none root
    sameLink := duplicateReason_eq_none duplicates
    notBelowLink := fun symlink symlinkMember isSymlink entry entryMember =>
      (ancestorReason_eq_none ancestors symlinkMember isSymlink entryMember).1
    sourceNotBelowLink := fun symlink symlinkMember isSymlink entry entryMember =>
      (ancestorReason_eq_none ancestors symlinkMember isSymlink entryMember).2
    sourceIsNoLink := fun symlink symlinkMember isSymlink entry entryMember =>
      hardlinkToSymlinkReason_eq_none sources symlinkMember isSymlink entryMember
    resolves := resolutionReason_eq_none sound resolutions }

end Rules

end Paratix.Archive
