/-
Module: Paratix.Archive.SymlinkResolverComplete
Purpose: Every failure the resolver answers or remembers is a failure of the
  path walk, so that its answers do not depend on earlier calls.
Main exports: Involved, resolve_iff_linkWalk
-/
import Mathlib.Data.Set.Function
import Paratix.Archive.SymlinkResolverSound

namespace Paratix.Archive

open Foundation

namespace ArchiveSymlinkResolver

/-- A name that occurs in the path or the target of some link. -/
def Occurs (resolver : ArchiveSymlinkResolver) (segment : Text) : Prop :=
  ∃ key target, resolver.targets.lookup key = some target ∧
    (segment ∈ key ∨
      ∃ anchor path, target = .inside anchor path ∧ .down segment ∈ pathMoves path)

/-- A path made of such names: the only paths a resolution visits. -/
def Involved (resolver : ArchiveSymlinkResolver) (path : Path) : Prop :=
  ∀ segment ∈ path, resolver.Occurs segment

/-- A resolver whose model of the links is complete: every link could be
listed, and no two paths involved count as the same name. -/
structure Plain (resolver : ArchiveSymlinkResolver) : Prop where
  mappable : resolver.scope.unmappable = []
  readable : resolver.scope.unreadable = []
  distinct : Set.InjOn resolver.variantKey {path | resolver.Involved path}

variable {resolver : ArchiveSymlinkResolver}

theorem involved_key {key : Path} {target : SymlinkWalkTarget}
    (found : resolver.targets.lookup key = some target) : resolver.Involved key :=
  fun _ member => ⟨key, target, found, Or.inl member⟩

theorem occurs_of_mem_target {key : Path} {anchor : Anchor} {path segment : Text}
    (found : resolver.targets.lookup key = some (.inside anchor path))
    (member : .down segment ∈ pathMoves path) : resolver.Occurs segment :=
  ⟨key, _, found, Or.inr ⟨anchor, path, rfl, member⟩⟩

/-- A walk that starts in an involved directory ends in one. -/
theorem involved_of_linkWalk {key final : Path} {hops : Nat}
    (walk : LinkWalk resolver.links key hops final) : resolver.Involved final := by
  have known : ∀ other anchor target,
      resolver.links other = some (.inside anchor target) →
        ∀ name, Move.down name ∈ target → resolver.Occurs name := by
    intro other anchor target link name member
    obtain ⟨path, found, rfl⟩ := links_inside.1 link
    exact occurs_of_mem_target found member
  obtain ⟨anchor, target, rest, link, onwards, _⟩ := walk
  obtain ⟨path, found, targetEq⟩ := links_inside.1 link
  apply onwards.names known
  · cases anchor with
    | parent =>
      exact fun name member => involved_key found name ((List.dropLast_sublist key).subset member)
    | root => intro name member; cases member
  · exact known key anchor target link

/-! ### Refusals that a complete model excludes -/

theorem unreadableAt_eq_none (plain : resolver.Plain) (visited : Path)
    (variantKey : Text) : resolver.unreadableAt visited variantKey = none := by
  have noDirectory : resolver.unreadableDirectory = fun _ => none := by
    funext key
    rw [unreadableDirectory, plain.readable]
    rfl
  simp [unreadableAt, noDirectory]

theorem variantOf_eq_none (plain : resolver.Plain) {visited : Path}
    (involved : resolver.Involved visited) :
    resolver.variantOf visited (resolver.variantKey visited) = none := by
  simp only [variantOf, Option.map_eq_none_iff, List.find?_eq_none, List.mem_filter,
    decide_eq_true_eq, ne_eq, not_not, and_imp]
  intro candidate member sameKey
  obtain ⟨target, found⟩ := exists_lookup_of_mem_keys member
  exact plain.distinct (involved_key found) involved sameKey

theorem ancestorVariant_eq_none (plain : resolver.Plain) {ancestors : List Path}
    (involved : ∀ ancestor ∈ ancestors, resolver.Involved ancestor) (state : ResolverState) :
    resolver.ancestorVariant state ancestors = (none, state) := by
  induction ancestors with
  | nil => rfl
  | cons ancestor ancestors ih =>
    simp only [ancestorVariant]
    rw [variantOf_eq_none plain (involved ancestor List.mem_cons_self)]
    exact ih fun other member => involved other (List.mem_cons_of_mem _ member)

/-- Where names are compared as they are spelled, the model is complete. -/
theorem Plain.of_spelling (exact : resolver.variantKeyRound = id)
    (mappable : resolver.scope.unmappable = []) (readable : resolver.scope.unreadable = [])
    (names : ∀ key ∈ resolver.targets.map Prod.fst,
      ∀ segment ∈ key, segment ≠ [] ∧ '/' ∉ segment) : resolver.Plain where
  mappable := mappable
  readable := readable
  distinct := by
    have spelled : ∀ path, resolver.variantKey path = joinPath path := by
      intro path
      simp [variantKey, exact, pathNameVariantKey, VARIANT_KEY_ROUND_LIMIT,
        pathNameVariantKey.settle]
    have involvedNames : ∀ path, resolver.Involved path →
        ∀ segment ∈ path, segment ≠ [] ∧ '/' ∉ segment := by
      intro path involved segment member
      obtain ⟨key, target, found, inKey | ⟨anchor, stored, _, inTarget⟩⟩ := involved segment member
      · exact names key (mem_keys_of_lookup found) segment inKey
      · obtain ⟨listed, listedMember, move⟩ := List.mem_map.1 inTarget
        obtain rfl := pathMove_eq_down move
        refine ⟨?_, slash_not_mem_of_mem_splitPath listedMember⟩
        rintro rfl
        cases move
    intro first firstInvolved second secondInvolved same
    rw [spelled, spelled] at same
    exact joinPath_inj (involvedNames first firstInvolved)
      (involvedNames second secondInvolved) same

end ArchiveSymlinkResolver

/-! ### Completeness -/

section Complete

variable {resolver : ArchiveSymlinkResolver}

/-- The hops a failure rules out: a resolution cut off by the stack of links in
progress only rules out what was left of the limit. -/
def failureBound (room : Nat) (reason : SymlinkFailure) : Nat :=
  if reason = .depth then room else SYMLINK_RESOLUTION_LIMIT

/-- A failed link has no walk within the bound of its failure. -/
def CompleteResolution (links : Links Text) (room : Nat) (key : Path) :
    SymlinkResolution → Prop
  | .resolved _ _ _ => True
  | .failure reason =>
      ∀ hops final, LinkWalk links key hops final → failureBound room reason < hops

/-- Every remembered failure is a failure of the walk within the limit. -/
def MemoComplete (resolver : ArchiveSymlinkResolver)
    (memo : List (Path × TrackedSymlinkResolution)) : Prop :=
  ∀ key tracked, memo.lookup key = some tracked →
    CompleteResolution resolver.links SYMLINK_RESOLUTION_LIMIT key tracked.resolution

theorem failureBound_le {room : Nat} (fits : room ≤ SYMLINK_RESOLUTION_LIMIT)
    (reason : SymlinkFailure) :
    failureBound room reason ≤ failureBound SYMLINK_RESOLUTION_LIMIT reason := by
  simp only [failureBound]
  split
  · exact fits
  · exact Nat.le_refl _

theorem CompleteResolution.of_limit {links : Links Text} {room : Nat} {key : Path}
    {resolution : SymlinkResolution} (fits : room ≤ SYMLINK_RESOLUTION_LIMIT)
    (complete : CompleteResolution links SYMLINK_RESOLUTION_LIMIT key resolution) :
    CompleteResolution links room key resolution := by
  cases resolution with
  | resolved hops prefixes segments => trivial
  | failure reason =>
    intro hops final walk
    exact Nat.lt_of_le_of_lt (failureBound_le fits reason) (complete hops final walk)

theorem MemoComplete.nil : MemoComplete resolver [] := by
  intro key tracked known
  cases known

theorem MemoComplete.cons {memo : List (Path × TrackedSymlinkResolution)} {key : Path}
    {tracked : TrackedSymlinkResolution} {room : Nat} (complete : MemoComplete resolver memo)
    (notDepth : tracked.resolution ≠ .failure .depth)
    (completeHere : CompleteResolution resolver.links room key tracked.resolution) :
    MemoComplete resolver ((key, tracked) :: memo) := by
  intro other known lookup
  rw [List.lookup_cons] at lookup
  split at lookup
  · next same =>
      obtain rfl := beq_iff_eq.1 same
      cases lookup
      cases resolution : tracked.resolution with
      | resolved hops prefixes segments => trivial
      | failure reason =>
        have reasonNotDepth : reason ≠ .depth := by
          rintro rfl
          exact notDepth resolution
        rw [resolution] at completeHere
        intro hops final walk
        have bound := completeHere hops final walk
        simp only [failureBound, reasonNotDepth, if_false] at bound ⊢
        exact bound
  · exact complete other known lookup

/-- The links a walk of `key` leads through are resolved completely, with
`room` of the limit left. -/
def CompleteRecursion (resolver : ArchiveSymlinkResolver) (key : Path) (room : Nat)
    (resolveTracked : Path → ResolverState → TrackedSymlinkResolution × ResolverState) :
    Prop :=
  ∀ visited state, LeadsThrough resolver.links key visited →
    MemoSound resolver state.memo → MemoComplete resolver state.memo →
      MemoComplete resolver (resolveTracked visited state).2.memo ∧
        CompleteResolution resolver.links room visited
          (resolveTracked visited state).1.resolution

variable {resolveTracked : Path → ResolverState → TrackedSymlinkResolution × ResolverState}

/-- The walk of `key` has come to this state with these segments left. -/
structure OnWalk (resolver : ArchiveSymlinkResolver) (key : Path) (walk : WalkState)
    (segments : List Text) : Prop where
  positive : 0 < walk.hops
  reached : Reached resolver.links key walk.hops walk.segments (segments.map pathMove)
  involved : resolver.Involved walk.segments

/-- What a step leaves of the walk of `key`. -/
def CompleteStep (resolver : ArchiveSymlinkResolver) (key : Path) (room : Nat)
    (segments : List Text) : Except SymlinkFailure WalkState → Prop
  | .ok next => OnWalk resolver key next segments
  | .error reason =>
      CompleteResolution resolver.links (room + 1) key (.failure reason)

/-- A step that fails does so because the walk of `key` does; a step that
succeeds stays on that walk. -/
theorem step_complete (plain : resolver.Plain) {key : Path} {room : Nat}
    (sound : SoundRecursion resolver resolveTracked)
    (complete : CompleteRecursion resolver key room resolveTracked)
    {walk : WalkState} {segment : Text} {segments : List Text}
    {state after : ResolverState} {outcome : Except SymlinkFailure WalkState}
    (onWalk : OnWalk resolver key walk (segment :: segments))
    (occurs : pathMove segment = .down segment → resolver.Occurs segment)
    (memoSound : MemoSound resolver state.memo) (memoComplete : MemoComplete resolver state.memo)
    (stepped : Stepped resolver resolveTracked walk segment state outcome after) :
    MemoComplete resolver after.memo ∧
      CompleteStep resolver key room segments outcome := by
  have reached := onWalk.reached
  rw [List.map_cons] at reached
  cases stepped with
  | stay move =>
    rw [move] at reached
    exact ⟨memoComplete, onWalk.positive, reached.stay, onWalk.involved⟩
  | up move segmentsEq =>
    rw [move, segmentsEq] at reached
    have involved := onWalk.involved
    rw [segmentsEq] at involved
    exact ⟨memoComplete, onWalk.positive, reached.up,
      fun name member => involved name (List.mem_append_left _ member)⟩
  | escape move segmentsNil =>
    rw [move, segmentsNil] at reached
    exact ⟨memoComplete, fun hops final toEnd => absurd toEnd (reached.up_root hops final)⟩
  | refused move reported memo =>
    have involved : resolver.Involved (walk.segments ++ [segment]) := by
      intro name member
      rcases List.mem_append.1 member with inWalk | last
      · exact onWalk.involved name inWalk
      · exact List.mem_singleton.1 last ▸ occurs move
    rw [ArchiveSymlinkResolver.unreadableAt_eq_none plain,
      ArchiveSymlinkResolver.variantOf_eq_none plain involved] at reported
    rcases reported with unreadable | variant
    · cases unreadable
    · cases variant
  | plain move isPlain memo =>
    rw [move] at reached
    refine ⟨memo ▸ memoComplete, onWalk.positive, reached.down isPlain, ?_⟩
    intro name member
    rcases List.mem_append.1 member with inWalk | last
    · exact onWalk.involved name inWalk
    · exact List.mem_singleton.1 last ▸ occurs move
  | @failed reason before _ move link memo followed memoAfter =>
    rw [move] at reached
    have through := reached.leadsThrough onWalk.positive link
    obtain ⟨completeAfter, completeHere⟩ :=
      complete _ before through (memo ▸ memoSound) (memo ▸ memoComplete)
    refine ⟨memoAfter ▸ completeAfter, ?_⟩
    rw [followed] at completeHere
    intro hops final toEnd
    obtain ⟨fewer, middle, less, below⟩ := through hops final toEnd
    have bound := completeHere fewer middle below
    simp only [failureBound] at bound ⊢
    split
    · next isDepth =>
        rw [if_pos isDepth] at bound
        omega
    · next notDepth =>
        rw [if_neg notDepth] at bound
        omega
  | @followed hops _ _ before _ outcome move link memo followed memoAfter outcomeEq =>
    rw [move] at reached
    have through := reached.leadsThrough onWalk.positive link
    have soundHere := (sound (walk.segments ++ [segment]) before (memo ▸ memoSound)).2
    obtain ⟨completeAfter, _⟩ := complete _ before through (memo ▸ memoSound) (memo ▸ memoComplete)
    refine ⟨memoAfter ▸ completeAfter, ?_⟩
    rw [followed] at soundHere
    have onwards := reached.follow soundHere.1
    rw [outcomeEq]
    by_cases tooMany : SYMLINK_RESOLUTION_LIMIT < walk.hops + hops
    · rw [if_pos tooMany]
      intro total final toEnd
      have limitBound : failureBound (room + 1) .limit = SYMLINK_RESOLUTION_LIMIT := rfl
      rw [limitBound]
      exact onwards.bound tooMany total final toEnd
    · rw [if_neg tooMany]
      exact ⟨Nat.lt_of_lt_of_le onWalk.positive (Nat.le_add_right _ _), onwards,
        ArchiveSymlinkResolver.involved_of_linkWalk soundHere.1⟩

theorem steps_complete (plain : resolver.Plain) {key : Path} {room : Nat}
    (sound : SoundRecursion resolver resolveTracked)
    (complete : CompleteRecursion resolver key room resolveTracked)
    {walk : WalkState} {segments : List Text} {state : ResolverState}
    (onWalk : OnWalk resolver key walk segments)
    (occurs : ∀ segment ∈ segments, pathMove segment = .down segment → resolver.Occurs segment)
    (memoSound : MemoSound resolver state.memo) (memoComplete : MemoComplete resolver state.memo) :
    let outcome := resolver.steps resolveTracked walk segments state
    MemoComplete resolver outcome.2.memo ∧
      CompleteStep resolver key room [] outcome.1 := by
  induction segments generalizing walk state with
  | nil => exact ⟨memoComplete, onWalk⟩
  | cons segment segments ih =>
    have stepped := step_stepped resolver resolveTracked walk segment state
    have soundAfter := (step_sound sound memoSound stepped).1
    obtain ⟨completeAfter, stepComplete⟩ := step_complete plain sound complete onWalk
      (occurs segment List.mem_cons_self) memoSound memoComplete stepped
    simp only [ArchiveSymlinkResolver.steps]
    generalize resolver.step resolveTracked walk segment state = outcome
      at soundAfter completeAfter stepComplete
    obtain ⟨outcome, after⟩ := outcome
    cases outcome with
    | error reason => exact ⟨completeAfter, stepComplete⟩
    | ok next =>
      exact ih stepComplete
        (fun other member => occurs other (List.mem_cons_of_mem _ member))
        soundAfter completeAfter

theorem walk_complete (plain : resolver.Plain) {key : Path} {room : Nat}
    (sound : SoundRecursion resolver resolveTracked)
    (complete : CompleteRecursion resolver key room resolveTracked)
    {state : ResolverState} (memoSound : MemoSound resolver state.memo)
    (memoComplete : MemoComplete resolver state.memo) :
    MemoComplete resolver (resolver.walk resolveTracked key state).2.memo ∧
      CompleteResolution resolver.links (room + 1) key
        (resolver.walk resolveTracked key state).1 := by
  simp only [ArchiveSymlinkResolver.walk]
  cases target : resolver.targets.lookup key with
  | none =>
    refine ⟨memoComplete, ?_⟩
    rintro hops final ⟨anchor, moves, rest, link, _⟩
    obtain ⟨path, found, _⟩ := ArchiveSymlinkResolver.links_inside.1 link
    rw [target] at found
    cases found
  | some stored =>
    cases stored with
    | outside =>
      refine ⟨memoComplete, ?_⟩
      rintro hops final ⟨anchor, moves, rest, link, _⟩
      obtain ⟨path, found, _⟩ := ArchiveSymlinkResolver.links_inside.1 link
      rw [target] at found
      cases found
    | inside anchor path =>
      have involvedKey := ArchiveSymlinkResolver.involved_key target
      have ancestors : ∀ ancestor ∈ properAncestors key, resolver.Involved ancestor := by
        intro ancestor member name inAncestor
        obtain ⟨below, _, _, keyEq⟩ := mem_properAncestors.1 member
        exact involvedKey name (keyEq ▸ List.mem_append_left below inAncestor)
      dsimp only
      rw [ArchiveSymlinkResolver.ancestorVariant_eq_none plain ancestors]
      dsimp only
      let first : WalkState := ⟨1, [], anchor.start (archiveMemberParentPath key)⟩
      have link : resolver.links key = some (.inside anchor (pathMoves path)) :=
        ArchiveSymlinkResolver.links_inside.2 ⟨path, target, rfl⟩
      have onWalk : OnWalk resolver key first (splitPath path) := by
        refine ⟨Nat.one_pos, Reached.start link, ?_⟩
        cases anchor with
        | parent =>
          exact fun name member =>
            involvedKey name ((List.dropLast_sublist key).subset member)
        | root => intro name member; cases member
      have walked := steps_complete plain sound complete onWalk
        (fun segment member move =>
          ArchiveSymlinkResolver.occurs_of_mem_target target
            (move ▸ List.mem_map_of_mem member))
        memoSound memoComplete
      obtain ⟨completeEnd, stepComplete⟩ := walked
      generalize resolver.steps resolveTracked first (splitPath path) state = outcome
        at completeEnd stepComplete
      obtain ⟨outcome, endState⟩ := outcome
      cases outcome with
      | error reason => exact ⟨completeEnd, stepComplete⟩
      | ok last => exact ⟨completeEnd, trivial⟩

/-- A remembered failure and a link in progress that is met again: the latter
leads nowhere, because it leads through itself. -/
theorem resolveTracked_complete_unwalked {room : Nat}
    (fits : room ≤ SYMLINK_RESOLUTION_LIMIT) {inProgress : List Path} {key : Path}
    {state : ResolverState} (leading : ∀ link ∈ inProgress, LeadsThrough resolver.links link key)
    (memoComplete : MemoComplete resolver state.memo)
    (unwalked : state.memo.lookup key ≠ none ∨ key ∈ inProgress) :
    MemoComplete resolver (resolver.resolveTracked room inProgress key state).2.memo ∧
      CompleteResolution resolver.links room key
        (resolver.resolveTracked room inProgress key state).1.resolution := by
  cases known : state.memo.lookup key with
  | some tracked =>
    rw [ArchiveSymlinkResolver.resolveTracked_known known]
    exact ⟨memoComplete, (memoComplete key tracked known).of_limit fits⟩
  | none =>
    have cycle : key ∈ inProgress := unwalked.resolve_left (not_not_intro known)
    rw [ArchiveSymlinkResolver.resolveTracked_cycle known cycle]
    refine ⟨memoComplete, fun hops final walk => ?_⟩
    exact absurd walk ((leading key cycle).no_walk_of_cycle hops final)

/-- Whatever is in progress leads through the link, so its failure is a
failure of the walk; a full stack leaves no room for a single hop. -/
theorem resolveTracked_complete (plain : resolver.Plain) {room : Nat}
    (fits : room ≤ SYMLINK_RESOLUTION_LIMIT) {inProgress : List Path} {key : Path}
    {state : ResolverState} (leading : ∀ link ∈ inProgress, LeadsThrough resolver.links link key)
    (memoSound : MemoSound resolver state.memo) (memoComplete : MemoComplete resolver state.memo) :
    MemoComplete resolver (resolver.resolveTracked room inProgress key state).2.memo ∧
      CompleteResolution resolver.links room key
        (resolver.resolveTracked room inProgress key state).1.resolution := by
  induction room generalizing inProgress key state with
  | zero =>
    by_cases unwalked : state.memo.lookup key ≠ none ∨ key ∈ inProgress
    · exact resolveTracked_complete_unwalked fits leading memoComplete unwalked
    · obtain ⟨unknown, noCycle⟩ := not_or.1 unwalked
      rw [ArchiveSymlinkResolver.resolveTracked_depth (not_not.1 unknown) noCycle]
      exact ⟨memoComplete, fun hops final walk => walk.hops_pos⟩
  | succ room ih =>
    by_cases unwalked : state.memo.lookup key ≠ none ∨ key ∈ inProgress
    · exact resolveTracked_complete_unwalked fits leading memoComplete unwalked
    · obtain ⟨unknown, noCycle⟩ := not_or.1 unwalked
      obtain ⟨entered, tracked, after, enteredMemo, callEq, resolutionEq, memoEq⟩ :=
        ArchiveSymlinkResolver.resolveTracked_walks (not_not.1 unknown) noCycle
      have recursion : CompleteRecursion resolver key room
          (resolver.resolveTracked room (key :: inProgress)) := by
        intro visited visitedState through visitedSound visitedComplete
        apply ih (Nat.le_of_succ_le fits) _ visitedSound visitedComplete
        intro link member
        rcases List.mem_cons.1 member with rfl | earlier
        · exact through
        · exact (leading link earlier).trans through
      have enteredSound : MemoSound resolver entered.memo := enteredMemo ▸ memoSound
      have enteredComplete : MemoComplete resolver entered.memo := enteredMemo ▸ memoComplete
      obtain ⟨completeWalked, completeHere⟩ := walk_complete plain
        (resolveTracked_sound room (key :: inProgress)) recursion enteredSound
        enteredComplete
      rw [plain.mappable, if_neg List.not_mem_nil] at resolutionEq
      rw [← resolutionEq] at completeHere
      rw [callEq]
      refine ⟨?_, completeHere⟩
      rw [memoEq]
      split
      · next notDepth => exact completeWalked.cons notDepth completeHere
      · exact completeWalked

end Complete

/-! ### Any sequence of calls -/

section Calls

variable {resolver : ArchiveSymlinkResolver}

/-- The memo answers as the walks of the links do. -/
structure MemoValid (resolver : ArchiveSymlinkResolver)
    (memo : List (Path × TrackedSymlinkResolution)) : Prop where
  sound : MemoSound resolver memo
  complete : MemoComplete resolver memo

/-- A call that starts with no link in progress keeps the memo valid. -/
theorem memoValid_kept (plain : resolver.Plain) :
    KeptByResolve resolver (MemoValid resolver) := by
  intro key state valid
  have noneInProgress : ∀ link ∈ ([] : List Path),
      LeadsThrough resolver.links link key := fun _ member => by cases member
  constructor
  · exact (resolveTracked_sound SYMLINK_RESOLUTION_LIMIT [] key state valid.sound).1
  · exact (resolveTracked_complete plain (Nat.le_refl _) noneInProgress valid.sound
      valid.complete).1

/-- Every sequence of calls on a new resolver leaves a valid memo. -/
theorem runCalls_valid (plain : resolver.Plain) (calls : List ResolverCall) :
    MemoValid resolver (runCalls resolver calls).memo :=
  (memoValid_kept plain).runCalls ⟨.nil, .nil⟩ calls

/-- Whatever was asked before, the resolver answers with the end of the link's
walk exactly when that walk follows at most 40 links. -/
theorem resolve_iff_linkWalk (plain : resolver.Plain) (calls : List ResolverCall)
    (key : Path) (hops : Nat) (segments : Path) :
    (∃ prefixes, (resolver.resolve key (runCalls resolver calls)).1 =
        .resolved hops prefixes segments) ↔
      LinkWalk resolver.links key hops segments ∧ hops ≤ SYMLINK_RESOLUTION_LIMIT := by
  have valid := runCalls_valid plain calls
  have noneInProgress : ∀ link ∈ ([] : List Path),
      LeadsThrough resolver.links link key := fun _ member => by cases member
  have sound := (resolveTracked_sound SYMLINK_RESOLUTION_LIMIT [] key _ valid.sound).2
  have complete := (resolveTracked_complete plain (Nat.le_refl SYMLINK_RESOLUTION_LIMIT)
    noneInProgress valid.sound valid.complete).2
  change SoundResolution resolver.links key
    (resolver.resolve key (runCalls resolver calls)).1 at sound
  change CompleteResolution resolver.links SYMLINK_RESOLUTION_LIMIT key
    (resolver.resolve key (runCalls resolver calls)).1 at complete
  generalize (resolver.resolve key (runCalls resolver calls)).1 = resolution
    at sound complete
  constructor
  · rintro ⟨prefixes, rfl⟩
    exact sound
  · rintro ⟨walk, fits⟩
    cases resolution with
    | resolved answeredHops prefixes answered =>
      obtain ⟨rfl, rfl⟩ := sound.1.deterministic walk
      exact ⟨prefixes, rfl⟩
    | failure reason =>
      have bound := complete hops segments walk
      have limit : failureBound SYMLINK_RESOLUTION_LIMIT reason = SYMLINK_RESOLUTION_LIMIT := by
        simp only [failureBound, ite_self]
      omega

/-- The resolver answers as the kernel's path walk does, whatever was asked
before: with the end of the walk of the link, when that follows at most 40
links, and with a failure otherwise. For a link that lies below no other link
that walk is the lookup of its path from the destination root. -/
theorem resolve_eq_kernelWalk (plain : resolver.Plain)
    (leaves : ∀ key ∈ resolver.targets.map Prod.fst,
      ∀ ancestor ∈ properAncestors key, ancestor ∉ resolver.targets.map Prod.fst)
    (calls : List ResolverCall) (key : Path) :
    (∀ hops segments,
      (∃ prefixes, (resolver.resolve key (runCalls resolver calls)).1 =
          .resolved hops prefixes segments) ↔
        LinkWalk resolver.links key hops segments ∧
          hops ≤ SYMLINK_RESOLUTION_LIMIT) ∧
      (key ≠ [] → key ∈ resolver.targets.map Prod.fst → ∀ hops segments,
        LinkWalk resolver.links key hops segments ↔
          Walk resolver.links [] (key.map .down) hops segments) := by
  refine ⟨resolve_iff_linkWalk plain calls key, ?_⟩
  intro nonempty isKey hops segments
  obtain ⟨target, found⟩ := exists_lookup_of_mem_keys isKey
  have isLink : resolver.links key ≠ none := by
    simp [ArchiveSymlinkResolver.links, found]
  apply LinkWalk.iff_walk_root nonempty isLink
  intro front back backNonempty keyEq frontNonempty
  have ancestor := mem_properAncestors.mpr ⟨back, backNonempty, frontNonempty, keyEq⟩
  have notKey := leaves key isKey front ancestor
  rw [ArchiveSymlinkResolver.links_eq_none]
  cases lookup : resolver.targets.lookup front with
  | none => rfl
  | some other =>
      exact absurd (mem_keys_of_lookup lookup) notKey

/-- Two links that lead to each other, a link up and a link through it. -/
def loopedLinks : ArchiveSymlinkResolver where
  variantKeyRound := id
  targets :=
    [([['x']], .inside .parent ['y']), ([['y']], .inside .root ['x', '/', 'z']),
      ([['a'], ['u']], .inside .parent ['.', '.', '/']),
      ([['b']], .inside .parent ['a', '/', 'u', '/', 'c'])]
  memberKeys := []

/-- After calls that ran into the loop, the link through the link up is
resolved as the kernel walks it. -/
theorem resolve_eq_kernelWalk_looped :
    LinkWalk loopedLinks.links [['b']] 2 [['c']] := by
  have plain : loopedLinks.Plain :=
    .of_spelling rfl rfl rfl (by decide)
  have answer := resolve_eq_kernelWalk plain (by decide)
    [.resolve [['y']], .followedLinks 2 [['b']], .trail [['x']] none] [['b']]
  exact ((answer.1 2 [['c']]).mp ⟨[[['a']], [['c']]], by decide +kernel⟩).1

end Calls

end Paratix.Archive
