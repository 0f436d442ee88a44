/-
Module: Paratix.Archive.SymlinkResolverSound
Purpose: The bounded, lexical, memoising symlink resolver, whose resolutions are the ends of path
  walks within the limit.
Main exports: ArchiveSymlinkResolver.links, resolve_sound
-/
import Paratix.Archive.Member
import Paratix.Foundation.AssocList

namespace Paratix.Archive

open Foundation

/-- The maximum number of symlinks one resolution may follow. -/
def SYMLINK_RESOLUTION_LIMIT : Nat := 40

/-- A symlink target as the resolver walks it: an absolute target outside the
destination, or a path read from the link's parent or from the root. -/
inductive SymlinkWalkTarget where
  | outside
  | inside (anchor : Anchor) (path : Text)
deriving DecidableEq, Repr

/-- A resolution that did not end inside the destination. -/
inductive SymlinkFailure where
  | depth
  | escape
  | limit
  | unmappable (link : Path)
  | unreadable (directory : Path)
  | variant (link visited : Path)
deriving DecidableEq, Repr

/-- Outcome of resolving one symlink member. -/
inductive SymlinkResolution where
  | resolved (hops : Nat) (prefixes : List Path) (segments : Path)
  | failure (reason : SymlinkFailure)
deriving DecidableEq, Repr

/-- A resolution together with whether its walk touched a path the archive
writes. -/
structure TrackedSymlinkResolution where
  resolution : SymlinkResolution
  touched : Bool
deriving DecidableEq, Repr

/-- What the resolver needs to know beyond the link targets. -/
structure ResolverScope where
  /-- Link keys whose listed path or target is not valid UTF-8. -/
  unmappable : List Path := []
  /-- Host directories that could not be read. -/
  unreadable : List Path := []
  /-- Variant keys of every path the archive writes. -/
  written : List Text := []

/-! ### Name variants -/

/-- How often `pathNameVariantKey` applies its folding round at most. -/
def VARIANT_KEY_ROUND_LIMIT : Nat := 4

/-- The key under which two path spellings count as the same name: folding
rounds are applied until nothing changes. The round itself consists of Unicode
operations of the runtime. -/
def pathNameVariantKey (variantKeyRound : Text → Text) (path : Text) : Text :=
  let rec settle : Nat → Text → Text
    | 0, key => key
    | rounds + 1, key =>
        let next := variantKeyRound key
        if next = key then key else settle rounds next
  settle (VARIANT_KEY_ROUND_LIMIT - 1) (variantKeyRound path)

/-- The immutable part of a resolver. `targets` is the map of every symlink by
normalized path, in insertion order. -/
structure ArchiveSymlinkResolver where
  variantKeyRound : Text → Text
  targets : List (Path × SymlinkWalkTarget)
  memberKeys : List Path
  scope : ResolverScope := {}

/-- The maps and the stack a resolver updates between and during its calls. -/
structure ResolverState where
  memo : List (Path × TrackedSymlinkResolution) := []
  /-- One touched flag per walk in progress, innermost first. -/
  touches : List Bool := []
  followed : List (Path × List Path) := []
deriving DecidableEq, Repr

/-- The state of one walk: hops spent, visited non-member prefixes, resolved
segments. -/
structure WalkState where
  hops : Nat
  prefixes : List Path
  segments : Path
deriving DecidableEq, Repr

/-- Record that the innermost walk in progress touched a written path. -/
def ResolverState.markTouched (state : ResolverState) : ResolverState :=
  match state.touches with
  | [] => state
  | _ :: outer => { state with touches := true :: outer }

namespace ArchiveSymlinkResolver

def variantKey (resolver : ArchiveSymlinkResolver) (path : Path) : Text :=
  pathNameVariantKey resolver.variantKeyRound (joinPath path)

/-- The directory an index of unreadable directories holds under a variant key:
a later directory replaces an earlier one of the same key. -/
def unreadableDirectory (resolver : ArchiveSymlinkResolver) (variantKey : Text) :
    Option Path :=
  resolver.scope.unreadable.reverse.find?
    fun directory => resolver.variantKey directory = variantKey

/-- Report an appended path that is an unreadable directory or lies below one. -/
def unreadableAt (resolver : ArchiveSymlinkResolver) (visited : Path)
    (variantKey : Text) : Option SymlinkFailure :=
  let keys := variantKey :: (properAncestors visited).map resolver.variantKey
  (keys.findSome? resolver.unreadableDirectory).map .unreadable

/-- Report a visited path that names a link only after folding. -/
def variantOf (resolver : ArchiveSymlinkResolver) (visited : Path) (variantKey : Text) :
    Option SymlinkFailure :=
  let group := (resolver.targets.map Prod.fst).filter
    fun key => resolver.variantKey key = variantKey
  (group.find? fun candidate => candidate ≠ visited).map (.variant · visited)

/-- Check the ancestors the kernel walks to reach the link itself. -/
def ancestorVariant (resolver : ArchiveSymlinkResolver) (state : ResolverState) :
    List Path → Option SymlinkFailure × ResolverState
  | [] => (none, state)
  | ancestor :: ancestors =>
      let variantKey := resolver.variantKey ancestor
      match resolver.variantOf ancestor variantKey with
      | some variant =>
          (some variant,
            if variantKey ∈ resolver.scope.written then state.markTouched else state)
      | none => resolver.ancestorVariant state ancestors

section Walk

-- how a link that a walk comes across is resolved
variable (resolveTracked : Path → ResolverState → TrackedSymlinkResolution × ResolverState)

/-- Handle one resolved prefix of a walk: the resolution of the archive symlink
there, or nothing when it is none; with the visited non-member prefixes. -/
def follow (resolver : ArchiveSymlinkResolver) (visited : Path) (prefixes : List Path)
    (state : ResolverState) :
    Option SymlinkResolution × List Path × ResolverState :=
  let variantKey := resolver.variantKey visited
  let state :=
    if variantKey ∈ resolver.scope.written then state.markTouched else state
  match resolver.unreadableAt visited variantKey with
  | some unreadable => (some (.failure unreadable), prefixes, state)
  | none =>
      match resolver.variantOf visited variantKey with
      | some variant => (some (.failure variant), prefixes, state)
      | none =>
          if (resolver.targets.lookup visited).isSome then
            let (followed, state) := resolveTracked visited state
            let state := if followed.touched then state.markTouched else state
            (some followed.resolution, prefixes, state)
          else if visited ∈ resolver.memberKeys then (none, prefixes, state)
          else (none, prefixes ++ [visited], state)

/-- Apply one target segment to a walk. -/
def step (resolver : ArchiveSymlinkResolver) (walk : WalkState) (segment : Text)
    (state : ResolverState) : Except SymlinkFailure WalkState × ResolverState :=
  if segment = [] ∨ segment = ['.'] then (.ok walk, state)
  else if segment = ['.', '.'] then
    if walk.segments.length = 0 then (.error .escape, state)
    else (.ok { walk with segments := walk.segments.dropLast }, state)
  else
    let segments := walk.segments ++ [segment]
    match resolver.follow resolveTracked segments walk.prefixes state with
    | (none, prefixes, state) => (.ok { walk with prefixes, segments }, state)
    | (some (.failure reason), _, state) => (.error reason, state)
    | (some (.resolved followedHops _ followedSegments), prefixes, state) =>
        let hops := walk.hops + followedHops
        if SYMLINK_RESOLUTION_LIMIT < hops then (.error .limit, state)
        else (.ok { hops, prefixes, segments := followedSegments }, state)

/-- Apply the segments of a target in order. -/
def steps (resolver : ArchiveSymlinkResolver) (walk : WalkState) :
    List Text → ResolverState → Except SymlinkFailure WalkState × ResolverState
  | [], state => (.ok walk, state)
  | segment :: segments, state =>
      match resolver.step resolveTracked walk segment state with
      | (.error reason, state) => (.error reason, state)
      | (.ok walk, state) => resolver.steps walk segments state

/-- Resolve the target of the link at `key`. -/
def walk (resolver : ArchiveSymlinkResolver) (key : Path) (state : ResolverState) :
    SymlinkResolution × ResolverState :=
  match resolver.targets.lookup key with
  | none => (.failure .escape, state)
  | some .outside => (.failure .escape, state)
  | some (.inside anchor path) =>
      match resolver.ancestorVariant state (properAncestors key) with
      | (some variant, state) => (.failure variant, state)
      | (none, state) =>
          let start := anchor.start (archiveMemberParentPath key)
          let first : WalkState := { hops := 1, prefixes := [], segments := start }
          match resolver.steps resolveTracked first (splitPath path) state with
          | (.error reason, state) => (.failure reason, state)
          | (.ok last, state) =>
              (.resolved last.hops last.prefixes last.segments, state)

end Walk

/-- Resolve the symlink at `key`, with the links in progress. `room` is what is
left of the resolution limit: the limit less the number of links in progress. -/
def resolveTracked (resolver : ArchiveSymlinkResolver) :
    Nat → List Path → Path → ResolverState → TrackedSymlinkResolution × ResolverState
  | room, inProgress, key, state =>
      match state.memo.lookup key with
      | some known => (known, state)
      | none =>
          if key ∈ inProgress then (⟨.failure .limit, false⟩, state)
          else
            match room with
            | 0 => (⟨.failure .depth, false⟩, state)
            | room + 1 =>
                let state := { state with touches := false :: state.touches }
                let (walked, state) := resolver.walk
                  (resolver.resolveTracked room (key :: inProgress)) key state
                let touched := state.touches.head? = some true
                let state := { state with touches := state.touches.tail }
                let resolution :=
                  if key ∈ resolver.scope.unmappable then .failure (.unmappable key)
                  else walked
                let tracked := ⟨resolution, touched⟩
                if resolution ≠ .failure .depth then
                  (tracked, { state with memo := (key, tracked) :: state.memo })
                else (tracked, state)

/-- A call from outside: no link is in progress. -/
def resolveFresh (resolver : ArchiveSymlinkResolver) :
    Path → ResolverState → TrackedSymlinkResolution × ResolverState :=
  resolver.resolveTracked SYMLINK_RESOLUTION_LIMIT []

/-- Resolve the target of the symlink member at `key`. -/
def resolve (resolver : ArchiveSymlinkResolver) (key : Path) (state : ResolverState) :
    SymlinkResolution × ResolverState :=
  let (tracked, state) := resolver.resolveFresh key state
  (tracked.resolution, state)

/-! ### Trails and followed links -/

/-- Length of a text in UTF-16 code units. -/
def utf16Length : Text → Nat
  | [] => 0
  | char :: rest => (if char.toNat < 0x10000 then 1 else 2) + utf16Length rest

structure SymlinkTrail where
  base : Path
  locations : List Path
  segments : List Text
deriving DecidableEq, Repr

/-- Why there is no trail. -/
inductive TrailRefusal where
  | unresolved
  | oversized
deriving DecidableEq, Repr

/-- The locations of a trail after those found so far, of summed length
`length`; `maxLength` bounds that sum, `none` for no bound. -/
def trailLocations (resolver : ArchiveSymlinkResolver) (maxLength : Option Nat)
    (walk : WalkState) (locations : List Path) (length : Nat) :
    List Text → ResolverState → Except TrailRefusal (List Path) × ResolverState
  | [], state => (.ok locations, state)
  | segment :: segments, state =>
      match resolver.step resolver.resolveFresh walk segment state with
      | (.error _, state) => (.error .unresolved, state)
      | (.ok next, state) =>
          let length := length + utf16Length (joinPath next.segments)
          if maxLength.any (· < length) then (.error .oversized, state)
          else
            resolver.trailLocations maxLength next (locations ++ [next.segments]) length
              segments state

/-- The trail of a resolved link's own target. -/
def trail (resolver : ArchiveSymlinkResolver) (key : Path) (maxLength : Option Nat)
    (state : ResolverState) : Except TrailRefusal SymlinkTrail × ResolverState :=
  match resolver.targets.lookup key with
  | none => (.error .unresolved, state)
  | some .outside => (.error .unresolved, state)
  | some (.inside anchor path) =>
      match resolver.resolve key state with
      | (.failure _, state) => (.error .unresolved, state)
      | (.resolved _ _ _, state) =>
          let base := anchor.start (archiveMemberParentPath key)
          let segments := (splitPath path).filter fun segment =>
            segment ≠ [] ∧ segment ≠ ['.']
          -- the walk may mark a touch; it gets a slot of its own
          let state := { state with touches := false :: state.touches }
          let first : WalkState := { hops := 1, prefixes := [], segments := base }
          let (locations, state) := resolver.trailLocations maxLength first [base]
            (utf16Length (joinPath base)) segments state
          let state := { state with touches := state.touches.tail }
          (locations.map fun locations => { base, locations, segments }, state)

/-- The links a resolved link's own walk follows, read off its trail. -/
def directlyFollowedLinks (resolver : ArchiveSymlinkResolver) (key : Path)
    (state : ResolverState) : List Path × ResolverState :=
  match resolver.trail key none state with
  | (.error _, state) => ([], state)
  | (.ok traced, state) =>
      let links := (traced.segments.zip traced.locations).filterMap
        fun (segment, before) =>
          if segment = ['.', '.'] then none
          else if (resolver.targets.lookup (before ++ [segment])).isSome then
            some (before ++ [segment])
          else none
      (links, state)

/-- The links the resolution of `key` follows, each once. `depth` bounds the
nesting of the recursion. -/
def followedLinks (resolver : ArchiveSymlinkResolver) :
    Nat → Path → ResolverState → List Path × ResolverState
  | depth, key, state =>
      match state.followed.lookup key with
      | some known => (known, state)
      | none =>
          match depth with
          | 0 => ([], state)
          | depth + 1 =>
              let (direct, state) := resolver.directlyFollowedLinks key state
              let (links, state) := direct.foldl (fun (links, state) link =>
                let (further, state) := resolver.followedLinks depth link state
                (further.foldl setAdd (setAdd links link), state)) ([], state)
              (links, { state with followed := (key, links) :: state.followed })

end ArchiveSymlinkResolver

/-! ### Sequences of calls -/

/-- A public call on a resolver. -/
inductive ResolverCall where
  | resolve (key : Path)
  | resolveTracked (key : Path)
  | trail (key : Path) (maxLength : Option Nat)
  | followedLinks (depth : Nat) (key : Path)

/-- The state a call leaves behind. -/
def runCall (resolver : ArchiveSymlinkResolver) (state : ResolverState) :
    ResolverCall → ResolverState
  | .resolve key => (resolver.resolve key state).2
  | .resolveTracked key => (resolver.resolveFresh key state).2
  | .trail key maxLength => (resolver.trail key maxLength state).2
  | .followedLinks depth key => (resolver.followedLinks depth key state).2

/-- The state after a sequence of calls on a new resolver. -/
def runCalls (resolver : ArchiveSymlinkResolver) (calls : List ResolverCall) :
    ResolverState :=
  calls.foldl (runCall resolver) {}

/-- The link a stored target makes of its path. -/
def SymlinkWalkTarget.link : SymlinkWalkTarget → Link Text
  | .outside => .outside
  | .inside anchor path => .inside anchor (pathMoves path)

namespace ArchiveSymlinkResolver

/-- The tree of links the resolver was built from. -/
def links (resolver : ArchiveSymlinkResolver) : Links Text :=
  fun path => (resolver.targets.lookup path).map SymlinkWalkTarget.link

theorem links_eq_none {resolver : ArchiveSymlinkResolver} {path : Path} :
    resolver.links path = none ↔ (resolver.targets.lookup path).isSome = false := by
  simp [links]

theorem links_inside {resolver : ArchiveSymlinkResolver} {key : Path} {anchor : Anchor}
    {target : List (Move Text)} : resolver.links key = some (.inside anchor target) ↔
      ∃ path, resolver.targets.lookup key = some (.inside anchor path) ∧
        pathMoves path = target := by
  simp only [links, Option.map_eq_some_iff]
  constructor
  · rintro ⟨stored, found, linkEq⟩
    cases stored with
    | outside => cases linkEq
    | inside anchor' path =>
      cases linkEq
      exact ⟨path, found, rfl⟩
  · rintro ⟨path, found, rfl⟩
    exact ⟨.inside anchor path, found, rfl⟩

end ArchiveSymlinkResolver

@[simp] theorem ResolverState.markTouched_memo (state : ResolverState) :
    state.markTouched.memo = state.memo := by
  cases state with
  | mk memo touches followed => cases touches <;> rfl

/-! ### One step -/

section Stepped

variable (resolver : ArchiveSymlinkResolver)
  (resolveTracked : Path → ResolverState → TrackedSymlinkResolution × ResolverState)

/-- What applying one segment can do. States are compared by their memo; the
touched flags of the walks in progress do not matter here. -/
inductive Stepped (walk : WalkState) (segment : Text) (state : ResolverState) :
    Except SymlinkFailure WalkState → ResolverState → Prop where
  | stay (move : pathMove segment = .stay) :
      Stepped walk segment state (.ok walk) state
  | up {parent : Path} {last : Text} (move : pathMove segment = .up)
      (segments : walk.segments = parent ++ [last]) :
      Stepped walk segment state (.ok { walk with segments := parent }) state
  | escape (move : pathMove segment = .up) (segments : walk.segments = []) :
      Stepped walk segment state (.error .escape) state
  | refused {reason : SymlinkFailure} {after : ResolverState}
      (move : pathMove segment = .down segment)
      (reported : resolver.unreadableAt (walk.segments ++ [segment])
          (resolver.variantKey (walk.segments ++ [segment])) = some reason ∨
        resolver.variantOf (walk.segments ++ [segment])
          (resolver.variantKey (walk.segments ++ [segment])) = some reason)
      (memo : after.memo = state.memo) :
      Stepped walk segment state (.error reason) after
  | plain {prefixes : List Path} {after : ResolverState}
      (move : pathMove segment = .down segment)
      (plain : resolver.links (walk.segments ++ [segment]) = none)
      (memo : after.memo = state.memo) :
      Stepped walk segment state
        (.ok ⟨walk.hops, prefixes, walk.segments ++ [segment]⟩) after
  | failed {reason : SymlinkFailure} {before after : ResolverState}
      (move : pathMove segment = .down segment)
      (link : resolver.links (walk.segments ++ [segment]) ≠ none)
      (memo : before.memo = state.memo)
      (followed : (resolveTracked (walk.segments ++ [segment]) before).1.resolution =
        .failure reason)
      (memoAfter : after.memo =
        (resolveTracked (walk.segments ++ [segment]) before).2.memo) :
      Stepped walk segment state (.error reason) after
  | followed {hops : Nat} {prefixes : List Path} {segments : Path}
      {before after : ResolverState} {outcome : Except SymlinkFailure WalkState}
      (move : pathMove segment = .down segment)
      (link : resolver.links (walk.segments ++ [segment]) ≠ none)
      (memo : before.memo = state.memo)
      (followed : (resolveTracked (walk.segments ++ [segment]) before).1.resolution =
        .resolved hops prefixes segments)
      (memoAfter : after.memo =
        (resolveTracked (walk.segments ++ [segment]) before).2.memo)
      (outcomeEq : outcome =
        if SYMLINK_RESOLUTION_LIMIT < walk.hops + hops then .error .limit
        else .ok ⟨walk.hops + hops, walk.prefixes, segments⟩) :
      Stepped walk segment state outcome after

/-- What handling one visited path can do: refuse it, resolve the link there,
or pass a plain path. -/
theorem follow_cases (visited : Path) (prefixes : List Path) (state : ResolverState) :
    let outcome := resolver.follow resolveTracked visited prefixes state
    (∃ reason after, outcome = (some (.failure reason), prefixes, after) ∧
        after.memo = state.memo ∧
        (resolver.unreadableAt visited (resolver.variantKey visited) = some reason ∨
          resolver.variantOf visited (resolver.variantKey visited) = some reason)) ∨
      (resolver.links visited = none ∧
        ∃ prefixes' after, outcome = (none, prefixes', after) ∧
          after.memo = state.memo) ∨
      (resolver.links visited ≠ none ∧
        ∃ before after, before.memo = state.memo ∧
          outcome = (some (resolveTracked visited before).1.resolution, prefixes, after) ∧
          after.memo = (resolveTracked visited before).2.memo) := by
  intro outcome
  have markedMemo (marks : Bool) (some : ResolverState) :
      (if marks then some.markTouched else some).memo = some.memo := by
    cases marks with
    | true => exact some.markTouched_memo
    | false => rfl
  have entered := markedMemo
    (resolver.variantKey visited ∈ resolver.scope.written) state
  simp only [decide_eq_true_eq] at entered
  simp only [outcome, ArchiveSymlinkResolver.follow]
  cases unreadable : resolver.unreadableAt visited (resolver.variantKey visited) with
  | some reason => exact Or.inl ⟨reason, _, rfl, entered, Or.inl rfl⟩
  | none =>
    cases variant : resolver.variantOf visited (resolver.variantKey visited) with
    | some reason => exact Or.inl ⟨reason, _, rfl, entered, Or.inr rfl⟩
    | none =>
      by_cases isLink : (resolver.targets.lookup visited).isSome
      · rw [if_pos isLink]
        have linkSome : resolver.links visited ≠ none := by
          rw [ne_eq, ArchiveSymlinkResolver.links_eq_none, isLink]
          exact Bool.noConfusion
        exact Or.inr (Or.inr ⟨linkSome, _, _, entered, rfl, markedMemo _ _⟩)
      · rw [if_neg isLink]
        have linkNone : resolver.links visited = none := by
          rw [ArchiveSymlinkResolver.links_eq_none]
          exact Bool.eq_false_iff.2 isLink
        by_cases member : visited ∈ resolver.memberKeys
        · rw [if_pos member]
          exact Or.inr (Or.inl ⟨linkNone, _, _, rfl, entered⟩)
        · rw [if_neg member]
          exact Or.inr (Or.inl ⟨linkNone, _, _, rfl, entered⟩)

theorem pathMove_down {segment : Text} (notStay : ¬ (segment = [] ∨ segment = ['.']))
    (notUp : segment ≠ ['.', '.']) : pathMove segment = .down segment := by
  simp only [pathMove, notStay, notUp, if_false]

/-- The step does nothing else. -/
theorem step_stepped (walk : WalkState) (segment : Text) (state : ResolverState) :
    Stepped resolver resolveTracked walk segment state
      (resolver.step resolveTracked walk segment state).1
      (resolver.step resolveTracked walk segment state).2 := by
  simp only [ArchiveSymlinkResolver.step]
  split
  · next isStay => exact .stay (by simp only [pathMove, isStay, if_true])
  · next notStay =>
      split
      · next isUp =>
          have move : pathMove segment = .up := by
            subst isUp
            rfl
          split
          · next noSegments => exact .escape move (List.length_eq_zero_iff.1 noSegments)
          · next someSegments =>
              have nonempty : walk.segments ≠ [] := fun nil =>
                someSegments (congrArg List.length nil)
              exact .up move (List.dropLast_append_getLast nonempty).symm
      · next notUp =>
          have move := pathMove_down notStay notUp
          rcases follow_cases resolver resolveTracked (walk.segments ++ [segment])
              walk.prefixes state with
            ⟨reason, after, followEq, memo, reported⟩ |
            ⟨plain, prefixes, after, followEq, memo⟩ |
            ⟨link, before, after, memo, followEq, memoAfter⟩
          · rw [followEq]
            exact .refused move reported memo
          · rw [followEq]
            exact .plain move plain memo
          · rw [followEq]
            cases resolution :
                (resolveTracked (walk.segments ++ [segment]) before).1.resolution with
            | failure reason => exact .failed move link memo resolution memoAfter
            | resolved hops prefixes segments =>
              dsimp only
              by_cases tooMany : SYMLINK_RESOLUTION_LIMIT < walk.hops + hops
              · rw [if_pos tooMany]
                exact .followed move link memo resolution memoAfter
                  (if_pos tooMany).symm
              · rw [if_neg tooMany]
                exact .followed move link memo resolution memoAfter
                  (if_neg tooMany).symm

end Stepped

/-! ### Opening one call -/

namespace ArchiveSymlinkResolver

variable {resolver : ArchiveSymlinkResolver}

theorem ancestorVariant_memo (state : ResolverState) (ancestors : List Path) :
    (resolver.ancestorVariant state ancestors).2.memo = state.memo := by
  induction ancestors with
  | nil => rfl
  | cons ancestor ancestors ih =>
    simp only [ancestorVariant]
    cases resolver.variantOf ancestor (resolver.variantKey ancestor) with
    | none => exact ih
    | some variant =>
      dsimp only
      split
      · exact state.markTouched_memo
      · rfl

theorem resolveTracked_known {room : Nat} {inProgress : List Path} {key : Path}
    {state : ResolverState} {tracked : TrackedSymlinkResolution}
    (known : state.memo.lookup key = some tracked) :
    resolver.resolveTracked room inProgress key state = (tracked, state) := by
  unfold resolveTracked
  rw [known]

theorem resolveTracked_cycle {room : Nat} {inProgress : List Path} {key : Path}
    {state : ResolverState} (unknown : state.memo.lookup key = none) (cycle : key ∈ inProgress) :
    resolver.resolveTracked room inProgress key state =
      (⟨.failure .limit, false⟩, state) := by
  unfold resolveTracked
  rw [unknown]
  exact if_pos cycle

theorem resolveTracked_depth {inProgress : List Path} {key : Path}
    {state : ResolverState} (unknown : state.memo.lookup key = none) (noCycle : key ∉ inProgress) :
    resolver.resolveTracked 0 inProgress key state =
      (⟨.failure .depth, false⟩, state) := by
  unfold resolveTracked
  rw [unknown]
  exact if_neg noCycle

/-- A call that walks: what it answers and how it extends the memo. -/
theorem resolveTracked_walks {room : Nat} {inProgress : List Path} {key : Path}
    {state : ResolverState} (unknown : state.memo.lookup key = none) (noCycle : key ∉ inProgress) :
    ∃ entered tracked after, entered.memo = state.memo ∧
      resolver.resolveTracked (room + 1) inProgress key state = (tracked, after) ∧
      let walked := resolver.walk (resolver.resolveTracked room (key :: inProgress)) key entered
      tracked.resolution = (if key ∈ resolver.scope.unmappable then .failure (.unmappable key)
            else walked.1) ∧
        after.memo = if tracked.resolution ≠ .failure .depth then (key, tracked) :: walked.2.memo
          else walked.2.memo := by
  unfold resolveTracked
  rw [unknown]
  dsimp only
  rw [if_neg noCycle]
  refine ⟨{ state with touches := false :: state.touches }, ?_⟩
  generalize resolver.walk (resolver.resolveTracked room (key :: inProgress)) key
    { state with touches := false :: state.touches } = walked
  generalize (if key ∈ resolver.scope.unmappable then
    SymlinkResolution.failure (.unmappable key) else walked.1) = resolution
  by_cases depth : resolution ≠ .failure .depth
  · rw [if_pos depth]
    exact ⟨_, _, rfl, rfl, rfl, (if_pos depth).symm⟩
  · rw [if_neg depth]
    exact ⟨_, _, rfl, rfl, rfl, (if_neg depth).symm⟩

end ArchiveSymlinkResolver

/-! ### Soundness -/

section Sound

variable {resolver : ArchiveSymlinkResolver}

/-- A resolution inside the destination is the end of the link's walk. -/
def SoundResolution (links : Links Text) (key : Path) : SymlinkResolution → Prop
  | .resolved hops _ segments =>
      LinkWalk links key hops segments ∧ hops ≤ SYMLINK_RESOLUTION_LIMIT
  | .failure _ => True

/-- Every remembered resolution is sound. -/
def MemoSound (resolver : ArchiveSymlinkResolver)
    (memo : List (Path × TrackedSymlinkResolution)) : Prop :=
  ∀ key tracked, memo.lookup key = some tracked →
    SoundResolution resolver.links key tracked.resolution

theorem MemoSound.nil : MemoSound resolver [] := by
  intro key tracked known
  cases known

theorem MemoSound.cons {memo : List (Path × TrackedSymlinkResolution)} {key : Path}
    {tracked : TrackedSymlinkResolution} (sound : MemoSound resolver memo)
    (soundHere : SoundResolution resolver.links key tracked.resolution) :
    MemoSound resolver ((key, tracked) :: memo) := by
  intro other known lookup
  rw [List.lookup_cons] at lookup
  split at lookup
  · next same =>
      obtain rfl := beq_iff_eq.1 same
      cases lookup
      exact soundHere
  · exact sound other known lookup

/-- The links met on a walk are resolved soundly and keep the memo sound. -/
def SoundRecursion (resolver : ArchiveSymlinkResolver)
    (resolveTracked : Path → ResolverState → TrackedSymlinkResolution × ResolverState) :
    Prop :=
  ∀ visited state, MemoSound resolver state.memo →
    MemoSound resolver (resolveTracked visited state).2.memo ∧
      SoundResolution resolver.links visited
        (resolveTracked visited state).1.resolution

variable {resolveTracked : Path → ResolverState → TrackedSymlinkResolution × ResolverState}

/-- A step keeps the memo sound, and a step that succeeds is a walk. -/
theorem step_sound (recursion : SoundRecursion resolver resolveTracked)
    {walk : WalkState} {segment : Text} {state after : ResolverState}
    {outcome : Except SymlinkFailure WalkState} (sound : MemoSound resolver state.memo)
    (stepped : Stepped resolver resolveTracked walk segment state outcome after) :
    MemoSound resolver after.memo ∧
      ∀ next, outcome = .ok next → ∃ hops, next.hops = walk.hops + hops ∧
          Walk resolver.links walk.segments [pathMove segment] hops next.segments ∧
          (walk.hops ≤ SYMLINK_RESOLUTION_LIMIT →
            next.hops ≤ SYMLINK_RESOLUTION_LIMIT) := by
  cases stepped with
  | stay move =>
    refine ⟨sound, fun next ok => ?_⟩
    cases ok
    exact ⟨0, rfl, move ▸ .stay .done, id⟩
  | up move segments =>
    refine ⟨sound, fun next ok => ?_⟩
    cases ok
    rw [move, segments]
    exact ⟨0, rfl, .up .done, id⟩
  | escape move segments => exact ⟨sound, fun next ok => by cases ok⟩
  | refused move reported memo => exact ⟨memo ▸ sound, fun next ok => by cases ok⟩
  | plain move plain memo =>
    refine ⟨memo ▸ sound, fun next ok => ?_⟩
    cases ok
    exact ⟨0, rfl, move ▸ .down plain .done, id⟩
  | @failed _ before _ move link memo followed memoAfter =>
    have recursed := (recursion (walk.segments ++ [segment]) before (memo ▸ sound)).1
    exact ⟨memoAfter ▸ recursed, fun next ok => by cases ok⟩
  | @followed hops _ _ before _ outcome move link memo followed memoAfter outcomeEq =>
    obtain ⟨recursed, soundHere⟩ := recursion (walk.segments ++ [segment]) before (memo ▸ sound)
    rw [followed] at soundHere
    refine ⟨memoAfter ▸ recursed, fun next ok => ?_⟩
    rw [ok] at outcomeEq
    split at outcomeEq
    · cases outcomeEq
    · next fits =>
        cases outcomeEq
        refine ⟨hops, rfl, ?_, fun _ => Nat.le_of_not_lt fits⟩
        rw [move, LinkWalk.step_iff link]
        exact ⟨hops, 0, _, rfl, soundHere.1, .done⟩

theorem steps_sound (recursion : SoundRecursion resolver resolveTracked)
    {walk : WalkState} {segments : List Text} {state : ResolverState}
    (sound : MemoSound resolver state.memo) :
    let outcome := resolver.steps resolveTracked walk segments state
    MemoSound resolver outcome.2.memo ∧
      ∀ last, outcome.1 = .ok last → ∃ hops, last.hops = walk.hops + hops ∧
          Walk resolver.links walk.segments (segments.map pathMove) hops last.segments ∧
          (walk.hops ≤ SYMLINK_RESOLUTION_LIMIT →
            last.hops ≤ SYMLINK_RESOLUTION_LIMIT) := by
  induction segments generalizing walk state with
  | nil =>
    refine ⟨sound, fun last ok => ?_⟩
    cases ok
    exact ⟨0, rfl, .done, id⟩
  | cons segment segments ih =>
    have stepped := step_stepped resolver resolveTracked walk segment state
    obtain ⟨soundAfter, advance⟩ := step_sound recursion sound stepped
    simp only [ArchiveSymlinkResolver.steps, List.map_cons]
    generalize resolver.step resolveTracked walk segment state = outcome
      at soundAfter advance
    obtain ⟨outcome, after⟩ := outcome
    cases outcome with
    | error reason => exact ⟨soundAfter, fun last ok => by cases ok⟩
    | ok next =>
      obtain ⟨hops, hopsEq, front, bounded⟩ := advance next rfl
      obtain ⟨soundEnd, rest⟩ := ih soundAfter
      refine ⟨soundEnd, fun last ok => ?_⟩
      obtain ⟨restHops, lastEq, back, restBounded⟩ := rest last ok
      exact ⟨hops + restHops, by rw [lastEq, hopsEq, Nat.add_assoc],
        front.append back, fun fits => restBounded (bounded fits)⟩

theorem walk_sound (recursion : SoundRecursion resolver resolveTracked) {key : Path}
    {state : ResolverState} (sound : MemoSound resolver state.memo) :
    MemoSound resolver (resolver.walk resolveTracked key state).2.memo ∧
      SoundResolution resolver.links key
        (resolver.walk resolveTracked key state).1 := by
  simp only [ArchiveSymlinkResolver.walk]
  cases target : resolver.targets.lookup key with
  | none => exact ⟨sound, trivial⟩
  | some stored =>
    cases stored with
    | outside => exact ⟨sound, trivial⟩
    | inside anchor path =>
      have ancestorsMemo := resolver.ancestorVariant_memo state (properAncestors key)
      dsimp only
      generalize resolver.ancestorVariant state (properAncestors key) = checked
        at ancestorsMemo
      obtain ⟨variant, checkedState⟩ := checked
      cases variant with
      | some variant => exact ⟨ancestorsMemo ▸ sound, trivial⟩
      | none =>
        dsimp only
        have soundChecked : MemoSound resolver checkedState.memo := ancestorsMemo ▸ sound
        let first : WalkState := ⟨1, [], anchor.start (archiveMemberParentPath key)⟩
        have walked : MemoSound resolver
              (resolver.steps resolveTracked first (splitPath path) checkedState).2.memo ∧ _ :=
          steps_sound recursion soundChecked
        obtain ⟨soundEnd, walked⟩ := walked
        generalize resolver.steps resolveTracked first (splitPath path)
          checkedState = outcome at soundEnd walked
        obtain ⟨outcome, endState⟩ := outcome
        cases outcome with
        | error reason => exact ⟨soundEnd, trivial⟩
        | ok last =>
          obtain ⟨hops, hopsEq, walk, bounded⟩ := walked last rfl
          have oneFits : 1 ≤ SYMLINK_RESOLUTION_LIMIT := by decide
          refine ⟨soundEnd, ⟨anchor, pathMoves path, hops, ?_, walk, ?_⟩, bounded oneFits⟩
          · exact ArchiveSymlinkResolver.links_inside.2 ⟨path, target, rfl⟩
          · rw [hopsEq, Nat.add_comm]

/-- Whatever was asked before, a link that is resolved is walked to that end
within the limit. -/
theorem resolveTracked_sound (room : Nat) (inProgress : List Path) :
    SoundRecursion resolver (resolver.resolveTracked room inProgress) := by
  induction room generalizing inProgress with
  | zero =>
    intro key state sound
    cases known : state.memo.lookup key with
    | some tracked =>
      rw [ArchiveSymlinkResolver.resolveTracked_known known]
      exact ⟨sound, sound key tracked known⟩
    | none =>
      by_cases cycle : key ∈ inProgress
      · rw [ArchiveSymlinkResolver.resolveTracked_cycle known cycle]
        exact ⟨sound, trivial⟩
      · rw [ArchiveSymlinkResolver.resolveTracked_depth known cycle]
        exact ⟨sound, trivial⟩
  | succ room ih =>
    intro key state sound
    cases known : state.memo.lookup key with
    | some tracked =>
      rw [ArchiveSymlinkResolver.resolveTracked_known known]
      exact ⟨sound, sound key tracked known⟩
    | none =>
      by_cases cycle : key ∈ inProgress
      · rw [ArchiveSymlinkResolver.resolveTracked_cycle known cycle]
        exact ⟨sound, trivial⟩
      · obtain ⟨entered, tracked, after, enteredMemo, callEq, resolutionEq, memoEq⟩ :=
          ArchiveSymlinkResolver.resolveTracked_walks known cycle
        have soundEntered : MemoSound resolver entered.memo := enteredMemo ▸ sound
        obtain ⟨soundWalked, soundResolution⟩ := walk_sound (ih (key :: inProgress)) soundEntered
        have soundHere : SoundResolution resolver.links key tracked.resolution := by
          rw [resolutionEq]
          split
          · trivial
          · exact soundResolution
        rw [callEq]
        refine ⟨?_, soundHere⟩
        rw [memoEq]
        split
        · exact soundWalked.cons soundHere
        · exact soundWalked

end Sound

/-! ### Any sequence of calls -/

/-- A property of the memo that resolving any link, with none in progress,
keeps. -/
def KeptByResolve (resolver : ArchiveSymlinkResolver)
    (Kept : List (Path × TrackedSymlinkResolution) → Prop) : Prop :=
  ∀ key state, Kept state.memo → Kept (resolver.resolveFresh key state).2.memo

namespace KeptByResolve

variable {resolver : ArchiveSymlinkResolver}
  {Kept : List (Path × TrackedSymlinkResolution) → Prop}

theorem resolve (kept : KeptByResolve resolver Kept) {state : ResolverState}
    (holds : Kept state.memo) (key : Path) : Kept (resolver.resolve key state).2.memo :=
  kept key state holds

theorem step (kept : KeptByResolve resolver Kept) {state : ResolverState}
    (holds : Kept state.memo) (walk : WalkState) (segment : Text) :
    Kept (resolver.step resolver.resolveFresh walk segment state).2.memo := by
  have stepped := step_stepped resolver resolver.resolveFresh walk segment state
  generalize (resolver.step resolver.resolveFresh walk segment state).1 = outcome
    at stepped
  generalize (resolver.step resolver.resolveFresh walk segment state).2 = after
    at stepped ⊢
  cases stepped with
  | stay move => exact holds
  | up move segments => exact holds
  | escape move segments => exact holds
  | refused move reported memo => exact memo ▸ holds
  | plain move isPlain memo => exact memo ▸ holds
  | @failed _ before _ move link memo followed memoAfter =>
    rw [memoAfter]
    rw [← memo] at holds
    exact kept _ _ holds
  | @followed _ _ _ before _ _ move link memo followed memoAfter outcomeEq =>
    rw [memoAfter]
    rw [← memo] at holds
    exact kept _ _ holds

theorem trailLocations (kept : KeptByResolve resolver Kept) {state : ResolverState}
    (holds : Kept state.memo) (maxLength : Option Nat)
    (walk : WalkState) (locations : List Path) (length : Nat) (segments : List Text) : Kept
      (resolver.trailLocations maxLength walk locations length segments
        state).2.memo := by
  induction segments generalizing walk locations length state with
  | nil => exact holds
  | cons segment segments ih =>
    have afterStep := kept.step holds walk segment
    simp only [ArchiveSymlinkResolver.trailLocations]
    generalize resolver.step resolver.resolveFresh walk segment state = outcome
      at afterStep
    obtain ⟨outcome, after⟩ := outcome
    cases outcome with
    | error reason => exact afterStep
    | ok next =>
      dsimp only
      split
      · exact afterStep
      · exact ih afterStep _ _ _

theorem trail (kept : KeptByResolve resolver Kept) {state : ResolverState}
    (holds : Kept state.memo) (key : Path) (maxLength : Option Nat) :
    Kept (resolver.trail key maxLength state).2.memo := by
  simp only [ArchiveSymlinkResolver.trail]
  cases resolver.targets.lookup key with
  | none => exact holds
  | some stored =>
    cases stored with
    | outside => exact holds
    | inside anchor path =>
      have afterResolve := kept.resolve holds key
      dsimp only
      generalize resolver.resolve key state = outcome at afterResolve
      obtain ⟨resolution, after⟩ := outcome
      cases resolution with
      | failure reason => exact afterResolve
      | resolved hops prefixes segments =>
        have slotted : Kept { after with touches := false :: after.touches }.memo := afterResolve
        exact kept.trailLocations slotted _ _ _ _ _

theorem directlyFollowedLinks (kept : KeptByResolve resolver Kept)
    {state : ResolverState} (holds : Kept state.memo) (key : Path) :
    Kept (resolver.directlyFollowedLinks key state).2.memo := by
  have afterTrail := kept.trail holds key none
  simp only [ArchiveSymlinkResolver.directlyFollowedLinks]
  generalize resolver.trail key none state = outcome at afterTrail
  obtain ⟨traced, after⟩ := outcome
  cases traced with
  | error refusal => exact afterTrail
  | ok traced => exact afterTrail

theorem followedLinks (kept : KeptByResolve resolver Kept) (depth : Nat)
    {state : ResolverState} (holds : Kept state.memo) (key : Path) :
    Kept (resolver.followedLinks depth key state).2.memo := by
  induction depth generalizing key state with
  | zero =>
    unfold ArchiveSymlinkResolver.followedLinks
    cases state.followed.lookup key with
    | some known => exact holds
    | none => exact holds
  | succ depth ih =>
    unfold ArchiveSymlinkResolver.followedLinks
    cases state.followed.lookup key with
    | some known => exact holds
    | none =>
      have afterDirect := kept.directlyFollowedLinks holds key
      dsimp only
      generalize resolver.directlyFollowedLinks key state = direct at afterDirect
      obtain ⟨direct, after⟩ := direct
      have everyLink : ∀ (remaining links : List Path) (current : ResolverState),
          Kept current.memo →
          Kept (remaining.foldl (fun pair link =>
            let below := resolver.followedLinks depth link pair.2
            (below.1.foldl setAdd (setAdd pair.1 link), below.2))
            (links, current)).2.memo := by
        intro remaining
        induction remaining with
        | nil => exact fun _ _ currentHolds => currentHolds
        | cons link remaining ofRemaining =>
          exact fun links current currentHolds =>
            ofRemaining _ _ (ih currentHolds link)
      exact everyLink direct [] after afterDirect

theorem runCall (kept : KeptByResolve resolver Kept) {state : ResolverState}
    (holds : Kept state.memo) (call : ResolverCall) :
    Kept (runCall resolver state call).memo := by
  cases call with
  | resolve key => exact kept.resolve holds key
  | resolveTracked key => exact kept key state holds
  | trail key maxLength => exact kept.trail holds key maxLength
  | followedLinks depth key => exact kept.followedLinks depth holds key

/-- What resolving keeps holds after every sequence of calls. -/
theorem runCalls (kept : KeptByResolve resolver Kept) (initially : Kept [])
    (calls : List ResolverCall) : Kept (runCalls resolver calls).memo := by
  have everyCall : ∀ state : ResolverState, Kept state.memo →
      Kept (calls.foldl (Paratix.Archive.runCall resolver) state).memo := by
    induction calls with
    | nil => exact fun _ holds => holds
    | cons call calls ih =>
      exact fun state holds => ih _ (kept.runCall holds call)
  exact everyCall {} initially

end KeptByResolve

theorem memoSound_kept (resolver : ArchiveSymlinkResolver) :
    KeptByResolve resolver (MemoSound resolver) :=
  fun key state sound =>
    (resolveTracked_sound SYMLINK_RESOLUTION_LIMIT [] key state sound).1

/-- Whatever was asked before, a resolution inside the destination is the end
of the link's walk. -/
theorem resolve_sound (resolver : ArchiveSymlinkResolver) {state : ResolverState}
    (sound : MemoSound resolver state.memo) (key : Path) :
    SoundResolution resolver.links key (resolver.resolve key state).1 :=
  (resolveTracked_sound SYMLINK_RESOLUTION_LIMIT [] key state sound).2

end Paratix.Archive
