/-
Module: Paratix.Mount.BindRemount
Purpose: The per-mount flags of a bind mount under the two remount interfaces of the
  kernel, and what the rendered remount and rollback flags make of them.
Main exports: MountFlags, bindRemount_reachesDesired
-/
import Paratix.Mount.FstabExact

namespace Paratix.Mount

open Foundation

/-! ### Mounts -/

inductive Atime where
  | noatime
  | relatime
  | strictatime
deriving DecidableEq, Repr

/-- The per-mount flags that the kernel keeps. -/
structure MountFlags where
  readOnly : Bool
  nosuid : Bool
  nodev : Bool
  noexec : Bool
  atime : Atime
  nodiratime : Bool
  nosymfollow : Bool
deriving DecidableEq, Repr

/-- No flag is set; the access times are those a mount has by default. -/
def MountFlags.cleared : MountFlags :=
  { readOnly := false, nosuid := false, nodev := false, noexec := false, atime := .relatime,
    nodiratime := false, nosymfollow := false }

def Atime.name : Atime → Text
  | .noatime => "noatime".toList
  | .relatime => "relatime".toList
  | .strictatime => "strictatime".toList

/-- The name of the state a dimension is in. -/
def MountFlags.flag (flags : MountFlags) : VfsFlagDimension → Text
  | .access => if flags.readOnly then "ro".toList else "rw".toList
  | .suid => if flags.nosuid then "nosuid".toList else "suid".toList
  | .dev => if flags.nodev then "nodev".toList else "dev".toList
  | .exec => if flags.noexec then "noexec".toList else "exec".toList
  | .atime => flags.atime.name
  | .nodiratime => if flags.nodiratime then "nodiratime".toList else "diratime".toList
  | .nosymfollow => if flags.nosymfollow then "nosymfollow".toList else "symfollow".toList

/-- The options of mount(8) that are per-mount flags. -/
def mountOptionEffects : List (Text × (MountFlags → MountFlags)) :=
  [("dev".toList, fun flags => { flags with nodev := false }),
   ("diratime".toList, fun flags => { flags with nodiratime := false }),
   ("exec".toList, fun flags => { flags with noexec := false }),
   ("noatime".toList, fun flags => { flags with atime := .noatime }),
   ("nodev".toList, fun flags => { flags with nodev := true }),
   ("nodiratime".toList, fun flags => { flags with nodiratime := true }),
   ("noexec".toList, fun flags => { flags with noexec := true }),
   ("norelatime".toList, fun flags => { flags with atime := .strictatime }),
   ("nosuid".toList, fun flags => { flags with nosuid := true }),
   ("nosymfollow".toList, fun flags => { flags with nosymfollow := true }),
   ("relatime".toList, fun flags => { flags with atime := .relatime }),
   ("ro".toList, fun flags => { flags with readOnly := true }),
   ("rw".toList, fun flags => { flags with readOnly := false }),
   ("strictatime".toList, fun flags => { flags with atime := .strictatime }),
   ("suid".toList, fun flags => { flags with nosuid := false }),
   ("symfollow".toList, fun flags => { flags with nosymfollow := false })]

/-- An option that is no per-mount flag leaves the flags alone. -/
def applyMountOption (flags : MountFlags) (option : Text) : MountFlags :=
  match mountOptionEffects.lookup option with
  | none => flags
  | some effect => effect flags

/-- The flags that the options ask for, a later option over an earlier one. -/
def withOptions (toLowerCase : Text → Text) (flags : MountFlags) (opts : Text) : MountFlags :=
  (optionTokens toLowerCase opts).foldl applyMountOption flags

/-- Some mounts come out with another state in the dimension. -/
def ChangesFlag (option : Text) (dimension : VfsFlagDimension) : Prop :=
  ∃ flags : MountFlags, (applyMountOption flags option).flag dimension ≠ flags.flag dimension

inductive MountApi where
  | legacy
  | mountSetattr
deriving DecidableEq, Repr

/-- The legacy call sets exactly the named flags, `mount_setattr` changes only these. -/
def MountApi.start (flags : MountFlags) : MountApi → MountFlags
  | .legacy => .cleared
  | .mountSetattr => flags

/-- `mount -o remount,bind,<options>` -/
def remount (api : MountApi) (flags : MountFlags) (options : Text) : MountFlags :=
  (options.splitOn ',').foldl applyMountOption (api.start flags)

/-! ### The VFS-OPTIONS column -/

/-- The names of the set flags are listed; the names of the others may be listed as well. -/
structure Shows (names : List Text) (flags : MountFlags) : Prop where
  readOnly : "ro".toList ∈ names ↔ flags.readOnly = true
  nosuid : "nosuid".toList ∈ names ↔ flags.nosuid = true
  nodev : "nodev".toList ∈ names ↔ flags.nodev = true
  noexec : "noexec".toList ∈ names ↔ flags.noexec = true
  noatime : "noatime".toList ∈ names ↔ flags.atime = .noatime
  -- `noatime` rules `relatime` out, whether the list names it or not
  relatime : flags.atime ≠ .noatime → ("relatime".toList ∈ names ↔ flags.atime = .relatime)
  nodiratime : "nodiratime".toList ∈ names ↔ flags.nodiratime = true
  nosymfollow : "nosymfollow".toList ∈ names ↔ flags.nosymfollow = true

/-- The flags that a list of options shows. -/
def shownFlags (names : List Text) : MountFlags where
  readOnly := decide ("ro".toList ∈ names)
  nosuid := decide ("nosuid".toList ∈ names)
  nodev := decide ("nodev".toList ∈ names)
  noexec := decide ("noexec".toList ∈ names)
  atime :=
    if "noatime".toList ∈ names then .noatime
    else if "relatime".toList ∈ names then .relatime
    else .strictatime
  nodiratime := decide ("nodiratime".toList ∈ names)
  nosymfollow := decide ("nosymfollow".toList ∈ names)

/-- Every list of options shows the flags of a mount. -/
theorem shows_shownFlags (names : List Text) : Shows names (shownFlags names) where
  readOnly := decide_eq_true_iff.symm
  nosuid := decide_eq_true_iff.symm
  nodev := decide_eq_true_iff.symm
  noexec := decide_eq_true_iff.symm
  noatime := by
    rw [shownFlags]
    split
    · next listed => exact iff_of_true listed rfl
    · next unlisted =>
      refine iff_of_false unlisted ?_
      split <;> exact Atime.noConfusion
  relatime := by
    rw [shownFlags]
    intro other
    split
    · next listed => exact absurd (if_pos listed) other
    · split
      · next listed => exact iff_of_true listed rfl
      · next unlisted => exact iff_of_false unlisted Atime.noConfusion
  nodiratime := decide_eq_true_iff.symm
  nosymfollow := decide_eq_true_iff.symm

/-- A state names the flags of a mount in every dimension. -/
def Describes (state : VfsFlagState) (flags : MountFlags) : Prop :=
  ∀ dimension, state.lookup dimension = some (flags.flag dimension)

theorem pick_eq {names : List Text} {setToken : Text} {isSet : Bool}
    (shown : setToken ∈ names ↔ isSet = true) (unsetToken : Text) :
    pick names setToken unsetToken = if isSet then setToken else unsetToken := by
  have contains : names.contains setToken = isSet := by
    rw [Bool.eq_iff_iff, List.contains_iff_mem]
    exact shown
  rw [pick, contains]

theorem liveAtime_eq {names : List Text} {flags : MountFlags} (shows : Shows names flags) :
    liveAtime names = flags.atime.name := by
  have noatime : names.contains "noatime".toList = decide (flags.atime = .noatime) := by
    rw [Bool.eq_iff_iff, List.contains_iff_mem, decide_eq_true_iff]
    exact shows.noatime
  have relatime (other : flags.atime ≠ .noatime) :
      names.contains "relatime".toList = decide (flags.atime = .relatime) := by
    rw [Bool.eq_iff_iff, List.contains_iff_mem, decide_eq_true_iff]
    exact shows.relatime other
  rw [liveAtime, noatime]
  cases atime : flags.atime with
  | noatime => rfl
  | relatime =>
    rw [relatime (by rw [atime]; exact Atime.noConfusion), atime]
    rfl
  | strictatime =>
    rw [relatime (by rw [atime]; exact Atime.noConfusion), atime]
    rfl

theorem describes_liveVfsFlags {toLowerCase : Text → Text} {vfsOptions : Text}
    {flags : MountFlags} (shows : Shows (optionTokens toLowerCase vfsOptions) flags) :
    Describes (liveVfsFlags toLowerCase vfsOptions) flags := by
  intro dimension
  rw [liveVfsFlags, pick_eq shows.readOnly, pick_eq shows.nosuid, pick_eq shows.nodev,
    pick_eq shows.noexec, pick_eq shows.nodiratime, pick_eq shows.nosymfollow,
    liveAtime_eq shows]
  cases dimension <;> rfl

/-! ### Options as orders -/

/-- The option sets the dimension it is listed under, for every mount. -/
def EffectSets (named : VfsFlagDimension × Text) (effect : MountFlags → MountFlags) : Prop :=
  ∀ flags dimension, (effect flags).flag dimension =
    if dimension == named.1 then named.2 else flags.flag dimension

theorem lookup_related {named : List (Text × (VfsFlagDimension × Text))}
    {effects : List (Text × (MountFlags → MountFlags))} (option : Text)
    (related : List.Forall₂ (fun entry effect => entry.1 = effect.1 ∧
      EffectSets entry.2 effect.2) named effects) :
    Option.Rel EffectSets (named.lookup option) (effects.lookup option) := by
  induction related with
  | nil => exact .none
  | cons head _ ih =>
    rw [List.lookup_cons, List.lookup_cons, head.1]
    split
    · exact .some head.2
    · exact ih

theorem tables_related :
    List.Forall₂ (fun entry effect => entry.1 = effect.1 ∧ EffectSets entry.2 effect.2)
      VFS_FLAG_TOKENS mountOptionEffects := by
  unfold VFS_FLAG_TOKENS mountOptionEffects
  repeat' constructor
  all_goals
    intro flags dimension
    cases dimension <;> rfl

/-- The tokens of the code mean what mount(8) makes of them. -/
theorem setsNamed_applyMountOption : SetsNamed vfsFlagOf applyMountOption MountFlags.flag where
  named := by
    intro option named isNamed flags dimension
    have related := lookup_related option tables_related
    rw [vfsFlagOf] at isNamed
    rw [isNamed] at related
    rw [applyMountOption]
    generalize mountOptionEffects.lookup option = effect at related
    cases related with
    | some effectSets => exact effectSets flags dimension
  unnamed := by
    intro option unnamed flags dimension
    have related := lookup_related option tables_related
    rw [vfsFlagOf] at unnamed
    rw [unnamed] at related
    rw [applyMountOption]
    generalize mountOptionEffects.lookup option = effect at related
    cases related with
    | none => rfl

theorem flag_ext {flags other : MountFlags}
    (same : ∀ dimension, flags.flag dimension = other.flag dimension) : flags = other := by
  have boolean {first second : Bool} {setToken unsetToken : Text}
      (different : setToken ≠ unsetToken)
      (equal : (if first then setToken else unsetToken) =
        if second then setToken else unsetToken) : first = second := by
    cases first <;> cases second
    · rfl
    · exact absurd equal.symm different
    · exact absurd equal different
    · rfl
  have readOnly := boolean (by decide) (same .access)
  have nosuid := boolean (by decide) (same .suid)
  have nodev := boolean (by decide) (same .dev)
  have noexec := boolean (by decide) (same .exec)
  have nodiratime := boolean (by decide) (same .nodiratime)
  have nosymfollow := boolean (by decide) (same .nosymfollow)
  have names := same .atime
  have atime : flags.atime = other.atime := by
    revert names
    rw [MountFlags.flag, MountFlags.flag]
    cases flags.atime <;> cases other.atime <;> decide
  cases flags
  cases other
  simp only [MountFlags.mk.injEq]
  exact ⟨readOnly, nosuid, nodev, noexec, atime, nodiratime, nosymfollow⟩

/-- The name of a state is an option that names this state. -/
theorem vfsFlagOf_flag (flags : MountFlags) (dimension : VfsFlagDimension) :
    vfsFlagOf (flags.flag dimension) = some (dimension, flags.flag dimension) := by
  have boolean {setToken unsetToken : Text}
      (setKnown : vfsFlagOf setToken = some (dimension, setToken))
      (unsetKnown : vfsFlagOf unsetToken = some (dimension, unsetToken)) (isSet : Bool) :
      vfsFlagOf (if isSet then setToken else unsetToken) =
        some (dimension, if isSet then setToken else unsetToken) := by
    cases isSet
    · exact unsetKnown
    · exact setKnown
  cases dimension with
  | access => exact boolean rfl rfl flags.readOnly
  | suid => exact boolean rfl rfl flags.nosuid
  | dev => exact boolean rfl rfl flags.nodev
  | exec => exact boolean rfl rfl flags.noexec
  | atime =>
    rw [MountFlags.flag]
    cases flags.atime <;> rfl
  | nodiratime => exact boolean rfl rfl flags.nodiratime
  | nosymfollow => exact boolean rfl rfl flags.nosymfollow

theorem comma_notMem_flag (flags : MountFlags) (dimension : VfsFlagDimension) :
    ',' ∉ flags.flag dimension := by
  have boolean {setToken unsetToken : Text} (setFree : ',' ∉ setToken)
      (unsetFree : ',' ∉ unsetToken) (isSet : Bool) :
      ',' ∉ if isSet then setToken else unsetToken := by
    cases isSet
    · exact unsetFree
    · exact setFree
  cases dimension with
  | access => exact boolean (by decide) (by decide) flags.readOnly
  | suid => exact boolean (by decide) (by decide) flags.nosuid
  | dev => exact boolean (by decide) (by decide) flags.nodev
  | exec => exact boolean (by decide) (by decide) flags.noexec
  | atime =>
    rw [MountFlags.flag]
    cases flags.atime <;> decide
  | nodiratime => exact boolean (by decide) (by decide) flags.nodiratime
  | nosymfollow => exact boolean (by decide) (by decide) flags.nosymfollow

/-! ### Remounts -/

theorem flag_withOptions (toLowerCase : Text → Text) (flags : MountFlags) (opts : Text)
    (dimension : VfsFlagDimension) : (withOptions toLowerCase flags opts).flag dimension =
      ((explicitVfsFlags toLowerCase opts).lookup dimension).getD (flags.flag dimension) :=
  setsNamed_applyMountOption.get_foldl _ _ _

theorem describes_overrideVfsFlags {toLowerCase : Text → Text} {base : VfsFlagState}
    {flags : MountFlags} (describes : Describes base flags) (opts : Text) :
    Describes (overrideVfsFlags base (explicitVfsFlags toLowerCase opts))
      (withOptions toLowerCase flags opts) := by
  intro dimension
  have nodup : ((explicitVfsFlags toLowerCase opts).map Prod.fst).Nodup := nodup_keys_recorded _
  rw [overrideVfsFlags, lookup_foldl_mapSet _ _ nodup, describes, flag_withOptions]
  cases (explicitVfsFlags toLowerCase opts).lookup dimension <;> rfl

theorem bindVfsFlagsMatch_of_describes {toLowerCase : Text → Text} {vfsOptions opts : Text}
    {flags : MountFlags} (describes : Describes (liveVfsFlags toLowerCase vfsOptions)
      (withOptions toLowerCase flags opts)) :
    bindVfsFlagsMatch toLowerCase vfsOptions opts = true := by
  rw [bindVfsFlagsMatch, List.all_eq_true]
  intro named member
  have nodup : ((explicitVfsFlags toLowerCase opts).map Prod.fst).Nodup := nodup_keys_recorded _
  rw [beq_iff_eq, describes, flag_withOptions, lookup_of_mem nodup member]
  rfl

section Rendered

variable {target current : VfsFlagState} {goal now : MountFlags}

theorem renderVfsFlag_eq (describesGoal : Describes target goal)
    (describesNow : Describes current now) (dimension : VfsFlagDimension) :
    renderVfsFlag target current dimension =
      if goal.flag dimension = "symfollow".toList ∧ now.flag dimension = "symfollow".toList then []
      else [goal.flag dimension] := by
  rw [renderVfsFlag, describesGoal dimension, describesNow dimension]
  simp only [Option.some.injEq]

/-- The rendered options are names of the goal's states. -/
theorem mem_rendered (describesGoal : Describes target goal)
    (describesNow : Describes current now) {option : Text}
    (member : option ∈ VFS_FLAG_DIMENSIONS.flatMap (renderVfsFlag target current)) :
    ∃ dimension, option = goal.flag dimension := by
  obtain ⟨dimension, _, rendered⟩ := List.mem_flatMap.1 member
  rw [renderVfsFlag_eq describesGoal describesNow] at rendered
  split at rendered
  · exact absurd rendered List.not_mem_nil
  · exact ⟨dimension, List.mem_singleton.1 rendered⟩

theorem flag_mem_rendered (describesGoal : Describes target goal)
    (describesNow : Describes current now) {dimension : VfsFlagDimension}
    (kept : ¬ (goal.flag dimension = "symfollow".toList ∧
      now.flag dimension = "symfollow".toList)) :
    goal.flag dimension ∈ VFS_FLAG_DIMENSIONS.flatMap (renderVfsFlag target current) := by
  have inOrder : dimension ∈ VFS_FLAG_DIMENSIONS := by cases dimension <;> decide
  apply List.mem_flatMap.2 ⟨dimension, inOrder, _⟩
  rw [renderVfsFlag_eq describesGoal describesNow, if_neg kept]
  exact List.mem_singleton_self _

/-- Only `symfollow` is left out, and only where both interfaces start from it. -/
theorem rendered_or_reached (describesGoal : Describes target goal)
    (describesNow : Describes current now) (dimension : VfsFlagDimension) :
    goal.flag dimension ∈ VFS_FLAG_DIMENSIONS.flatMap (renderVfsFlag target current) ∨
      (goal.flag dimension = MountFlags.cleared.flag dimension ∧
        goal.flag dimension = now.flag dimension) := by
  by_cases leftOut :
      goal.flag dimension = "symfollow".toList ∧ now.flag dimension = "symfollow".toList
  · have isNosymfollow : dimension = .nosymfollow := by
      have named := vfsFlagOf_flag goal dimension
      have symfollow : vfsFlagOf "symfollow".toList = some (.nosymfollow, "symfollow".toList) := rfl
      rw [leftOut.1, symfollow, Option.some.injEq] at named
      exact (congrArg Prod.fst named).symm
    subst isNosymfollow
    exact .inr ⟨leftOut.1, leftOut.1.trans leftOut.2.symm⟩
  · exact .inl (flag_mem_rendered describesGoal describesNow leftOut)

/-- Under both interfaces the rendered options lead from the mount as it is to the goal. -/
theorem remount_renderVfsFlagState (describesGoal : Describes target goal)
    (describesNow : Describes current now) (api : MountApi) :
    remount api now (renderVfsFlagState target current) = goal := by
  have oneName : ∀ option ∈ VFS_FLAG_DIMENSIONS.flatMap (renderVfsFlag target current),
      ',' ∉ option := by
    intro option member
    obtain ⟨dimension, rfl⟩ := mem_rendered describesGoal describesNow member
    exact comma_notMem_flag goal dimension
  have nonempty : VFS_FLAG_DIMENSIONS.flatMap (renderVfsFlag target current) ≠ [] := by
    have notSymfollow : goal.flag .access ≠ "symfollow".toList := by
      rw [MountFlags.flag]
      cases goal.readOnly <;> decide
    exact List.ne_nil_of_mem
      (flag_mem_rendered describesGoal describesNow fun both => notSymfollow both.1)
  rw [remount, renderVfsFlagState, List.splitOn_intercalate _ oneName nonempty]
  apply flag_ext
  intro dimension
  apply setsNamed_applyMountOption.foldl_complete
  · intro option member other named
    obtain ⟨origin, rfl⟩ := mem_rendered describesGoal describesNow member
    rw [vfsFlagOf_flag, Option.some.injEq] at named
    obtain ⟨rfl, rfl⟩ := Prod.mk.inj named
    rfl
  · rcases rendered_or_reached describesGoal describesNow dimension with rendered | reached
    · exact .inr ⟨_, rendered, vfsFlagOf_flag goal dimension⟩
    · refine .inl ?_
      cases api with
      | legacy => exact reached.1.symm
      | mountSetattr => exact reached.2.symm

end Rendered

theorem remount_renderBindRemountVfsFlags {toLowerCase : Text → Text} {vfsOptions : Text}
    {flags : MountFlags} (shows : Shows (optionTokens toLowerCase vfsOptions) flags)
    (api : MountApi) (opts : Text) :
    remount api flags (renderBindRemountVfsFlags toLowerCase vfsOptions opts) =
      withOptions toLowerCase flags opts := by
  have live := describes_liveVfsFlags shows
  exact remount_renderVfsFlagState (describes_overrideVfsFlags live opts) live api

theorem remount_renderBindRollbackVfsFlags {toLowerCase : Text → Text} {vfsOptions : Text}
    {flags : MountFlags} (shows : Shows (optionTokens toLowerCase vfsOptions) flags)
    (api : MountApi) (opts : Text) : remount api (withOptions toLowerCase flags opts)
      (renderBindRollbackVfsFlags toLowerCase vfsOptions opts) = flags := by
  have previous := describes_liveVfsFlags shows
  exact remount_renderVfsFlagState previous (describes_overrideVfsFlags previous opts) api

theorem flag_foldl_of_unnamed {options : List Text} {dimension : VfsFlagDimension}
    (unnamed : ∀ option ∈ options, ¬ ChangesFlag option dimension) (flags : MountFlags) :
    (options.foldl applyMountOption flags).flag dimension = flags.flag dimension := by
  induction options generalizing flags with
  | nil => rfl
  | cons option options ih =>
    have kept : (applyMountOption flags option).flag dimension = flags.flag dimension := by
      by_contra changed
      exact unnamed option List.mem_cons_self ⟨flags, changed⟩
    rw [List.foldl_cons, ih fun other mem => unnamed other (List.mem_cons_of_mem _ mem)]
    exact kept

/-- Whatever options the mount shows and whatever options are desired: under both
interfaces the remount leads to the desired flags, the check then accepts what the mount
shows, no other flag changes, and the rollback remount leads back. -/
theorem bindRemount_reachesDesired (toLowerCase : Text → Text) {vfsOptions : Text}
    {flags : MountFlags} (shows : Shows (optionTokens toLowerCase vfsOptions) flags)
    (opts : Text) (api : MountApi) :
    let remounted := remount api flags (renderBindRemountVfsFlags toLowerCase vfsOptions opts)
    remounted = withOptions toLowerCase flags opts ∧
      (∀ shownAfter, Shows (optionTokens toLowerCase shownAfter) remounted →
        bindVfsFlagsMatch toLowerCase shownAfter opts = true) ∧
      (∀ dimension,
        (∀ option ∈ optionTokens toLowerCase opts, ¬ ChangesFlag option dimension) →
        remounted.flag dimension = flags.flag dimension) ∧
      remount api remounted (renderBindRollbackVfsFlags toLowerCase vfsOptions opts) = flags := by
  intro remounted
  have reached : remounted = withOptions toLowerCase flags opts :=
    remount_renderBindRemountVfsFlags shows api opts
  rw [reached]
  refine ⟨rfl, ?_, ?_, remount_renderBindRollbackVfsFlags shows api opts⟩
  · intro shownAfter showsAfter
    exact bindVfsFlagsMatch_of_describes (describes_liveVfsFlags showsAfter)
  · intro dimension unnamed
    exact flag_foldl_of_unnamed unnamed flags

/-- `bind, RO,noexec` over a mount that shows `rw,nosuid,relatime` keeps `nosuid`. -/
theorem nosuid_kept_by_remount :
    let lower : Text → Text := List.map Char.toLower
    let flags := shownFlags (optionTokens lower "rw,nosuid,relatime".toList)
    remount .legacy flags (renderBindRemountVfsFlags lower "rw,nosuid,relatime".toList
        "bind, RO,noexec".toList) =
      { MountFlags.cleared with readOnly := true, nosuid := true, noexec := true } := by
  intro lower flags
  have shows : Shows (optionTokens lower "rw,nosuid,relatime".toList) flags :=
    shows_shownFlags _
  rw [(bindRemount_reachesDesired lower shows "bind, RO,noexec".toList .legacy).1]
  decide +kernel

end Paratix.Mount
