/-
Module: Paratix.Lock.Exclusion
Purpose: Mutual exclusion of the flag lock in every run in which no acquiring
  process works in a lock directory that another process made.
Main exports: Live, flagLock_exclusive
-/
import Mathlib.Tactic.Linarith
import Paratix.Lock.MutexLock

namespace Paratix.Lock

open Foundation

variable {Process Token : Type*}

/-! ### What is claimed of a state -/

/-- The process takes the lock for its own, and made or touched it within the
stale threshold. -/
structure Live (config : MutexLockConfig Process Token) (state : LockState Process Token)
    (process : Process) : Prop where
  phase : (state.processes process).phase = .created ∨
    (state.processes process).phase = .written ∨ (state.processes process).phase = .holding
  young : olderThan config.reclaim state.clock (state.processes process).stamp = false

/-- When the holder last gave a sign: the marker's time, before there is one the
directory's. -/
def LockDirectory.touched (directory : LockDirectory Process Token) : Rat :=
  match directory.marker with
  | some marker => marker.mtime
  | none => directory.mtime

/-- The lock on the host is the process's, crashed or not, and has not aged past
the stale threshold. -/
def Fresh (config : MutexLockConfig Process Token) (state : LockState Process Token)
    (process : Process) : Prop :=
  ∃ directory, state.lock = some directory ∧ directory.madeBy = process ∧
    olderThan config.reclaim state.clock directory.touched = false

/-- The marker on the host names the process. -/
def Marked (config : MutexLockConfig Process Token) (state : LockState Process Token)
    (process : Process) : Prop :=
  readHolderToken state.lock = some (config.token process)

/-- The lock is another process's by now. -/
def Superseded (state : LockState Process Token) (process : Process) : Prop :=
  ∃ directory, state.lock = some directory ∧ directory.madeBy ≠ process

/-- The handle of the process reports the lock as lost. -/
def Lost (state : LockState Process Token) (process : Process) : Prop :=
  ∃ handle, (state.processes process).handle = some handle ∧ handle.isLost = true

/-- The lock directory is absent or the process made it. -/
def InPlace (state : LockState Process Token) (process : Process) : Prop :=
  ∀ directory, state.lock = some directory → directory.madeBy = process

/-- The lock directory holds a marker, so `rmdir` leaves it. -/
def Occupied (state : LockState Process Token) : Prop :=
  ∃ directory marker, state.lock = some directory ∧ directory.marker = some marker

/-- No marker write and no cleanup of an acquisition takes effect in another
process's directory, and no readback that accepts every token reads there. -/
def StepInPlace (config : MutexLockConfig Process Token) (state : LockState Process Token) :
    LockAction Process → Prop
  | .write process outcome => outcome = .failed ∨ InPlace state process
  | .removeAfterWrite process effective | .removeDirectory process effective =>
      effective = false ∨ Occupied state ∨ InPlace state process
  | .removeMarker process effective =>
      effective = false ∨ ¬ Occupied state ∨ InPlace state process
  | .readBack process fails =>
      fails = true ∨ readHolderToken state.lock = none ∨ config.supplied process = true ∨
        InPlace state process
  | .tick _ | .mkdir _ | .refresh _ _ | .release _ _ | .reclaim _ | .crash _ => True

instance [DecidableEq Process] (state : LockState Process Token) (process : Process) :
    Decidable (InPlace state process) :=
  match isLock : state.lock with
  | none => isTrue fun directory present => by cases isLock.symm.trans present
  | some made =>
      if madeBy : made.madeBy = process then
        isTrue fun directory present => by
          cases isLock.symm.trans present
          exact madeBy
      else isFalse fun inPlace => madeBy (inPlace made isLock)

instance (state : LockState Process Token) : Decidable (Occupied state) :=
  decidable_of_iff ((state.lock.bind (·.marker)).isSome = true) (by
    constructor
    · intro isSome
      obtain ⟨marker, isMarker⟩ := Option.isSome_iff_exists.mp isSome
      obtain ⟨directory, isLock, isMarker⟩ := Option.bind_eq_some_iff.mp isMarker
      exact ⟨directory, marker, isLock, isMarker⟩
    · rintro ⟨directory, marker, isLock, isMarker⟩
      rw [isLock, Option.bind_some, isMarker]
      rfl)

instance [DecidableEq Process] [DecidableEq Token] (config : MutexLockConfig Process Token)
    (state : LockState Process Token) (action : LockAction Process) :
    Decidable (StepInPlace config state action) :=
  match action with
  | .write _ _ => inferInstanceAs (Decidable (_ ∨ _))
  | .removeAfterWrite _ _ | .removeDirectory _ _ => inferInstanceAs (Decidable (_ ∨ _ ∨ _))
  | .removeMarker _ _ => inferInstanceAs (Decidable (_ ∨ ¬ _ ∨ _))
  | .readBack _ _ => inferInstanceAs (Decidable (_ ∨ _ ∨ _ ∨ _))
  | .tick _ | .mkdir _ | .refresh _ _ | .release _ _ | .reclaim _ | .crash _ =>
      inferInstanceAs (Decidable True)

/-! ### The invariant -/

/-- How the directory of a process with a lock looks. -/
def Stands (token : Token) (entry : LockProcess Token)
    (directory : LockDirectory Process Token) : Prop :=
  if entry.phase = .created then directory.marker = none ∧ directory.mtime = entry.stamp
  else directory.marker = some ⟨some token, entry.stamp⟩

/-- A live process's directory stands as it left it, a marker names nobody but
the maker of its directory, and handles hold their process's token. -/
structure LockInv (config : MutexLockConfig Process Token)
    (state : LockState Process Token) : Prop where
  standing : ∀ process, Live config state process → ∃ directory,
    state.lock = some directory ∧ directory.madeBy = process ∧
      Stands (config.token process) (state.processes process) directory
  named : ∀ directory marker, state.lock = some directory →
    directory.marker = some marker → marker.token = none ∨
      marker.token = some (config.token directory.madeBy)
  handles : ∀ process handle, (state.processes process).handle = some handle →
    handle.token = config.token process

variable {config : MutexLockConfig Process Token} {state : LockState Process Token}

theorem lockInv_initial : LockInv config (initialLockState : LockState Process Token) where
  standing := by
    intro process live
    rcases live.phase with phase | phase | phase <;> cases phase
  named := by
    intro directory marker isLock
    cases isLock
  handles := by
    intro process handle isHandle
    cases isHandle

theorem readHolderToken_eq_some {lock : Option (LockDirectory Process Token)}
    {token : Token} (read : readHolderToken lock = some token) :
    ∃ directory marker, lock = some directory ∧ directory.marker = some marker ∧
      marker.token = some token := by
  obtain ⟨marker, isMarker, isToken⟩ := Option.bind_eq_some_iff.1 read
  obtain ⟨directory, isDirectory, isMarker⟩ := Option.bind_eq_some_iff.1 isMarker
  exact ⟨directory, marker, isDirectory, isMarker, isToken⟩

namespace LockInv

theorem touched_of_stands {token : Token} {entry : LockProcess Token}
    {directory : LockDirectory Process Token} (stands : Stands token entry directory) :
    directory.touched = entry.stamp := by
  rw [Stands] at stands
  split at stands
  · rw [LockDirectory.touched, stands.1]
    exact stands.2
  · rw [LockDirectory.touched, stands]

theorem fresh_of_live (inv : LockInv config state) {process : Process}
    (live : Live config state process) : Fresh config state process := by
  obtain ⟨directory, isLock, madeBy, stands⟩ := inv.standing process live
  refine ⟨directory, isLock, madeBy, ?_⟩
  rw [touched_of_stands stands]
  exact live.young

/-- The process whose token the marker carries made the directory. -/
theorem inPlace_of_read (inv : LockInv config state)
    (distinct : Function.Injective config.token) {process : Process}
    (read : readHolderToken state.lock = some (config.token process)) :
    InPlace state process := by
  intro directory isLock
  obtain ⟨readDirectory, marker, isRead, isMarker, isToken⟩ := readHolderToken_eq_some read
  rw [isLock] at isRead
  cases isRead
  rcases inv.named directory marker isLock isMarker with noToken | named
  · rw [noToken] at isToken
    cases isToken
  · rw [named] at isToken
    exact distinct (Option.some.inj isToken)

end LockInv

/-- Where the lock is absent or a process made it, nobody else's lock is fresh. -/
theorem not_fresh_of_inPlace {process : Process} (inPlace : InPlace state process)
    {other : Process} (different : other ≠ process) : ¬ Fresh config state other := by
  intro fresh
  obtain ⟨directory, isLock, madeBy, _⟩ := fresh
  exact different (madeBy.symm.trans (inPlace directory isLock))

/-- What a reclaim removes is nobody's fresh lock. -/
theorem not_fresh_of_reclaimed
    (changed : (reclaimCommand config.reclaim state.clock state.lock).1 ≠ state.lock)
    (process : Process) : ¬ Fresh config state process := by
  intro fresh
  obtain ⟨directory, isLock, _, young⟩ := fresh
  apply changed
  rw [isLock, reclaimCommand]
  rw [LockDirectory.touched] at young
  cases isMarker : directory.marker with
  | some marker =>
    rw [isMarker] at young
    exact congrArg Prod.fst (if_neg (Bool.eq_false_iff.1 young))
  | none =>
    rw [isMarker] at young
    exact congrArg Prod.fst (if_neg (Bool.eq_false_iff.1 young))

/-! ### Steps of one process -/

/-- The step of a process is harmless: the others keep their lock, and its own
entry fits the lock it leaves. -/
structure Harmless (config : MutexLockConfig Process Token)
    (state : LockState Process Token) (lock : Option (LockDirectory Process Token))
    (process : Process) (entry : LockProcess Token) : Prop where
  others : lock = state.lock ∨ ∀ other, other ≠ process → ¬ Fresh config state other
  named : ∀ directory marker, lock = some directory → directory.marker = some marker →
    marker.token = none ∨ marker.token = some (config.token directory.madeBy)
  own : (entry.phase = .created ∨ entry.phase = .written ∨ entry.phase = .holding) →
    olderThan config.reclaim state.clock entry.stamp = false → ∃ directory,
      lock = some directory ∧ directory.madeBy = process ∧
        Stands (config.token process) entry directory
  handle : ∀ handle, entry.handle = some handle → handle.token = config.token process

section Steps

variable [DecidableEq Process]

theorem live_set_of_ne {lock : Option (LockDirectory Process Token)} {process other : Process}
    {entry : LockProcess Token} (different : other ≠ process) :
    Live config (state.set lock process entry) other ↔ Live config state other := by
  have same : (state.set lock process entry).processes other = state.processes other :=
    Function.update_of_ne different _ _
  constructor
  · intro live
    exact ⟨same ▸ live.phase, same ▸ live.young⟩
  · intro live
    exact ⟨same ▸ live.phase, same ▸ live.young⟩

theorem processes_set_of_ne {lock : Option (LockDirectory Process Token)}
    {process other : Process} {entry : LockProcess Token} (different : other ≠ process) :
    (state.set lock process entry).processes other = state.processes other :=
  Function.update_of_ne different _ _

theorem processes_set_self (lock : Option (LockDirectory Process Token)) (process : Process)
    (entry : LockProcess Token) :
    (state.set lock process entry).processes process = entry := by
  simp only [LockState.set, Function.update_self]

/-- A harmless step keeps the invariant. -/
theorem Harmless.keeps (inv : LockInv config state)
    {lock : Option (LockDirectory Process Token)} {process : Process}
    {entry : LockProcess Token} (harmless : Harmless config state lock process entry) :
    LockInv config (state.set lock process entry) where
  standing := by
    intro other live
    by_cases isOwn : other = process
    · subst isOwn
      obtain ⟨phase, young⟩ := live
      rw [processes_set_self] at phase young ⊢
      exact harmless.own phase young
    · have liveBefore := (live_set_of_ne isOwn).1 live
      have same : (state.set lock process entry).processes other = state.processes other :=
        Function.update_of_ne isOwn _ _
      rw [same]
      rcases harmless.others with unchanged | noOther
      · change ∃ directory, lock = some directory ∧ _
        rw [unchanged]
        exact inv.standing other liveBefore
      · exact absurd (inv.fresh_of_live liveBefore) (noOther other isOwn)
  named := harmless.named
  handles := by
    intro other handle isHandle
    by_cases isOwn : other = process
    · subst isOwn
      rw [processes_set_self] at isHandle
      exact harmless.handle handle isHandle
    · have same : (state.set lock process entry).processes other = state.processes other :=
        Function.update_of_ne isOwn _ _
      rw [same] at isHandle
      exact inv.handles other handle isHandle

omit [DecidableEq Process] in
/-- A process that leaves the lock as it is, in a phase without a lock. -/
theorem Harmless.idle (inv : LockInv config state) {process : Process} {phase : LockPhase}
    (noLock : ¬ (phase = .created ∨ phase = .written ∨ phase = .holding)) :
    Harmless config state state.lock process
      { state.processes process with phase := phase } where
  others := .inl rfl
  named := inv.named
  own hasLock := absurd hasLock noLock
  handle handle isHandle := inv.handles process handle isHandle

omit [DecidableEq Process] in
/-- A cleanup in the process's own directory. -/
theorem Harmless.cleanup (inv : LockInv config state) {process : Process}
    (inPlace : InPlace state process) {phase : LockPhase}
    {lock : Option (LockDirectory Process Token)}
    (noLock : ¬ (phase = .created ∨ phase = .written ∨ phase = .holding))
    (named : ∀ directory marker, lock = some directory → directory.marker = some marker →
      state.lock = some directory) :
    Harmless config state lock process { state.processes process with phase := phase } where
  others := .inr fun _ different => not_fresh_of_inPlace inPlace different
  named directory marker isLock isMarker :=
    inv.named directory marker (named directory marker isLock isMarker) isMarker
  own hasLock := absurd hasLock noLock
  handle handle isHandle := inv.handles process handle isHandle

end Steps

section Actions

variable [DecidableEq Token] {process : Process}

omit [DecidableEq Token] in
theorem harmless_mkdir (inv : LockInv config state) :
    let made := makeLockDirectory state.clock process state.lock
    let entry := state.processes process
    Harmless config state made.1 process
      (if made.2 then { entry with phase := .created, stamp := state.clock } else entry) := by
  cases isLock : state.lock with
  | none =>
    constructor
    · right
      intro other _ fresh
      obtain ⟨directory, present, _⟩ := fresh
      rw [isLock] at present
      cases present
    · intro directory marker made isMarker
      cases made
      cases isMarker
    · intro _ _
      exact ⟨⟨process, state.clock, none⟩, rfl, rfl, by simp [Stands, makeLockDirectory]⟩
    · exact inv.handles process
  | some directory =>
    constructor
    · left
      rw [isLock]
      rfl
    · intro other marker made isMarker
      exact inv.named other marker (isLock.trans made) isMarker
    · intro phase young
      obtain ⟨standing, present, rest⟩ := inv.standing process ⟨phase, young⟩
      exact ⟨standing, isLock.symm.trans present, rest⟩
    · exact inv.handles process

omit [DecidableEq Token] in
theorem harmless_write (inv : LockInv config state) (outcome : WriteOutcome)
    (inPlaceOrFailed : outcome = .failed ∨ InPlace state process) :
    let wrote := writeOutcome state.clock (config.token process) state.lock outcome
    let entry := state.processes process
    Harmless config state wrote.1 process
      (if wrote.2 then { entry with phase := .written, stamp := state.clock }
      else { entry with phase := .writeFailed }) := by
  rcases inPlaceOrFailed with isFailed | inPlace
  · subst isFailed
    exact .idle inv (by decide)
  have noOther : ∀ other, other ≠ process → ¬ Fresh config state other :=
    fun _ different => not_fresh_of_inPlace inPlace different
  cases isLock : state.lock with
  | none =>
    have failed : writeOutcome state.clock (config.token process)
        (none : Option (LockDirectory Process Token)) outcome = (none, false) := by
      cases outcome <;> rfl
    simp only [failed, Bool.false_eq_true, if_false]
    rw [← isLock]
    exact .idle inv (by decide)
  | some directory =>
    have madeBy := inPlace directory isLock
    cases outcome with
    | done =>
      constructor
      · exact .inr noOther
      · intro other marker wrote isMarker
        cases wrote
        cases isMarker
        rw [madeBy]
        exact .inr rfl
      · intro _ _
        exact ⟨_, rfl, madeBy, by simp [Stands, writeOutcome]⟩
      · exact inv.handles process
    | failed =>
      rw [← isLock]
      exact .idle inv (by decide)
    | emptied =>
      constructor
      · exact .inr noOther
      · intro other marker wrote isMarker
        cases wrote
        cases isMarker
        exact .inl rfl
      · intro phase
        rcases phase with isPhase | isPhase | isPhase <;> cases isPhase
      · exact inv.handles process

theorem harmless_readBack (inv : LockInv config state)
    (wasWritten : (state.processes process).phase = .written)
    (fails : Bool) (ownToken : fails = true ∨ readHolderToken state.lock = none ∨
      config.supplied process = true ∨ InPlace state process) :
    Harmless config state state.lock process (readBackResult config process
      (state.processes process) (if fails then none else readHolderToken state.lock)) := by
  cases read : (if fails then none else readHolderToken state.lock) with
  | none => exact .idle inv (by decide)
  | some token =>
    have succeeds : fails = false := by
      cases fails with
      | true => cases read
      | false => rfl
    have readToken : readHolderToken state.lock = some token := by
      rw [succeeds] at read
      exact read
    rw [readBackResult]
    by_cases foreign : config.supplied process = true ∧ token ≠ config.token process
    · rw [if_pos foreign]
      exact .idle inv (by decide)
    · rw [if_neg foreign]
      have tokenEq : token = config.token process := by
        rcases ownToken with isFailed | unread | supplied | inPlace
        · rw [succeeds] at isFailed
          cases isFailed
        · rw [unread] at readToken
          cases readToken
        · by_contra different
          exact foreign ⟨supplied, different⟩
        · obtain ⟨directory, marker, isLock, isMarker, isToken⟩ := readHolderToken_eq_some readToken
          rcases inv.named directory marker isLock isMarker with noToken | named
          · rw [noToken] at isToken
            cases isToken
          · rw [named, inPlace directory isLock] at isToken
            exact (Option.some.inj isToken).symm
      constructor
      · exact .inl rfl
      · exact inv.named
      · intro _ young
        obtain ⟨directory, isLock, madeBy, stands⟩ :=
          inv.standing process ⟨.inr (.inl wasWritten), young⟩
        refine ⟨directory, isLock, madeBy, ?_⟩
        rw [Stands, if_neg (by rw [wasWritten]; decide)] at stands
        rw [Stands, if_neg fun isCreated => by cases isCreated]
        exact stands
      · intro handle isHandle
        cases isHandle
        exact tokenEq

/-- A guard that touches the marker found the process's own. -/
theorem refreshGuard_cases (token : Token) :
    (refreshGuard config.guard state.clock token state.lock = (state.lock, false)) ∨
      ∃ directory marker, state.lock = some directory ∧ directory.marker = some marker ∧
        marker.token = some token ∧
        refreshGuard config.guard state.clock token state.lock =
          (some { directory with marker := some { marker with mtime := state.clock } },
            true) := by
  cases isLock : state.lock with
  | none => exact .inl rfl
  | some directory =>
    cases isMarker : directory.marker with
    | none =>
      left
      simp only [refreshGuard, isMarker]
    | some marker =>
      by_cases passes : marker.token = some token ∧
          olderThan config.guard state.clock marker.mtime = false
      · right
        refine ⟨directory, marker, rfl, isMarker, passes.1, ?_⟩
        simp only [refreshGuard, isMarker, passes, and_self, if_true]
      · left
        simp only [refreshGuard, isMarker, passes, if_false]

theorem refreshResult_token (handle : MutexLockHandle Token)
    (lock : Option (LockDirectory Process Token)) (outcome : RefreshOutcome) :
    (refreshResult config state.clock handle lock outcome).2.1.token = handle.token := by
  simp only [refreshResult]
  split
  · rfl
  · cases outcome with
    | answered =>
      dsimp only
      split <;> rfl
    | threwBefore => rfl
    | threwAfter => rfl

/-- A refresh leaves the lock as it is, or touches the marker with the handle's
token. -/
theorem refreshResult_cases (handle : MutexLockHandle Token) (outcome : RefreshOutcome) :
    let refreshed := refreshResult config state.clock handle state.lock outcome
    (refreshed.1 = state.lock ∧ refreshed.2.2 = false) ∨
      ∃ directory marker, state.lock = some directory ∧ directory.marker = some marker ∧
        marker.token = some handle.token ∧ refreshed.2.2 = true ∧
        refreshed.1 =
          some { directory with marker := some { marker with mtime := state.clock } } := by
  simp only [refreshResult]
  split
  · exact .inl ⟨rfl, rfl⟩
  · rcases @refreshGuard_cases _ _ config state _ handle.token with
      refused | ⟨directory, marker, isLock, isMarker, isToken, touched⟩
    · left
      cases outcome with
      | answered => simp only [refused, and_self]
      | threwBefore => exact ⟨rfl, rfl⟩
      | threwAfter => simp only [refused, and_self]
    · cases outcome with
      | answered =>
        right
        exact ⟨directory, marker, isLock, isMarker, isToken, by rw [touched], by rw [touched]⟩
      | threwBefore => exact .inl ⟨rfl, rfl⟩
      | threwAfter =>
        right
        exact ⟨directory, marker, isLock, isMarker, isToken, by rw [touched], by rw [touched]⟩

theorem harmless_refresh (inv : LockInv config state) (distinct : Function.Injective config.token)
    (isHolding : (state.processes process).phase = .holding) {handle : MutexLockHandle Token}
    (isHandle : (state.processes process).handle = some handle) (outcome : RefreshOutcome) :
    let refreshed := refreshResult config state.clock handle state.lock outcome
    let entry := state.processes process
    Harmless config state refreshed.1 process { entry with
        handle := some refreshed.2.1
        stamp := if refreshed.2.2 then state.clock else entry.stamp } := by
  have ownToken := inv.handles process handle isHandle
  have keptToken := @refreshResult_token _ _ config state _ handle state.lock outcome
  have handleToken : ∀ other, some
      (refreshResult config state.clock handle state.lock outcome).2.1 = some other →
      other.token = config.token process := by
    intro other isOther
    cases isOther
    exact keptToken.trans ownToken
  rcases @refreshResult_cases _ _ config state _ handle outcome with
    ⟨same, untouched⟩ | ⟨directory, marker, isLock, isMarker, isToken, touched, lockEq⟩
  · simp only [same, untouched, Bool.false_eq_true, if_false]
    constructor
    · exact .inl rfl
    · exact inv.named
    · exact fun phase young => inv.standing process ⟨phase, young⟩
    · exact handleToken
  · simp only [touched, if_true]
    have read : readHolderToken state.lock = some (config.token process) := by
      rw [isLock, readHolderToken, Option.bind_some, isMarker, Option.bind_some, isToken, ownToken]
    have inPlace := inv.inPlace_of_read distinct read
    have madeBy := inPlace directory isLock
    rw [lockEq]
    constructor
    · exact .inr fun _ different => not_fresh_of_inPlace inPlace different
    · intro other otherMarker isOther isOtherMarker
      cases isOther
      cases isOtherMarker
      exact inv.named directory marker isLock isMarker
    · intro _ _
      refine ⟨_, rfl, madeBy, ?_⟩
      rw [Stands, if_neg (by rw [isHolding]; decide), ← ownToken, ← isToken]
    · exact handleToken

theorem harmless_release (inv : LockInv config state)
    (distinct : Function.Injective config.token) {handle : MutexLockHandle Token}
    (isHandle : (state.processes process).handle = some handle) (effective : Bool) :
    Harmless config state
      (if effective then releaseCommand handle.token state.lock else state.lock) process
      { state.processes process with phase := .finished } := by
  cases effective with
  | false => exact .idle inv (by decide)
  | true =>
    rw [if_pos rfl, releaseCommand]
    by_cases own : readHolderToken state.lock = some handle.token
    · rw [if_pos own]
      rw [inv.handles process handle isHandle] at own
      exact .cleanup inv (inv.inPlace_of_read distinct own) (by decide)
        fun _ _ absurdity => by cases absurdity
    · rw [if_neg own]
      exact .idle inv (by decide)

theorem harmless_reclaim (inv : LockInv config state) :
    Harmless config state (reclaimCommand config.reclaim state.clock state.lock).1 process
      (state.processes process) := by
  by_cases changed : (reclaimCommand config.reclaim state.clock state.lock).1 = state.lock
  · rw [changed]
    constructor
    · exact .inl rfl
    · exact inv.named
    · exact fun phase young => inv.standing process ⟨phase, young⟩
    · exact inv.handles process
  · have noneFresh := not_fresh_of_reclaimed changed
    have removed : (reclaimCommand config.reclaim state.clock state.lock).1 = none := by
      cases isLock : state.lock with
      | none => rfl
      | some directory =>
        rw [isLock] at changed
        simp only [reclaimCommand] at changed ⊢
        split at changed <;> split at changed <;> simp_all
    rw [removed]
    constructor
    · exact .inr fun other _ => noneFresh other
    · intro _ _ absurdity
      cases absurdity
    · exact fun phase young => absurd (inv.fresh_of_live ⟨phase, young⟩) (noneFresh process)
    · exact inv.handles process

omit [DecidableEq Token] in
theorem harmless_removeDirectory (inv : LockInv config state) (effective : Bool)
    (inPlace : effective = false ∨ Occupied state ∨ InPlace state process) : Harmless config state
      (if effective then removeLockDirectory state.lock else state.lock) process
      { state.processes process with phase := .finished } := by
  rcases inPlace with notEffective | ⟨directory, marker, isLock, isMarker⟩ | inPlace
  · subst notEffective
    exact .idle inv (by decide)
  · have kept : removeLockDirectory state.lock = state.lock := by
      rw [isLock, removeLockDirectory, isMarker]
      rfl
    rw [kept, ite_self]
    exact .idle inv (by decide)
  · apply Harmless.cleanup inv inPlace (by decide)
    intro directory marker isLock isMarker
    cases effective with
    | false => exact isLock
    | true =>
      cases present : state.lock with
      | none =>
        rw [if_pos rfl, present] at isLock
        cases isLock
      | some own =>
        rw [if_pos rfl, present, removeLockDirectory] at isLock
        split at isLock
        · exact isLock
        · cases isLock

omit [DecidableEq Token] in
theorem harmless_removeMarker (inv : LockInv config state) (effective : Bool)
    (inPlace : effective = false ∨ ¬ Occupied state ∨ InPlace state process) : Harmless config state
      (if effective then removeHolderMarker state.clock state.lock else state.lock) process
      { state.processes process with phase := .markerRemoved } := by
  rcases inPlace with notEffective | notOccupied | inPlace
  · subst notEffective
    exact .idle inv (by decide)
  · have kept : removeHolderMarker state.clock state.lock = state.lock := by
      cases isLock : state.lock with
      | none => rfl
      | some directory =>
        cases isMarker : directory.marker with
        | none =>
          rw [removeHolderMarker, isMarker]
          rfl
        | some marker => exact absurd ⟨directory, marker, isLock, isMarker⟩ notOccupied
    rw [kept, ite_self]
    exact .idle inv (by decide)
  · apply Harmless.cleanup inv inPlace (by decide)
    intro directory marker isLock isMarker
    cases effective with
    | false => exact isLock
    | true =>
      cases present : state.lock with
      | none =>
        rw [if_pos rfl, present] at isLock
        cases isLock
      | some own =>
        rw [if_pos rfl, present, removeHolderMarker] at isLock
        split at isLock
        · cases isLock
          cases isMarker
        · exact isLock

end Actions

/-! ### Steps and runs -/

section Runs

variable [DecidableEq Process] [DecidableEq Token]

omit [DecidableEq Process] in
/-- A step in place is harmless. -/
theorem ProcessStep.harmless (distinct : Function.Injective config.token)
    (inv : LockInv config state) {process : Process} {action : LockAction Process}
    {lock : Option (LockDirectory Process Token)} {entry : LockProcess Token}
    (inPlace : StepInPlace config state action)
    (stepped : ProcessStep config state process action lock entry) :
    Harmless config state lock process entry := by
  cases stepped with
  | mkdir _ => exact harmless_mkdir inv
  | write _ => exact harmless_write inv _ inPlace
  | removeAfterWrite _ => exact harmless_removeDirectory inv _ inPlace
  | readBack wasWritten => exact harmless_readBack inv wasWritten _ inPlace
  | removeMarker _ => exact harmless_removeMarker inv _ inPlace
  | removeDirectory _ => exact harmless_removeDirectory inv _ inPlace
  | refresh isHolding isHandle => exact harmless_refresh inv distinct isHolding isHandle _
  | release _ isHandle => exact harmless_release inv distinct isHandle _
  | reclaim _ => exact harmless_reclaim inv
  | crash => exact .idle inv (by decide)

omit [DecidableEq Process] [DecidableEq Token] in
/-- Locks only age when time passes. -/
theorem LockInv.tick (inv : LockInv config state) {elapsed : Rat} (forward : 0 ≤ elapsed) :
    LockInv config { state with clock := state.clock + elapsed } where
  standing := by
    intro process live
    apply inv.standing process
    constructor
    · exact live.phase
    · have young := live.young
      simp only [olderThan, decide_eq_false_iff_not, not_lt] at young ⊢
      linarith
  named := inv.named
  handles := inv.handles

theorem lockInv_step (distinct : Function.Injective config.token)
    (inv : LockInv config state) {action : LockAction Process}
    {after : LockState Process Token} (inPlace : StepInPlace config state action)
    (stepped : next config state action after) : LockInv config after := by
  rcases next_cases stepped with
    ⟨elapsed, _, forward, isAfter⟩ | ⟨process, lock, entry, _, isAfter, processStep⟩
  · rw [isAfter]
    exact inv.tick forward
  · rw [isAfter]
    exact (processStep.harmless distinct inv inPlace).keeps inv

theorem lockInv_run (distinct : Function.Injective config.token)
    {actions : List (LockAction Process)}
    (run : Run (next config) (StepInPlace config) initialLockState actions state) :
    LockInv config state := by
  have preserved : ∀ state action after, LockInv config state → StepInPlace config state action →
      next config state action after → LockInv config after :=
    fun _ _ _ inv inPlace stepped => lockInv_step distinct inv inPlace stepped
  exact run.invariant preserved lockInv_initial

/-! ### The loss of a handle -/

/-- A handle exists only from the readback on. -/
def HandleInv (state : LockState Process Token) : Prop :=
  ∀ process handle, (state.processes process).handle = some handle →
    (state.processes process).phase = .holding ∨ (state.processes process).phase = .finished

omit [DecidableEq Process] in
theorem ProcessStep.handle_phase {process : Process} {action : LockAction Process}
    {lock : Option (LockDirectory Process Token)} {entry : LockProcess Token}
    (stepped : ProcessStep config state process action lock entry)
    (inv : HandleInv state) {handle : MutexLockHandle Token}
    (isHandle : entry.handle = some handle) :
    entry.phase = .holding ∨ entry.phase = .finished := by
  have early : ∀ phase, (state.processes process).phase = phase → phase ≠ .holding →
      phase ≠ .finished → (state.processes process).handle ≠ some handle := by
    intro phase isPhase notHolding notFinished isSome
    rcases inv process handle isSome with holding | finished
    · exact notHolding (isPhase.symm.trans holding)
    · exact notFinished (isPhase.symm.trans finished)
  cases stepped with
  | mkdir phase =>
    have noHandle := early _ phase (by decide) (by decide)
    split at isHandle <;> exact absurd isHandle noHandle
  | write phase =>
    have noHandle := early _ phase (by decide) (by decide)
    split at isHandle <;> exact absurd isHandle noHandle
  | removeAfterWrite _ => exact .inr rfl
  | readBack phase =>
    have noHandle := early _ phase (by decide) (by decide)
    simp only [readBackResult] at isHandle ⊢
    split at isHandle
    · exact absurd isHandle noHandle
    · split
      · exact .inr rfl
      · exact .inl rfl
  | removeMarker phase => exact absurd isHandle (early _ phase (by decide) (by decide))
  | removeDirectory _ => exact .inr rfl
  | refresh phase _ => exact .inl phase
  | release _ _ => exact .inr rfl
  | reclaim phase => exact absurd isHandle (early _ phase (by decide) (by decide))
  | crash => exact .inr rfl

theorem handleInv_step {action : LockAction Process} {after : LockState Process Token}
    (inv : HandleInv state) (stepped : next config state action after) : HandleInv after := by
  rcases next_cases stepped with
    ⟨elapsed, _, _, isAfter⟩ | ⟨process, lock, entry, _, isAfter, processStep⟩
  · rw [isAfter]
    exact inv
  · rw [isAfter]
    intro other handle isHandle
    by_cases isOwn : other = process
    · subst isOwn
      rw [processes_set_self] at isHandle ⊢
      exact processStep.handle_phase inv isHandle
    · rw [processes_set_of_ne isOwn] at isHandle ⊢
      exact inv other handle isHandle

omit [DecidableEq Process] in
/-- A lost handle is neither replaced nor reset. -/
theorem ProcessStep.keeps_lost {process : Process} {action : LockAction Process}
    {lock : Option (LockDirectory Process Token)} {entry : LockProcess Token}
    (stepped : ProcessStep config state process action lock entry)
    (inv : HandleInv state) (lost : Lost state process) :
    ∃ handle, entry.handle = some handle ∧ handle.isLost = true := by
  obtain ⟨handle, isHandle, isLost⟩ := lost
  have late : ∀ phase, (state.processes process).phase = phase → phase = .holding ∨
      phase = .finished := by
    intro phase isPhase
    rw [← isPhase]
    exact inv process handle isHandle
  cases stepped with
  | mkdir phase => rcases late _ phase with isPhase | isPhase <;> cases isPhase
  | write phase => rcases late _ phase with isPhase | isPhase <;> cases isPhase
  | removeAfterWrite phase => rcases late _ phase with isPhase | isPhase <;> cases isPhase
  | readBack phase => rcases late _ phase with isPhase | isPhase <;> cases isPhase
  | removeMarker phase => rcases late _ phase with isPhase | isPhase <;> cases isPhase
  | removeDirectory phase => rcases late _ phase with isPhase | isPhase <;> cases isPhase
  | refresh _ isRefreshed =>
    rw [isHandle] at isRefreshed
    cases isRefreshed
    refine ⟨handle, ?_, isLost⟩
    rw [refreshResult, if_pos isLost]
  | release _ _ => exact ⟨handle, isHandle, isLost⟩
  | reclaim phase => rcases late _ phase with isPhase | isPhase <;> cases isPhase
  | crash => exact ⟨handle, isHandle, isLost⟩

theorem lost_step {action : LockAction Process} {after : LockState Process Token}
    {process : Process} (inv : HandleInv state) (lost : Lost state process)
    (stepped : next config state action after) : Lost after process := by
  rcases next_cases stepped with
    ⟨elapsed, _, _, isAfter⟩ | ⟨actor, lock, entry, _, isAfter, processStep⟩
  · rw [isAfter]
    exact lost
  · rw [isAfter, Lost]
    by_cases isOwn : process = actor
    · subst isOwn
      rw [processes_set_self]
      exact processStep.keeps_lost inv lost
    · rw [processes_set_of_ne isOwn]
      exact lost

/-- Once lost, lost in every later state, whatever the steps. -/
theorem lost_run {allowed : LockState Process Token → LockAction Process → Prop}
    {process : Process} {actions : List (LockAction Process)}
    {after : LockState Process Token} (inv : HandleInv state) (lost : Lost state process)
    (run : Run (next config) allowed state actions after) : Lost after process := by
  have preserved : ∀ (state : LockState Process Token) action after,
      HandleInv state ∧ Lost state process → allowed state action →
      next config state action after → HandleInv after ∧ Lost after process := by
    intro state action after both _ stepped
    exact ⟨handleInv_step both.1 stepped, lost_step both.1 both.2 stepped⟩
  exact (run.invariant preserved ⟨inv, lost⟩).2

theorem handleInv_run {allowed : LockState Process Token → LockAction Process → Prop}
    {actions : List (LockAction Process)}
    (run : Run (next config) allowed initialLockState actions state) : HandleInv state := by
  have preserved : ∀ (state : LockState Process Token) action after, HandleInv state →
      allowed state action → next config state action after → HandleInv after :=
    fun _ _ _ inv _ stepped => handleInv_step inv stepped
  apply run.invariant preserved
  intro process handle isHandle
  cases isHandle

/-! ### Mutual exclusion -/

namespace LockInv

omit [DecidableEq Process] [DecidableEq Token] in
/-- While the lock on the host is a process's and fresh, nobody else has one. -/
theorem alone (inv : LockInv config state) (distinct : Function.Injective config.token)
    {process : Process} (fresh : Fresh config state process) {other : Process}
    (different : other ≠ process) :
    ¬ Live config state other ∧ ¬ Marked config state other := by
  obtain ⟨directory, isLock, madeBy, _⟩ := fresh
  constructor
  · intro live
    obtain ⟨otherDirectory, isOther, otherMadeBy, _⟩ := inv.standing other live
    rw [isLock] at isOther
    cases isOther
    exact different (otherMadeBy.symm.trans madeBy)
  · intro marked
    have otherMadeBy := inv.inPlace_of_read distinct marked directory isLock
    exact different (otherMadeBy.symm.trans madeBy)

/-- A step of another process leaves a fresh lock as it is. -/
theorem keeps_fresh_lock (inv : LockInv config state)
    (distinct : Function.Injective config.token) {process : Process}
    (fresh : Fresh config state process) {action : LockAction Process}
    {after : LockState Process Token} (inPlace : StepInPlace config state action)
    (stepped : next config state action after) (foreign : action.actor ≠ some process) :
    after.lock = state.lock := by
  rcases next_cases stepped with
    ⟨elapsed, _, _, isAfter⟩ | ⟨actor, lock, entry, isActor, isAfter, processStep⟩
  · rw [isAfter]
  · rw [isAfter]
    rcases (processStep.harmless distinct inv inPlace).others with unchanged | noOther
    · exact unchanged
    · have different : process ≠ actor := by
        intro same
        exact foreign (same ▸ isActor)
      exact absurd fresh (noOther process different)

omit [DecidableEq Process] [DecidableEq Token] in
/-- A superseded holder's marker token is not on the host. -/
theorem not_read_of_superseded (inv : LockInv config state)
    (distinct : Function.Injective config.token) {process : Process}
    (superseded : Superseded state process) {handle : MutexLockHandle Token}
    (isHandle : (state.processes process).handle = some handle) :
    readHolderToken state.lock ≠ some handle.token := by
  intro read
  obtain ⟨directory, isLock, madeBy⟩ := superseded
  rw [inv.handles process handle isHandle] at read
  exact madeBy (inv.inPlace_of_read distinct read directory isLock)

/-- A superseded holder neither refreshes nor removes its successor's lock. -/
theorem keeps_successor_lock (inv : LockInv config state)
    (distinct : Function.Injective config.token) {process : Process}
    (superseded : Superseded state process) {action : LockAction Process}
    {after : LockState Process Token} (stepped : next config state action after)
    (holderStep : (∃ outcome, action = .refresh process outcome) ∨
      ∃ effective, action = .release process effective) : after.lock = state.lock := by
  rcases next_cases stepped with
    ⟨elapsed, _, _, isAfter⟩ | ⟨actor, lock, entry, _, isAfter, processStep⟩
  · rw [isAfter]
  · rw [isAfter]
    change lock = state.lock
    rcases holderStep with ⟨outcome, isRefresh⟩ | ⟨effective, isRelease⟩
    · subst isRefresh
      cases processStep with
      | refresh phase isHandle =>
        have unread := inv.not_read_of_superseded distinct superseded isHandle
        rcases @refreshResult_cases _ _ config state _ _ outcome with
          ⟨same, _⟩ | ⟨directory, marker, isLock, isMarker, isToken, _, _⟩
        · exact same
        · apply absurd _ unread
          rw [isLock, readHolderToken, Option.bind_some, isMarker, Option.bind_some, isToken]
    · subst isRelease
      cases processStep with
      | release phase isHandle =>
        have unread := inv.not_read_of_superseded distinct superseded isHandle
        rw [releaseCommand, if_neg unread, ite_self]

end LockInv

/-- In every run whose acquisitions work in place: what a process takes for its
young lock is on the host, a fresh lock excludes every other holder and survives
the steps of the others, a superseded holder leaves its successor's lock alone,
and a lost handle stays lost. -/
theorem flagLock_exclusive (distinct : Function.Injective config.token)
    {actions : List (LockAction Process)}
    (run : Run (next config) (StepInPlace config) initialLockState actions state) :
    (∀ process, Live config state process → Fresh config state process) ∧
    (∀ process other, Fresh config state process → other ≠ process →
      ¬ Live config state other ∧ ¬ Marked config state other) ∧
    (∀ process action after, Fresh config state process → StepInPlace config state action →
      next config state action after → action.actor ≠ some process →
      after.lock = state.lock) ∧
    (∀ process action after, Superseded state process → next config state action after →
      ((∃ outcome, action = .refresh process outcome) ∨
        ∃ effective, action = .release process effective) → after.lock = state.lock) ∧
    (∀ process more after, Lost state process →
      Run (next config) (fun _ _ => True) state more after → Lost after process) := by
  have inv := lockInv_run distinct run
  refine ⟨?present, ?alone, ?kept, ?successor, ?lost⟩
  case present =>
    intro process live
    exact inv.fresh_of_live live
  case alone =>
    intro process other fresh different
    exact inv.alone distinct fresh different
  case kept =>
    intro process action after fresh inPlace stepped foreign
    exact inv.keeps_fresh_lock distinct fresh inPlace stepped foreign
  case successor =>
    intro process action after superseded stepped holderStep
    exact inv.keeps_successor_lock distinct superseded stepped holderStep
  case lost =>
    intro process more after lost continued
    exact lost_run (handleInv_run run) lost continued

end Runs

/-! ### Two processes -/

/-- Two processes with supplied tokens and the default thresholds. -/
def twoProcesses : MutexLockConfig Bool Bool where
  token := id
  supplied _ := true
  timing := ⟨none, none, none⟩
  reclaim := ⟨14340, 239⟩
  guard := ⟨14340, 239⟩
  validated := by decide +kernel

/-- What a run leaves of a process: its phase, and whether its lock is old. -/
def outcome (state : LockState Bool Bool) (process : Bool) : LockPhase × Bool :=
  ((state.processes process).phase,
    olderThan twoProcesses.reclaim state.clock (state.processes process).stamp)

theorem live_of_outcome {state : LockState Bool Bool} {process : Bool}
    (isOutcome : outcome state process = (.holding, false)) : Live twoProcesses state process :=
  ⟨.inr (.inr (Prod.ext_iff.1 isOutcome).1), (Prod.ext_iff.1 isOutcome).2⟩

/-- After a crash of the first process its stale lock is reclaimed, and the
second one is live and alone. -/
theorem flagLock_exclusive_reclaimed :
    ∃ state : LockState Bool Bool, Live twoProcesses state true ∧
      ¬ Live twoProcesses state false ∧ ¬ Marked twoProcesses state false := by
  have ends : (runSteps (step twoProcesses) (StepInPlace twoProcesses) initialLockState
      [.mkdir false, .write false .done, .readBack false false, .crash false, .tick 14400,
        .reclaim true, .mkdir true, .write true .done, .readBack true false, .tick 60,
        .refresh true .answered]).map (outcome · true) = some (.holding, false) := by
    decide +kernel
  obtain ⟨state, ran, isOutcome⟩ := Option.map_eq_some_iff.mp ends
  have live := live_of_outcome isOutcome
  have exclusive := @flagLock_exclusive _ _ twoProcesses _ _ _ Function.injective_id _
    (Run.of_runSteps ran)
  exact ⟨state, live, exclusive.2.1 true false (exclusive.1 true live) (by decide)⟩

/-- A process overtaken between `mkdir` and its marker write overwrites the marker
of its successor: both hold the lock and both are young. -/
theorem flagLock_two_holders :
    ∃ (actions : List (LockAction Bool)) (state : LockState Bool Bool),
      Run (next twoProcesses) (fun _ _ => True) initialLockState actions state ∧
      outcome state true = (.holding, false) ∧ Live twoProcesses state true ∧
      outcome state false = (.holding, false) ∧ Live twoProcesses state false := by
  have ends : (runSteps (step twoProcesses) (fun _ _ => True) initialLockState
      [.mkdir false, .tick 14400, .reclaim true, .mkdir true, .write true .done,
        .readBack true false, .write false .done, .readBack false false]).map
      (fun state => (outcome state true, outcome state false)) =
        some ((.holding, false), (.holding, false)) := by
    decide +kernel
  obtain ⟨state, ran, isOutcome⟩ := Option.map_eq_some_iff.mp ends
  obtain ⟨first, second⟩ := Prod.ext_iff.mp isOutcome
  exact ⟨_, state, Run.of_runSteps ran, first, live_of_outcome first, second,
    live_of_outcome second⟩

end Paratix.Lock
