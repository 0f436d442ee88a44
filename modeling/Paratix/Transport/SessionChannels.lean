/-
Module: Paratix.Transport.SessionChannels
Purpose: The session channels that concurrent commands of one connection share: at
  most four at a time, handed over in the order of arrival.
Main exports: SessionChannels, sessionChannels_firstComeFirstServed
-/
import Mathlib.Data.Set.Card
import Paratix.Foundation.Run
import Paratix.Foundation.Semaphore

namespace Paratix.Transport

open Foundation

variable {α : Type}

/-! ### The counter and the queue -/

def MAX_CONCURRENT_SESSION_CHANNELS : Nat := 4

/-- A waiter is the `resolve` of a caller's wait promise. -/
structure SessionChannels (α : Type) where
  activeSessionChannels : Int
  sessionChannelWaiters : List α

/-- `true` is the source's `null`: the slot was claimed at once. -/
def SessionChannels.acquireSessionChannel (channels : SessionChannels α) (call : α) :
    Bool × SessionChannels α :=
  if channels.activeSessionChannels < MAX_CONCURRENT_SESSION_CHANNELS ∧
      channels.sessionChannelWaiters.length = 0 then
    (true, { channels with activeSessionChannels := channels.activeSessionChannels + 1 })
  else
    (false, { channels with sessionChannelWaiters := channels.sessionChannelWaiters ++ [call] })

/-- The waiter whose promise resolves, if any. -/
def SessionChannels.releaseSessionChannel (channels : SessionChannels α) :
    Option α × SessionChannels α :=
  match channels.sessionChannelWaiters with
  | next :: rest => (some next, { channels with sessionChannelWaiters := rest })
  | [] => (none, { channels with activeSessionChannels := channels.activeSessionChannels - 1 })

theorem SessionChannels.release_nobody {channels : SessionChannels α}
    (nobody : channels.sessionChannelWaiters = []) : channels.releaseSessionChannel =
      (none, { channels with activeSessionChannels := channels.activeSessionChannels - 1 }) := by
  rw [releaseSessionChannel, nobody]

theorem SessionChannels.release_next {channels : SessionChannels α} {next : α} {rest : List α}
    (isWaiting : channels.sessionChannelWaiters = next :: rest) : channels.releaseSessionChannel =
      (some next, { channels with sessionChannelWaiters := rest }) := by
  rw [releaseSessionChannel, isWaiting]

/-! ### Calls of `execPrepared` and `execRaw` -/

/-- How the body between the claim and the `finally` ended. -/
inductive Outcome where
  | failed
  | noClient
  | succeeded
deriving DecidableEq, Repr

/-- Where a call stands. Between `granted` and `running` its promise has resolved, but
its continuation has not run yet. -/
inductive Phase where
  | notCalled
  | waiting
  | granted
  | running
  | settled (outcome : Outcome)
deriving DecidableEq, Repr

def Phase.ownsSlot (phase : Phase) : Prop := phase = .granted ∨ phase = .running

/-- `arrived` and `granted` list the calls in the order of their claims and of their
grants; nothing in a run reads them. -/
structure Connection (α : Type) where
  channels : SessionChannels α
  phase : α → Phase
  arrived : List α
  granted : List α

/-- Both kinds of call claim a slot, await the wait promise if they got one, run their
body in a `try` and release the slot in its `finally`. -/
inductive Action (α : Type) where
  | call (call : α)
  | resume (call : α)
  | settle (call : α) (outcome : Outcome)

def newConnection : Connection α where
  channels := { activeSessionChannels := 0, sessionChannelWaiters := [] }
  phase _ := .notCalled
  arrived := []
  granted := []

section Steps

variable [DecidableEq α]

def grantNext (phase : α → Phase) : Option α → α → Phase
  | none => phase
  | some next => Function.update phase next .granted

namespace Connection

def step (connection : Connection α) : Action α → Option (Connection α)
  | .call call =>
    if connection.phase call = .notCalled then
      let claim := connection.channels.acquireSessionChannel call
      some
        { channels := claim.2
          phase := Function.update connection.phase call (if claim.1 then .running else .waiting)
          arrived := connection.arrived ++ [call]
          granted := connection.granted ++ if claim.1 then [call] else [] }
    else none
  | .resume call =>
    if connection.phase call = .granted then
      some { connection with phase := Function.update connection.phase call .running }
    else none
  | .settle call outcome =>
    if connection.phase call = .running then
      let release := connection.channels.releaseSessionChannel
      some
        { channels := release.2
          phase := grantNext (Function.update connection.phase call (.settled outcome)) release.1
          arrived := connection.arrived
          granted := connection.granted ++ release.1.toList }
    else none

end Connection

/-- A run of a connection, from any step to any other. -/
abbrev ConnectionRun : Connection α → List (Action α) → Connection α → Prop :=
  Run (fun before action after => before.step action = some after) fun _ _ => True

/-! ### The semaphore behind the counter -/

/-- The counter counts the calls that own a slot, resumed or not, and the queue holds
the calls that wait. -/
structure Simulates (connection : Connection α) (semaphore : Semaphore α) : Prop where
  counter : connection.channels.activeSessionChannels = semaphore.holders.length
  waiters : connection.channels.sessionChannelWaiters = semaphore.waiting
  owning : ∀ call, call ∈ semaphore.holders ↔ (connection.phase call).ownsSlot
  awaiting : ∀ call, call ∈ semaphore.waiting ↔ connection.phase call = .waiting

/-- Nobody is granted a slot before an earlier arrival. -/
structure Ordered (connection : Connection α) : Prop where
  inOrder : connection.arrived = connection.granted ++ connection.channels.sessionChannelWaiters
  once : connection.arrived.Nodup
  called : ∀ call, call ∈ connection.arrived ↔ connection.phase call ≠ .notCalled

namespace Simulates

variable {connection after : Connection α} {semaphore : Semaphore α}

omit [DecidableEq α] in
theorem newcomer (simulates : Simulates connection semaphore) {call : α}
    (isNew : connection.phase call = .notCalled) :
    call ∉ semaphore.holders ++ semaphore.waiting := by
  intro mem
  rcases List.mem_append.1 mem with holds | waits
  · have owns := (simulates.owning call).1 holds
    rw [isNew] at owns
    rcases owns with isGranted | isRunning
    · cases isGranted
    · cases isRunning
  · have isWaiting := (simulates.awaiting call).1 waits
    rw [isNew] at isWaiting
    cases isWaiting

omit [DecidableEq α] in
theorem claims_iff (simulates : Simulates connection semaphore) :
    (connection.channels.activeSessionChannels < MAX_CONCURRENT_SESSION_CHANNELS ∧
        connection.channels.sessionChannelWaiters.length = 0) ↔
      semaphore.holders.length < MAX_CONCURRENT_SESSION_CHANNELS ∧ semaphore.waiting = [] := by
  rw [simulates.counter, simulates.waiters, List.length_eq_zero_iff, Int.ofNat_lt]

/-- A call that arrives. -/
theorem call (simulates : Simulates connection semaphore) {call : α}
    (stepped : connection.step (.call call) = some after) :
    Simulates after (semaphore.acquire MAX_CONCURRENT_SESSION_CHANNELS call) := by
  simp only [Connection.step] at stepped
  split at stepped
  next isNew =>
    cases stepped
    have outside := simulates.newcomer isNew
    by_cases claims : connection.channels.activeSessionChannels < MAX_CONCURRENT_SESSION_CHANNELS ∧
        connection.channels.sessionChannelWaiters.length = 0
    · have isFree := simulates.claims_iff.1 claims
      unfold SessionChannels.acquireSessionChannel Semaphore.acquire
      rw [if_pos claims, if_pos isFree]
      constructor
      · simp [simulates.counter]
      · exact simulates.waiters
      · intro other
        by_cases same : other = call
        · subst same
          simp [Phase.ownsSlot]
        · simp [same, simulates.owning other]
      · intro other
        by_cases same : other = call
        · subst same
          simp [isFree.2]
        · simp [same, simulates.awaiting other]
    · have notFree := claims
      rw [simulates.claims_iff] at notFree
      unfold SessionChannels.acquireSessionChannel Semaphore.acquire
      rw [if_neg claims, if_neg notFree]
      constructor
      · exact simulates.counter
      · exact congrArg (· ++ [call]) simulates.waiters
      · intro other
        by_cases same : other = call
        · subst same
          have notHolding : other ∉ semaphore.holders := fun mem =>
            outside (List.mem_append_left _ mem)
          simp [notHolding, Phase.ownsSlot]
        · simp [same, simulates.owning other]
      · intro other
        by_cases same : other = call
        · subst same
          simp
        · simp [same, simulates.awaiting other]
  · cases stepped

/-- A continuation that runs changes neither the counter nor the queue. -/
theorem resume (simulates : Simulates connection semaphore) {call : α}
    (stepped : connection.step (.resume call) = some after) : Simulates after semaphore := by
  simp only [Connection.step] at stepped
  split at stepped
  next isGranted =>
    cases stepped
    refine ⟨simulates.counter, simulates.waiters, fun other => ?_, fun other => ?_⟩
    · by_cases same : other = call
      · subst same
        have holds := (simulates.owning other).2 (.inl isGranted)
        simp [holds, Phase.ownsSlot]
      · simp [same, simulates.owning other]
    · by_cases same : other = call
      · subst same
        have notWaiting : other ∉ semaphore.waiting := by
          rw [simulates.awaiting, isGranted]
          exact Phase.noConfusion
        simp [notWaiting]
      · simp [same, simulates.awaiting other]
  · cases stepped

/-- A call that ends, however it ends, hands its slot over or frees it. -/
theorem settle (simulates : Simulates connection semaphore)
    (fair : semaphore.Fair MAX_CONCURRENT_SESSION_CHANNELS) {call : α} {outcome : Outcome}
    (stepped : connection.step (.settle call outcome) = some after) :
    Simulates after (semaphore.release call) := by
  simp only [Connection.step] at stepped
  split at stepped
  next isRunning =>
    cases stepped
    have holds : call ∈ semaphore.holders := (simulates.owning call).2 (.inr isRunning)
    have distinctHolders := fair.distinct.of_append_left
    have oneLess : ((semaphore.holders.erase call).length : Int) + 1 =
        semaphore.holders.length := by
      rw [List.length_erase_of_mem holds]
      have := List.length_pos_of_mem holds
      omega
    have notWaiting : call ∉ semaphore.waiting := by
      rw [simulates.awaiting, isRunning]
      exact Phase.noConfusion
    cases isWaiting : semaphore.waiting with
    | nil =>
      have nobody := simulates.waiters.trans isWaiting
      rw [SessionChannels.release_nobody nobody, Semaphore.release_nobody call isWaiting]
      constructor
      · change connection.channels.activeSessionChannels - 1 = _
        rw [simulates.counter]
        exact Int.sub_eq_iff_eq_add.2 oneLess.symm
      · exact nobody
      · intro other
        rw [List.Nodup.mem_erase_iff distinctHolders, simulates.owning]
        by_cases same : other = call
        · subst same
          simp [grantNext, Phase.ownsSlot]
        · simp [grantNext, same]
      · intro other
        have others := simulates.awaiting other
        rw [isWaiting] at others
        by_cases same : other = call
        · subst same
          simp [grantNext]
        · simpa [grantNext, same] using others
    | cons next rest =>
      rw [isWaiting] at notWaiting
      have distinct := fair.distinct
      rw [isWaiting] at distinct
      have nextWaits : connection.phase next = .waiting := by
        rw [← simulates.awaiting, isWaiting]
        exact List.mem_cons_self
      have nextOnce : next ∉ rest := (List.nodup_cons.1 distinct.of_append_right).1
      rw [SessionChannels.release_next (simulates.waiters.trans isWaiting),
        Semaphore.release_next call isWaiting]
      constructor
      · change connection.channels.activeSessionChannels = _
        rw [simulates.counter, List.length_append, List.length_singleton, ← oneLess]
        rfl
      · rfl
      · intro other
        rw [List.mem_append, List.Nodup.mem_erase_iff distinctHolders, simulates.owning]
        by_cases isNext : other = next
        · subst isNext
          simp [grantNext, Phase.ownsSlot]
        · by_cases same : other = call
          · subst same
            simp [grantNext, isNext, Phase.ownsSlot]
          · simp [grantNext, isNext, same]
      · intro other
        have others := simulates.awaiting other
        rw [isWaiting, List.mem_cons] at others
        by_cases isNext : other = next
        · subst isNext
          simp [grantNext, nextOnce]
        · by_cases same : other = call
          · subst same
            have notInRest : other ∉ rest := fun mem => notWaiting (List.mem_cons_of_mem next mem)
            simp [grantNext, isNext, notInRest]
          · simpa [grantNext, isNext, same] using others
  · cases stepped

end Simulates

/-! ### The order of the grants -/

namespace Ordered

variable {connection after : Connection α}

theorem call (ordered : Ordered connection) {call : α}
    (stepped : connection.step (.call call) = some after) : Ordered after := by
  simp only [Connection.step] at stepped
  split at stepped
  next isNew =>
    cases stepped
    have notArrived : call ∉ connection.arrived := by
      rw [ordered.called]
      exact fun called => called isNew
    constructor
    · unfold SessionChannels.acquireSessionChannel
      rw [ordered.inOrder]
      split
      · next claims =>
        have nobody := List.length_eq_zero_iff.1 claims.2
        simp [nobody]
      · simp
    · exact List.nodup_append'.2 ⟨ordered.once, List.nodup_singleton _,
        List.disjoint_singleton.2 notArrived⟩
    · intro other
      by_cases same : other = call
      · subst same
        simp only [List.mem_append, List.mem_singleton, or_true, Function.update_self, true_iff]
        split
        · exact Phase.noConfusion
        · exact Phase.noConfusion
      · simp [same, ordered.called other]
  · cases stepped

theorem resume (ordered : Ordered connection) {call : α}
    (stepped : connection.step (.resume call) = some after) : Ordered after := by
  simp only [Connection.step] at stepped
  split at stepped
  next isGranted =>
    cases stepped
    refine ⟨ordered.inOrder, ordered.once, fun other => ?_⟩
    by_cases same : other = call
    · subst same
      have called : other ∈ connection.arrived := by
        rw [ordered.called, isGranted]
        exact Phase.noConfusion
      simp [called]
    · simp [same, ordered.called other]
  · cases stepped

theorem settle (ordered : Ordered connection) {call : α} {outcome : Outcome}
    (stepped : connection.step (.settle call outcome) = some after) : Ordered after := by
  simp only [Connection.step] at stepped
  split at stepped
  next isRunning =>
    cases stepped
    have callArrived : call ∈ connection.arrived := by
      rw [ordered.called, isRunning]
      exact Phase.noConfusion
    have called : ∀ other, other ∈ connection.arrived ↔
        Function.update connection.phase call (.settled outcome) other ≠ .notCalled := by
      intro other
      by_cases same : other = call
      · subst same
        simp [callArrived]
      · simp [same, ordered.called other]
    cases isWaiting : connection.channels.sessionChannelWaiters with
    | nil =>
      rw [SessionChannels.release_nobody isWaiting]
      refine ⟨?_, ordered.once, called⟩
      simpa using ordered.inOrder
    | cons next rest =>
      rw [SessionChannels.release_next isWaiting]
      have inOrder := ordered.inOrder
      rw [isWaiting] at inOrder
      refine ⟨?_, ordered.once, fun other => ?_⟩
      · simpa using inOrder
      · by_cases isNext : other = next
        · subst isNext
          have arrived : other ∈ connection.arrived := by
            rw [inOrder]
            exact List.mem_append_right _ List.mem_cons_self
          simp [grantNext, arrived]
        · simp [grantNext, isNext, called other]
  · cases stepped

end Ordered

/-! ### Runs -/

/-- Some fair semaphore stands behind the counter and the queue. -/
structure Served (connection : Connection α) : Prop where
  simulated : ∃ semaphore : Semaphore α, Simulates connection semaphore ∧
    semaphore.Fair MAX_CONCURRENT_SESSION_CHANNELS
  ordered : Ordered connection

omit [DecidableEq α] in
theorem served_newConnection : Served (newConnection : Connection α) where
  simulated := by
    refine ⟨Semaphore.idle, ⟨rfl, rfl, fun call => ?_, fun call => ?_⟩, .initially _⟩
    · simp [Semaphore.idle, newConnection, Phase.ownsSlot]
    · simp [Semaphore.idle, newConnection]
  ordered := by
    refine ⟨rfl, List.nodup_nil, fun call => ?_⟩
    simp [newConnection]

/-- Every step of a call is one of the semaphore's, or none. -/
theorem Served.step {connection after : Connection α} {action : Action α}
    (served : Served connection) (stepped : connection.step action = some after) :
    Served after := by
  obtain ⟨semaphore, simulates, fair⟩ := served.simulated
  cases action with
  | call call =>
    have isNew : connection.phase call = .notCalled := by
      simp only [Connection.step] at stepped
      split at stepped
      · assumption
      · cases stepped
    exact ⟨⟨_, simulates.call stepped, fair.acquire (simulates.newcomer isNew)⟩,
      served.ordered.call stepped⟩
  | resume call =>
    exact ⟨⟨_, simulates.resume stepped, fair⟩, served.ordered.resume stepped⟩
  | settle call outcome =>
    have isRunning : connection.phase call = .running := by
      simp only [Connection.step] at stepped
      split at stepped
      · assumption
      · cases stepped
    have holds := (simulates.owning call).2 (.inr isRunning)
    exact ⟨⟨_, simulates.settle fair stepped, fair.release holds⟩, served.ordered.settle stepped⟩

/-- At most four calls own a slot, a call waits only while four do, and the slots are
granted in the order of arrival, to nobody twice. -/
structure FirstComeFirstServed (connection : Connection α) : Prop where
  capped : {call | (connection.phase call).ownsSlot}.encard ≤ MAX_CONCURRENT_SESSION_CHANNELS
  full : ∀ waiter, connection.phase waiter = .waiting →
    {call | (connection.phase call).ownsSlot}.encard = MAX_CONCURRENT_SESSION_CHANNELS
  inOrder : connection.arrived = connection.granted ++ connection.channels.sessionChannelWaiters
  once : connection.arrived.Nodup
  queued : ∀ call, call ∈ connection.channels.sessionChannelWaiters ↔
    connection.phase call = .waiting
  granted : ∀ call, call ∈ connection.granted ↔
    connection.phase call ≠ .notCalled ∧ connection.phase call ≠ .waiting
  idle : (∀ call, connection.phase call = .notCalled ∨
      ∃ outcome, connection.phase call = .settled outcome) →
    connection.channels = { activeSessionChannels := 0, sessionChannelWaiters := [] }

theorem Served.firstComeFirstServed {connection : Connection α} (served : Served connection) :
    FirstComeFirstServed connection := by
  obtain ⟨semaphore, simulates, fair⟩ := served.simulated
  have ordered := served.ordered
  have owners : {call | (connection.phase call).ownsSlot}.encard = semaphore.holders.length := by
    have sameSet : {call | (connection.phase call).ownsSlot} =
        (semaphore.holders.toFinset : Set α) := by
      ext call
      simp [simulates.owning]
    rw [sameSet, Set.encard_coe_eq_coe_finsetCard,
      List.toFinset_card_of_nodup fair.distinct.of_append_left]
  have queued : ∀ call, call ∈ connection.channels.sessionChannelWaiters ↔
      connection.phase call = .waiting := by
    intro call
    rw [simulates.waiters, simulates.awaiting]
  constructor
  · rw [owners]
    exact_mod_cast fair.within
  · intro waiter isWaiting
    rw [owners]
    have waits := (simulates.awaiting waiter).2 isWaiting
    exact congrArg Nat.cast (fair.full (List.ne_nil_of_mem waits))
  · exact ordered.inOrder
  · exact ordered.once
  · exact queued
  · intro call
    have arrived := ordered.called call
    have once := ordered.once
    rw [ordered.inOrder] at arrived once
    rw [← arrived, List.mem_append, ne_eq, ← queued]
    have apart := List.disjoint_of_nodup_append once
    constructor
    · exact fun isGranted => ⟨.inl isGranted, fun waits => apart isGranted waits⟩
    · rintro ⟨either, notWaiting⟩
      exact either.resolve_right notWaiting
  · intro finished
    have nobody : ∀ call, call ∉ semaphore.holders ∧ call ∉ semaphore.waiting := by
      intro call
      rw [simulates.owning, simulates.awaiting]
      rcases finished call with isNew | ⟨outcome, isSettled⟩
      · simp [isNew, Phase.ownsSlot]
      · simp [isSettled, Phase.ownsSlot]
    have noHolder := List.eq_nil_iff_forall_not_mem.2 fun call => (nobody call).1
    have noWaiter := List.eq_nil_iff_forall_not_mem.2 fun call => (nobody call).2
    have counter := simulates.counter
    have waiters := simulates.waiters
    rw [noHolder] at counter
    rw [noWaiter] at waiters
    rcases isChannels : connection.channels with ⟨active, queue⟩
    rw [isChannels] at counter waiters
    cases counter
    cases waiters
    rfl

/-- In every state that concurrent calls reach, in any order of their steps. -/
theorem sessionChannels_firstComeFirstServed {actions : List (Action α)}
    {connection : Connection α} (run : ConnectionRun newConnection actions connection) :
    FirstComeFirstServed connection := by
  refine (run.invariant ?_ served_newConnection).firstComeFirstServed
  exact fun _ _ _ served _ stepped => served.step stepped

end Steps

/-- Five calls: the fifth waits, gets the slot of the first, which found no client, and
runs. -/
theorem fifth_call_served :
    ∃ connection : Connection Nat, connection.granted = [0, 1, 2, 3, 4] ∧
      FirstComeFirstServed connection := by
  refine ⟨_, ?_, @sessionChannels_firstComeFirstServed Nat _
    [.call 0, .call 1, .call 2, .call 3, .call 4, .settle 0 .noClient, .resume 4] _
    (Run.of_runSteps rfl)⟩
  rfl

/-! ### Waiting -/

section Waiting

variable [DecidableEq α] {connection after : Connection α} {waiter : α}

def Action.settles : Action α → Bool
  | .settle _ _ => true
  | _ => false

/-- A waiter is granted a slot, or stands one place further ahead after each call that ends. -/
theorem Connection.step_waiter {action : Action α} (stepped : connection.step action = some after)
    (isWaiting : waiter ∈ connection.channels.sessionChannelWaiters) :
    waiter ∈ after.granted ∨ waiter ∈ after.channels.sessionChannelWaiters ∧
      after.channels.sessionChannelWaiters.idxOf waiter + [action].countP Action.settles =
        connection.channels.sessionChannelWaiters.idxOf waiter := by
  cases action with
  | call call =>
    simp only [step, Option.ite_none_right_eq_some, Option.some.injEq] at stepped
    obtain ⟨_, rfl⟩ := stepped
    unfold SessionChannels.acquireSessionChannel
    split
    · exact .inr ⟨isWaiting, rfl⟩
    · exact .inr ⟨List.mem_append_left _ isWaiting, List.idxOf_append_of_mem isWaiting⟩
  | resume call =>
    simp only [step, Option.ite_none_right_eq_some, Option.some.injEq] at stepped
    obtain ⟨_, rfl⟩ := stepped
    exact .inr ⟨isWaiting, rfl⟩
  | settle call outcome =>
    simp only [step, Option.ite_none_right_eq_some, Option.some.injEq] at stepped
    obtain ⟨_, rfl⟩ := stepped
    cases queue : connection.channels.sessionChannelWaiters with
    | nil =>
      rw [queue] at isWaiting
      cases isWaiting
    | cons next rest =>
      rw [queue] at isWaiting
      rw [SessionChannels.release_next queue]
      by_cases isNext : waiter = next
      · exact .inl (by simp [isNext])
      · have inRest := (List.mem_cons.1 isWaiting).resolve_left isNext
        exact .inr ⟨inRest, (List.idxOf_cons_ne _ (Ne.symm isNext)).symm⟩

theorem Connection.granted_step {action : Action α} (stepped : connection.step action = some after)
    (isGranted : waiter ∈ connection.granted) : waiter ∈ after.granted := by
  cases action <;>
    simp only [step, Option.ite_none_right_eq_some, Option.some.injEq] at stepped <;>
    obtain ⟨_, rfl⟩ := stepped <;> simp [isGranted]

theorem run_waiter {more : List (Action α)} (run : ConnectionRun connection more after)
    (isWaiting : waiter ∈ connection.channels.sessionChannelWaiters) :
    waiter ∈ after.granted ∨ waiter ∈ after.channels.sessionChannelWaiters ∧
      after.channels.sessionChannelWaiters.idxOf waiter + more.countP Action.settles =
        connection.channels.sessionChannelWaiters.idxOf waiter := by
  induction run with
  | nil => exact .inr ⟨isWaiting, rfl⟩
  | cons _ stepped rest ih =>
    rcases Connection.step_waiter stepped isWaiting with isGranted | ⟨still, ahead⟩
    · have kept : ∀ (before : Connection α) action after, waiter ∈ before.granted → True →
          before.step action = some after → waiter ∈ after.granted :=
        fun _ _ _ isGranted _ stepped => Connection.granted_step stepped isGranted
      exact .inl (rest.invariant kept isGranted)
    · rcases ih still with isGranted | ⟨waits, further⟩
      · exact .inl isGranted
      · refine .inr ⟨waits, ?_⟩
        rw [List.countP_cons, ← ahead, ← further, List.countP_singleton]
        omega

/-- While a call waits, some other call can go on, and the waiting call has its slot as soon as
more calls have ended than stand before it. -/
theorem waiting_call_granted {actions : List (Action α)}
    (run : ConnectionRun newConnection actions connection)
    (isWaiting : connection.phase waiter = .waiting) :
    (∃ call, (connection.step (.resume call)).isSome ∨
      ∀ outcome, (connection.step (.settle call outcome)).isSome) ∧
    ∀ more after, ConnectionRun connection more after →
      connection.channels.sessionChannelWaiters.idxOf waiter < more.countP Action.settles →
      waiter ∈ after.granted := by
  have served : Served connection :=
    run.invariant (fun _ _ _ served _ stepped => served.step stepped) served_newConnection
  have fcfs := served.firstComeFirstServed
  constructor
  · have owners : {call | (connection.phase call).ownsSlot}.Nonempty := by
      rw [Set.nonempty_iff_ne_empty]
      intro nobody
      have full := fcfs.full waiter isWaiting
      rw [nobody, Set.encard_empty] at full
      cases full
    obtain ⟨call, isGranted | isRunning⟩ := owners
    · exact ⟨call, .inl (by simp [Connection.step, isGranted])⟩
    · exact ⟨call, .inr fun outcome => by simp [Connection.step, isRunning]⟩
  · intro more after continued enough
    rcases run_waiter continued ((fcfs.queued waiter).2 isWaiting) with isGranted | ⟨_, ahead⟩
    · exact isGranted
    · omega

theorem waiting_call_granted_fifth : ∃ connection : Connection Nat, 4 ∈ connection.granted :=
  ⟨_, (@waiting_call_granted Nat _ _ 4 [.call 0, .call 1, .call 2, .call 3, .call 4]
    (Run.of_runSteps rfl) rfl).2 [.settle 2 .failed] _ (Run.of_runSteps rfl) (by decide)⟩

end Waiting

end Paratix.Transport
