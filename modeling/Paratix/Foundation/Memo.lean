/-
Module: Paratix.Foundation.Memo
Purpose: Traces that a deterministic monitor accepts; traces of a memoised computation whose cache
  can be reset, and when it is resolved only once.
Main exports: Monitor, resolvedOnce_iff
-/
import Mathlib.Data.List.Basic

namespace Foundation

/-- A state that follows a trace, and the events allowed in it. -/
structure Monitor (ε : Type*) (κ : Type*) where
  step : κ → ε → κ
  allowed : κ → ε → Prop

namespace Monitor

variable {ε κ : Type*} (monitor : Monitor ε κ)

def after (state : κ) (events : List ε) : κ := events.foldl monitor.step state

def Accepts (state : κ) : List ε → Prop
  | [] => True
  | event :: rest => monitor.allowed state event ∧ Accepts (monitor.step state event) rest

@[simp] theorem after_nil (state : κ) : monitor.after state [] = state := rfl

@[simp] theorem after_cons (state : κ) (event : ε) (rest : List ε) :
    monitor.after state (event :: rest) = monitor.after (monitor.step state event) rest := rfl

@[simp] theorem after_append (state : κ) (events more : List ε) :
    monitor.after state (events ++ more) = monitor.after (monitor.after state events) more :=
  List.foldl_append

@[simp] theorem accepts_nil (state : κ) : monitor.Accepts state [] ↔ True := Iff.rfl

@[simp] theorem accepts_cons (state : κ) (event : ε) (rest : List ε) :
    monitor.Accepts state (event :: rest) ↔
      monitor.allowed state event ∧ monitor.Accepts (monitor.step state event) rest := Iff.rfl

@[simp] theorem accepts_append (state : κ) (events more : List ε) :
    monitor.Accepts state (events ++ more) ↔
      monitor.Accepts state events ∧ monitor.Accepts (monitor.after state events) more := by
  induction events generalizing state with
  | nil => simp
  | cons event rest ih => simp [ih, and_assoc]

/-- An accepted trace allows every event after the events before it. -/
theorem accepts_iff (state : κ) (events : List ε) :
    monitor.Accepts state events ↔ ∀ before event rest, events = before ++ event :: rest →
      monitor.allowed (monitor.after state before) event := by
  induction events generalizing state with
  | nil => simp
  | cons head tail ih =>
    rw [accepts_cons, ih]
    constructor
    · intro accepted before event rest split
      cases before with
      | nil =>
        cases split
        exact accepted.1
      | cons first others =>
        cases split
        exact accepted.2 others event rest rfl
    · intro everywhere
      refine ⟨everywhere [] head tail rfl, fun before event rest split => ?_⟩
      exact everywhere (head :: before) event rest (by rw [split, List.cons_append])

end Monitor

variable {ν : Type*}

/-- What is seen of one memoised computation; `none` is a rejection. -/
inductive MemoEvent (ν : Type*) where
  /-- the cache is given up for an empty one -/
  | reset
  | called (answer : Option ν)
  | read (answer : Option ν)
deriving DecidableEq

inductive MemoState (ν : Type*) where
  | empty
  /-- a call succeeded, and the reader that made it has not been answered yet -/
  | answered (value : ν)
  | cached (value : ν)

namespace MemoState

/-- The state of a cache between two reads. -/
def ofCache : Option ν → MemoState ν
  | none => .empty
  | some value => .cached value

/-- No reader waits. -/
def Settled : MemoState ν → Prop
  | .answered _ => False
  | _ => True

theorem settled_ofCache (cache : Option ν) : (ofCache cache).Settled := by
  cases cache with
  | none => trivial
  | some value => trivial

end MemoState

def memoStep : MemoState ν → MemoEvent ν → MemoState ν
  | _, .reset => .empty
  | _, .called (some value) => .answered value
  | .answered value, .read _ => .cached value
  | state, _ => state

/-- Only an empty cache makes a reader call, and a reader gets what its call or the
cache gives. -/
def memoAllowed : MemoState ν → MemoEvent ν → Prop
  | .empty, .reset => True
  | .empty, .called _ => True
  | .empty, .read answer => answer = none
  | .answered value, event => event = .read (some value)
  | .cached _, .reset => True
  | .cached _, .called _ => False
  | .cached value, .read answer => answer = some value

def memoMonitor : Monitor (MemoEvent ν) (MemoState ν) where
  step := memoStep
  allowed := memoAllowed

/-- The values of the successful calls. -/
def resolutions (trace : List (MemoEvent ν)) : List ν :=
  trace.filterMap fun
    | .called answer => answer
    | _ => none

/-- The values of the successful reads. -/
def readings (trace : List (MemoEvent ν)) : List ν :=
  trace.filterMap fun
    | .read answer => answer
    | _ => none

/-- One successful call at most, and one value for all readers. -/
def ResolvedOnce (trace : List (MemoEvent ν)) : Prop :=
  (resolutions trace).length ≤ 1 ∧
    ∀ value ∈ readings trace, ∀ other ∈ readings trace, value = other

/-- No reader succeeds after a reset that came after a successful read. -/
def NeverReread (trace : List (MemoEvent ν)) : Prop :=
  ∀ value other, ¬ List.Sublist [.read (some value), .reset, .read (some other)] trace

/-! ### Traces that the monitor accepts -/

theorem mem_readings {trace : List (MemoEvent ν)} {value : ν} :
    value ∈ readings trace ↔ MemoEvent.read (some value) ∈ trace := by
  unfold readings
  rw [List.mem_filterMap]
  constructor
  · rintro ⟨event, mem, isRead⟩
    cases event with
    | read answer =>
      cases isRead
      exact mem
    | called answer => cases isRead
    | reset => cases isRead
  · exact fun mem => ⟨_, mem, rfl⟩

/-- A successful read needs a cached value or a successful call. -/
theorem resolved_of_read {trace : List (MemoEvent ν)}
    (accepted : memoMonitor.Accepts .empty trace) {value : ν}
    (mem : MemoEvent.read (some value) ∈ trace) : resolutions trace ≠ [] := by
  induction trace with
  | nil => cases mem
  | cons event rest ih =>
    obtain ⟨allowed, restAccepted⟩ := accepted
    cases event with
    | called answer =>
      cases answer with
      | some answer => exact List.cons_ne_nil _ _
      | none =>
        rcases List.mem_cons.1 mem with same | later
        · cases same
        · exact ih restAccepted later
    | reset =>
      rcases List.mem_cons.1 mem with same | later
      · cases same
      · exact ih restAccepted later
    | read answer =>
      change answer = none at allowed
      subst allowed
      rcases List.mem_cons.1 mem with same | later
      · cases same
      · exact ih restAccepted later

/-- A cache can be given up between two reads. -/
theorem accepts_reset (cache : Option ν) : memoMonitor.Accepts (.ofCache cache) [.reset] := by
  cases cache with
  | none => exact ⟨trivial, trivial⟩
  | some value => exact ⟨trivial, trivial⟩

theorem after_reset (state : MemoState ν) : memoMonitor.after state [.reset] = .empty := by
  cases state with
  | _ => rfl

theorem accepts_after_reset {state : MemoState ν} {before after : List (MemoEvent ν)}
    (accepted : memoMonitor.Accepts state (before ++ .reset :: after)) :
    memoMonitor.Accepts .empty after := by
  rw [Monitor.accepts_append] at accepted
  exact accepted.2.2

/-- Without a successful read, and with no reader left waiting, nothing was resolved. -/
theorem resolutions_eq_nil {trace : List (MemoEvent ν)}
    (accepted : memoMonitor.Accepts .empty trace) (settled : (memoMonitor.after .empty trace).Settled)
    (unread : readings trace = []) : resolutions trace = [] := by
  induction trace with
  | nil => rfl
  | cons event rest ih =>
    obtain ⟨allowed, restAccepted⟩ := accepted
    cases event with
    | reset => exact ih restAccepted settled unread
    | read answer =>
      change answer = none at allowed
      subst allowed
      exact ih restAccepted settled unread
    | called answer =>
      cases answer with
      | none => exact ih restAccepted settled unread
      | some value =>
        exfalso
        cases rest with
        | nil => exact settled
        | cons next others =>
          have isRead : next = .read (some value) := restAccepted.1
          subst isRead
          cases unread

/-- A filled cache serves every reader until it is given up for good. -/
theorem served_by_cache {trace : List (MemoEvent ν)} {value : ν}
    (accepted : memoMonitor.Accepts (.cached value) trace)
    (settled : (memoMonitor.after (.cached value) trace).Settled)
    (kept : ∀ other, ¬ List.Sublist [.reset, .read (some other)] trace) :
    resolutions trace = [] ∧ ∀ other ∈ readings trace, other = value := by
  induction trace with
  | nil => exact ⟨rfl, nofun⟩
  | cons event rest ih =>
    obtain ⟨allowed, restAccepted⟩ := accepted
    have restKept := fun other within => kept other (List.Sublist.cons event within)
    cases event with
    | called answer => exact allowed.elim
    | read answer =>
      change answer = some value at allowed
      subst allowed
      obtain ⟨noCalls, same⟩ := ih restAccepted settled restKept
      exact ⟨noCalls, List.forall_mem_cons.2 ⟨rfl, same⟩⟩
    | reset =>
      have unread : readings rest = [] := by
        refine List.eq_nil_iff_forall_not_mem.2 fun other mem => kept other ?_
        exact List.Sublist.cons_cons _ (List.singleton_sublist.2 (mem_readings.1 mem))
      have noCalls : resolutions rest = [] := resolutions_eq_nil restAccepted settled unread
      refine ⟨noCalls, fun other mem => ?_⟩
      change other ∈ readings rest at mem
      rw [unread] at mem
      cases mem

theorem resolvedOnce_of_neverReread {trace : List (MemoEvent ν)}
    (accepted : memoMonitor.Accepts .empty trace) (settled : (memoMonitor.after .empty trace).Settled)
    (neverReread : NeverReread trace) : ResolvedOnce trace := by
  induction trace with
  | nil => exact ⟨Nat.zero_le _, nofun⟩
  | cons event rest ih =>
    obtain ⟨allowed, restAccepted⟩ := accepted
    have restNever : NeverReread rest := fun value other within =>
      neverReread value other (List.Sublist.cons event within)
    cases event with
    | reset => exact ih restAccepted settled restNever
    | read answer =>
      change answer = none at allowed
      subst allowed
      exact ih restAccepted settled restNever
    | called answer =>
      cases answer with
      | none => exact ih restAccepted settled restNever
      | some value =>
        cases rest with
        | nil => exact settled.elim
        | cons next others =>
          have isRead : next = .read (some value) := restAccepted.1
          subst isRead
          have kept (other : ν) : ¬ List.Sublist [.reset, .read (some other)] others :=
            fun within => restNever value other (List.Sublist.cons_cons _ within)
          obtain ⟨noCalls, same⟩ := served_by_cache restAccepted.2 settled kept
          have readingsEq : readings (.called (some value) :: .read (some value) :: others) =
              value :: readings others := rfl
          have resolutionsEq : resolutions (.called (some value) :: .read (some value) :: others) =
              value :: resolutions others := rfl
          rw [ResolvedOnce, readingsEq, resolutionsEq, noCalls]
          have allSame : ∀ other ∈ value :: readings others, other = value :=
            List.forall_mem_cons.2 ⟨rfl, same⟩
          exact ⟨Nat.le_refl _, fun one oneMem two twoMem =>
            (allSame one oneMem).trans (allSame two twoMem).symm⟩

/-- A memoised computation is resolved once exactly if nobody reads it again after its
cache was given up after a successful read. -/
theorem resolvedOnce_iff {trace : List (MemoEvent ν)} (accepted : memoMonitor.Accepts .empty trace)
    (settled : (memoMonitor.after .empty trace).Settled) :
    ResolvedOnce trace ↔ NeverReread trace := by
  refine ⟨fun once value other within => ?_, resolvedOnce_of_neverReread accepted settled⟩
  obtain ⟨before, tail, rfl, readBefore, resetAfter⟩ := List.cons_sublist_iff.1 within
  obtain ⟨middle, after, rfl, hasReset, readAfter⟩ := List.cons_sublist_iff.1 resetAfter
  obtain ⟨early, late, rfl⟩ := List.append_of_mem hasReset
  have first := resolved_of_read ((memoMonitor.accepts_append _ _ _).1 accepted).1 readBefore
  have split : before ++ (early ++ .reset :: late ++ after) =
      (before ++ early) ++ .reset :: (late ++ after) := by simp
  have laterRead : MemoEvent.read (some other) ∈ late ++ after :=
    List.mem_append_right _ (List.singleton_sublist.1 readAfter)
  have second := resolved_of_read (accepts_after_reset (split ▸ accepted)) laterRead
  have count := once.1
  have both : resolutions (before ++ (early ++ .reset :: late ++ after)) =
      resolutions before ++ (resolutions early ++ resolutions (late ++ after)) := by
    rw [split]
    simp [resolutions]
  rw [both, List.length_append, List.length_append] at count
  have firstPositive := List.length_pos_of_ne_nil first
  have secondPositive := List.length_pos_of_ne_nil second
  omega

end Foundation
