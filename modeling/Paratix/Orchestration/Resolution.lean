/-
Module: Paratix.Orchestration.Resolution
Purpose: Memo cells during a run: which cell stands for an emitted entry, and that the
  calls, reads and merges of an entry follow the rules of one cache.
Main exports: memoEvents, memoizes_mergeEnvironmentFromMeta
-/
import Paratix.Foundation.Memo
import Paratix.Orchestration.Rows

namespace Paratix.Orchestration

open Foundation Foundation.Effect

variable {σ α β : Type}

/-! ### What is seen of one entry -/

def Event.memoEvent (entry : Nat) : Event σ → Option (MemoEvent Scalar)
  | .merged own => if own = entry then some .reset else none
  | .called _ (some own) answer _ _ => if own = entry then some (.called answer) else none
  | .read _ _ (some own) outcome => if own = entry then some (.read outcome.toOption) else none
  | _ => none

/-- The merges, calls and reads of one emitted entry. -/
def memoEvents (entry : Nat) (events : List (Event σ)) : List (MemoEvent Scalar) :=
  events.filterMap (Event.memoEvent entry)

theorem memoEvents_append (entry : Nat) (events more : List (Event σ)) :
    memoEvents entry (events ++ more) = memoEvents entry events ++ memoEvents entry more :=
  List.filterMap_append

/-! ### The cells of an entry -/

/-- The entries behind the cells. -/
def cellEntries (state : RunState σ) : List (EnvironmentMetaEntry σ) :=
  state.cells.map MemoCell.entry

/-- The cache of the newest cell of an entry. -/
def cacheOf (cells : List (MemoCell σ)) (entry : Nat) : Option Scalar :=
  cells.foldl (fun cached cell =>
    if cell.entry.identity = entry then cell.cachedResolution else cached) none

def memoState (state : RunState σ) (entry : Nat) : MemoState Scalar :=
  .ofCache (cacheOf state.cells entry)

/-- `cell` is the last cell that was made for `entry`. -/
def Newest (state : RunState σ) (cell : Nat) (entry : EnvironmentMetaEntry σ) : Prop :=
  ∃ before later, cellEntries state = before ++ entry :: later ∧ before.length = cell ∧
    ∀ own ∈ later, own.identity ≠ entry.identity

theorem cacheOf_other {cells : List (MemoCell σ)} {entry : Nat}
    (other : ∀ cell ∈ cells, cell.entry.identity ≠ entry) (cached : Option Scalar) :
    cells.foldl (fun cached cell =>
      if cell.entry.identity = entry then cell.cachedResolution else cached) cached = cached := by
  induction cells generalizing cached with
  | nil => rfl
  | cons cell rest ih =>
    rw [List.foldl_cons, if_neg (other cell List.mem_cons_self)]
    exact ih (fun own mem => other own (List.mem_cons_of_mem _ mem)) cached

theorem cacheOf_snoc (cells : List (MemoCell σ)) (cell : MemoCell σ) (entry : Nat) :
    cacheOf (cells ++ [cell]) entry =
      if cell.entry.identity = entry then cell.cachedResolution else cacheOf cells entry := by
  unfold cacheOf
  rw [List.foldl_append]
  rfl

theorem cacheOf_newest {before later : List (MemoCell σ)} {memo : MemoCell σ}
    (newest : ∀ cell ∈ later, cell.entry.identity ≠ memo.entry.identity) :
    cacheOf (before ++ memo :: later) memo.entry.identity = memo.cachedResolution := by
  unfold cacheOf
  rw [List.foldl_append, List.foldl_cons, if_pos rfl]
  exact cacheOf_other newest _

theorem cacheOf_set {before later : List (MemoCell σ)} {memo : MemoCell σ} {entry : Nat}
    (apart : memo.entry.identity ≠ entry) (cached : Option Scalar) :
    cacheOf (before ++ { memo with cachedResolution := cached } :: later) entry =
      cacheOf (before ++ memo :: later) entry := by
  unfold cacheOf
  rw [List.foldl_append, List.foldl_append, List.foldl_cons, List.foldl_cons, if_neg apart,
    if_neg apart]

/-- The cell in the state, with the cells before and after it. -/
theorem Newest.split {state : RunState σ} {cell : Nat} {entry : EnvironmentMetaEntry σ}
    (newest : Newest state cell entry) :
    ∃ before memo later, state.cells = before ++ memo :: later ∧ before.length = cell ∧
      memo.entry = entry ∧ ∀ own ∈ later, own.entry.identity ≠ entry.identity := by
  obtain ⟨before, later, isSplit, atCell, others⟩ := newest
  obtain ⟨cellsBefore, rest, isCells, rfl, isRest⟩ := List.map_eq_append_iff.1 isSplit
  obtain ⟨memo, cellsLater, rfl, isEntry, rfl⟩ := List.map_eq_cons_iff.1 isRest
  exact ⟨cellsBefore, memo, cellsLater, isCells, by rwa [List.length_map] at atCell, isEntry,
    fun own mem => others _ (List.mem_map_of_mem mem)⟩

/-! ### What a run does to the cells -/

/-- Every cell stands for an entry that was emitted. -/
def Numbered (state : RunState σ) : Prop :=
  ∀ entry ∈ cellEntries state, entry.identity < state.emitted

/-- Cells were only added, for entries from `floor` on. -/
structure Grown (floor : Nat) (before after : RunState σ) : Prop where
  added : ∃ added, cellEntries after = cellEntries before ++ added ∧
    ∀ entry ∈ added, floor ≤ entry.identity
  emitted : before.emitted ≤ after.emitted
  numbered : Numbered after

/-- The events of every entry follow the rules of its cache. -/
def Traced (before : RunState σ) (events : List (Event σ)) (after : RunState σ) : Prop :=
  ∀ entry, memoMonitor.Accepts (memoState before entry) (memoEvents entry events) ∧
    memoMonitor.after (memoState before entry) (memoEvents entry events) = memoState after entry

/-- Only one entry is concerned. -/
theorem traced_entry (entry : Nat) {before after : RunState σ} {events : List (Event σ)}
    (accepted : memoMonitor.Accepts (memoState before entry) (memoEvents entry events))
    (ends : memoMonitor.after (memoState before entry) (memoEvents entry events) =
      memoState after entry)
    (others : ∀ other, entry ≠ other →
      memoEvents other events = [] ∧ memoState after other = memoState before other) :
    Traced before events after := by
  intro other
  by_cases same : entry = other
  · subst same
    exact ⟨accepted, ends⟩
  · obtain ⟨nothing, sameState⟩ := others other same
    rw [nothing, sameState]
    exact ⟨trivial, rfl⟩

theorem Grown.refl {floor : Nat} {state : RunState σ} (numbered : Numbered state) :
    Grown floor state state :=
  ⟨⟨[], (List.append_nil _).symm, nofun⟩, le_refl _, numbered⟩

theorem Grown.trans {floor : Nat} {first middle last : RunState σ} (start : Grown floor first middle)
    (continued : Grown floor middle last) : Grown floor first last := by
  obtain ⟨added, isMiddle, above⟩ := start.added
  obtain ⟨more, isLast, moreAbove⟩ := continued.added
  refine ⟨⟨added ++ more, ?_, ?_⟩, start.emitted.trans continued.emitted, continued.numbered⟩
  · rw [isLast, isMiddle, List.append_assoc]
  · exact List.forall_mem_append.2 ⟨above, moreAbove⟩

theorem Grown.lower {floor lower : Nat} {before after : RunState σ} (grown : Grown floor before after)
    (below : lower ≤ floor) : Grown lower before after := by
  obtain ⟨added, isAfter, above⟩ := grown.added
  exact ⟨⟨added, isAfter, fun entry mem => below.trans (above entry mem)⟩, grown.emitted,
    grown.numbered⟩

/-- New cells for later entries leave the newest cell of an entry the newest. -/
theorem Grown.newest {floor cell : Nat} {before after : RunState σ}
    {entry : EnvironmentMetaEntry σ} (grown : Grown floor before after)
    (newest : Newest before cell entry) (below : entry.identity < floor) :
    Newest after cell entry := by
  obtain ⟨added, isAfter, above⟩ := grown.added
  obtain ⟨early, later, isBefore, atCell, others⟩ := newest
  refine ⟨early, later ++ added, ?_, atCell, List.forall_mem_append.2 ⟨others, ?_⟩⟩
  · rw [isAfter, isBefore, List.append_assoc, List.cons_append]
  · exact fun own mem => Nat.ne_of_gt (below.trans_le (above own mem))

theorem Traced.trail : Trail (Traced (σ := σ)) where
  refl state entry := ⟨trivial, rfl⟩
  trans start continued entry := by
    rw [memoEvents_append, Monitor.accepts_append, Monitor.after_append, (start entry).2]
    exact ⟨⟨(start entry).1, (continued entry).1⟩, (continued entry).2⟩

/-! ### Computations on the cells -/

/-- From `state` the computation makes cells only for entries from `floor` on, its events
follow the rules of the caches, and the value it returns satisfies `post`. -/
def Memoizes (floor : Nat) (state : RunState σ) (computation : Async σ α)
    (post : α → RunState σ → Prop) : Prop :=
  Numbered state → computation.After state fun result after events =>
    Grown floor state after ∧ Traced state events after ∧
      ∀ value, result = some value → post value after

namespace Memoizes

variable {floor : Nat} {state : RunState σ}

theorem pure {value : α} {post : α → RunState σ → Prop} (holds : post value state) :
    Memoizes floor state (Pure.pure value) post := by
  intro numbered
  refine ⟨.refl numbered, Traced.trail.refl state, ?_⟩
  rintro _ ⟨⟩
  exact holds

theorem throw {post : α → RunState σ → Prop} : Memoizes floor state Effect.throw post :=
  fun numbered => ⟨.refl numbered, Traced.trail.refl state, nofun⟩

theorem mono {computation : Async σ α} {post weaker : α → RunState σ → Prop}
    (memoizes : Memoizes floor state computation post)
    (implies : ∀ value after, Grown floor state after → post value after → weaker value after) :
    Memoizes floor state computation weaker := fun numbered =>
  (memoizes numbered).mono fun _ after _ held => ⟨held.1, held.2.1, fun value isValue =>
    implies value after held.1 (held.2.2 value isValue)⟩

theorem lower {computation : Async σ α} {post : α → RunState σ → Prop} {below : Nat}
    (memoizes : Memoizes floor state computation post) (isBelow : below ≤ floor) :
    Memoizes below state computation post := fun numbered =>
  (memoizes numbered).mono fun _ _ _ held => ⟨held.1.lower isBelow, held.2⟩

theorem bind {first : Async σ α} {next : α → Async σ β} {middle : α → RunState σ → Prop}
    {post : β → RunState σ → Prop} (memoizes : Memoizes floor state first middle)
    (continued : ∀ value between, Grown floor state between → middle value between →
      Memoizes floor between (next value) post) :
    Memoizes floor state (first >>= next) post := by
  intro numbered
  refine After.bind (memoizes numbered) (fun _ _ held => ⟨held.1, held.2.1, nofun⟩) ?_
  rintro value between events ⟨grown, traced, holds⟩
  refine (continued value between grown (holds value rfl) grown.numbered).mono ?_
  rintro result after more ⟨further, tracedMore, post⟩
  exact ⟨grown.trans further, Traced.trail.trans traced tracedMore, post⟩

theorem attempt {computation : Async σ α} {post : α → RunState σ → Prop}
    (memoizes : Memoizes floor state computation post) :
    Memoizes floor state computation.attempt fun result after =>
      ∀ value, result = some value → post value after := by
  intro numbered
  obtain ⟨grown, traced, holds⟩ := memoizes numbered
  refine ⟨grown, traced, ?_⟩
  rintro _ ⟨⟩ value isValue
  exact holds value isValue

theorem ite {condition : Prop} [Decidable condition] {yes no : Async σ α}
    {post : α → RunState σ → Prop} (memoizesYes : condition → Memoizes floor state yes post)
    (memoizesNo : ¬ condition → Memoizes floor state no post) :
    Memoizes floor state (if condition then yes else no) post := by
  split
  · exact memoizesYes ‹_›
  · exact memoizesNo ‹_›

theorem get : Memoizes floor state Effect.get fun value after => value = state ∧ after = state := by
  intro numbered
  refine ⟨.refl numbered, Traced.trail.refl state, ?_⟩
  rintro _ ⟨⟩
  exact ⟨rfl, rfl⟩

end Memoizes

/-! ### Computations that do not touch the cells -/

/-- The cells are the same, and no event concerns an entry. -/
def Idle (before : RunState σ) (events : List (Event σ)) (after : RunState σ) : Prop :=
  after.cells = before.cells ∧ after.emitted = before.emitted ∧
    ∀ event ∈ events, ∀ entry, event.memoEvent entry = none

theorem Idle.trail : Trail (Idle (σ := σ)) where
  refl _ := ⟨rfl, rfl, nofun⟩
  trans start continued := ⟨continued.1.trans start.1, continued.2.1.trans start.2.1,
    List.forall_mem_append.2 ⟨start.2.2, continued.2.2⟩⟩

theorem idle_report {event : Event σ} (outside : ∀ entry, event.memoEvent entry = none) :
    Keeps Idle (Effect.report event) :=
  .report fun _ => ⟨rfl, rfl, List.forall_mem_singleton.2 outside⟩

theorem idle_reportBody (event : BodyEvent) : Keeps Idle (reportBody (σ := σ) event) :=
  fun _ => ⟨rfl, rfl, List.forall_mem_singleton.2 fun _ => rfl⟩

theorem idle_modify {change : RunState σ → RunState σ}
    (cells : ∀ state, (change state).cells = state.cells)
    (emitted : ∀ state, (change state).emitted = state.emitted) :
    Keeps Idle (Effect.modify change) :=
  .modify fun state => ⟨cells state, emitted state, nofun⟩

theorem idle_world (state : RunState σ) (next : σ) : Idle state [] { state with world := next } :=
  ⟨rfl, rfl, nofun⟩

/-- Nothing happens to the cells. -/
theorem Memoizes.idle {floor : Nat} {state : RunState σ} {computation : Async σ α}
    (idle : Keeps Idle computation) : Memoizes floor state computation fun _ after =>
      after.cells = state.cells ∧ after.emitted = state.emitted := by
  intro numbered
  refine (idle state).mono ?_
  rintro result after events ⟨sameCells, sameEmitted, outside⟩
  have sameEntries : cellEntries after = cellEntries state := congrArg (List.map _) sameCells
  refine ⟨⟨⟨[], ?_, nofun⟩, sameEmitted.ge, ?_⟩, fun entry => ?_, fun _ _ =>
    ⟨sameCells, sameEmitted⟩⟩
  · rw [sameEntries, List.append_nil]
  · rw [Numbered, sameEntries, sameEmitted]
    exact numbered
  · have nothing : memoEvents entry events = [] :=
      List.filterMap_eq_nil_iff.2 fun event mem => outside event mem entry
    rw [nothing, memoState, memoState, sameCells]
    exact ⟨trivial, rfl⟩

/-! ### Reading -/

section Reading

variable {phase : Phase} {env : Environment σ} {key : Name} {cell : Nat}
  {state : RunState σ} {memo : MemoCell σ}

/-- A cached value is read without a call. -/
theorem readEnvironment_cached (bound : env key = some (.memoized cell))
    (lookup : state.cells[cell]? = some memo) {value : Scalar}
    (cached : memo.cachedResolution = some value) : (readEnvironment phase env key).run state =
      { value := some (.ok value), state := state
        events := [.read phase key (some memo.entry.identity) (.ok value)] } := by
  simp [readEnvironment, run, bound, Bind.bind, Effect.get, Effect.attempt,
    resolveEnvironmentValue, resolveMemoized, lookup, cached, Pure.pure, Effect.report,
    memoizedEntry]

/-- What the value function of an entry answers, if it is accepted. -/
def EnvironmentMetaEntry.answer (entry : EnvironmentMetaEntry σ) (world : σ) : Option Scalar :=
  (entry.resolve world).1.filter (validateResolvedMetaValue entry)

theorem readEnvironment_called (bound : env key = some (.memoized cell))
    (lookup : state.cells[cell]? = some memo) (uncached : memo.cachedResolution = none)
    {value : Scalar} (answered : memo.entry.answer state.world = some value) :
    (readEnvironment phase env key).run state =
      { value := some (.ok value)
        state := { state with
          world := (memo.entry.resolve state.world).2
          cells := state.cells.set cell { memo with cachedResolution := some value } }
        events :=
          [.called phase (some memo.entry.identity) (some value) state.world
              (memo.entry.resolve state.world).2,
            .read phase key (some memo.entry.identity) (.ok value)] } := by
  unfold EnvironmentMetaEntry.answer at answered
  simp [readEnvironment, run, bound, Bind.bind, Effect.get, Effect.attempt,
    resolveEnvironmentValue, resolveMemoized, lookup, uncached, Pure.pure, Effect.report,
    memoizedEntry, callProvider, Effect.modify, Effect.rethrow, answered]

theorem readEnvironment_rejected (bound : env key = some (.memoized cell))
    (lookup : state.cells[cell]? = some memo) (uncached : memo.cachedResolution = none)
    (rejected : memo.entry.answer state.world = none) : (readEnvironment phase env key).run state =
      { value := some (.error .rejected)
        state := { state with world := (memo.entry.resolve state.world).2 }
        events :=
          [.called phase (some memo.entry.identity) none state.world
              (memo.entry.resolve state.world).2,
            .read phase key (some memo.entry.identity) (.error .rejected)] } := by
  unfold EnvironmentMetaEntry.answer at rejected
  simp [readEnvironment, run, bound, Bind.bind, Effect.get, Effect.attempt,
    resolveEnvironmentValue, resolveMemoized, lookup, uncached, Pure.pure, Effect.report,
    memoizedEntry, callProvider, Effect.modify, Effect.rethrow, Effect.throw, rejected]

end Reading

/-- Every memoised binding is the newest cell of an entry below `bound`. -/
def CurrentBelow (bound : Nat) (state : RunState σ) (env : Environment σ) : Prop :=
  ∀ key cell, env key = some (.memoized cell) →
    ∃ entry, Newest state cell entry ∧ entry.identity < bound

theorem CurrentBelow.grown {floor : Nat} {before after : RunState σ} {env : Environment σ}
    (current : CurrentBelow floor before env) (grown : Grown floor before after) :
    CurrentBelow floor after env := fun key cell isBound => by
  obtain ⟨entry, newest, below⟩ := current key cell isBound
  exact ⟨entry, grown.newest newest below, below⟩

theorem CurrentBelow.raise {bound higher : Nat} {state : RunState σ} {env : Environment σ}
    (current : CurrentBelow bound state env) (isBelow : bound ≤ higher) :
    CurrentBelow higher state env := fun key cell isBound => by
  obtain ⟨entry, newest, below⟩ := current key cell isBound
  exact ⟨entry, newest, below.trans_le isBelow⟩

theorem idle_callProvider (phase : Phase) (accepts : Scalar → Bool) (provider : Provider σ) :
    Keeps Idle (callProvider phase none accepts provider) :=
  .bind Idle.trail (.get Idle.trail) fun _ =>
    .bind Idle.trail (idle_modify (fun _ => rfl) fun _ => rfl) fun _ =>
      .bind Idle.trail (idle_report fun _ => rfl) fun _ => .rethrow Idle.trail _

/-- A read follows the rules of the cache of the entry that is bound to the key. -/
theorem memoizes_readEnvironment {bound floor : Nat} {state : RunState σ}
    {env : Environment σ} (current : CurrentBelow bound state env) (phase : Phase) (key : Name) :
    Memoizes floor state (readEnvironment phase env key) fun _ _ => True := by
  have unmemoized {value : EnvironmentValue σ} (isBound : env key = some value)
      (noCell : ∀ own, memoizedEntry own value = none)
      (idle : Keeps Idle (resolveEnvironmentValue phase value)) :
      Memoizes floor state (readEnvironment phase env key) fun _ _ => True := by
    refine (Memoizes.idle ?_).mono fun _ _ _ _ => trivial
    unfold readEnvironment
    rw [isBound]
    refine .bind Idle.trail (.get Idle.trail) fun own => ?_
    refine .bind Idle.trail (.attempt idle) fun answer => ?_
    refine .bind Idle.trail (idle_report fun _ => ?_) fun _ => .pure Idle.trail _
    rw [noCell own]
    rfl
  cases isBound : env key with
  | none =>
    refine (Memoizes.idle ?_).mono fun _ _ _ _ => trivial
    unfold readEnvironment
    rw [isBound]
    exact .bind Idle.trail (idle_report fun _ => rfl) fun _ => .pure Idle.trail _
  | some value =>
    cases value with
    | scalar value => exact unmemoized isBound (fun _ => rfl) (.pure Idle.trail value)
    | provider resolve => exact unmemoized isBound (fun _ => rfl) (idle_callProvider _ _ _)
    | perAccess entry => exact unmemoized isBound (fun _ => rfl) (idle_callProvider _ _ _)
    | memoized cell =>
      intro numbered
      obtain ⟨entry, newest, -⟩ := current key cell isBound
      obtain ⟨before, memo, later, isCells, atCell, rfl, others⟩ := newest.split
      have lookup : state.cells[cell]? = some memo := by
        rw [isCells, ← atCell]
        simp
      have atEntry : memoState state memo.entry.identity = .ofCache memo.cachedResolution := by
        rw [memoState, isCells, cacheOf_newest others]
      cases cached : memo.cachedResolution with
      | some value =>
        rw [cached] at atEntry
        unfold After
        rw [readEnvironment_cached isBound lookup cached]
        refine ⟨.refl numbered, traced_entry memo.entry.identity ?_ ?_ ?_, fun _ _ => trivial⟩
        · rw [atEntry]
          simp [memoEvents, Event.memoEvent, memoMonitor, memoAllowed, MemoState.ofCache,
            Except.toOption]
        · rw [atEntry]
          simp [memoEvents, Event.memoEvent, memoMonitor, memoStep, MemoState.ofCache]
        · intro other apart
          exact ⟨by simp [memoEvents, Event.memoEvent, apart], rfl⟩
      | none =>
        rw [cached] at atEntry
        cases answered : memo.entry.answer state.world with
        | none =>
          unfold After
          rw [readEnvironment_rejected isBound lookup cached answered]
          refine ⟨⟨⟨[], (List.append_nil _).symm, nofun⟩, le_refl _, numbered⟩,
            traced_entry memo.entry.identity ?_ ?_ ?_, fun _ _ => trivial⟩
          · rw [atEntry]
            simp [memoEvents, Event.memoEvent, memoMonitor, memoAllowed, memoStep,
              MemoState.ofCache, Except.toOption]
          · change _ = memoState state _
            rw [atEntry]
            simp [memoEvents, Event.memoEvent, memoMonitor, memoStep, MemoState.ofCache]
          · intro other apart
            exact ⟨by simp [memoEvents, Event.memoEvent, apart], rfl⟩
        | some value =>
          have isSet : state.cells.set cell { memo with cachedResolution := some value } =
              before ++ { memo with cachedResolution := some value } :: later := by
            rw [isCells, ← atCell, List.set_append_right _ _ (le_refl _), Nat.sub_self]
            rfl
          have sameEntries : cellEntries { state with
              world := (memo.entry.resolve state.world).2
              cells := before ++ { memo with cachedResolution := some value } :: later } =
              cellEntries state := by
            simp [cellEntries, isCells]
          unfold After
          rw [readEnvironment_called isBound lookup cached answered, isSet]
          refine ⟨⟨⟨[], ?_, nofun⟩, le_refl _, ?_⟩, traced_entry memo.entry.identity ?_ ?_ ?_,
            fun _ _ => trivial⟩
          · rw [sameEntries, List.append_nil]
          · rw [Numbered, sameEntries]
            exact numbered
          · rw [atEntry]
            simp [memoEvents, Event.memoEvent, memoMonitor, memoAllowed, memoStep,
              MemoState.ofCache, Except.toOption]
          · have filled : cacheOf (before ++ { memo with cachedResolution := some value } :: later)
                memo.entry.identity = some value :=
              @cacheOf_newest σ before later { memo with cachedResolution := some value } others
            rw [atEntry, memoState, filled]
            simp [memoEvents, Event.memoEvent, memoMonitor, memoStep, MemoState.ofCache]
          · intro other apart
            refine ⟨by simp [memoEvents, Event.memoEvent, apart], congrArg MemoState.ofCache ?_⟩
            rw [isCells]
            exact cacheOf_set apart _

theorem memoizes_runProgram {floor : Nat} {state : RunState σ} {env : Environment σ}
    (current : CurrentBelow floor state env) (phase : Phase) (program : Program σ α) :
    Memoizes floor state (runProgram phase env program) fun _ _ => True := by
  induction program generalizing state with
  | finish result =>
    exact (Memoizes.idle (.rethrow Idle.trail result)).mono fun _ _ _ _ => trivial
  | perform action next ih =>
    refine Memoizes.bind .get fun own between grown _ => ?_
    have acts : Keeps Idle (Effect.modify fun state : RunState σ =>
        { state with world := action state.world }) := idle_modify (fun _ => rfl) fun _ => rfl
    refine Memoizes.bind (.idle acts) fun _ after further _ => ?_
    exact ih _ ((current.grown grown).grown further)
  | resolve key next ih =>
    refine Memoizes.bind (memoizes_readEnvironment current phase key)
      fun outcome between grown _ => ?_
    exact ih outcome (current.grown grown)

/-! ### Merging -/

/-- The entries are numbered upwards from `low`, below `high`. -/
def Ascending : Nat → List (EnvironmentMetaEntry σ) → Nat → Prop
  | low, [], high => low ≤ high
  | low, entry :: rest, high => low ≤ entry.identity ∧ Ascending (entry.identity + 1) rest high

theorem Ascending.le {low high : Nat} {entries : List (EnvironmentMetaEntry σ)}
    (ascending : Ascending low entries high) : low ≤ high := by
  induction entries generalizing low with
  | nil => exact ascending
  | cons entry rest ih =>
    exact (ascending.1.trans (Nat.le_succ _)).trans (ih ascending.2)

theorem Ascending.append {low middle high : Nat} {entries more : List (EnvironmentMetaEntry σ)}
    (ascending : Ascending low entries middle) (further : Ascending middle more high) :
    Ascending low (entries ++ more) high := by
  induction entries generalizing low with
  | nil =>
    cases more with
    | nil => exact Nat.le_trans ascending further
    | cons entry rest => exact ⟨Nat.le_trans ascending further.1, further.2⟩
  | cons entry rest ih => exact ⟨ascending.1, ih ascending.2⟩

theorem Ascending.widen {low high below above : Nat} {entries : List (EnvironmentMetaEntry σ)}
    (ascending : Ascending low entries high) (isBelow : below ≤ low) (isAbove : high ≤ above) :
    Ascending below entries above := by
  induction entries generalizing low below with
  | nil => exact (isBelow.trans ascending).trans isAbove
  | cons entry rest ih =>
    exact ⟨isBelow.trans ascending.1, ih ascending.2 (le_refl _)⟩

theorem ascending_identifyEntries (first : Nat) (entries : List (ModuleMetaEntry σ)) :
    Ascending first (environmentEntries (some (identifyEntries first entries)))
      (first + (environmentEntries (some entries)).length) := by
  induction entries generalizing first with
  | nil => exact le_refl _
  | cons entry rest ih =>
    cases entry with
    | env entry =>
      refine ⟨le_refl _, ?_⟩
      have ascending := ih (first + 1)
      rwa [Nat.add_assoc, Nat.add_comm 1] at ascending
    | control entry => exact ih first

theorem bindEnvironment_memoized {env : Environment σ} {name key : Name}
    {value : EnvironmentValue σ} {cell : Nat}
    (isBound : bindEnvironment env name value key = some (.memoized cell)) :
    value = .memoized cell ∨ env key = some (.memoized cell) := by
  unfold bindEnvironment at isBound
  split at isBound
  · exact .inl (Option.some.inj isBound)
  · exact .inr isBound

/-- The state after a new cell for an entry. -/
def RunState.newCell (state : RunState σ) (entry : EnvironmentMetaEntry σ) : RunState σ :=
  { state with cells := state.cells ++ [{ entry := entry, cachedResolution := none }] }

theorem cellEntries_newCell (state : RunState σ) (entry : EnvironmentMetaEntry σ) :
    cellEntries (state.newCell entry) = cellEntries state ++ [entry] :=
  List.map_append

theorem newest_newCell (state : RunState σ) (entry : EnvironmentMetaEntry σ) :
    Newest (state.newCell entry) state.cells.length entry :=
  ⟨cellEntries state, [], cellEntries_newCell state entry, List.length_map _, nofun⟩

theorem grown_newCell {floor : Nat} {state : RunState σ} {entry : EnvironmentMetaEntry σ}
    (numbered : Numbered state) (above : floor ≤ entry.identity)
    (emitted : entry.identity < state.emitted) : Grown floor state (state.newCell entry) := by
  refine ⟨⟨[entry], cellEntries_newCell state entry, List.forall_mem_singleton.2 above⟩,
    le_refl _, ?_⟩
  rw [Numbered, cellEntries_newCell]
  exact List.forall_mem_append.2 ⟨numbered, List.forall_mem_singleton.2 emitted⟩

theorem traced_newCell (state : RunState σ) (entry : EnvironmentMetaEntry σ) :
    Traced state [.merged entry.identity] (state.newCell entry) := by
  have isReset : memoEvents entry.identity [(.merged entry.identity : Event σ)] = [.reset] := by
    simp [memoEvents, Event.memoEvent]
  refine traced_entry entry.identity ?_ ?_ fun other apart => ⟨?_, ?_⟩
  · rw [isReset]
    exact accepts_reset _
  · rw [isReset, after_reset, memoState, RunState.newCell, cacheOf_snoc, if_pos rfl]
    rfl
  · simp [memoEvents, Event.memoEvent, apart]
  · rw [memoState, RunState.newCell, cacheOf_snoc, if_neg apart]
    rfl

/-- An entry that comes after those bound so far gets its newest cell. -/
theorem memoizes_mergeEnvironmentEntry {low floor : Nat} {state : RunState σ}
    {env : Environment σ} {entry : EnvironmentMetaEntry σ}
    (current : CurrentBelow low state env) (above : low ≤ entry.identity)
    (emitted : entry.identity < state.emitted) (isFloor : floor ≤ low) :
    Memoizes floor state (mergeEnvironmentEntry env entry) fun merged after =>
      CurrentBelow (entry.identity + 1) after merged ∧ after.emitted = state.emitted := by
  have isBelow : low ≤ entry.identity + 1 := above.trans (Nat.le_succ _)
  have asserts : Memoizes floor state (assertAllowedEnvironmentMetaName entry.name)
      fun _ after => after = state := .ite (fun _ => .pure rfl) fun _ => .throw
  refine Memoizes.bind asserts fun _ between _ same => ?_
  subst same
  refine Memoizes.ite (fun _ => Memoizes.pure ⟨fun key cell isBound => ?_, rfl⟩) fun _ => ?_
  · rcases bindEnvironment_memoized isBound with missing | isBound
    · cases missing
    · exact current.raise isBelow key cell isBound
  · intro numbered
    have traced := traced_newCell between entry
    refine ⟨grown_newCell numbered (isFloor.trans above) emitted, traced, ?_⟩
    rintro _ ⟨⟩
    refine ⟨fun key cell isBound => ?_, rfl⟩
    rcases bindEnvironment_memoized isBound with isNew | isBound
    · cases isNew
      exact ⟨entry, newest_newCell between entry, Nat.lt_succ_self _⟩
    · exact (current.grown (grown_newCell numbered above emitted)).raise isBelow key cell isBound

theorem memoizes_mergeEnvironmentEntries {low high floor : Nat} {state : RunState σ}
    {env : Environment σ} {entries : List (EnvironmentMetaEntry σ)}
    (current : CurrentBelow low state env) (ascending : Ascending low entries high)
    (emitted : high ≤ state.emitted) (isFloor : floor ≤ low) :
    Memoizes floor state (mergeEnvironmentEntries env entries) fun merged after =>
      CurrentBelow high after merged ∧ after.emitted = state.emitted := by
  induction entries generalizing low state env with
  | nil => exact Memoizes.pure ⟨current.raise ascending, rfl⟩
  | cons entry rest ih =>
    have entryEmitted : entry.identity < state.emitted :=
      (Nat.lt_of_succ_le ascending.2.le).trans_le emitted
    refine Memoizes.bind (memoizes_mergeEnvironmentEntry current ascending.1 entryEmitted isFloor)
      fun merged between _ held => ?_
    obtain ⟨mergedCurrent, sameEmitted⟩ := held
    have restFloor := isFloor.trans (ascending.1.trans (Nat.le_succ _))
    refine (ih mergedCurrent ascending.2 (sameEmitted ▸ emitted) restFloor).mono
      fun final after _ ended => ?_
    exact ⟨ended.1, ended.2.trans sameEmitted⟩

/-- What a part of the run emitted can be merged into an environment from before it. -/
theorem memoizes_mergeEnvironmentFromMeta {floor : Nat} {state : RunState σ}
    {env : Environment σ} {entries : Option (List (ModuleMetaEntry σ))}
    (current : CurrentBelow floor state env)
    (ascending : Ascending floor (environmentEntries entries) state.emitted) :
    Memoizes floor state (mergeEnvironmentFromMeta env entries) fun merged after =>
      CurrentBelow after.emitted after merged ∧ after.emitted = state.emitted :=
  (memoizes_mergeEnvironmentEntries current ascending (le_refl _) (le_refl _)).mono
    fun _ _ _ held => ⟨held.2 ▸ held.1, held.2⟩

theorem memoizes_mergeUnlessFailed {floor : Nat} {state : RunState σ} {env : Environment σ}
    {result : ModuleResult σ} (current : CurrentBelow floor state env)
    (ascending : Ascending floor (environmentEntries result.metaEntries) state.emitted) :
    Memoizes floor state (mergeUnlessFailed env result) fun merged after =>
      CurrentBelow after.emitted after merged ∧ after.emitted = state.emitted :=
  .ite (fun _ => .pure ⟨current.raise ascending.le, rfl⟩)
    fun _ => memoizes_mergeEnvironmentFromMeta current ascending

/-- A leaf's entries get the next numbers. -/
theorem memoizes_emitResult {floor : Nat} {state : RunState σ} (result : ModuleResult σ) :
    Memoizes floor state (emitResult result) fun own after =>
      Ascending state.emitted (environmentEntries own.metaEntries) after.emitted := by
  intro numbered
  refine ⟨⟨⟨[], (List.append_nil _).symm, nofun⟩, Nat.le_add_right _ _, ?_⟩,
    fun entry => ⟨trivial, rfl⟩, ?_⟩
  · exact fun entry mem => (numbered entry mem).trans_le (Nat.le_add_right _ _)
  · rintro _ ⟨⟩
    rcases result with ⟨flushSignals, stopRun, entries, status⟩
    cases entries with
    | none => exact Nat.le_refl state.emitted
    | some list => exact ascending_identifyEntries state.emitted list

end Paratix.Orchestration
