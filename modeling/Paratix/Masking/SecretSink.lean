/-
Module: Paratix.Masking.SecretSink
Purpose: The process-wide registry of secrets under scopes that open and close in
  any order.
Main exports: registerSecret, secrets_reference_counted
-/
import Paratix.Foundation.Run
import Paratix.Foundation.Tally
import Paratix.Masking.Secrets

namespace Paratix.Masking

open Foundation

/-! ### The registry -/

def MINIMUM_SECRET_LENGTH : Nat := 8

def assertRegistrableSecret (secret : CodeUnits) : Except SecretError Unit :=
  if REDACTED <:+: secret then .error .containsPlaceholder else .ok ()

def registerSecret (counts : Tally CodeUnits) (secret : CodeUnits) :
    Except SecretError (Tally CodeUnits) :=
  if secret.length < MINIMUM_SECRET_LENGTH then .ok counts
  else do
    assertRegistrableSecret secret
    return counts.add secret

def unregisterSecret (counts : Tally CodeUnits) (secret : CodeUnits) : Tally CodeUnits :=
  if secret.length < MINIMUM_SECRET_LENGTH then counts else counts.remove secret

/-- The loop that releases a secret as often as a scope registered it. -/
def releaseSecret (counts : Tally CodeUnits) (secret : CodeUnits) : Nat → Tally CodeUnits
  | 0 => counts
  | count + 1 => releaseSecret (unregisterSecret counts secret) secret count

/-- The secrets that are masked; their order is not modelled. -/
def getRegisteredSecrets (counts : Tally CodeUnits) : List CodeUnits := counts.keys

/-! ### Scopes -/

/-- An open `withRegisteredSecrets`: what it was given and what it registered. -/
structure RegisteredScope where
  secrets : List CodeUnits
  registered : List CodeUnits
deriving DecidableEq, Repr

/-- The registry and the open scopes. A run scope has its own counts; a nested
`withRunScopedSecrets` runs its body in the scope it finds and opens none. -/
structure SinkState (Scope : Type*) where
  counts : Tally CodeUnits
  registeredScopes : AList fun _ : Scope => RegisteredScope
  runScopes : AList fun _ : Scope => Tally CodeUnits

/-- `store` is the run scope of the asynchronous context of the call, if any. -/
inductive SinkAction (Scope : Type*) where
  | openRegistered (scope : Scope) (secrets : List CodeUnits)
  /-- the body ended, by success or failure -/
  | closeRegistered (scope : Scope)
  | openRun (scope : Scope) (store : Option Scope)
  | closeRun (scope : Scope)
  | registerRunScopedSecret (store : Option Scope) (secret : CodeUnits)

variable {Scope : Type*} [DecidableEq Scope]

/-- The secrets `withRegisteredSecrets` registers. -/
def registerableSecrets (secrets : List CodeUnits) : List CodeUnits :=
  secrets.filter fun secret => MINIMUM_SECRET_LENGTH ≤ secret.length

/-- `withRegisteredSecrets` up to its body; an error registers nothing. -/
def registerSecrets (counts : Tally CodeUnits) (secrets : List CodeUnits) :
    Except SecretError (Tally CodeUnits) := do
  secrets.forM assertRegistrableSecret
  (registerableSecrets secrets).foldlM registerSecret counts

/-- One step of the process; a call that throws changes nothing. -/
def SinkState.step (state : SinkState Scope) : SinkAction Scope → Option (SinkState Scope)
  | .openRegistered scope secrets =>
      if scope ∈ state.registeredScopes then none
      else
        match registerSecrets state.counts secrets with
        | .error _ => some state
        | .ok counts =>
            let opened := { secrets, registered := registerableSecrets secrets }
            some { state with
              counts, registeredScopes := state.registeredScopes.insert scope opened }
  | .closeRegistered scope =>
      (state.registeredScopes.lookup scope).map fun opened =>
        { state with
          counts := opened.registered.foldl unregisterSecret state.counts
          registeredScopes := state.registeredScopes.erase scope }
  | .openRun scope store =>
      if scope ∈ state.runScopes then none
      else if store.isSome then some state
      else some { state with runScopes := state.runScopes.insert scope ∅ }
  | .closeRun scope =>
      (state.runScopes.lookup scope).map fun scopedSecrets =>
        { state with
          counts := scopedSecrets.entries.foldl
            (fun counts entry => releaseSecret counts entry.1 entry.2) state.counts
          runScopes := state.runScopes.erase scope }
  | .registerRunScopedSecret store secret =>
      match registerSecret state.counts secret with
      | .error _ => some state
      | .ok counts =>
          if secret.length < MINIMUM_SECRET_LENGTH then some { state with counts }
          else
            match store.bind fun scope => (state.runScopes.lookup scope).map (scope, ·) with
            | none => some { state with counts }
            | some (scope, scopedSecrets) =>
                some { state with
                  counts, runScopes := state.runScopes.insert scope (scopedSecrets.add secret) }

/-- The transitions of the sink. -/
def SinkState.next (state : SinkState Scope) (action : SinkAction Scope)
    (after : SinkState Scope) : Prop :=
  state.step action = some after

def initialSink : SinkState Scope where
  counts := ∅
  registeredScopes := ∅
  runScopes := ∅

/-- A registration for the run is made in the context of a run scope that is still
open. -/
def RegistersInScope (state : SinkState Scope) : SinkAction Scope → Prop
  | .registerRunScopedSecret store _ => ∃ scope, store = some scope ∧ scope ∈ state.runScopes
  | _ => True

instance (state : SinkState Scope) (action : SinkAction Scope) :
    Decidable (RegistersInScope state action) :=
  match action with
  | .registerRunScopedSecret none _ => isFalse fun found => by
      obtain ⟨scope, absurdity, _⟩ := found
      cases absurdity
  | .registerRunScopedSecret (some scope) _ =>
      decidable_of_iff (scope ∈ state.runScopes)
        ⟨fun isOpen => ⟨scope, rfl, isOpen⟩, fun found => by
          obtain ⟨other, same, isOpen⟩ := found
          cases same
          exact isOpen⟩
  | .openRegistered _ _ | .closeRegistered _ | .openRun _ _ | .closeRun _ =>
      inferInstanceAs (Decidable True)

/-! ### Holdings -/

/-- How often the open scopes hold a secret, all together. -/
def SinkState.held (state : SinkState Scope) (secret : CodeUnits) : Nat :=
  total (fun opened => Tally.occurrences opened.registered secret) state.registeredScopes.entries +
    total (fun scopedSecrets : Tally CodeUnits => (scopedSecrets.lookup secret).getD 0)
      state.runScopes.entries

/-- The scope is open and was given the secret, or had it registered for the run. -/
def HoldsSecret (state : SinkState Scope) (scope : Scope) (secret : CodeUnits) : Prop :=
  (∃ opened, state.registeredScopes.lookup scope = some opened ∧ secret ∈ opened.secrets) ∨
    ∃ scopedSecrets, state.runScopes.lookup scope = some scopedSecrets ∧
      0 < (scopedSecrets.lookup secret).getD 0

/-- The registry counts what the open scopes hold. -/
structure SinkInv (state : SinkState Scope) : Prop where
  counts : state.counts.Counts state.held
  registered : ∀ scope opened, state.registeredScopes.lookup scope = some opened →
    opened.registered = registerableSecrets opened.secrets
  accepted : ∀ scope scopedSecrets, state.runScopes.lookup scope = some scopedSecrets →
    ∀ secret ∈ scopedSecrets, MINIMUM_SECRET_LENGTH ≤ secret.length

theorem sinkInv_initial : SinkInv (initialSink : SinkState Scope) where
  counts := Tally.counts_empty
  registered := by
    intro scope opened isOpen
    cases isOpen
  accepted := by
    intro scope scopedSecrets isOpen
    cases isOpen

/-! ### Registering and releasing -/

theorem registerSecret_of_accepted {counts after : Tally CodeUnits} {secret : CodeUnits}
    (accepted : MINIMUM_SECRET_LENGTH ≤ secret.length)
    (registered : registerSecret counts secret = .ok after) : after = counts.add secret := by
  rw [registerSecret, if_neg (Nat.not_lt.2 accepted), assertRegistrableSecret] at registered
  split at registered
  · cases registered
  · exact (Except.ok.inj registered).symm

theorem foldlM_registerSecret {secrets : List CodeUnits} : ∀ {counts after : Tally CodeUnits},
      (∀ secret ∈ secrets, MINIMUM_SECRET_LENGTH ≤ secret.length) →
      secrets.foldlM registerSecret counts = .ok after → after = secrets.foldl Tally.add counts := by
  induction secrets with
  | nil =>
    intro counts after _ registered
    exact (Except.ok.inj registered).symm
  | cons secret secrets ih =>
    intro counts after accepted registered
    rw [List.foldlM_cons] at registered
    cases first : registerSecret counts secret with
    | error error =>
      rw [first] at registered
      cases registered
    | ok middle =>
      rw [first] at registered
      have middleEq := registerSecret_of_accepted (accepted secret List.mem_cons_self) first
      rw [List.foldl_cons, ← middleEq]
      exact ih
        (fun other member => accepted other (List.mem_cons_of_mem _ member)) registered

theorem accepted_of_mem_registerable {secrets : List CodeUnits} {secret : CodeUnits}
    (member : secret ∈ registerableSecrets secrets) :
    MINIMUM_SECRET_LENGTH ≤ secret.length := by
  have passes := (List.mem_filter.1 member).2
  exact of_decide_eq_true passes

theorem registerSecrets_eq {counts after : Tally CodeUnits} {secrets : List CodeUnits}
    (registered : registerSecrets counts secrets = .ok after) :
    after = (registerableSecrets secrets).foldl Tally.add counts := by
  rw [registerSecrets] at registered
  cases checked : secrets.forM assertRegistrableSecret with
  | error error =>
    rw [checked] at registered
    cases registered
  | ok none =>
    rw [checked] at registered
    exact foldlM_registerSecret (fun _ member => accepted_of_mem_registerable member) registered

theorem unregisterSecret_of_accepted (counts : Tally CodeUnits) {secret : CodeUnits}
    (accepted : MINIMUM_SECRET_LENGTH ≤ secret.length) :
    unregisterSecret counts secret = counts.remove secret :=
  if_neg (Nat.not_lt.2 accepted)

theorem foldl_unregisterSecret {secrets : List CodeUnits}
    (accepted : ∀ secret ∈ secrets, MINIMUM_SECRET_LENGTH ≤ secret.length)
    (counts : Tally CodeUnits) :
    secrets.foldl unregisterSecret counts = secrets.foldl Tally.remove counts := by
  induction secrets generalizing counts with
  | nil => rfl
  | cons secret secrets ih =>
    rw [List.foldl_cons, List.foldl_cons,
      unregisterSecret_of_accepted counts (accepted secret List.mem_cons_self)]
    exact ih
      (fun other member => accepted other (List.mem_cons_of_mem _ member)) _

theorem releaseSecret_of_accepted {secret : CodeUnits}
    (accepted : MINIMUM_SECRET_LENGTH ≤ secret.length) (counts : Tally CodeUnits)
    (count : Nat) : releaseSecret counts secret count = counts.removeTimes secret count := by
  induction count generalizing counts with
  | zero => rfl
  | succ count ih =>
    rw [releaseSecret, unregisterSecret_of_accepted counts accepted]
    exact ih _

theorem foldl_releaseSecret {entries : List (Σ _ : CodeUnits, Nat)}
    (accepted : ∀ entry ∈ entries, MINIMUM_SECRET_LENGTH ≤ entry.1.length)
    (counts : Tally CodeUnits) :
    entries.foldl (fun counts entry => releaseSecret counts entry.1 entry.2) counts =
      counts.removeEntries entries := by
  induction entries generalizing counts with
  | nil => rfl
  | cons entry entries ih =>
    rw [List.foldl_cons, Tally.removeEntries, List.foldl_cons,
      releaseSecret_of_accepted (accepted entry List.mem_cons_self)]
    exact ih
      (fun other member => accepted other (List.mem_cons_of_mem _ member)) _

/-! ### Steps -/

namespace SinkInv

variable {state : SinkState Scope}

theorem openRegistered (inv : SinkInv state) {scope : Scope}
    (new : scope ∉ state.registeredScopes) {secrets : List CodeUnits}
    {counts : Tally CodeUnits} (registered : registerSecrets state.counts secrets = .ok counts) :
    SinkInv { state with
      counts
      registeredScopes := state.registeredScopes.insert scope
        { secrets, registered := registerableSecrets secrets } } where
  counts := by
    rw [registerSecrets_eq registered]
    apply (inv.counts.addAll (registerableSecrets secrets)).congr
    intro secret
    rw [SinkState.held, SinkState.held, total_insert_new _ new]
    dsimp only
    omega
  registered := by
    intro other opened isOpen
    by_cases same : other = scope
    · subst same
      rw [AList.lookup_insert] at isOpen
      cases isOpen
      rfl
    · rw [AList.lookup_insert_ne same] at isOpen
      exact inv.registered other opened isOpen
  accepted := inv.accepted

theorem closeRegistered (inv : SinkInv state) {scope : Scope} {opened : RegisteredScope}
    (isOpen : state.registeredScopes.lookup scope = some opened) : SinkInv { state with
      counts := opened.registered.foldl unregisterSecret state.counts
      registeredScopes := state.registeredScopes.erase scope } where
  counts := by
    have accepted : ∀ secret ∈ opened.registered, MINIMUM_SECRET_LENGTH ≤ secret.length := by
      rw [inv.registered scope opened isOpen]
      exact fun _ member => accepted_of_mem_registerable member
    rw [foldl_unregisterSecret accepted]
    apply (inv.counts.removeAll opened.registered).congr
    intro secret
    rw [SinkState.held, SinkState.held, total_erase _ isOpen]
    dsimp only
    omega
  registered := by
    intro other otherOpened isOther
    by_cases same : other = scope
    · subst same
      rw [AList.lookup_erase] at isOther
      cases isOther
    · rw [AList.lookup_erase_ne same] at isOther
      exact inv.registered other otherOpened isOther
  accepted := inv.accepted

theorem openRun (inv : SinkInv state) {scope : Scope} (new : scope ∉ state.runScopes) :
    SinkInv { state with runScopes := state.runScopes.insert scope ∅ } where
  counts := by
    apply inv.counts.congr
    intro secret
    rw [SinkState.held, SinkState.held, total_insert_new _ new, AList.lookup_empty]
    simp only [Option.getD_none, Nat.zero_add]
  registered := inv.registered
  accepted := by
    intro other scopedSecrets isOpen
    by_cases same : other = scope
    · subst same
      rw [AList.lookup_insert] at isOpen
      cases isOpen
      exact fun secret member => absurd member (AList.notMem_empty secret)
    · rw [AList.lookup_insert_ne same] at isOpen
      exact inv.accepted other scopedSecrets isOpen

theorem closeRun (inv : SinkInv state) {scope : Scope} {scopedSecrets : Tally CodeUnits}
    (isOpen : state.runScopes.lookup scope = some scopedSecrets) : SinkInv { state with
      counts := scopedSecrets.entries.foldl
        (fun counts entry => releaseSecret counts entry.1 entry.2) state.counts
      runScopes := state.runScopes.erase scope } where
  counts := by
    have accepted : ∀ entry ∈ scopedSecrets.entries, MINIMUM_SECRET_LENGTH ≤ entry.1.length :=
      fun entry member => inv.accepted scope scopedSecrets isOpen entry.1
        (List.mem_keys_of_mem member)
    rw [foldl_releaseSecret accepted]
    apply (inv.counts.removeEntries scopedSecrets.nodupKeys).congr
    intro secret
    have split := total_erase
      (fun scopedSecrets : Tally CodeUnits => (scopedSecrets.lookup secret).getD 0) isOpen
    have sameLookup : scopedSecrets.entries.dlookup secret = scopedSecrets.lookup secret := rfl
    rw [SinkState.held, SinkState.held, split, sameLookup]
    dsimp only
    omega
  registered := inv.registered
  accepted := by
    intro other otherSecrets isOther
    by_cases same : other = scope
    · subst same
      rw [AList.lookup_erase] at isOther
      cases isOther
    · rw [AList.lookup_erase_ne same] at isOther
      exact inv.accepted other otherSecrets isOther

theorem registerRunScoped (inv : SinkInv state) {scope : Scope}
    {scopedSecrets : Tally CodeUnits} {secret : CodeUnits}
    (isOpen : state.runScopes.lookup scope = some scopedSecrets)
    (accepted : MINIMUM_SECRET_LENGTH ≤ secret.length) : SinkInv { state with
      counts := state.counts.add secret
      runScopes := state.runScopes.insert scope (scopedSecrets.add secret) } where
  counts := by
    apply (inv.counts.add secret).congr
    intro other
    have split := total_erase
      (fun scopedSecrets : Tally CodeUnits => (scopedSecrets.lookup other).getD 0) isOpen
    rw [SinkState.held, SinkState.held, total_insert, split]
    by_cases isSecret : other = secret
    · subst isSecret
      simp only [if_true, Tally.add, AList.lookup_insert, Option.getD_some]
      omega
    · simp only [isSecret, if_false, Tally.add, AList.lookup_insert_ne isSecret]
      omega
  registered := inv.registered
  accepted := by
    intro other otherSecrets isOther
    by_cases same : other = scope
    · subst same
      rw [AList.lookup_insert] at isOther
      cases isOther
      intro held member
      rcases (AList.mem_insert _).1 member with isSecret | before
      · rw [isSecret]
        exact accepted
      · exact inv.accepted other scopedSecrets isOpen held before
    · rw [AList.lookup_insert_ne same] at isOther
      exact inv.accepted other otherSecrets isOther

/-- Every step keeps the registry in balance. -/
theorem step (inv : SinkInv state) {action : SinkAction Scope} {after : SinkState Scope}
    (inScope : RegistersInScope state action) (stepped : state.next action after) :
    SinkInv after := by
  rw [SinkState.next] at stepped
  cases action with
  | openRegistered scope secrets =>
    simp only [SinkState.step] at stepped
    split at stepped
    · cases stepped
    · next new =>
        split at stepped
        · cases stepped
          exact inv
        · next counts registered =>
            cases stepped
            exact inv.openRegistered new registered
  | closeRegistered scope =>
    obtain ⟨opened, isOpen, afterEq⟩ := Option.map_eq_some_iff.1 stepped
    rw [← afterEq]
    exact inv.closeRegistered isOpen
  | openRun scope store =>
    simp only [SinkState.step] at stepped
    split at stepped
    · cases stepped
    · next new =>
        split at stepped
        · cases stepped
          exact inv
        · cases stepped
          exact inv.openRun new
  | closeRun scope =>
    obtain ⟨scopedSecrets, isOpen, afterEq⟩ := Option.map_eq_some_iff.1 stepped
    rw [← afterEq]
    exact inv.closeRun isOpen
  | registerRunScopedSecret store secret =>
    obtain ⟨scope, storeEq, inRuns⟩ := inScope
    obtain ⟨scopedSecrets, isOpen⟩ := Option.isSome_iff_exists.1 (AList.lookup_isSome.2 inRuns)
    subst storeEq
    simp only [SinkState.step, Option.bind_some, isOpen, Option.map_some] at stepped
    split at stepped
    · cases stepped
      exact inv
    · next counts registered =>
        split at stepped
        · next short =>
            cases stepped
            rw [registerSecret, if_pos short] at registered
            cases registered
            exact inv
        · next long =>
            cases stepped
            have accepted := Nat.le_of_not_lt long
            rw [registerSecret_of_accepted accepted registered]
            exact inv.registerRunScoped isOpen accepted

theorem run {actions : List (SinkAction Scope)}
    (steps : Run SinkState.next RegistersInScope initialSink actions state) :
    SinkInv state := by
  have preserved : ∀ (state : SinkState Scope) action after, SinkInv state →
      RegistersInScope state action → state.next action after → SinkInv after :=
    fun _ _ _ inv inScope stepped => inv.step inScope stepped
  exact steps.invariant preserved sinkInv_initial

/-- An accepted secret is held as often as not never exactly if some open scope
holds it. -/
theorem held_pos_iff (inv : SinkInv state) {secret : CodeUnits}
    (accepted : MINIMUM_SECRET_LENGTH ≤ secret.length) :
    0 < state.held secret ↔ ∃ scope, HoldsSecret state scope secret := by
  have registeredIff : ∀ scope opened, state.registeredScopes.lookup scope = some opened →
      (0 < Tally.occurrences opened.registered secret ↔ secret ∈ opened.secrets) := by
    intro scope opened isOpen
    rw [inv.registered scope opened isOpen, Tally.occurrences_pos_iff,
      registerableSecrets, List.mem_filter, decide_eq_true_eq]
    exact and_iff_left accepted
  constructor
  · intro positive
    rcases Nat.add_pos_iff_pos_or_pos.1 positive with inRegistered | inRun
    · obtain ⟨scope, opened, isOpen, counted⟩ := total_pos.1 inRegistered
      exact ⟨scope, .inl ⟨opened, isOpen, (registeredIff scope opened isOpen).1 counted⟩⟩
    · obtain ⟨scope, scopedSecrets, isOpen, counted⟩ := total_pos.1 inRun
      exact ⟨scope, .inr ⟨scopedSecrets, isOpen, counted⟩⟩
  · intro held
    obtain ⟨scope, ⟨opened, isOpen, given⟩ | ⟨scopedSecrets, isOpen, counted⟩⟩ := held
    · have counted := (registeredIff scope opened isOpen).2 given
      exact Nat.add_pos_left (total_pos.2 ⟨scope, opened, isOpen, counted⟩) _
    · exact Nat.add_pos_right _ (total_pos.2 ⟨scope, scopedSecrets, isOpen, counted⟩)

end SinkInv

/-- In every run whose run-scoped registrations are made in an open run scope: a
secret of accepted length is registered exactly while an open scope holds it, its
count is the number of holdings, and without open scopes nothing is registered. -/
theorem secrets_reference_counted {state : SinkState Scope} {actions : List (SinkAction Scope)}
    (steps : Run SinkState.next RegistersInScope initialSink actions state) :
    (∀ secret, MINIMUM_SECRET_LENGTH ≤ secret.length →
      (secret ∈ getRegisteredSecrets state.counts ↔ ∃ scope, HoldsSecret state scope secret)) ∧
    (∀ secret, (state.counts.lookup secret).getD 0 = state.held secret) ∧
    (state.registeredScopes = ∅ → state.runScopes = ∅ → state.counts = ∅) := by
  have inv := SinkInv.run steps
  refine ⟨?registered, ?counted, ?drained⟩
  case registered =>
    intro secret accepted
    rw [← inv.held_pos_iff accepted, getRegisteredSecrets, ← AList.mem_keys,
      ← AList.lookup_isSome, inv.counts secret]
    split
    · next none => simp [none]
    · next some => simp [Nat.pos_of_ne_zero some]
  case counted => exact inv.counts.getD
  case drained =>
    intro noRegistered noRun
    apply AList.ext
    apply inv.counts.entries_eq_nil
    intro secret
    rw [SinkState.held, noRegistered, noRun]
    rfl

/-- Two scopes that overlap hold one secret: it stays registered when the first
one closes. -/
theorem secrets_reference_counted_overlapping :
    ∃ state : SinkState Nat, codeUnits "shared-secret" ∈ getRegisteredSecrets state.counts ∧
      ∃ scope, HoldsSecret state scope (codeUnits "shared-secret") := by
  have ends : (runSteps SinkState.step RegistersInScope (initialSink : SinkState Nat)
      [.openRun 0 none, .openRegistered 1 [codeUnits "shared-secret", codeUnits "short"],
        .registerRunScopedSecret (some 0) (codeUnits "shared-secret"),
        .closeRegistered 1]).map (fun state => getRegisteredSecrets state.counts) =
      some [codeUnits "shared-secret"] := by
    decide +kernel
  obtain ⟨state, ran, registeredEq⟩ := Option.map_eq_some_iff.mp ends
  have registered : codeUnits "shared-secret" ∈ getRegisteredSecrets state.counts := by
    rw [registeredEq]
    exact List.mem_cons_self
  exact ⟨state, registered,
    ((secrets_reference_counted (Run.of_runSteps ran)).1 _ (by decide)).mp registered⟩

/-- A registration for the run inside a `withRegisteredSecrets` that no run scope
surrounds is never released. -/
theorem secret_outlives_scopes :
    ∃ (actions : List (SinkAction Nat)) (state : SinkState Nat),
      Run SinkState.next (fun _ _ => True) initialSink actions state ∧
      state.registeredScopes.keys = [] ∧ state.runScopes.keys = [] ∧
      getRegisteredSecrets state.counts = [codeUnits "orphan-secret"] := by
  have ends : (runSteps SinkState.step (fun _ _ => True) (initialSink : SinkState Nat)
      [.openRegistered 0 [codeUnits "scoped-secret"],
        .registerRunScopedSecret none (codeUnits "orphan-secret"),
        .closeRegistered 0]).map (fun state => (state.registeredScopes.keys,
          state.runScopes.keys, getRegisteredSecrets state.counts)) =
      some ([], [], [codeUnits "orphan-secret"]) := by
    decide +kernel
  obtain ⟨state, ran, outcomeEq⟩ := Option.map_eq_some_iff.mp ends
  obtain ⟨registeredEq, restEq⟩ := Prod.ext_iff.mp outcomeEq
  obtain ⟨runEq, countsEq⟩ := Prod.ext_iff.mp restEq
  exact ⟨_, state, Run.of_runSteps ran, registeredEq, runEq, countsEq⟩

end Paratix.Masking
