/-
Module: Paratix.Foundation.Remote
Purpose: Programs of remote steps that may fail, take effect although they report a failure, or be
  the last step before the controller stops, and what holds on their way.
Main exports: StepOutcome, ends_stepWhere
-/
import Mathlib.Data.List.Basic

namespace Foundation

/-! ### Outcomes -/

/-- What becomes of one step: it completes, its command exits with an error code, the
call throws, or the controller stops at it. All but the first may have taken effect. -/
inductive StepOutcome (ε : Type) where
  | completed
  | refused (tookEffect : Bool)
  | threw (tookEffect : Bool) (error : ε)
  | interrupted (tookEffect : Bool)
deriving DecidableEq

/-- How a program ends without a value. -/
inductive Exit (ε : Type) where
  | raised (error : ε)
  | interrupted
deriving DecidableEq

namespace StepOutcome

variable {ε ω : Type}

def takesEffect : StepOutcome ε → Bool
  | completed => true
  | refused tookEffect => tookEffect
  | threw tookEffect _ => tookEffect
  | interrupted tookEffect => tookEffect

def apply (outcome : StepOutcome ε) (change : ω → ω) (world : ω) : ω :=
  if outcome.takesEffect then change world else world

/-- What the controller sees: whether the exit code is zero. -/
def report : StepOutcome ε → Except (Exit ε) Bool
  | completed => .ok true
  | refused _ => .ok false
  | threw _ error => .error (.raised error)
  | interrupted _ => .error .interrupted

/-- What the controller sees of a command whose error code it turns into an error. -/
def demanded (refusal : ε) : StepOutcome ε → Except (Exit ε) Unit
  | completed => .ok ()
  | refused _ => .error (.raised refusal)
  | threw _ error => .error (.raised error)
  | interrupted _ => .error .interrupted

/-- Where the controller sees the step fail, it has not taken effect. -/
def FailsClean : StepOutcome ε → Prop
  | completed | interrupted _ => True
  | refused tookEffect | threw tookEffect _ => tookEffect = false

instance : (outcome : StepOutcome ε) → Decidable outcome.FailsClean
  | completed | interrupted _ => .isTrue trivial
  | refused tookEffect | threw tookEffect _ => inferInstanceAs (Decidable (tookEffect = false))

section Constructors

variable (tookEffect : Bool) (error refusal : ε)

@[simp] theorem takesEffect_completed : (completed : StepOutcome ε).takesEffect = true := rfl

@[simp] theorem takesEffect_refused :
    (refused tookEffect : StepOutcome ε).takesEffect = tookEffect := rfl

@[simp] theorem takesEffect_threw : (threw tookEffect error).takesEffect = tookEffect := rfl

@[simp] theorem takesEffect_interrupted :
    (interrupted tookEffect : StepOutcome ε).takesEffect = tookEffect := rfl

@[simp] theorem report_completed : (completed : StepOutcome ε).report = .ok true := rfl

@[simp] theorem report_refused : (refused tookEffect : StepOutcome ε).report = .ok false := rfl

@[simp] theorem report_threw : (threw tookEffect error).report = .error (.raised error) := rfl

@[simp] theorem report_interrupted :
    (interrupted tookEffect : StepOutcome ε).report = .error .interrupted := rfl

@[simp] theorem demanded_completed : (completed : StepOutcome ε).demanded refusal = .ok () := rfl

@[simp] theorem demanded_refused :
    (refused tookEffect : StepOutcome ε).demanded refusal = .error (.raised refusal) := rfl

@[simp] theorem demanded_threw :
    (threw tookEffect error).demanded refusal = .error (.raised error) := rfl

@[simp] theorem demanded_interrupted :
    (interrupted tookEffect : StepOutcome ε).demanded refusal = .error .interrupted := rfl

end Constructors

theorem FailsClean.not_takesEffect {outcome : StepOutcome ε} {refusal error : ε}
    (clean : outcome.FailsClean) (raised : outcome.demanded refusal = .error (.raised error)) :
    outcome.takesEffect = false := by
  cases outcome with
  | completed | interrupted => cases raised
  | refused | threw => exact clean

theorem apply_of_takesEffect {outcome : StepOutcome ε} (took : outcome.takesEffect = true)
    (change : ω → ω) (world : ω) : outcome.apply change world = change world := if_pos took

theorem apply_of_not_takesEffect {outcome : StepOutcome ε} (missed : outcome.takesEffect = false)
    (change : ω → ω) (world : ω) : outcome.apply change world = world := by
  simp [apply, missed]

@[simp] theorem apply_id (outcome : StepOutcome ε) (world : ω) :
    outcome.apply id world = world := by
  unfold apply
  split <;> rfl

@[simp] theorem apply_completed (change : ω → ω) (world : ω) :
    (completed : StepOutcome ε).apply change world = change world := rfl

@[simp] theorem apply_refused (tookEffect : Bool) (change : ω → ω) (world : ω) :
    (refused tookEffect : StepOutcome ε).apply change world =
      if tookEffect then change world else world := rfl

@[simp] theorem apply_threw (tookEffect : Bool) (error : ε) (change : ω → ω) (world : ω) :
    (threw tookEffect error).apply change world =
      if tookEffect then change world else world := rfl

@[simp] theorem apply_interrupted (tookEffect : Bool) (change : ω → ω) (world : ω) :
    (interrupted tookEffect : StepOutcome ε).apply change world =
      if tookEffect then change world else world := rfl

end StepOutcome

/-! ### Programs -/

/-- The end of a run of a program: its result, the world it leaves, and the worlds after
each of its steps. -/
structure Ending (ω ε α : Type) where
  result : Except (Exit ε) α
  world : ω
  seen : List ω

/-- A program of steps named by keys, each of which has the outcome that the script gives. -/
def Remote (κ ω ε α : Type) : Type := (κ → StepOutcome ε) → ω → Ending ω ε α

namespace Remote

variable {κ ω ε α β : Type}

def run (program : Remote κ ω ε α) (script : κ → StepOutcome ε) (world : ω) : Ending ω ε α :=
  program script world

instance : Monad (Remote κ ω ε) where
  pure value := fun _ world => { result := .ok value, world := world, seen := [] }
  bind first next := fun script world =>
    let before := first script world
    match before.result with
    | .error exit => { result := .error exit, world := before.world, seen := before.seen }
    | .ok value =>
      let after := next value script before.world
      { after with seen := before.seen ++ after.seen }

def throw (error : ε) : Remote κ ω ε α := fun _ world =>
  { result := .error (.raised error), world := world, seen := [] }

/-- The controller looks at what it keeps in the world; no step is taken. -/
def inspect (view : ω → α) : Remote κ ω ε α := fun _ world =>
  { result := .ok (view world), world := world, seen := [] }

/-- The controller changes what it keeps in the world; no step is taken. -/
def note (change : ω → ω) : Remote κ ω ε Unit := fun _ world =>
  { result := .ok (), world := change world, seen := [] }

/-- A command whose exit code is looked at. -/
def step (key : κ) (change : ω → ω) : Remote κ ω ε Bool := fun script world =>
  let after := (script key).apply change world
  { result := (script key).report, world := after, seen := [after] }

/-- A command that has to succeed -/
def require (refusal : ε) (key : κ) (change : ω → ω) : Remote κ ω ε Unit := fun script world =>
  let after := (script key).apply change world
  { result := (script key).demanded refusal, world := after, seen := [after] }

/-- A command that changes nothing and reads from the world, where it succeeds. -/
def read (refusal : ε) (key : κ) (view : ω → α) : Remote κ ω ε α := fun script world =>
  { result := (script key).demanded refusal |>.map fun _ => view world
    world := world
    seen := [world] }

/-- Errors that were thrown can be caught; the end of the controller cannot. -/
def caught : Except (Exit ε) α → Except (Exit ε) (Except ε α)
  | .ok value => .ok (.ok value)
  | .error (.raised error) => .ok (.error error)
  | .error .interrupted => .error .interrupted

/-- A command that changes nothing and prints a view of the world, unless its exit code
is not zero. -/
def query (key : κ) (view : ω → Option α) : Remote κ ω ε (Option α) := fun script world =>
  { result := (script key).report.map fun completed => if completed then view world else none
    world := world
    seen := [world] }

/-- Run a program and catch what it throws. -/
def attempt (program : Remote κ ω ε α) : Remote κ ω ε (Except ε α) := fun script world =>
  let ending := program script world
  { result := caught ending.result, world := ending.world, seen := ending.seen }

/-- Throw again what an attempt caught. -/
def rethrow : Except ε α → Remote κ ω ε α
  | .ok value => pure value
  | .error error => throw error

/-- Run a program, then its cleanup, also where the program throws. -/
def ensuring (program : Remote κ ω ε α) (cleanup : Remote κ ω ε β) : Remote κ ω ε α := do
  let result ← program.attempt
  let _ ← cleanup
  rethrow result

/-- Run a program over a part of the world, with its steps under other keys. -/
def zoom {κ' ω' : Type} (embed : κ → κ') (view : ω' → ω) (put : ω → ω' → ω')
    (program : Remote κ ω ε α) : Remote κ' ω' ε α := fun script world =>
  let ending := program (fun key => script (embed key)) (view world)
  { result := ending.result
    world := put ending.world world
    seen := ending.seen.map fun passed => put passed world }

/-! ### What holds on the way and at the end -/

/-- From `world` the program passes only through worlds in `through`, and its result and
the world it leaves satisfy `post`. -/
def Leads (script : κ → StepOutcome ε) (through : ω → Prop) (program : Remote κ ω ε α)
    (post : Except (Exit ε) α → ω → Prop) (world : ω) : Prop :=
  (∀ passed ∈ (program.run script world).seen, through passed) ∧
    post (program.run script world).result (program.run script world).world

/-- What a continuation has to meet: values go on, exits end. -/
def onValue (next : α → ω → Prop) (ended : Exit ε → ω → Prop) : Except (Exit ε) α → ω → Prop
  | .ok value, world => next value world
  | .error exit, world => ended exit world

@[simp] theorem onValue_ok (next : α → ω → Prop) (ended : Exit ε → ω → Prop) (value : α)
    (world : ω) : onValue next ended (.ok value) world = next value world := rfl

@[simp] theorem onValue_error (next : α → ω → Prop) (ended : Exit ε → ω → Prop) (exit : Exit ε)
    (world : ω) : onValue next ended (.error exit) world = ended exit world := rfl

section Rules

variable {script : κ → StepOutcome ε} {through : ω → Prop} {world : ω}

@[simp] theorem caught_ok (value : α) :
    caught (.ok value : Except (Exit ε) α) = .ok (.ok value) := rfl

@[simp] theorem caught_raised (error : ε) :
    caught (.error (.raised error) : Except (Exit ε) α) = .ok (.error error) := rfl

@[simp] theorem caught_interrupted :
    caught (.error .interrupted : Except (Exit ε) α) = .error .interrupted := rfl

@[simp] theorem leads_pure {value : α} {post : Except (Exit ε) α → ω → Prop} :
    Leads script through (pure value) post world ↔ post (.ok value) world := by
  change (∀ passed ∈ ([] : List ω), through passed) ∧ post (.ok value) world ↔ _
  simp

@[simp] theorem leads_throw {error : ε} {post : Except (Exit ε) α → ω → Prop} :
    Leads script through (throw error) post world ↔ post (.error (.raised error)) world := by
  simp [Leads, run, throw]

@[simp] theorem leads_bind {first : Remote κ ω ε α} {next : α → Remote κ ω ε β}
    {post : Except (Exit ε) β → ω → Prop} : Leads script through (first >>= next) post world ↔
      Leads script through first
        (onValue (fun value middle => Leads script through (next value) post middle)
          fun exit middle => post (.error exit) middle) world := by
  unfold Leads run
  simp only [Bind.bind]
  rcases ran : (first script world).result with exit | value
  · simp only [onValue_error]
  · simp only [onValue_ok, List.mem_append, or_imp, forall_and, and_assoc]

@[simp] theorem leads_inspect {view : ω → α} {post : Except (Exit ε) α → ω → Prop} :
    Leads script through (inspect view) post world ↔ post (.ok (view world)) world := by
  simp [Leads, run, inspect]

@[simp] theorem leads_note {change : ω → ω} {post : Except (Exit ε) Unit → ω → Prop} :
    Leads script through (note change) post world ↔ post (.ok ()) (change world) := by
  simp [Leads, run, note]

@[simp] theorem leads_step {key : κ} {change : ω → ω} {post : Except (Exit ε) Bool → ω → Prop} :
    Leads script through (step key change) post world ↔
      through ((script key).apply change world) ∧
        post (script key).report ((script key).apply change world) := by
  simp [Leads, run, step]

@[simp] theorem leads_require {refusal : ε} {key : κ} {change : ω → ω}
    {post : Except (Exit ε) Unit → ω → Prop} :
    Leads script through (require refusal key change) post world ↔
      through ((script key).apply change world) ∧
        post ((script key).demanded refusal) ((script key).apply change world) := by
  simp [Leads, run, require]

@[simp] theorem leads_read {refusal : ε} {key : κ} {view : ω → α}
    {post : Except (Exit ε) α → ω → Prop} :
    Leads script through (read refusal key view) post world ↔
      through world ∧ post ((script key).demanded refusal |>.map fun _ => view world) world := by
  simp [Leads, run, read]

@[simp] theorem leads_query {key : κ} {view : ω → Option α}
    {post : Except (Exit ε) (Option α) → ω → Prop} :
    Leads script through (query key view) post world ↔
      through world ∧ post ((script key).report.map fun completed =>
        if completed then view world else none) world := by
  simp [Leads, run, query]

@[simp] theorem leads_zoom {κ' ω' : Type} {embed : κ → κ'} {view : ω' → ω} {put : ω → ω' → ω'}
    {script : κ' → StepOutcome ε} {through : ω' → Prop} {world : ω'} {program : Remote κ ω ε α}
    {post : Except (Exit ε) α → ω' → Prop} :
    Leads script through (zoom embed view put program) post world ↔
      Leads (fun key => script (embed key)) (fun part => through (put part world)) program
        (fun result part => post result (put part world)) (view world) := by
  simp [Leads, run, zoom]

@[simp] theorem leads_attempt {program : Remote κ ω ε α}
    {post : Except (Exit ε) (Except ε α) → ω → Prop} :
    Leads script through program.attempt post world ↔
      Leads script through program (fun result after => post (caught result) after) world :=
  Iff.rfl

@[simp] theorem leads_rethrow_ok {value : α} {post : Except (Exit ε) α → ω → Prop} :
    Leads script through (rethrow (.ok value)) post world ↔ post (.ok value) world := leads_pure

@[simp] theorem leads_rethrow_error {error : ε} {post : Except (Exit ε) α → ω → Prop} :
    Leads script through (rethrow (.error error)) post world ↔
      post (.error (.raised error)) world := leads_throw

namespace Leads

variable {program : Remote κ ω ε α} {post : Except (Exit ε) α → ω → Prop}

theorem mono {weaker : Except (Exit ε) α → ω → Prop}
    (leads : Leads script through program post world)
    (implies : ∀ result after, post result after → weaker result after) :
    Leads script through program weaker world :=
  ⟨leads.1, implies _ _ leads.2⟩

theorem weaken {wider : ω → Prop} (leads : Leads script through program post world)
    (implies : ∀ passed, through passed → wider passed) : Leads script wider program post world :=
  ⟨fun passed mem => implies passed (leads.1 passed mem), leads.2⟩

theorem bind {next : α → Remote κ ω ε β} {middle : Except (Exit ε) α → ω → Prop}
    {post : Except (Exit ε) β → ω → Prop} (first : Leads script through program middle world)
    (ended : ∀ exit after, middle (.error exit) after → post (.error exit) after)
    (continued : ∀ value between, middle (.ok value) between →
      Leads script through (next value) post between) :
    Leads script through (program >>= next) post world := by
  rw [leads_bind]
  refine first.mono fun result after holds => ?_
  cases result with
  | error exit => exact ended exit after holds
  | ok value => exact continued value after holds

theorem ensuring {cleanup : Remote κ ω ε β} {middle : Except (Exit ε) α → ω → Prop}
    (first : Leads script through program middle world)
    (stopped : ∀ after, middle (.error .interrupted) after → post (.error .interrupted) after)
    (cleaned : ∀ result between, middle result between → result ≠ .error .interrupted →
      Leads script through cleanup
        (onValue (fun _ after => post result after) fun exit after => post (.error exit) after)
        between) :
    Leads script through (program.ensuring cleanup) post world := by
  unfold Remote.ensuring
  rw [leads_bind, leads_attempt]
  refine first.mono fun result after holds => ?_
  rcases result with (error | _) | value
  · simpa only [caught, onValue_ok, leads_bind, leads_rethrow_error] using
      cleaned _ _ holds (by simp)
  · exact stopped _ holds
  · simpa only [caught, onValue_ok, leads_bind, leads_rethrow_ok] using cleaned _ _ holds (by simp)

end Leads

end Rules

end Remote

/-! ### Outcomes of commands -/

/-- A command that fails or throws has no effect. -/
inductive CommandOutcome (ε : Type) where
  | takesEffect
  | fails
  | throws (error : ε)
deriving DecidableEq

namespace CommandOutcome

variable {ε : Type} {done failed : Prop} {thrown : ε → Prop}

def outcome : CommandOutcome ε → StepOutcome ε
  | takesEffect => .completed
  | fails => .refused false
  | throws error => .threw false error

/-- What has to hold after a command, by what becomes of it. -/
def After (done failed : Prop) (thrown : ε → Prop) : CommandOutcome ε → Prop
  | takesEffect => done
  | fails => failed
  | throws error => thrown error

/-- The caller goes on after the command. -/
def Returns (outcome : CommandOutcome ε) : Prop := outcome = .takesEffect ∨ outcome = .fails

@[simp] theorem returns_takesEffect : (takesEffect : CommandOutcome ε).Returns := .inl rfl

@[simp] theorem returns_fails : (fails : CommandOutcome ε).Returns := .inr rfl

@[simp] theorem not_returns_throws (error : ε) : ¬(throws error).Returns := by simp [Returns]

@[simp] theorem after_takesEffect :
    After done failed thrown takesEffect ↔ done := Iff.rfl

@[simp] theorem after_fails : After done failed thrown fails ↔ failed := Iff.rfl

@[simp] theorem after_throws (error : ε) :
    After done failed thrown (throws error) ↔ thrown error := Iff.rfl

end CommandOutcome

/-- What becomes of each command -/
abbrev Commands (κ ε : Type) : Type := κ → CommandOutcome ε

variable {κ ω ε α β : Type}

def Commands.script (commands : Commands κ ε) (key : κ) : StepOutcome ε := (commands key).outcome

/-- What holds of the result and of the world that a program leaves. -/
abbrev Ends (commands : Commands κ ε) (program : Remote κ ω ε α)
    (post : Except (Exit ε) α → ω → Prop) (world : ω) : Prop :=
  Remote.Leads commands.script (fun _ => True) program post world

/-- A test: only an exit code of zero says yes. -/
def Remote.tests (key : κ) (view : ω → Bool) : Remote κ ω ε Bool := do
  let answer ← Remote.query key fun world => if view world then some () else none
  pure answer.isSome

/-- A command that the world may refuse: it fails where there is no world after it. -/
def Remote.stepWhere (key : κ) (change : ω → Option ω) : Remote κ ω ε Bool := fun script world =>
  match change world with
  | some after => Remote.step key (fun _ => after) script world
  | none => Remote.tests key (fun _ => false) script world

def Remote.requireWhere (refusal : ε) (key : κ) (change : ω → Option ω) : Remote κ ω ε Unit := do
  if ← Remote.stepWhere key change then pure () else Remote.throw refusal

/-- A command that prints what the world has for it, or throws. -/
def Remote.readWhere (refusal : ε) (key : κ) (view : ω → Option α) : Remote κ ω ε α := do
  match ← Remote.query key view with
  | some value => pure value
  | none => Remote.throw refusal

/-! ### Execution -/

section Execution

variable {commands : Commands κ ε} {world : ω} {post : Except (Exit ε) β → ω → Prop} {key : κ}

theorem ends_iff {program : Remote κ ω ε β} : Ends commands program post world ↔
      post (program.run commands.script world).result
        (program.run commands.script world).world := by
  simp [Ends, Remote.Leads]

theorem ends_pure {value : β} : Ends commands (pure value) post world ↔ post (.ok value) world :=
  Remote.leads_pure

theorem ends_throw {error : ε} :
    Ends commands (Remote.throw error) post world ↔ post (.error (.raised error)) world :=
  Remote.leads_throw

theorem ends_bind {first : Remote κ ω ε α} {next : α → Remote κ ω ε β} :
    Ends commands (first >>= next) post world ↔
      Ends commands first
        (Remote.onValue (fun value middle => Ends commands (next value) post middle)
          fun exit middle => post (.error exit) middle) world :=
  Remote.leads_bind

theorem ends_assoc {γ : Type} {first : Remote κ ω ε α} {second : α → Remote κ ω ε γ}
    {next : γ → Remote κ ω ε β} : Ends commands (first >>= second >>= next) post world ↔
      Ends commands (first >>= fun value => second value >>= next) post world := by
  simp only [ends_bind, Remote.onValue_error]

theorem ends_attempt {program : Remote κ ω ε α} {post : Except (Exit ε) (Except ε α) → ω → Prop} :
    Ends commands program.attempt post world ↔
      Ends commands program (fun result after => post (Remote.caught result) after) world :=
  Iff.rfl

/-- A command whose exit code is looked at, and what follows -/
theorem ends_step {change : ω → ω} {next : Bool → Remote κ ω ε β} :
    Ends commands (Remote.step key change >>= next) post world ↔
      (commands key).After (Ends commands (next true) post (change world))
        (Ends commands (next false) post world)
        fun error => post (.error (.raised error)) world := by
  rw [Ends, Remote.leads_bind, Remote.leads_step, Commands.script]
  cases commands key with
  | takesEffect => simp [CommandOutcome.outcome]
  | fails => simp [CommandOutcome.outcome]
  | throws error => simp [CommandOutcome.outcome]

theorem ends_query {view : ω → Option α} {next : Option α → Remote κ ω ε β} :
    Ends commands (Remote.query key view >>= next) post world ↔
      (commands key).After (Ends commands (next (view world)) post world)
        (Ends commands (next none) post world)
        fun error => post (.error (.raised error)) world := by
  rw [Ends, Remote.leads_bind, Remote.leads_query, Commands.script]
  cases commands key with
  | takesEffect => simp [CommandOutcome.outcome, Except.map]
  | fails => simp [CommandOutcome.outcome, Except.map]
  | throws error => simp [CommandOutcome.outcome, Except.map]

theorem ends_tests {view : ω → Bool} {next : Bool → Remote κ ω ε β} :
    Ends commands (Remote.tests key view >>= next) post world ↔
      (commands key).After (Ends commands (next (view world)) post world)
        (Ends commands (next false) post world)
        fun error => post (.error (.raised error)) world := by
  rw [Remote.tests, ends_bind, ends_query]
  cases commands key with
  | takesEffect => cases viewed : view world with
    | true => simp
    | false => simp
  | fails => simp
  | throws error => simp

theorem ends_stepWhere {change : ω → Option ω} {next : Bool → Remote κ ω ε β} :
    Ends commands (Remote.stepWhere key change >>= next) post world ↔
      (commands key).After ((change world).elim (Ends commands (next false) post world)
          fun after => Ends commands (next true) post after)
        (Ends commands (next false) post world)
        fun error => post (.error (.raised error)) world := by
  cases changed : change world with
  | some after =>
    have same : Ends commands (Remote.stepWhere key change >>= next) post world ↔
        Ends commands (Remote.step key (fun _ => after) >>= next) post world := by
      simp only [Ends, Remote.Leads, Remote.run, Remote.stepWhere, changed, Bind.bind]
    rw [same, ends_step, Option.elim_some]
  | none =>
    have same : Ends commands (Remote.stepWhere key change >>= next) post world ↔
        Ends commands (Remote.tests key (fun _ => false) >>= next) post world := by
      simp only [Ends, Remote.Leads, Remote.run, Remote.stepWhere, changed, Bind.bind]
    rw [same, ends_tests, Option.elim_none]

theorem ends_requireWhere {refusal : ε} {change : ω → Option ω} {next : Unit → Remote κ ω ε β} :
    Ends commands (Remote.requireWhere refusal key change >>= next) post world ↔
      (commands key).After ((change world).elim (post (.error (.raised refusal)) world)
          fun after => Ends commands (next ()) post after)
        (post (.error (.raised refusal)) world)
        fun error => post (.error (.raised error)) world := by
  rw [Remote.requireWhere, ends_bind, ends_stepWhere]
  cases commands key with
  | takesEffect => cases change world with
    | some after => simp
    | none => simp
  | fails => simp
  | throws error => simp

theorem ends_readWhere {refusal : ε} {view : ω → Option α} {next : α → Remote κ ω ε β} :
    Ends commands (Remote.readWhere refusal key view >>= next) post world ↔
      (commands key).After ((view world).elim (post (.error (.raised refusal)) world)
          fun value => Ends commands (next value) post world)
        (post (.error (.raised refusal)) world)
        fun error => post (.error (.raised error)) world := by
  rw [Remote.readWhere, ends_bind, ends_query]
  cases commands key with
  | takesEffect => cases view world with
    | some value => simp
    | none => simp
  | fails => simp
  | throws error => simp

/-- A write that the world may refuse and whose error is caught -/
theorem ends_attempt_requireWhere {refusal : ε} {change : ω → Option ω}
    {next : Except ε Unit → Remote κ ω ε β} :
    Ends commands ((Remote.requireWhere refusal key change).attempt >>= next) post world ↔
      (commands key).After ((change world).elim (Ends commands (next (.error refusal)) post world)
          fun after => Ends commands (next (.ok ())) post after)
        (Ends commands (next (.error refusal)) post world)
        fun error => Ends commands (next (.error error)) post world := by
  rw [Remote.requireWhere, ends_bind, ends_attempt, ends_stepWhere]
  cases commands key with
  | takesEffect => cases change world with
    | some after => simp
    | none => simp
  | fails => simp
  | throws error => simp

/-- A read whose error is caught -/
theorem ends_attempt_read {refusal : ε} {view : ω → α} {next : Except ε α → Remote κ ω ε β} :
    Ends commands ((Remote.read refusal key view).attempt >>= next) post world ↔
      (commands key).After (Ends commands (next (.ok (view world))) post world)
        (Ends commands (next (.error refusal)) post world)
        fun error => Ends commands (next (.error error)) post world := by
  rw [Ends, Remote.leads_bind, Remote.leads_attempt, Remote.leads_read, Commands.script]
  cases commands key with
  | takesEffect => simp [CommandOutcome.outcome, Except.map]
  | fails => simp [CommandOutcome.outcome, Except.map]
  | throws error => simp [CommandOutcome.outcome, Except.map]

/-- A write whose error is caught -/
theorem ends_attempt_require {refusal : ε} {change : ω → ω}
    {next : Except ε Unit → Remote κ ω ε β} :
    Ends commands ((Remote.require refusal key change).attempt >>= next) post world ↔
      (commands key).After (Ends commands (next (.ok ())) post (change world))
        (Ends commands (next (.error refusal)) post world)
        fun error => Ends commands (next (.error error)) post world := by
  rw [Ends, Remote.leads_bind, Remote.leads_attempt, Remote.leads_require, Commands.script]
  cases commands key with
  | takesEffect => simp [CommandOutcome.outcome]
  | fails => simp [CommandOutcome.outcome]
  | throws error => simp [CommandOutcome.outcome]

end Execution

end Foundation
