/-
Module: Paratix.Sshd.PortUndone
Purpose: What an apply of sshd.port that fails leaves of the host and of the candidate
  ports of the connection.
Main exports: RollbackSucceeds, port_undone_iff
-/
import Paratix.Sshd.ConfigLive
import Paratix.Sshd.Port

namespace Paratix.Sshd

open Foundation Archive Orchestration Firewall

abbrev PortScript := PortStep → StepOutcome RemoteError

/-- The steps that only the recoveries take -/
def IsRollback : PortStep → Prop
  | .shared .rollback _ | .restoreConfig | .disableService | .enableSocketNow | .enableSocket
  | .startSocket | .restartAgain | .reconnectAgain | .probe .original | .listener .original => True
  | .shared .apply .readAfterFailedWrite | .shared .apply .undoFailedWrite
  | .shared .apply (.rollbackWrite _) | .shared .apply .rollbackRead => True
  | _ => False

def RollbackSucceeds (script : PortScript) : Prop :=
  ∀ key, IsRollback key → script key = .completed

/-- The host and the candidate ports are as they were, and the daemon listens where it did. -/
structure SameHost (portOf : Text → Option Nat) (first last : PortHost) : Prop where
  config : last.sshd.config = first.sshd.config
  listening : portOf last.sshd.loaded = portOf first.sshd.loaded
  socket : last.socket = first.socket
  serviceEnabled : last.serviceEnabled = first.serviceEnabled
  ports : last.ports = first.ports

theorem SameHost.refl (portOf : Text → Option Nat) (host : PortHost) :
    SameHost portOf host host := ⟨rfl, rfl, rfl, rfl, rfl⟩

/-- The apply returns failed or throws. -/
def Fails (result : Except (Exit RemoteError) ModuleStatus) : Prop :=
  result = .ok .failed ∨ ∃ error, result = .error (.raised error)

variable {daemon : Daemon} {portOf : Text → Option Nat} {request : PortRequest}
  {script : PortScript} {first host : PortHost}

/-- What holds of the result and of the host that a program leaves. -/
abbrev Ends {α : Type} (script : PortScript) (program : PortRemote α)
    (post : Except (Exit RemoteError) α → PortHost → Prop) (host : PortHost) : Prop :=
  Remote.Leads script (fun _ => True) program post host

/-! ### Layers -/

/-- The snapshot says how the host was before the restart. -/
structure Recoverable (first : PortHost) (snapshot : SshdRestartSnapshot) (host : PortHost) :
    Prop where
  loaded : snapshot.serviceUnit = false → host.sshd.loaded = first.sshd.loaded
  boot : match snapshot.serviceBootState with
    | none => host.serviceEnabled = first.serviceEnabled
    | some enabled => enabled = first.serviceEnabled ∧
        (enabled = true → host.serviceEnabled = true)
  socket : match snapshot.socketState with
    | none => host.socket = first.socket
    | some captured => ∃ original, first.socket = some original ∧
        captured.enabled = original.enabled ∧ captured.active = original.active ∧
        (host.socket = some original ∨
          host.socket = some { original with active := false, enabled := false })

/-- A rollback step of one command -/
theorem runRollbackStep_performs {through : PortHost → Prop} {key : PortStep}
    {change : PortHost → PortHost} (completed : script key = .completed)
    (passed : through (change host)) :
    Remote.Leads script through (runRollbackStep (performs key change))
      (fun result after => result = .ok true ∧ after = change host) host := by
  unfold runRollbackStep performs
  simp [completed, passed]

theorem runRollbackStep_pure {through : PortHost → Prop} :
    Remote.Leads script through (runRollbackStep (pure ()))
      (fun result after => result = .ok true ∧ after = host) host := by
  unfold runRollbackStep
  simp

theorem restoreBoot_spec (succeeds : RollbackSucceeds script) {snapshot : SshdRestartSnapshot}
    (recoverable : Recoverable first snapshot host) : Ends script
      (runRollbackStep (restoreSshServiceBootState snapshot.serviceBootState))
      (fun result after => result = .ok true ∧
        after = host.setServiceEnabled first.serviceEnabled) host := by
  have boot := recoverable.boot
  unfold restoreSshServiceBootState
  rcases noted : snapshot.serviceBootState with _ | enabled
  · rw [noted] at boot
    refine runRollbackStep_pure.mono fun result after ⟨went, same⟩ => ⟨went, ?_⟩
    rw [same, PortHost.setServiceEnabled, ← boot]
  · rw [noted] at boot
    obtain ⟨isFirst, stays⟩ := boot
    cases enabled with
    | true =>
      refine runRollbackStep_pure.mono fun result after ⟨went, same⟩ => ⟨went, ?_⟩
      rw [same, PortHost.setServiceEnabled, ← isFirst, ← stays rfl]
    | false =>
      rw [← isFirst]
      exact runRollbackStep_performs (succeeds .disableService trivial) trivial

theorem restoreSocket_spec (succeeds : RollbackSucceeds script) {snapshot : SshdRestartSnapshot}
    (recoverable : Recoverable first snapshot host) : Ends script
      (runRollbackStep (restoreSocketActivatedSsh snapshot.socketState))
      (fun result after => result = .ok true ∧ after = { host with socket := first.socket })
      host := by
  have socket := recoverable.socket
  unfold restoreSocketActivatedSsh
  rcases noted : snapshot.socketState with _ | captured
  · rw [noted] at socket
    refine runRollbackStep_pure.mono fun result after ⟨went, same⟩ => ⟨went, ?_⟩
    rw [same, ← socket]
  · rw [noted] at socket
    obtain ⟨original, there, sameEnabled, sameActive, now⟩ := socket
    dsimp only
    rw [there, sameEnabled, sameActive]
    obtain ⟨active, enabled, unit⟩ := original
    -- The disabled socket, or the one that was never disabled, with the captured flags
    rcases now with now | now <;> cases active <;> cases enabled <;>
      simp [runRollbackStep, performs, PortHost.setSocket, now,
        succeeds .enableSocketNow trivial,
        succeeds .enableSocket trivial,
        succeeds .startSocket trivial] <;>
      rw [← now]

theorem restoreLayers_spec (succeeds : RollbackSucceeds script) {snapshot : SshdRestartSnapshot}
    (recoverable : Recoverable first snapshot host) (originalConfig : Text) :
    Ends script (restoreLayers originalConfig snapshot) (fun result after => result = .ok true ∧
        after = { host.setConfig originalConfig with
          serviceEnabled := first.serviceEnabled
          socket := first.socket }) host := by
  unfold restoreLayers
  refine (runRollbackStep_performs (succeeds .restoreConfig trivial) trivial).bind
    (by rintro exit after ⟨⟨⟩, -⟩) ?_
  rintro config after ⟨wrote, rfl⟩
  have written : Recoverable first snapshot (host.setConfig originalConfig) :=
    ⟨recoverable.loaded, recoverable.boot, recoverable.socket⟩
  refine (restoreBoot_spec succeeds written).bind (by rintro exit after ⟨⟨⟩, -⟩) ?_
  rintro boot after ⟨booted, rfl⟩
  have bootRestored : Recoverable first snapshot
      ((host.setConfig originalConfig).setServiceEnabled first.serviceEnabled) := by
    refine ⟨recoverable.loaded, ?_, recoverable.socket⟩
    have before := recoverable.boot
    rcases noted : snapshot.serviceBootState with _ | enabled
    · rfl
    · rw [noted] at before
      exact ⟨before.1, fun isEnabled => before.1 ▸ isEnabled⟩
  refine (restoreSocket_spec succeeds bootRestored).bind
    (by rintro exit after ⟨⟨⟩, -⟩) ?_
  rintro socket after ⟨restored, rfl⟩
  cases wrote
  cases booted
  cases restored
  exact Remote.leads_pure.2 ⟨rfl, rfl⟩

/-- What a recovery leaves: the layers as they were, the given configuration and candidate
ports, and a daemon that runs as before, with that configuration or on the original port -/
structure RolledBack (portOf : Text → Option Nat) (request : PortRequest) (first : PortHost)
    (originalConfig : Text) (ports : List Nat) (after : PortHost) : Prop where
  config : after.sshd.config = originalConfig
  listening : after.sshd.loaded = first.sshd.loaded ∨ after.sshd.loaded = originalConfig ∨
    portOf after.sshd.loaded = some request.originalPort
  socket : after.socket = first.socket
  serviceEnabled : after.serviceEnabled = first.serviceEnabled
  ports : after.ports = ports

theorem RolledBack.sameHost_iff {originalConfig : Text} {ports : List Nat} {after : PortHost}
    (rolledBack : RolledBack portOf request first originalConfig ports after)
    (inStep : originalConfig = first.sshd.config →
      portOf first.sshd.config = some request.originalPort ∧
        portOf first.sshd.loaded = some request.originalPort) :
    SameHost portOf first after ↔ ports = first.ports ∧ originalConfig = first.sshd.config := by
  constructor
  · intro same
    exact ⟨rolledBack.ports ▸ same.ports, rolledBack.config ▸ same.config⟩
  · rintro ⟨samePorts, sameConfig⟩
    obtain ⟨configPort, loadedPort⟩ := inStep sameConfig
    refine ⟨rolledBack.config.trans sameConfig, ?_, rolledBack.socket, rolledBack.serviceEnabled,
      rolledBack.ports.trans samePorts⟩
    rw [loadedPort]
    rcases rolledBack.listening with same | same | listens
    · rw [same, loadedPort]
    · rw [same, sameConfig, configPort]
    · exact listens

theorem recoverFromRestartFailure_spec (succeeds : RollbackSucceeds script)
    {snapshot : SshdRestartSnapshot} (recoverable : Recoverable first snapshot host)
    (originalConfig : Text) : Ends script
      (recoverFromRestartFailure request.targetPort originalConfig snapshot)
      (fun result after => result = .ok true ∧
        RolledBack portOf request first originalConfig
          (host.removePort request.targetPort).ports after) host := by
  unfold recoverFromRestartFailure
  rw [Ends, Remote.leads_bind, Remote.leads_note, Remote.onValue_ok]
  have removed : Recoverable first snapshot (host.removePort request.targetPort) :=
    ⟨recoverable.loaded, recoverable.boot, recoverable.socket⟩
  refine (restoreLayers_spec succeeds removed originalConfig).bind
    (by rintro exit after ⟨⟨⟩, -⟩) ?_
  rintro layers after ⟨restored, rfl⟩
  cases restored
  unfold restartAfterFailure
  rcases found : snapshot.serviceUnit
  · refine runRollbackStep_pure.bind (by rintro exit after ⟨⟨⟩, -⟩) ?_
    rintro restarted after ⟨went, rfl⟩
    cases went
    exact Remote.leads_pure.2 ⟨rfl, rfl, .inl (recoverable.loaded found), rfl, rfl, rfl⟩
  · refine (runRollbackStep_performs (succeeds .restartAgain trivial) trivial).bind
      (by rintro exit after ⟨⟨⟩, -⟩) ?_
    rintro restarted after ⟨went, rfl⟩
    cases went
    exact Remote.leads_pure.2 ⟨rfl, rfl, .inr (.inl rfl), rfl, rfl, rfl⟩

theorem findRestartUnit_spec (succeeds : RollbackSucceeds script) (snapshot : SshdRestartSnapshot) :
    Ends script (findRestartUnit snapshot)
      (fun result after => result = .ok () ∧ after = host) host := by
  unfold findRestartUnit
  split
  · simp
  · simp [shared, resolveSshServiceUnit, quiet, succeeds (.shared .rollback .findSshdUnit) trivial]

/-- The probe of the original port, where it goes through -/
theorem originalProbe_spec (succeeds : RollbackSucceeds script) (port : Nat) :
    Ends script (probeLiveSshdPort portOf .original port) (fun result after => after = host ∧
        result = .ok (.matched (decide (portOf host.sshd.loaded = some port)))) host := by
  unfold probeLiveSshdPort
  simp [succeeds (.probe .original) trivial, succeeds (.listener .original) trivial, Except.map]

theorem rollbackAfterFailedVerification_spec (succeeds : RollbackSucceeds script)
    {snapshot : SshdRestartSnapshot} (recoverable : Recoverable first snapshot host)
    (originalConfig : Text) : Ends script
      (rollbackSshdPortAfterFailedVerification portOf request originalConfig snapshot)
      (fun result after => result = .ok true ∧
        RolledBack portOf request first originalConfig
          (host.removePort request.targetPort).ports after) host := by
  unfold rollbackSshdPortAfterFailedVerification
  rw [Ends, Remote.leads_bind, Remote.leads_note, Remote.onValue_ok]
  have removed : Recoverable first snapshot (host.removePort request.targetPort) :=
    ⟨recoverable.loaded, recoverable.boot, recoverable.socket⟩
  refine (restoreLayers_spec succeeds removed originalConfig).bind
    (by rintro exit after ⟨⟨⟩, -⟩) ?_
  rintro layers after ⟨restored, rfl⟩
  cases restored
  rw [Remote.leads_bind, runRollbackStep, Remote.leads_bind, Remote.leads_attempt,
    restartSshdIfNotAlreadyOnOriginalPort]
  refine (originalProbe_spec succeeds _).bind (by rintro exit after ⟨-, ⟨⟩⟩) ?_
  rintro probe after ⟨rfl, probed⟩
  cases probed
  by_cases listens : portOf host.sshd.loaded = some request.originalPort
  · rw [decide_eq_true (by exact listens)]
    simp only [Remote.leads_pure, Remote.caught_ok, Remote.onValue_ok]
    exact ⟨rfl, rfl, .inr (.inr listens), rfl, rfl, rfl⟩
  · rw [decide_eq_false (by exact listens)]
    refine (findRestartUnit_spec succeeds snapshot).bind
      (by rintro exit after ⟨⟨⟩, -⟩) ?_
    rintro value after ⟨-, rfl⟩
    unfold performs
    rw [Remote.leads_require, succeeds .restartAgain trivial]
    simp only [StepOutcome.demanded_completed, Remote.leads_pure, Remote.caught_ok,
      Remote.onValue_ok, true_and]
    exact ⟨rfl, rfl, .inr (.inl rfl), rfl, rfl, rfl⟩

/-! ### Restart -/

/-- The tests of units that are enabled or active do not exit with an error, and the service
is not enabled by a command that is reported as failed. -/
structure Truthful (script : PortScript) (host : PortHost) : Prop where
  socketEnabled : host.socket.any SshSocketState.enabled = true →
    ∀ tookEffect, script .socketEnabled ≠ .refused tookEffect
  socketActive : host.socket.any SshSocketState.active = true →
    ∀ tookEffect, script .socketActive ≠ .refused tookEffect
  serviceEnabled : host.serviceEnabled = true →
    ∀ tookEffect, script .serviceEnabled ≠ .refused tookEffect
  enable : (script .enableService).FailsClean

theorem asks_spec (key : PortStep) (view : PortHost → Bool) : Ends script (asks key view)
      (fun result after => after = host ∧ ∀ answer, result = .ok answer →
        (answer = true → view host = true) ∧
        ((view host = true → ∀ tookEffect, script key ≠ .refused tookEffect) →
          answer = view host)) host := by
  unfold asks
  rcases asked : script key with _ | tookEffect | _ | _ <;> cases viewed : view host <;>
    simp [asked, viewed, Except.map]

theorem resolveExistingSshdSocketUnit_spec (candidates : List SshdSocketUnit) :
    Ends script (resolveExistingSshdSocketUnit candidates) (fun result after => after = host ∧
        ∀ unit, result = .ok (some unit) → ∃ socket, host.socket = some socket) host := by
  induction candidates with
  | nil => exact Remote.leads_pure.2 ⟨rfl, fun unit ended => (by cases ended)⟩
  | cons candidate rest ih =>
    unfold resolveExistingSshdSocketUnit
    refine (asks_spec _ _).bind (fun exit after ⟨same, _⟩ => ⟨same, fun unit ended => (by cases ended)⟩) ?_
    rintro there after ⟨rfl, answered⟩
    split
    · next isThere =>
      refine Remote.leads_pure.2 ⟨rfl, fun unit ended => ?_⟩
      have hasUnit := (answered there rfl).1 isThere
      obtain ⟨socket, isSocket, -⟩ := (Option.any_eq_true _ _).1 hasUnit
      exact ⟨socket, isSocket⟩
    · exact ih

theorem captureSshSocketState_spec (truthful : Truthful script host) :
    Ends script captureSshSocketState
      (fun result after => after = host ∧ ∀ captured, result = .ok (some captured) →
        ∃ original, host.socket = some original ∧ captured.enabled = original.enabled ∧
          captured.active = original.active) host := by
  unfold captureSshSocketState
  refine (resolveExistingSshdSocketUnit_spec _).bind
    (fun exit after ⟨same, _⟩ => ⟨same, fun captured ended => (by cases ended)⟩) ?_
  rintro unit after ⟨rfl, found⟩
  cases unit with
  | none => exact Remote.leads_pure.2 ⟨rfl, fun captured ended => (by cases ended)⟩
  | some unit =>
    obtain ⟨original, there⟩ := found unit rfl
    refine (asks_spec _ _).bind
      (fun exit after ⟨same, _⟩ => ⟨same, fun captured ended => (by cases ended)⟩) ?_
    rintro enabled after ⟨rfl, enabledAnswer⟩
    refine (asks_spec _ _).bind
      (fun exit after ⟨same, _⟩ => ⟨same, fun captured ended => (by cases ended)⟩) ?_
    rintro active after ⟨rfl, activeAnswer⟩
    refine Remote.leads_pure.2 ⟨rfl, fun captured ended => ⟨original, there, ?_⟩⟩
    cases ended
    have isEnabled := (enabledAnswer enabled rfl).2 truthful.socketEnabled
    have isActive := (activeAnswer active rfl).2 truthful.socketActive
    rw [there] at isEnabled isActive
    exact ⟨isEnabled, isActive⟩

/-- The socket after the step that disables it -/
def SocketKnown (first : PortHost) (captured : Option SshSocketState) (host : PortHost) : Prop :=
  match captured with
  | none => host.socket = first.socket
  | some captured => ∃ original, first.socket = some original ∧
      captured.enabled = original.enabled ∧ captured.active = original.active ∧
      (host.socket = some original ∨
        host.socket = some { original with active := false, enabled := false })

theorem disableSocketActivatedSsh_spec {captured : Option SshSocketState}
    (known : ∀ state, captured = some state → ∃ original, first.socket = some original ∧
      state.enabled = original.enabled ∧ state.active = original.active)
    (same : host.socket = first.socket) : Ends script (disableSocketActivatedSsh captured)
      (fun _ after => ∃ socket, after = { host with socket := socket } ∧
        SocketKnown first captured after) host := by
  unfold disableSocketActivatedSsh
  cases captured with
  | none => exact Remote.leads_pure.2 ⟨host.socket, rfl, same⟩
  | some state =>
    obtain ⟨original, there, sameEnabled, sameActive⟩ := known state rfl
    unfold performs
    rw [Ends, Remote.leads_require]
    refine ⟨trivial, ?_⟩
    cases took : (script .disableSocket).takesEffect with
    | false =>
      rw [StepOutcome.apply_of_not_takesEffect took]
      exact ⟨host.socket, rfl, original, there, sameEnabled, sameActive, .inl (same.trans there)⟩
    | true =>
      rw [StepOutcome.apply_of_takesEffect took]
      refine ⟨_, rfl, original, there, sameEnabled, sameActive, .inr ?_⟩
      rw [PortHost.setSocket, same, there]
      rfl

theorem ensureSshServiceBootEnabled_spec (truthful : Truthful script first)
    (same : host.serviceEnabled = first.serviceEnabled) (socketState : Option SshSocketState) :
    Ends script (ensureSshServiceBootEnabled socketState)
      (fun result after => ∃ enabled, after = host.setServiceEnabled enabled ∧
        (∀ bootState, result = .ok bootState → bootState = first.serviceEnabled ∧
          (bootState = true → enabled = true)) ∧
        (∀ error, result = .error (.raised error) → enabled = first.serviceEnabled)) host := by
  have untouched : host = host.setServiceEnabled host.serviceEnabled := rfl
  unfold ensureSshServiceBootEnabled
  refine (asks_spec _ _).bind ?_ ?_
  · rintro exit after ⟨rfl, -⟩
    exact ⟨after.serviceEnabled, untouched, fun bootState ended => (by cases ended), fun _ _ => same⟩
  rintro enabled after ⟨rfl, answered⟩
  have isEnabled : enabled = first.serviceEnabled := by
    have answer := (answered enabled rfl).2
    rw [same] at answer
    exact answer truthful.serviceEnabled
  split
  · next needed =>
    unfold performs
    rw [Remote.leads_bind, Remote.leads_require]
    refine ⟨trivial, ?_⟩
    rcases ran : script .enableService with _ | tookEffect | ⟨tookEffect, _⟩ | tookEffect
    case completed =>
      simp only [StepOutcome.demanded_completed, Remote.onValue_ok, Remote.leads_pure]
      refine ⟨true, rfl, fun bootState ended => ?_, fun error ended => (by cases ended)⟩
      cases ended
      exact ⟨isEnabled, fun _ => rfl⟩
    case interrupted =>
      refine ⟨_, (?_ : _ = after.setServiceEnabled (tookEffect || after.serviceEnabled)),
        fun bootState ended => (by cases ended), fun error ended => (by cases ended)⟩
      cases tookEffect <;> rfl
    all_goals
      have clean := truthful.enable
      rw [ran] at clean
      cases clean
      exact ⟨after.serviceEnabled, untouched, fun bootState ended => (by cases ended), fun _ _ => same⟩
  · refine Remote.leads_pure.2 ⟨after.serviceEnabled, untouched, fun bootState ended => ?_,
      fun error ended => (by cases ended)⟩
    rw [← Except.ok.inj ended]
    exact ⟨isEnabled, fun on => same.trans (isEnabled ▸ on)⟩

/-- What the tried restart has noted lets a recovery restore the host. -/
def Attempted (first host : PortHost) (result : Except (Exit RemoteError) RestartAttempt)
    (after : PortHost) : Prop :=
  match result with
  | .ok attempt => Recoverable first attempt.snapshot after ∧ after.ports = host.ports
  | .error exit => exit = .interrupted

theorem noted_spec {α : Type} {snapshot : SshdRestartSnapshot} {step : PortRemote α}
    {next : α → PortRemote RestartAttempt} {middle : Except (Exit RemoteError) α → PortHost → Prop}
    {world : PortHost} (stepSpec : Ends script step middle world)
    (went : ∀ value between, middle (.ok value) between →
      Ends script (next value) (Attempted first host) between)
    (threw : ∀ error between, middle (.error (.raised error)) between →
      Recoverable first snapshot between ∧ between.ports = host.ports) :
    Ends script (noted snapshot step next) (Attempted first host) world := by
  unfold noted
  rw [Ends, Remote.leads_bind, Remote.leads_attempt]
  refine stepSpec.mono fun result between holds => ?_
  rcases result with (error | _) | value
  · exact Remote.leads_pure.2 (threw error between holds)
  · rfl
  · exact went value between holds

theorem resolveUnit_spec : Ends script (shared .apply resolveSshServiceUnit)
      (fun _ after => after = host) host := by
  unfold shared resolveSshServiceUnit quiet
  rcases sshd : script (.shared .apply .findSshdUnit) with _ | _ | _ | _
  case refused =>
    rcases ssh : script (.shared .apply .findSshUnit) with _ | _ | _ | _ <;> simp [sshd, ssh]
  all_goals simp [sshd]

theorem restart_spec : Ends script (performs .restart PortHost.restarted)
      (fun _ after => ∃ sshd, after = { host with sshd := sshd }) host := by
  unfold performs
  rw [Ends, Remote.leads_require]
  refine ⟨trivial, ?_⟩
  cases took : (script .restart).takesEffect with
  | false =>
    rw [StepOutcome.apply_of_not_takesEffect took]
    exact ⟨host.sshd, rfl⟩
  | true =>
    rw [StepOutcome.apply_of_takesEffect took]
    exact ⟨_, rfl⟩

theorem tryRestart_spec (truthful : Truthful script first) (sameSocket : host.socket = first.socket)
    (sameService : host.serviceEnabled = first.serviceEnabled)
    (sameLoaded : host.sshd.loaded = first.sshd.loaded) :
    Ends script tryRestart (Attempted first host) host := by
  have truthfulHost : Truthful script host :=
    ⟨sameSocket ▸ truthful.socketEnabled, sameSocket ▸ truthful.socketActive,
      sameService ▸ truthful.serviceEnabled, truthful.enable⟩
  unfold tryRestart
  refine noted_spec (captureSshSocketState_spec truthfulHost) ?_ ?_
  case refine_2 =>
    rintro error between ⟨rfl, -⟩
    exact ⟨⟨fun _ => sameLoaded, sameService, sameSocket⟩, rfl⟩
  rintro socketState between ⟨rfl, captured⟩
  rw [sameSocket] at captured
  have known : ∀ state, socketState = some state → ∃ original, first.socket = some original ∧
      state.enabled = original.enabled ∧ state.active = original.active :=
    fun state isState => captured state (by rw [isState])
  refine noted_spec (disableSocketActivatedSsh_spec known sameSocket) ?_ ?_
  case refine_2 =>
    rintro error after ⟨socket, rfl, socketKnown⟩
    exact ⟨⟨fun _ => sameLoaded, sameService, socketKnown⟩, rfl⟩
  rintro - after ⟨socket, rfl, socketKnown⟩
  refine noted_spec resolveUnit_spec ?_ ?_
  case refine_2 =>
    rintro error after rfl
    exact ⟨⟨fun _ => sameLoaded, sameService, socketKnown⟩, rfl⟩
  rintro - after rfl
  have sameServiceNow : ({ between with socket := socket } : PortHost).serviceEnabled =
      first.serviceEnabled := sameService
  refine noted_spec (ensureSshServiceBootEnabled_spec truthful sameServiceNow socketState) ?_ ?_
  case refine_2 =>
    rintro error after ⟨enabled, rfl, -, unchanged⟩
    exact ⟨⟨fun found => (by cases found), unchanged error rfl, socketKnown⟩, rfl⟩
  rintro bootState after ⟨enabled, rfl, boot, -⟩
  obtain ⟨isFirst, stays⟩ := boot bootState rfl
  refine noted_spec restart_spec ?_ ?_
  · rintro - after ⟨sshd, rfl⟩
    exact Remote.leads_pure.2 ⟨⟨fun found => (by cases found), ⟨isFirst, stays⟩, socketKnown⟩, rfl⟩
  · rintro error after ⟨sshd, rfl⟩
    exact ⟨⟨fun found => (by cases found), ⟨isFirst, stays⟩, socketKnown⟩, rfl⟩

/-! ### Candidate ports -/

theorem addPort_ports_congr {other : PortHost} (same : host.ports = other.ports) (port : Nat) :
    (host.addPort port).ports = (other.addPort port).ports := by
  unfold PortHost.addPort
  rw [same]
  split
  · exact same
  · rfl

theorem removePort_ports_congr {other : PortHost} (same : host.ports = other.ports) (port : Nat) :
    (host.removePort port).ports = (other.removePort port).ports := by
  unfold PortHost.removePort
  rw [same]

theorem removePort_ports_eq {port : Nat} (missing : port ∉ host.ports) :
    (host.removePort port).ports = host.ports := by
  refine List.filter_eq_self.2 fun candidate mem => ?_
  exact decide_eq_true fun same => missing (same ▸ mem)

theorem not_mem_removePort (port : Nat) : port ∉ (host.removePort port).ports := by
  simp [PortHost.removePort]

/-- To add a port and remove it again leaves the candidates that lack it. -/
theorem removePort_addPort_iff (port : Nat) :
    ((host.addPort port).removePort port).ports = host.ports ↔ port ∉ host.ports := by
  constructor
  · intro same
    rw [← same]
    exact not_mem_removePort port
  · intro missing
    rw [PortHost.addPort, if_neg missing]
    change (host.ports ++ [port]).filter _ = _
    rw [List.filter_append, List.filter_singleton]
    have kept : host.ports.filter (fun candidate => candidate ≠ port) = host.ports :=
      removePort_ports_eq missing
    simpa using kept

/-- So does the recovery that also adds the port the connection was on, where that is a
candidate. -/
theorem removePort_addPort_removePort_iff {port original : Nat} (candidate : original ∈ host.ports) :
    ((((host.addPort port).removePort port).addPort original).removePort port).ports =
      host.ports ↔ port ∉ host.ports := by
  constructor
  · intro same
    rw [← same]
    exact not_mem_removePort port
  · intro missing
    have other : original ≠ port := fun same => missing (same ▸ candidate)
    have removed := (removePort_addPort_iff port).2 missing
    have known : original ∈ ((host.addPort port).removePort port).ports := removed ▸ candidate
    rw [PortHost.addPort, if_pos known]
    exact (removePort_ports_eq (not_mem_removePort port)).trans removed

/-! ### Verification -/

/-- No poll of the new port throws. -/
def PollsAnswer (script : PortScript) : Prop :=
  ∀ left tookEffect error, script (.probe (.verify left)) ≠ .threw tookEffect error ∧
    script (.listener (.verify left)) ≠ .threw tookEffect error

theorem probe_spec (occasion : PortProbe) (port : Nat) :
    Ends script (probeLiveSshdPort portOf occasion port) (fun result after => after = host ∧
        ((∀ tookEffect error, script (.probe occasion) ≠ .threw tookEffect error ∧
          script (.listener occasion) ≠ .threw tookEffect error) →
            ∀ error, result ≠ .error (.raised error))) host := by
  unfold probeLiveSshdPort
  rcases probed : script (.probe occasion) with _ | _ | ⟨tookEffect, thrown⟩ | _
  case completed =>
    rcases listened : script (.listener occasion) with _ | _ | ⟨tookEffect, thrown⟩ | _ <;>
      simp [probed, listened, Except.map]
  case threw =>
    simp only [Remote.leads_bind, Remote.leads_query, probed, StepOutcome.report_threw, Except.map,
      Remote.onValue_error, true_and]
    intro quiet error
    exact absurd rfl (quiet tookEffect thrown).1
  all_goals simp [probed, Except.map]

theorem waitForLiveSshdPort_spec (answer : PollsAnswer script) (left : Nat) :
    Ends script (waitForLiveSshdPort portOf request left)
      (fun result after => after = host ∧ ∀ error, result ≠ .error (.raised error)) host := by
  induction left with
  | zero =>
    unfold waitForLiveSshdPort
    refine (probe_spec _ _).bind ?_ ?_
    · rintro exit after ⟨rfl, quiet⟩
      exact ⟨rfl, fun error ended => quiet (answer 0) error (congrArg Except.error (Except.error.inj ended))⟩
    rintro probe after ⟨rfl, -⟩
    rcases probe with _ | _ | _ <;> exact Remote.leads_pure.2 ⟨rfl, fun error ended => (by cases ended)⟩
  | succ later ih =>
    unfold waitForLiveSshdPort
    refine (probe_spec _ _).bind ?_ ?_
    · rintro exit after ⟨rfl, quiet⟩
      exact ⟨rfl, fun error ended => quiet (answer (later + 1)) error (congrArg Except.error (Except.error.inj ended))⟩
    rintro probe after ⟨rfl, -⟩
    rcases probe with _ | _ | _
    · exact Remote.leads_pure.2 ⟨rfl, fun error ended => (by cases ended)⟩
    · exact ih
    · exact Remote.leads_pure.2 ⟨rfl, fun error ended => (by cases ended)⟩

theorem verifyLiveSshdPortOrRollback_spec (succeeds : RollbackSucceeds script)
    (answer : PollsAnswer script) {snapshot : SshdRestartSnapshot}
    (recoverable : Recoverable first snapshot host) (originalConfig : Text) : Ends script
      (verifyLiveSshdPortOrRollback portOf request originalConfig snapshot)
      (fun result after => Fails result → RolledBack portOf request first originalConfig
        (host.removePort request.targetPort).ports after) host := by
  unfold verifyLiveSshdPortOrRollback
  refine (waitForLiveSshdPort_spec answer _).bind ?_ ?_
  · rintro exit after ⟨rfl, quiet⟩ (ended | ⟨error, ended⟩)
    · cases ended
    · exact absurd (congrArg Except.error (Except.error.inj ended)) (quiet error)
  rintro outcome after ⟨rfl, -⟩
  split
  · refine Remote.leads_pure.2 fun fails => ?_
    rcases fails with ended | ⟨error, ended⟩ <;> cases ended
  · refine (rollbackAfterFailedVerification_spec succeeds recoverable originalConfig).bind
      (by rintro exit after ⟨⟨⟩, -⟩) ?_
    rintro rolledBack after ⟨-, done⟩
    exact Remote.leads_pure.2 fun _ => done

/-- The end of a restart, which a recovery may follow, or which has recovered already -/
def Restarted (portOf : Text → Option Nat) (request : PortRequest) (first host : PortHost)
    (originalConfig : Text) (result : Except (Exit RemoteError) SshdRestartOutcome)
    (after : PortHost) : Prop :=
  match result with
  | .ok (.completed snapshot) | .ok (.disconnected snapshot) =>
      Recoverable first snapshot after ∧ after.ports = (host.addPort request.targetPort).ports
  | .ok .failed => RolledBack portOf request first originalConfig
      ((host.addPort request.targetPort).removePort request.targetPort).ports after
  | .error exit => exit = .interrupted

theorem restartSshdOnNewPort_spec (succeeds : RollbackSucceeds script)
    (truthful : Truthful script first) (sameSocket : host.socket = first.socket)
    (sameService : host.serviceEnabled = first.serviceEnabled)
    (sameLoaded : host.sshd.loaded = first.sshd.loaded) (originalConfig : Text) :
    Ends script (restartSshdOnNewPort request originalConfig)
      (Restarted portOf request first host originalConfig) host := by
  unfold restartSshdOnNewPort
  rw [Ends, Remote.leads_bind, Remote.leads_note, Remote.onValue_ok]
  have added : (host.addPort request.targetPort).socket = first.socket ∧
      (host.addPort request.targetPort).serviceEnabled = first.serviceEnabled ∧
      (host.addPort request.targetPort).sshd.loaded = first.sshd.loaded := by
    unfold PortHost.addPort
    split <;> exact ⟨sameSocket, sameService, sameLoaded⟩
  refine (tryRestart_spec truthful added.1 added.2.1 added.2.2).bind
    (fun exit after stopped => stopped) ?_
  rintro ⟨snapshot, error⟩ after ⟨recoverable, samePorts⟩
  rcases error with _ | _ | _
  · exact Remote.leads_pure.2 ⟨recoverable, samePorts⟩
  · exact Remote.leads_pure.2 ⟨recoverable, samePorts⟩
  · have removed : (after.removePort request.targetPort).ports =
        ((host.addPort request.targetPort).removePort request.targetPort).ports :=
      removePort_ports_congr samePorts _
    have recovers := @recoverFromRestartFailure_spec portOf request script first after succeeds
      snapshot recoverable originalConfig
    rw [removed] at recovers
    refine recovers.bind (by rintro exit after ⟨⟨⟩, -⟩) ?_
    rintro rolledBack last ⟨-, done⟩
    exact Remote.leads_pure.2 done

theorem recoverFromReconnectFailure_spec (succeeds : RollbackSucceeds script)
    {snapshot : SshdRestartSnapshot} (recoverable : Recoverable first snapshot host)
    (originalConfig : Text) : Ends script
      (recoverFromReconnectFailureAfterDisconnect portOf request originalConfig snapshot)
      (fun _ after => RolledBack portOf request first originalConfig
        (((host.removePort request.targetPort).addPort request.originalPort).removePort
          request.targetPort).ports after) host := by
  unfold recoverFromReconnectFailureAfterDisconnect
  simp only [Remote.leads_bind, Remote.leads_note, Remote.onValue_ok]
  refine (runRollbackStep_performs (succeeds .reconnectAgain trivial) trivial).mono ?_
  rintro result after ⟨rfl, rfl⟩
  have added : Recoverable first snapshot
      (((host.removePort request.targetPort).addPort request.originalPort)) := by
    unfold PortHost.addPort
    split <;> exact ⟨recoverable.loaded, recoverable.boot, recoverable.socket⟩
  simp only [Remote.onValue_ok, if_true]
  refine (rollbackAfterFailedVerification_spec succeeds added originalConfig).bind
    (by rintro exit after ⟨⟨⟩, -⟩) ?_
  rintro rolledBack after ⟨-, done⟩
  exact Remote.leads_pure.2 done

/-- What a restart that fails leaves, where the recoveries go through -/
theorem restartAndVerifySshdPort_spec (succeeds : RollbackSucceeds script)
    (answer : PollsAnswer script) (truthful : Truthful script first)
    (reconnects : ∀ error, (script .reconnect).demanded .other = .error (.raised error) →
      request.originalPort ∈ first.ports)
    (sameSocket : host.socket = first.socket)
    (sameService : host.serviceEnabled = first.serviceEnabled)
    (sameLoaded : host.sshd.loaded = first.sshd.loaded) (samePorts : host.ports = first.ports)
    (originalConfig : Text) : Ends script (restartAndVerifySshdPort portOf request originalConfig)
      (fun result after => Fails result → ∃ ports,
        RolledBack portOf request first originalConfig ports after ∧
          (ports = first.ports ↔ request.targetPort ∉ first.ports)) host := by
  have portsOf : ∀ {after : PortHost},
      after.ports = (host.addPort request.targetPort).ports →
        (after.removePort request.targetPort).ports =
          ((first.addPort request.targetPort).removePort request.targetPort).ports := by
    intro after same
    exact removePort_ports_congr (same.trans (addPort_ports_congr samePorts _)) _
  have verifies : ∀ {snapshot : SshdRestartSnapshot} {after : PortHost},
      Recoverable first snapshot after →
      after.ports = (host.addPort request.targetPort).ports →
      Ends script
        (verifyLiveSshdPortOrRollback portOf request originalConfig snapshot)
        (fun result last => Fails result → ∃ ports,
          RolledBack portOf request first originalConfig ports last ∧
            (ports = first.ports ↔ request.targetPort ∉ first.ports)) after := by
    intro snapshot after recoverable same
    refine (verifyLiveSshdPortOrRollback_spec succeeds answer recoverable originalConfig).mono
      fun result last rolledBack fails => ⟨_, rolledBack fails, ?_⟩
    rw [portsOf same]
    exact removePort_addPort_iff _
  have restarts : Ends script (restartSshdOnNewPort request originalConfig)
      (Restarted portOf request first host originalConfig) host :=
    restartSshdOnNewPort_spec succeeds truthful sameSocket sameService sameLoaded originalConfig
  unfold restartAndVerifySshdPort
  refine restarts.bind ?_ ?_
  · rintro exit after rfl (ended | ⟨error, ended⟩) <;> cases ended
  rintro (snapshot | snapshot | _) after restarted
  · exact verifies restarted.1 restarted.2
  · obtain ⟨recoverable, same⟩ := restarted
    unfold performs
    rw [Remote.leads_bind, Remote.leads_attempt, Remote.leads_require, StepOutcome.apply_id]
    refine ⟨trivial, ?_⟩
    rcases ended : (script .reconnect).demanded .other with (error | _) | value
    · have candidate := reconnects error ended
      rw [ended, Remote.caught_raised, Remote.onValue_ok]
      have recovers := @recoverFromReconnectFailure_spec portOf request script first after succeeds
        snapshot recoverable originalConfig
      refine recovers.mono fun result last rolledBack _ => ⟨_, rolledBack, ?_⟩
      rw [removePort_ports_congr (addPort_ports_congr (portsOf same) _) _]
      exact removePort_addPort_removePort_iff candidate
    · rw [ended, Remote.caught_interrupted, Remote.onValue_error]
      rintro (impossible | ⟨error, impossible⟩) <;> cases impossible
    · rw [ended, Remote.caught_ok, Remote.onValue_ok]
      exact verifies recoverable same
  · refine Remote.leads_pure.2 fun _ => ⟨_, restarted, ?_⟩
    rw [portsOf rfl]
    exact removePort_addPort_iff _

/-! ### Apply -/

/-- ufw answers, and lets the target port through. -/
def UfwLets (request : PortRequest) (script : PortScript) (occasion : UfwOccasion) : Prop :=
  (∃ answered, (script (.ufw occasion)).report = .ok answered) ∧
    request.firewall occasion ≠ .unknown ∧ request.firewall occasion ≠ .access .blocked

/-- The probe before the restart finds no daemon on the target port. -/
def NotListening (portOf : Text → Option Nat) (request : PortRequest) (script : PortScript)
    (host : PortHost) : Prop :=
  script (.probe .preflight) = .completed ∧
    ∃ named, (script (.listener .preflight)).report = .ok named ∧
      ¬ (portOf host.sshd.loaded = some request.targetPort ∧ named = true)

/-- The script of the steps that sshd.port shares with sshd.config -/
def configScript (script : PortScript) : ConfigScript := fun key => script (.shared .apply key)

/-- Nothing ends the run before it restarts the daemon. -/
def ReachesRestart (daemon : Daemon) (portOf : Text → Option Nat) (request : PortRequest)
    (script : PortScript) (host : PortHost) : Prop :=
  request.targetPort ∈ request.configuredPorts ∧ UfwLets request script .beforeLease ∧
    configScript script .acquireLease = .completed ∧ configScript script .readConfig = .completed ∧
    let built := buildSshdPortContent daemon host.sshd.config request.targetPort
    if built.didChange then
      CandidateValid daemon (configScript script) built.newContent ∧
        configScript script .rereadConfig = .completed ∧
        configScript script .writeConfig = .completed ∧ UfwLets request script .beforeRestart
    else
      NotListening portOf request script host ∧ UfwLets request script .beforeRestart ∧
        request.originalPort ∈ request.configuredPorts

/-- The configuration that the recoveries write -/
def rollbackConfig (daemon : Daemon) (request : PortRequest) (config : Text) : Text :=
  if (buildSshdPortContent daemon config request.targetPort).didChange then config
  else (buildSshdPortContent daemon config request.originalPort).newContent

/-- What a failing run has to meet, where it reaches the restart or not -/
def UndoneIff (portOf : Text → Option Nat) (request : PortRequest) (first : PortHost)
    (originalConfig : Text) (reaches : Prop) (result : Except (Exit RemoteError) ModuleStatus)
    (after : PortHost) : Prop :=
  Fails result → (SameHost portOf first after ↔
    (reaches → request.targetPort ∉ first.ports ∧ originalConfig = first.sshd.config))

/-- What a failing run has to meet, with the configuration that its recoveries write -/
abbrev RunUndone (daemon : Daemon) (portOf : Text → Option Nat) (request : PortRequest)
    (script : PortScript) (first : PortHost) (result : Except (Exit RemoteError) ModuleStatus)
    (after : PortHost) : Prop :=
  UndoneIff portOf request first (rollbackConfig daemon request first.sshd.config)
    (ReachesRestart daemon portOf request script first) result after

theorem UndoneIff.of_same {originalConfig : Text} {reaches : Prop}
    {result : Except (Exit RemoteError) ModuleStatus} {after : PortHost}
    (same : SameHost portOf first after) (ends : ¬ reaches) :
    UndoneIff portOf request first originalConfig reaches result after :=
  fun _ => ⟨fun _ reached => absurd reached ends, fun _ => same⟩

theorem RunUndone.untouched {result : Except (Exit RemoteError) ModuleStatus} {after : PortHost}
    (same : after = first) (ends : ¬ ReachesRestart daemon portOf request script first) :
    RunUndone daemon portOf request script first result after :=
  .of_same (same ▸ .refl portOf after) ends

theorem UndoneIff.of_value {originalConfig : Text} {reaches : Prop} {status : ModuleStatus}
    {after : PortHost} (succeeded : status ≠ .failed) :
    UndoneIff portOf request first originalConfig reaches (.ok status) after := by
  rintro (ended | ⟨error, ended⟩)
  · cases ended
    exact absurd rfl succeeded
  · cases ended

theorem UndoneIff.of_interrupted {originalConfig : Text} {reaches : Prop} {after : PortHost} :
    UndoneIff portOf request first originalConfig reaches (.error .interrupted) after := by
  rintro (ended | ⟨error, ended⟩) <;> cases ended

theorem ufwAllows_spec (occasion : UfwOccasion) : Ends script (ufwAllows request occasion)
      (fun result after => after = host ∧
        (result = .ok true ↔ UfwLets request script occasion) ∧
        ((∀ tookEffect error, script (.ufw occasion) ≠ .threw tookEffect error) →
          ∀ error, result ≠ .error (.raised error))) host := by
  unfold ufwAllows UfwLets
  rcases asked : script (.ufw occasion) with _ | _ | ⟨tookEffect, thrown⟩ | _
  case threw => simp [asked]
  case interrupted => simp [asked]
  all_goals rcases request.firewall occasion with _ | (_ | _ | _) <;> simp [asked]

theorem preflight_spec : Ends script (probeLiveSshdPort portOf .preflight request.targetPort)
      (fun result after => after = host ∧
        (result = .ok (.matched false) ↔ NotListening portOf request script host)) host := by
  unfold probeLiveSshdPort NotListening
  rcases probed : script (.probe .preflight) with _ | _ | _ | _
  case completed =>
    rcases listened : script (.listener .preflight) with _ | _ | _ | _ <;>
      simp [probed, listened, Except.map]
  all_goals simp [probed, Except.map]

/-- The write of the new configuration, with the rollback of a write that fails -/
theorem writeConfig_spec (succeeds : RollbackSucceeds script) {original new loaded : Text}
    (apart : new ≠ original) :
    Remote.Leads (configScript script) (fun _ => True) (writeSshdConfigIfChanged true original new)
      (fun result after =>
        (result = .ok none ∧ after = { config := new, loaded := loaded } ∧
          configScript script .rereadConfig = .completed ∧
          configScript script .writeConfig = .completed) ∨
        ((result = .ok (some .failed) ∨ result = .error .interrupted) ∧
          (result = .error .interrupted ∨ after = { config := original, loaded := loaded }) ∧
          ¬ (configScript script .rereadConfig = .completed ∧
            configScript script .writeConfig = .completed)))
      { config := original, loaded := loaded } := by
  have reads : configScript script .readAfterFailedWrite = .completed := succeeds _ trivial
  have undoes : configScript script .undoFailedWrite = .completed := succeeds _ trivial
  unfold writeSshdConfigIfChanged guardedWriteFile rollbackSshdConfigAfterWriteFailure readFile
    writeFile
  rcases reread : configScript script .rereadConfig with _ | _ | _ | _
  case completed =>
    rcases written : configScript script .writeConfig with _ | tookEffect | ⟨tookEffect, _⟩ | _
    case completed => simp [reread, written, Except.map, SshdHost.write]
    case interrupted => simp [reread, written, Except.map]
    all_goals
      cases tookEffect <;>
        simp [reread, written, reads, undoes, Except.map, SshdHost.write, apart.symm]
  case interrupted => simp [reread, Except.map]
  all_goals simp [reread, reads, Except.map, apart.symm]

theorem ufwRollback_spec (succeeds : RollbackSucceeds script) {original config loaded : Text} :
    Remote.Leads (configScript script) (fun _ => True)
      (rollbackChangedSshdPortAfterUfwGuardFailure original)
      (fun result after => result = .ok .failed ∧ after = { config := original, loaded := loaded })
      { config := config, loaded := loaded } := by
  have writes : ∀ left, configScript script (.rollbackWrite left) = .completed :=
    fun left => succeeds _ trivial
  have reads : configScript script .rollbackRead = .completed := succeeds _ trivial
  unfold rollbackChangedSshdPortAfterUfwGuardFailure SSHD_ROLLBACK_WRITE_ATTEMPTS
    writeSshdRollbackWithRetry verifySshdConfigMatchesRollback readFile writeFile
  simp [writes, reads, Except.map, SshdHost.write]

/-- The steps whose failure the recoveries do not undo -/
structure Steady (daemon : Daemon) (portOf : Text → Option Nat) (request : PortRequest)
    (script : PortScript) (host : PortHost) : Prop where
  polls : PollsAnswer script
  truthful : Truthful script host
  guard : (buildSshdPortContent daemon host.sshd.config request.targetPort).didChange = true →
    ∀ tookEffect error, script (.ufw .beforeRestart) ≠ .threw tookEffect error
  reconnects : ∀ error, (script .reconnect).demanded .other = .error (.raised error) →
    request.originalPort ∈ host.ports
  inStep : ReachesRestart daemon portOf request script host →
    rollbackConfig daemon request host.sshd.config = host.sshd.config →
      portOf host.sshd.config = some request.originalPort ∧
        portOf host.sshd.loaded = some request.originalPort

/-- The restart, once nothing has ended the run before it -/
theorem restart_undone (succeeds : RollbackSucceeds script)
    (steady : Steady daemon portOf request script first)
    (reaches : ReachesRestart daemon portOf request script first) {config : Text}
    (isHost : host = first.setConfig config) : Ends script
      (restartAndVerifySshdPort portOf request (rollbackConfig daemon request first.sshd.config))
      (RunUndone daemon portOf request script first) host := by
  subst isHost
  have restarts := @restartAndVerifySshdPort_spec portOf request script first
    (first.setConfig config) succeeds steady.polls steady.truthful steady.reconnects rfl rfl rfl rfl
    (rollbackConfig daemon request first.sshd.config)
  refine restarts.mono ?_
  intro result after restarted fails
  obtain ⟨ports, rolledBack, samePorts⟩ := restarted fails
  rw [rolledBack.sameHost_iff (steady.inStep reaches), samePorts]
  exact ⟨fun undone _ => undone, fun undone => undone reaches⟩

theorem didChange_apart {port : Nat} {config : Text}
    (changed : (buildSshdPortContent daemon config port).didChange = true) :
    (buildSshdPortContent daemon config port).newContent ≠ config := didChange_iff.1 changed

theorem applyChangedSshdPort_spec (succeeds : RollbackSucceeds script)
    (steady : Steady daemon portOf request script first)
    (reachesBefore : request.targetPort ∈ request.configuredPorts ∧
      UfwLets request script .beforeLease ∧ configScript script .acquireLease = .completed ∧
      configScript script .readConfig = .completed)
    (changed : (buildSshdPortContent daemon first.sshd.config request.targetPort).didChange = true) :
    Ends script (applyChangedSshdPort daemon portOf request first.sshd.config
        (buildSshdPortContent daemon first.sshd.config request.targetPort).newContent)
      (RunUndone daemon portOf request script first) first := by
  have isRollback : rollbackConfig daemon request first.sshd.config = first.sshd.config :=
    if_pos changed
  have reachesIff : ReachesRestart daemon portOf request script first ↔
      CandidateValid daemon (configScript script)
          (buildSshdPortContent daemon first.sshd.config request.targetPort).newContent ∧
        configScript script .rereadConfig = .completed ∧
        configScript script .writeConfig = .completed ∧ UfwLets request script .beforeRestart := by
    simp only [ReachesRestart, reachesBefore, changed, if_true, true_and]
  have apart := didChange_apart changed
  generalize newIs : (buildSshdPortContent daemon first.sshd.config
    request.targetPort).newContent = new at *
  unfold applyChangedSshdPort shared
  rw [Ends, Remote.leads_bind, Remote.leads_zoom]
  refine (candidate_spec _ _).mono ?_
  rintro result part ⟨same, valid⟩
  subst same
  rcases result with exit | isValid
  · refine RunUndone.untouched rfl fun reached => ?_
    cases valid.2 (reachesIff.1 reached).1
  rw [Remote.onValue_ok]
  split
  case isFalse notValid =>
    refine Remote.leads_pure.2 (.untouched rfl fun reached => notValid ?_)
    exact Except.ok.inj (valid.2 (reachesIff.1 reached).1)
  next isValid =>
  subst isValid
  rw [Remote.leads_bind, Remote.leads_zoom]
  refine (@writeConfig_spec script succeeds first.sshd.config new first.sshd.loaded apart).mono
    fun result part written => ?_
  rcases written with ⟨rfl, rfl, reread, wrote⟩ | ⟨rfl | rfl, same, failed⟩
  · rw [Remote.onValue_ok]
    refine (ufwAllows_spec .beforeRestart).bind ?_ ?_
    · rintro exit after ⟨rfl, -, quiet⟩ fails
      rcases fails with ended | ⟨error, ended⟩
      · cases ended
      · exact absurd (congrArg Except.error (Except.error.inj ended))
          (quiet (steady.guard changed) error)
    rintro allowed after ⟨rfl, lets, -⟩
    split
    · next isAllowed =>
      have reaches := reachesIff.2 ⟨valid.1 rfl, reread, wrote, lets.1 (by rw [isAllowed])⟩
      have restarts := restart_undone succeeds steady reaches (show _ = first.setConfig new from rfl)
      rw [isRollback] at restarts
      exact restarts
    · next notAllowed =>
      rw [Remote.leads_zoom]
      refine (ufwRollback_spec succeeds).mono ?_
      rintro result part ⟨-, restored⟩
      rw [restored]
      refine RunUndone.untouched rfl fun reached => notAllowed ?_
      exact Except.ok.inj (lets.2 (reachesIff.1 reached).2.2.2)
  · rw [Remote.onValue_ok]
    rcases same with impossible | rfl
    · cases impossible
    refine Remote.leads_pure.2 (.untouched rfl fun reached => failed ?_)
    exact ⟨(reachesIff.1 reached).2.1, (reachesIff.1 reached).2.2.1⟩
  · exact .of_interrupted

theorem applySshdPortWhenConfigUnchanged_spec (succeeds : RollbackSucceeds script)
    (steady : Steady daemon portOf request script first)
    (reachesBefore : request.targetPort ∈ request.configuredPorts ∧
      UfwLets request script .beforeLease ∧ configScript script .acquireLease = .completed ∧
      configScript script .readConfig = .completed)
    (unchanged : (buildSshdPortContent daemon first.sshd.config request.targetPort).didChange ≠ true) :
    Ends script (applySshdPortWhenConfigUnchanged daemon portOf request first.sshd.config)
      (RunUndone daemon portOf request script first) first := by
  have isRollback : rollbackConfig daemon request first.sshd.config =
      (buildSshdPortContent daemon first.sshd.config request.originalPort).newContent :=
    if_neg unchanged
  have reachesIff : ReachesRestart daemon portOf request script first ↔
      NotListening portOf request script first ∧ UfwLets request script .beforeRestart ∧
        request.originalPort ∈ request.configuredPorts := by
    simp only [ReachesRestart, reachesBefore, unchanged, Bool.false_eq_true, if_false, true_and]
  unfold applySshdPortWhenConfigUnchanged
  refine preflight_spec.bind ?_ ?_
  · rintro exit after ⟨same, probed⟩
    refine RunUndone.untouched same fun reached => ?_
    cases probed.2 (reachesIff.1 reached).1
  rintro probe after ⟨same, probed⟩
  subst same
  rcases probe with _ | _ | _
  · refine Remote.leads_pure.2 (.untouched rfl fun reached => ?_)
    cases probed.2 (reachesIff.1 reached).1
  · refine (ufwAllows_spec .beforeRestart).bind ?_ ?_
    · rintro exit last ⟨same, lets, -⟩
      refine RunUndone.untouched same fun reached => ?_
      cases lets.2 (reachesIff.1 reached).2.1
    rintro allowed last ⟨same, lets, -⟩
    subst same
    split
    · next isAllowed =>
      split
      · next configured =>
        have reaches := reachesIff.2 ⟨probed.1 rfl, lets.1 (by rw [isAllowed]), configured⟩
        have restarts := restart_undone succeeds steady reaches
          (show last = last.setConfig last.sshd.config from rfl)
        rw [isRollback] at restarts
        exact restarts
      · next notConfigured =>
        exact Remote.leads_pure.2
          (.untouched rfl fun reached => notConfigured (reachesIff.1 reached).2.2)
    · next notAllowed =>
      refine Remote.leads_pure.2 (.untouched rfl fun reached => notAllowed ?_)
      exact Except.ok.inj (lets.2 (reachesIff.1 reached).2.1)
  · exact Remote.leads_pure.2 (.of_value (by simp))

theorem applySshdPortUnderLock_spec (succeeds : RollbackSucceeds script)
    (steady : Steady daemon portOf request script first)
    (reachesBefore : request.targetPort ∈ request.configuredPorts ∧
      UfwLets request script .beforeLease ∧ configScript script .acquireLease = .completed) :
    Ends script (applySshdPortUnderLock daemon portOf request)
      (RunUndone daemon portOf request script first) first := by
  unfold applySshdPortUnderLock shared readFile
  rw [Ends, Remote.leads_bind, Remote.leads_zoom, Remote.leads_read]
  refine ⟨trivial, ?_⟩
  have unread : ∀ {result}, configScript script .readConfig ≠ .completed →
      RunUndone daemon portOf request script first result first := fun notRead =>
    .of_same (.refl portOf first) fun reached => notRead reached.2.2.2.1
  rcases read : configScript script .readConfig with _ | _ | _ | _
  case completed =>
    have before : request.targetPort ∈ request.configuredPorts ∧
        UfwLets request script .beforeLease ∧ configScript script .acquireLease = .completed ∧
        configScript script .readConfig = .completed :=
      ⟨reachesBefore.1, reachesBefore.2.1, reachesBefore.2.2, read⟩
    change script (.shared .apply .readConfig) = _ at read
    rw [read]
    simp only [StepOutcome.demanded_completed, Except.map, Remote.onValue_ok]
    split
    · next changed => exact applyChangedSshdPort_spec succeeds steady before changed
    · next unchanged => exact applySshdPortWhenConfigUnchanged_spec succeeds steady before unchanged
  all_goals
    have notRead : configScript script .readConfig ≠ .completed := by rw [read]; simp
    change script (.shared .apply .readConfig) = _ at read
    rw [read]
    exact unread notRead

theorem applySshdPort_spec (succeeds : RollbackSucceeds script)
    (steady : Steady daemon portOf request script first) :
    Ends script (applySshdPort daemon portOf request)
      (RunUndone daemon portOf request script first) first := by
  unfold applySshdPort
  split
  case isFalse notConfigured =>
    exact Remote.leads_pure.2 (.untouched rfl fun reached => notConfigured reached.1)
  next configured =>
  refine (ufwAllows_spec .beforeLease).bind ?_ ?_
  · rintro exit after ⟨same, lets, -⟩
    refine RunUndone.untouched same fun reached => ?_
    cases lets.2 reached.2.1
  rintro allowed after ⟨same, lets, -⟩
  subst same
  split
  case isFalse notAllowed =>
    refine Remote.leads_pure.2 (.untouched rfl fun reached => notAllowed ?_)
    exact Except.ok.inj (lets.2 reached.2.1)
  next isAllowed =>
  unfold withPortLease shared quiet
  rw [Remote.leads_bind, Remote.leads_zoom, Remote.leads_step, StepOutcome.apply_id]
  refine ⟨trivial, ?_⟩
  rcases leased : script (.shared .apply .acquireLease) with _ | _ | _ | _
  case completed =>
    simp only [StepOutcome.report_completed, Remote.onValue_ok, if_true]
    have runs := applySshdPortUnderLock_spec succeeds steady
      ⟨configured, lets.1 (by rw [isAllowed]), leased⟩
    refine runs.ensuring (fun last undone => undone) fun result last undone _ => ?_
    rw [Remote.leads_attempt, Remote.leads_zoom, Remote.leads_step, StepOutcome.apply_id]
    refine ⟨trivial, ?_⟩
    rcases script (.shared .apply .releaseLease) with _ | _ | _ | _
    case interrupted => exact .of_interrupted
    all_goals exact undone
  case refused =>
    refine Remote.leads_pure.2 (.untouched rfl fun reached => ?_)
    have acquired : script (.shared .apply .acquireLease) = .completed := reached.2.2.1
    rw [leased] at acquired
    cases acquired
  all_goals
    refine RunUndone.untouched rfl fun reached => ?_
    have acquired : script (.shared .apply .acquireLease) = .completed := reached.2.2.1
    rw [leased] at acquired
    cases acquired

/-! ### A host with socket activation -/

def onPort (port : String) : Text := text "Port " ++ text port ++ text "
"

/-- The daemon listens on the port of the only `Port` line. -/
def plainPort (content : Text) : Option Nat :=
  if content = onPort "22" then some 22
  else if content = onPort "2222" then some 2222
  else none

def socketHost (ports : List Nat) : PortHost where
  sshd := { config := onPort "22", loaded := onPort "22" }
  socket := some { active := true, enabled := true, unit := .ssh }
  serviceEnabled := false
  ports := ports

def moveTo2222 : PortRequest where
  targetPort := 2222
  originalPort := 22
  configuredPorts := [22, 2222]
  firewall _ := .access .inactive
  polls := 0

def restartRefused : PortScript := fun key =>
  if key = .restart then .refused false else .completed

theorem restartRefused_rollback : RollbackSucceeds restartRefused := by
  intro key isRollback
  refine if_neg fun same => ?_
  rw [same] at isRollback
  exact isRollback

theorem restartRefused_steady :
    Steady plainDaemon plainPort moveTo2222 restartRefused (socketHost [22]) where
  polls left tookEffect error := by simp [restartRefused]
  truthful := by constructor <;> simp [restartRefused, StepOutcome.FailsClean]
  guard _ tookEffect error := by simp [restartRefused]
  reconnects _ raised := (by cases raised)
  inStep _ _ := by decide +kernel

/-! ### Runs that fail -/

end Paratix.Sshd
