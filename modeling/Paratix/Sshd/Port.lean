/-
Module: Paratix.Sshd.Port
Purpose: The apply of sshd.port: the new port in sshd_config, the move away from socket
  activation, the restart, its verification, and the three recoveries.
Main exports: SshSocketState, applySshdPort
-/
import Paratix.Firewall.Lockout
import Paratix.Foundation.LinePattern
import Paratix.Sshd.Config

namespace Paratix.Sshd

open Foundation Archive Orchestration Firewall

/-! ### Hosts and steps -/

/-- One of `ssh.socket` and `sshd.socket` -/
inductive SshdSocketUnit where
  | ssh
  | sshd
deriving DecidableEq

structure SshSocketState where
  active : Bool
  enabled : Bool
  unit : SshdSocketUnit
deriving DecidableEq

/-- The host, and the candidate ports of the connection. -/
structure PortHost where
  sshd : SshdHost
  socket : Option SshSocketState
  /-- Whether the service starts at boot -/
  serviceEnabled : Bool
  ports : List Nat
deriving DecidableEq

inductive PortOccasion where
  | apply
  | rollback
deriving DecidableEq

inductive PortProbe where
  | preflight
  /-- With the number of polls that are left after it -/
  | verify (left : Nat)
  | original
deriving DecidableEq

inductive UfwOccasion where
  | beforeLease
  | beforeRestart
deriving DecidableEq

/-- The remote steps of sshd.port; those it shares with sshd.config keep their names. -/
inductive PortStep where
  | shared (occasion : PortOccasion) (step : ConfigStep)
  | ufw (occasion : UfwOccasion)
  | findSocket (unit : SshdSocketUnit)
  | socketEnabled
  | socketActive
  | disableSocket
  | serviceEnabled
  | enableService
  | restart
  | reconnect
  /-- The exit code of `ss` with an error on stderr that is a hard one -/
  | probe (probe : PortProbe)
  /-- Whether `ss` exits with zero and names sshd or systemd -/
  | listener (probe : PortProbe)
  | restoreConfig
  | disableService
  | enableSocketNow
  | enableSocket
  | startSocket
  | restartAgain
  | reconnectAgain
deriving DecidableEq

abbrev PortRemote (α : Type) := Remote PortStep PortHost RemoteError α

/-- What the apply is asked for, and what it finds beside the host. -/
structure PortRequest where
  targetPort : Nat
  /-- `ssh.getConnectionInfo().port` -/
  originalPort : Nat
  /-- The static `ssh.ports` -/
  configuredPorts : List Nat
  /-- What the firewall answers, where it can be asked -/
  firewall : UfwOccasion → UfwAccessProbe
  /-- The polls that fit between the first one and the deadline -/
  polls : Nat

def PortHost.setConfig (content : Text) (host : PortHost) : PortHost :=
  { host with sshd := host.sshd.write content }

def PortHost.restarted (host : PortHost) : PortHost := { host with sshd := host.sshd.load }

def PortHost.addPort (port : Nat) (host : PortHost) : PortHost :=
  if port ∈ host.ports then host else { host with ports := host.ports ++ [port] }

def PortHost.removePort (port : Nat) (host : PortHost) : PortHost :=
  { host with ports := host.ports.filter (· ≠ port) }

def PortHost.setSocket (change : SshSocketState → SshSocketState) (host : PortHost) : PortHost :=
  { host with socket := host.socket.map change }

def PortHost.setServiceEnabled (enabled : Bool) (host : PortHost) : PortHost :=
  { host with serviceEnabled := enabled }

/-- A program of sshd.config, on the occasion -/
def shared {α : Type} (occasion : PortOccasion) (program : SshdRemote α) : PortRemote α :=
  Remote.zoom (.shared occasion) PortHost.sshd (fun sshd host => { host with sshd := sshd }) program

/-- A test of a systemd unit: only an exit code of zero says yes. -/
def asks (key : PortStep) (view : PortHost → Bool) : PortRemote Bool := do
  match ← Remote.query key fun host => if view host then some () else none with
  | some _ => pure true
  | none => pure false

/-- A command whose error code is thrown -/
def performs (key : PortStep) (change : PortHost → PortHost) : PortRemote Unit :=
  Remote.require .other key change

/-! ### Socket activation and boot state -/

def resolveExistingSshdSocketUnit : List SshdSocketUnit → PortRemote (Option SshdSocketUnit)
  | [] => pure none
  | candidate :: rest => do
      let there ← asks (.findSocket candidate) fun host =>
        host.socket.any fun socket => socket.unit = candidate
      if there then pure (some candidate) else resolveExistingSshdSocketUnit rest

def SSHD_SOCKET_UNIT_CANDIDATES : List SshdSocketUnit := [.ssh, .sshd]

def captureSshSocketState : PortRemote (Option SshSocketState) := do
  match ← resolveExistingSshdSocketUnit SSHD_SOCKET_UNIT_CANDIDATES with
  | none => pure none
  | some unit =>
      let enabled ← asks .socketEnabled fun host => host.socket.any SshSocketState.enabled
      let active ← asks .socketActive fun host => host.socket.any SshSocketState.active
      pure (some { active := active, enabled := enabled, unit := unit })

def disableSocketActivatedSsh : Option SshSocketState → PortRemote Unit
  | none => pure ()
  | some _ => performs .disableSocket (PortHost.setSocket fun socket =>
      { socket with active := false, enabled := false })

def restoreSocketActivatedSsh : Option SshSocketState → PortRemote Unit
  | none => pure ()
  | some captured =>
      if captured.enabled ∧ captured.active then
        performs .enableSocketNow (PortHost.setSocket fun socket =>
          { socket with active := true, enabled := true })
      else if captured.enabled then
        performs .enableSocket (PortHost.setSocket fun socket => { socket with enabled := true })
      else if captured.active then
        performs .startSocket (PortHost.setSocket fun socket => { socket with active := true })
      else pure ()

/-- The boot state before the service was enabled -/
def ensureSshServiceBootEnabled (socketState : Option SshSocketState) : PortRemote Bool := do
  let enabled ← asks .serviceEnabled PortHost.serviceEnabled
  if (socketState.any SshSocketState.enabled) ∧ ¬ enabled then
    performs .enableService (PortHost.setServiceEnabled true)
    pure enabled
  else pure enabled

def restoreSshServiceBootState : Option Bool → PortRemote Unit
  | none => pure ()
  | some enabled =>
      if enabled then pure () else performs .disableService (PortHost.setServiceEnabled false)

/-! ### Rollback -/

/-- What the restart noted before it ended -/
structure SshdRestartSnapshot where
  serviceBootState : Option Bool
  /-- Whether the unit of the service was found -/
  serviceUnit : Bool
  socketState : Option SshSocketState
deriving DecidableEq

/-- Whether the step went through; the messages of its failures are left out. -/
def runRollbackStep (step : PortRemote Unit) : PortRemote Bool := do
  match ← step.attempt with
  | .ok _ => pure true
  | .error _ => pure false

def restoreLayers (originalConfig : Text) (snapshot : SshdRestartSnapshot) : PortRemote Bool := do
  let config ← runRollbackStep (performs .restoreConfig (PortHost.setConfig originalConfig))
  let boot ← runRollbackStep (restoreSshServiceBootState snapshot.serviceBootState)
  let socket ← runRollbackStep (restoreSocketActivatedSsh snapshot.socketState)
  pure (config && boot && socket)

/-- The restart of `restoreSshdPortRestartFailure` -/
def restartAfterFailure (snapshot : SshdRestartSnapshot) : PortRemote Unit :=
  if snapshot.serviceUnit then performs .restartAgain PortHost.restarted else pure ()

def recoverFromRestartFailure (targetPort : Nat) (originalConfig : Text)
    (snapshot : SshdRestartSnapshot) : PortRemote Bool := do
  Remote.note (PortHost.removePort targetPort)
  let layers ← restoreLayers originalConfig snapshot
  let restarted ← runRollbackStep (restartAfterFailure snapshot)
  pure (layers && restarted)

section Daemon

/- The port on which a daemon with this configuration listens -/
variable (daemon : Daemon) (portOf : Text → Option Nat) (request : PortRequest)

inductive LivePort where
  | hardError
  | matched (matched : Bool)
deriving DecidableEq

def probeLiveSshdPort (occasion : PortProbe) (port : Nat) : PortRemote LivePort := do
  match ← Remote.query (.probe occasion) fun host =>
      some (decide (portOf host.sshd.loaded = some port)) with
  | none => pure .hardError
  | some listening =>
      let named ← Remote.step (.listener occasion) id
      pure (.matched (listening && named))

def findRestartUnit (snapshot : SshdRestartSnapshot) : PortRemote Unit :=
  if snapshot.serviceUnit then pure () else shared .rollback resolveSshServiceUnit

def restartSshdIfNotAlreadyOnOriginalPort (snapshot : SshdRestartSnapshot) : PortRemote Unit := do
  match ← probeLiveSshdPort portOf .original request.originalPort with
  | .hardError => Remote.throw .other
  | .matched true => pure ()
  | .matched false =>
      findRestartUnit snapshot
      performs .restartAgain PortHost.restarted

def rollbackSshdPortAfterFailedVerification (originalConfig : Text)
    (snapshot : SshdRestartSnapshot) : PortRemote Bool := do
  Remote.note (PortHost.removePort request.targetPort)
  let layers ← restoreLayers originalConfig snapshot
  let restarted ← runRollbackStep (restartSshdIfNotAlreadyOnOriginalPort portOf request snapshot)
  pure (layers && restarted)

/-! ### Restart -/

/-- What `restartSshdOnNewPort` has noted where it ends, and the error that ended it -/
structure RestartAttempt where
  snapshot : SshdRestartSnapshot
  error : Option RemoteError
deriving DecidableEq

def noSnapshot : SshdRestartSnapshot :=
  { serviceBootState := none, serviceUnit := false, socketState := none }

/-- Goes on with what a step returns, or ends with what is noted so far. -/
def noted {α : Type} (snapshot : SshdRestartSnapshot) (step : PortRemote α)
    (next : α → PortRemote RestartAttempt) : PortRemote RestartAttempt := do
  match ← step.attempt with
  | .ok value => next value
  | .error error => pure { snapshot := snapshot, error := some error }

/-- What `restartSshdOnNewPort` tries; each assignment of a local is noted at once. -/
def tryRestart : PortRemote RestartAttempt :=
  noted noSnapshot captureSshSocketState fun socketState =>
  let captured := { noSnapshot with socketState := socketState }
  noted captured (disableSocketActivatedSsh socketState) fun _ =>
  noted captured (shared .apply resolveSshServiceUnit) fun _ =>
  let resolved := { captured with serviceUnit := true }
  noted resolved (ensureSshServiceBootEnabled socketState) fun bootState =>
  let ensured := { resolved with serviceBootState := some bootState }
  noted ensured (performs .restart PortHost.restarted) fun _ =>
  pure { snapshot := ensured, error := none }

inductive SshdRestartOutcome where
  | completed (snapshot : SshdRestartSnapshot)
  | disconnected (snapshot : SshdRestartSnapshot)
  | failed
deriving DecidableEq

def restartSshdOnNewPort (originalConfig : Text) : PortRemote SshdRestartOutcome := do
  Remote.note (PortHost.addPort request.targetPort)
  let attempt ← tryRestart
  match attempt.error with
  | none => pure (.completed attempt.snapshot)
  | some .disconnected => pure (.disconnected attempt.snapshot)
  | some .other =>
      let _rolledBack ← recoverFromRestartFailure request.targetPort originalConfig attempt.snapshot
      pure .failed

/-! ### Verification -/

inductive WaitForLiveSshdPortOutcome where
  | hardError
  | matched
  | timeout
deriving DecidableEq

/-- The polls that are left when the deadline has not passed -/
def waitForLiveSshdPort (left : Nat) : PortRemote WaitForLiveSshdPortOutcome := do
  match ← probeLiveSshdPort portOf (.verify left) request.targetPort with
  | .hardError => pure .hardError
  | .matched true => pure .matched
  | .matched false =>
      match left with
      | 0 => pure .timeout
      | later + 1 => waitForLiveSshdPort later

def verifyLiveSshdPortOrRollback (originalConfig : Text) (snapshot : SshdRestartSnapshot) :
    PortRemote ModuleStatus := do
  let verifyOutcome ← waitForLiveSshdPort portOf request request.polls
  if verifyOutcome = .matched then pure .changed
  else
    let _rolledBack ←
      rollbackSshdPortAfterFailedVerification portOf request originalConfig snapshot
    pure .failed

def recoverFromReconnectFailureAfterDisconnect (originalConfig : Text)
    (snapshot : SshdRestartSnapshot) : PortRemote ModuleStatus := do
  Remote.note (PortHost.removePort request.targetPort)
  Remote.note (PortHost.addPort request.originalPort)
  let reconnected ← runRollbackStep (performs .reconnectAgain id)
  if reconnected then
    let _rolledBack ←
      rollbackSshdPortAfterFailedVerification portOf request originalConfig snapshot
    pure .failed
  else pure .failed

def restartAndVerifySshdPort (originalConfig : Text) : PortRemote ModuleStatus := do
  match ← restartSshdOnNewPort request originalConfig with
  | .failed => pure .failed
  | .completed snapshot => verifyLiveSshdPortOrRollback portOf request originalConfig snapshot
  | .disconnected snapshot =>
      match ← (performs .reconnect id).attempt with
      | .ok _ => verifyLiveSshdPortOrRollback portOf request originalConfig snapshot
      | .error _ => recoverFromReconnectFailureAfterDisconnect portOf request originalConfig snapshot

/-! ### Apply -/

/-- `buildSshdPortContent` -/
def buildSshdPortContent (originalConfig : Text) (port : Nat) : SshdConfigContent :=
  buildSshdConfigContent daemon.toLowerCase originalConfig [(text "Port", decimal port)]

/-- Whether ufw, where it can be read, lets the target port through. What its commands exit
with is part of the answer. -/
def ufwAllows (occasion : UfwOccasion) : PortRemote Bool := do
  let _answered ← Remote.step (.ufw occasion) id
  pure (match request.firewall occasion with
    | .unknown => false
    | .access .blocked => false
    | .access _ => true)

def applySshdPortWhenConfigUnchanged (originalConfig : Text) : PortRemote ModuleStatus := do
  match ← probeLiveSshdPort portOf .preflight request.targetPort with
  | .hardError => pure .failed
  | .matched true => pure .ok
  | .matched false =>
      let allowed ← ufwAllows request .beforeRestart
      if allowed then
        if request.originalPort ∈ request.configuredPorts then
          restartAndVerifySshdPort portOf request
            (buildSshdPortContent daemon originalConfig request.originalPort).newContent
        else pure .failed
      else pure .failed

def rollbackChangedSshdPortAfterUfwGuardFailure (originalConfig : Text) : SshdRemote ModuleStatus := do
  let written ← writeSshdRollbackWithRetry originalConfig SSHD_ROLLBACK_WRITE_ATTEMPTS
  if written then
    let _verified ← verifySshdConfigMatchesRollback originalConfig
    pure .failed
  else pure .failed

def applyChangedSshdPort (originalConfig newContent : Text) : PortRemote ModuleStatus := do
  let valid ← shared .apply (validateProspectiveSshdConfig daemon newContent)
  if valid then
    match ← shared .apply (writeSshdConfigIfChanged true originalConfig newContent) with
    | some failure => pure failure
    | none =>
        let allowed ← ufwAllows request .beforeRestart
        if allowed then restartAndVerifySshdPort portOf request originalConfig
        else shared .apply (rollbackChangedSshdPortAfterUfwGuardFailure originalConfig)
  else pure .failed

def applySshdPortUnderLock : PortRemote ModuleStatus := do
  let originalConfig ← shared .apply (readFile .readConfig)
  let built := buildSshdPortContent daemon originalConfig request.targetPort
  if built.didChange then applyChangedSshdPort daemon portOf request originalConfig built.newContent
  else applySshdPortWhenConfigUnchanged daemon portOf request originalConfig

/-- A lease that cannot be had is a failure; its release is quiet. -/
def withPortLease (critical : PortRemote ModuleStatus) : PortRemote ModuleStatus := do
  let acquired ← shared .apply (quiet .acquireLease)
  if acquired then critical.ensuring (shared .apply (quiet .releaseLease)).attempt
  else pure .failed

def applySshdPort : PortRemote ModuleStatus :=
  if request.targetPort ∈ request.configuredPorts then do
    let allowed ← ufwAllows request .beforeLease
    if allowed then withPortLease (applySshdPortUnderLock daemon portOf request)
    else pure .failed
  else pure .failed

end Daemon

end Paratix.Sshd
