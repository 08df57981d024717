import Sturnus.Foundation.Transition
import Sturnus.Server.Observability

/-!
# Listeners and shutdown

`run_servers` runs the listener of the router and perhaps one for metrics.  A
listener accepts connections until its shutdown future is ready; then it is
dropped, and its connections are waited for until the drain times out.  The
metrics listener is shut down once the router's has returned.
-/

namespace Sturnus

open Foundation Foundation.Http Foundation.Transition

/-- Where `run_server_with_role` stands. -/
inductive ListenerPhase where
  | accepting
  /-- The listener is dropped; the drain and its timeout began at this time. -/
  | draining (since : ℕ)
  /-- All connections drained, or the timeout was reached. -/
  | returned (drained : Bool)
  deriving DecidableEq

def ListenerPhase.hasReturned : ListenerPhase → Bool
  | .returned _ => true
  | .accepting | .draining _ => false

/-- A connection that was accepted and spawned, and whether its future has completed. -/
structure Connection where
  role : ServerRole
  closed : Bool
  deriving DecidableEq

/-- A request and the connection it came in on. -/
structure Served (F : Type) where
  connection : ℕ
  role : ServerRole
  /-- The body of the answer has ended. -/
  written : Bool
  task : Task F

structure Process (F : Type) where
  app : AppState F
  clock : ℕ
  /-- The shutdown future of the router is ready. -/
  signalled : Bool
  listener : ListenerPhase
  metricsListener : Option ListenerPhase
  /-- The metrics listener was told to stop. -/
  stopped : Bool
  connections : List Connection
  served : List (Served F)
  journal : List (ℕ × Effect)

inductive Action where
  | elapse (time : ℕ)
  | signal
  | accept (role : ServerRole)
  /-- An accept error is logged, and the loop goes on. -/
  | acceptError (role : ServerRole)
  | shutDown (role : ServerRole)
  | drain (role : ServerRole)
  | timeOut (role : ServerRole)
  | stopMetrics
  | arrive (connection : ℕ) (request : Request)
  | advance (i : ℕ) (input : Input)
  /-- The body of an answer ends: its last byte is written, or its client has left. -/
  | write (i : ℕ)
  /-- The future of a connection completes. -/
  | close (connection : ℕ)

/-- The client has left before the answer. -/
def Phase.isCancelled {F : Type} : Phase F → Bool
  | .cancelled | .called ⟨_, _, .cancelled⟩ => true
  | .received | .buffering _ | .rejected _ _ | .observed _ | .called _ => false

/-- The handler has returned or was dropped; what it answered may still have to be written. -/
def Phase.isHandled {F : Type} (phase : Phase F) : Bool :=
  phase.response.isSome || phase.isCancelled

/-- Answered to the end of the body, or cancelled. -/
def Served.isFinished {F : Type} (served : Served F) : Bool :=
  served.written || served.task.phase.isCancelled

namespace Process

variable {F : Type}

def start (app : AppState F) (metrics : Bool) : Process F where
  app := app
  clock := 0
  signalled := false
  listener := .accepting
  metricsListener := if metrics then some .accepting else none
  stopped := false
  connections := []
  served := []
  journal := []

def phaseOf (process : Process F) : ServerRole → Option ListenerPhase
  | .full => some process.listener
  | .observability => process.metricsListener

def setPhase (process : Process F) (phase : ListenerPhase) : ServerRole → Process F
  | .full => { process with listener := phase }
  | .observability => { process with metricsListener := some phase }

/-- The future that ends the accept loop. -/
def shutdownReady (process : Process F) : ServerRole → Bool
  | .full => process.signalled
  | .observability => process.stopped

/-- All connections of a listener have completed. -/
def drained (process : Process F) (role : ServerRole) : Bool :=
  process.connections.all fun connection => connection.role != role || connection.closed

/-- No request of a connection is being handled or answered. -/
def idle (process : Process F) (connection : ℕ) : Bool :=
  process.served.all fun served => served.connection != connection || served.isFinished

/-- `run_servers` has returned. -/
def returned (process : Process F) : Bool :=
  process.listener.hasReturned && process.metricsListener.all ListenerPhase.hasReturned

end Process

/-- When the futures that `run_server_with_role` has from hyper and hyper-util may be ready. -/
structure Hyper (F : Type) where
  /-- That of `serve_connection`. -/
  completes : Process F → ℕ → Bool
  /-- That of `GracefulShutdown::shutdown`. -/
  resolves : Process F → ServerRole → Bool

namespace Hyper

variable {F : Type}

/-- A connection completes between requests or when its client leaves, which ends those in
progress; the shutdown of a listener resolves once all connections it watches have completed. -/
structure Lawful (hyper : Hyper F) : Prop where
  completes : ∀ process connection, hyper.completes process connection = true →
    process.idle connection = true
  resolves : ∀ process role, hyper.resolves process role = true → process.drained role = true

/-- Ready as soon as allowed. -/
def prompt : Hyper F := ⟨Process.idle, Process.drained⟩

theorem prompt_lawful : (prompt : Hyper F).Lawful := ⟨fun _ _ => id, fun _ _ => id⟩

end Hyper

namespace Process

variable {F : Type} [Float64 F] {Map : Type}

def step (hyper : Hyper F) (codecs : Codecs Map) (shutdownTimeout : ℕ) (process : Process F) :
    Action → Option (Process F)
  | .elapse time => some { process with clock := process.clock + time }
  | .signal => some { process with signalled := true }
  | .accept role =>
      if process.phaseOf role = some .accepting then
        some { process with connections := process.connections ++ [⟨role, false⟩] }
      else none
  | .acceptError role => if process.phaseOf role = some .accepting then some process else none
  | .shutDown role =>
      if process.phaseOf role = some .accepting ∧ process.shutdownReady role = true then
        some ({ process with app := process.app.mark true }.setPhase
          (.draining process.clock) role)
      else none
  | .drain role =>
      match process.phaseOf role with
      | some (.draining _) =>
          if hyper.resolves process role then some (process.setPhase (.returned true) role)
          else none
      | _ => none
  | .timeOut role =>
      match process.phaseOf role with
      | some (.draining since) =>
          if since + shutdownTimeout ≤ process.clock then
            some (process.setPhase (.returned false) role)
          else none
      | _ => none
  | .stopMetrics =>
      if process.listener.hasReturned = true ∧ process.metricsListener.isSome = true then
        some { process with stopped := true }
      else none
  | .arrive connection request =>
      match process.connections[connection]? with
      | some ⟨role, false⟩ =>
          some { process with
            served := process.served ++ [⟨connection, role, false, Task.start request⟩] }
      | _ => none
  | .advance i input =>
      match process.served[i]? with
      | some ⟨connection, role, written, request, phase⟩ =>
          (role.advance codecs process.app request phase input).map fun (app, next, effects) =>
            { process with
              app := app
              served := process.served.set i ⟨connection, role, written, request, next⟩
              journal := process.journal ++ effects.map fun effect => (i, effect) }
      | none => none
  | .write i =>
      match process.served[i]? with
      | some ⟨connection, role, _, task⟩ =>
          if task.phase.response.isSome then
            some { process with served := process.served.set i ⟨connection, role, true, task⟩ }
          else none
      | none => none
  | .close connection =>
      match process.connections[connection]? with
      | some ⟨role, false⟩ =>
          if hyper.completes process connection then
            some { process with
              connections := process.connections.set connection ⟨role, true⟩ }
          else none
      | _ => none

/-- What a step does, and what lets it. -/
inductive Does (hyper : Hyper F) (codecs : Codecs Map) (shutdownTimeout : ℕ)
    (process : Process F) : Action → Process F → Prop where
  | elapse (time : ℕ) : Does hyper codecs shutdownTimeout process (.elapse time)
      { process with clock := process.clock + time }
  | signal : Does hyper codecs shutdownTimeout process .signal { process with signalled := true }
  | accept {role : ServerRole} : process.phaseOf role = some .accepting →
      Does hyper codecs shutdownTimeout process (.accept role)
        { process with connections := process.connections ++ [⟨role, false⟩] }
  | acceptError {role : ServerRole} : process.phaseOf role = some .accepting →
      Does hyper codecs shutdownTimeout process (.acceptError role) process
  | shutDown {role : ServerRole} : process.phaseOf role = some .accepting →
      process.shutdownReady role = true →
      Does hyper codecs shutdownTimeout process (.shutDown role)
        ({ process with app := process.app.mark true }.setPhase (.draining process.clock) role)
  | drain {role : ServerRole} {since : ℕ} : process.phaseOf role = some (.draining since) →
      hyper.resolves process role = true →
      Does hyper codecs shutdownTimeout process (.drain role)
        (process.setPhase (.returned true) role)
  | timeOut {role : ServerRole} {since : ℕ} : process.phaseOf role = some (.draining since) →
      since + shutdownTimeout ≤ process.clock →
      Does hyper codecs shutdownTimeout process (.timeOut role)
        (process.setPhase (.returned false) role)
  | stopMetrics : process.listener.hasReturned = true →
      process.metricsListener.isSome = true →
      Does hyper codecs shutdownTimeout process .stopMetrics { process with stopped := true }
  | arrive {connection : ℕ} {role : ServerRole} (request : Request) :
      process.connections[connection]? = some ⟨role, false⟩ →
      Does hyper codecs shutdownTimeout process (.arrive connection request)
        { process with
          served := process.served ++ [⟨connection, role, false, Task.start request⟩] }
  | advance {i connection : ℕ} {role : ServerRole} {written : Bool} {request : Request}
      {phase next : Phase F} {input : Input} {app : AppState F} {effects : List Effect} :
      process.served[i]? = some ⟨connection, role, written, request, phase⟩ →
      role.advance codecs process.app request phase input = some (app, next, effects) →
      Does hyper codecs shutdownTimeout process (.advance i input)
        { process with
          app := app
          served := process.served.set i ⟨connection, role, written, request, next⟩
          journal := process.journal ++ effects.map fun effect => (i, effect) }
  | write {i connection : ℕ} {role : ServerRole} {written : Bool} {task : Task F} :
      process.served[i]? = some ⟨connection, role, written, task⟩ →
      task.phase.response.isSome = true →
      Does hyper codecs shutdownTimeout process (.write i)
        { process with served := process.served.set i ⟨connection, role, true, task⟩ }
  | close {connection : ℕ} {role : ServerRole} :
      process.connections[connection]? = some ⟨role, false⟩ →
      hyper.completes process connection = true →
      Does hyper codecs shutdownTimeout process (.close connection)
        { process with connections := process.connections.set connection ⟨role, true⟩ }

theorem step_does {hyper : Hyper F} {codecs : Codecs Map} {shutdownTimeout : ℕ}
    {process after : Process F} {action : Action}
    (moved : step hyper codecs shutdownTimeout process action = some after) :
    Does hyper codecs shutdownTimeout process action after := by
  cases action with
  | elapse time =>
      cases moved
      exact .elapse time
  | signal =>
      cases moved
      exact .signal
  | accept role =>
      simp only [step] at moved
      split at moved
      next accepting =>
        cases moved
        exact .accept accepting
      next => cases moved
  | acceptError role =>
      simp only [step] at moved
      split at moved
      next accepting =>
        cases moved
        exact .acceptError accepting
      next => cases moved
  | shutDown role =>
      simp only [step] at moved
      split at moved
      next may =>
        cases moved
        exact .shutDown may.1 may.2
      next => cases moved
  | drain role =>
      simp only [step] at moved
      split at moved
      next since draining =>
        split at moved
        next done =>
          cases moved
          exact .drain draining done
        next => cases moved
      next => cases moved
  | timeOut role =>
      simp only [step] at moved
      split at moved
      next since draining =>
        split at moved
        next late =>
          cases moved
          exact .timeOut draining late
        next => cases moved
      next => cases moved
  | stopMetrics =>
      simp only [step] at moved
      split at moved
      next may =>
        cases moved
        exact .stopMetrics may.1 may.2
      next => cases moved
  | arrive connection request =>
      simp only [step] at moved
      split at moved
      next role found =>
        cases moved
        exact .arrive request found
      next => cases moved
  | advance i input =>
      simp only [step] at moved
      split at moved
      next connection role written request phase found =>
        obtain ⟨⟨app, next, effects⟩, advanced, same⟩ := Option.map_eq_some_iff.mp moved
        cases same
        exact .advance found advanced
      next => cases moved
  | write i =>
      simp only [step] at moved
      split at moved
      next connection role written task found =>
        split at moved
        next answered =>
          cases moved
          exact .write found answered
        next => cases moved
      next => cases moved
  | close connection =>
      simp only [step] at moved
      split at moved
      next role found =>
        split at moved
        next completed =>
          cases moved
          exact .close found completed
        next => cases moved
      next => cases moved

end Process

end Sturnus
