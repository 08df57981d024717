import Sturnus.Foundation.Concurrent
import Sturnus.Server.Handler

/-!
# Runs of the server

A request is a task that advances from await to await; what it records about a
completed upstream call is recorded one atomic effect at a time.  The outbound
body has a life of its own: the HTTP client drops it when the upload has
finished, the upstream has failed or the client has gone, whenever that is.
-/

namespace Sturnus

open Foundation Foundation.Http Foundation.Concurrent

inductive Stage where
  | awaiting
  | recording (completion : Completion) (remaining : List Effect)
  | responded (completion : Completion)
  | cancelled

/-- A request that was handed to the HTTP client. -/
structure Call where
  route : Route
  /-- The outbound body until it is dropped. -/
  outbound : Option OutboundBody
  stage : Stage

inductive Phase (F : Type) where
  | received
  | buffering (permit : Permit)
  | rejected (rejection : Rejection) (route : Option Route)
  | observed (response : Response F)
  | cancelled
  | called (call : Call)

structure Task (F : Type) where
  request : Request
  phase : Phase F

def Task.start {F : Type} (request : Request) : Task F := ⟨request, .received⟩

/-- What lets a task advance. -/
inductive Input where
  | poll
  | collected (read : Except BodyError (List UInt8))
  | exchanged (exchange : Exchange)
  | record
  /-- The client disconnects, and the future is dropped at its await. -/
  | cancel
  /-- The HTTP client takes the frame of the outbound body. -/
  | uploadFrame
  | dropOutbound

section Views

def Stage.completion : Stage → Option Completion
  | .recording completion _ | .responded completion => some completion
  | .awaiting | .cancelled => none

/-- Permits that travel with an outbound body. -/
def OutboundBody.held (body : OutboundBody) : ℕ := (body.permit.map Permit.count).getD 0

def Call.held (call : Call) : ℕ := (call.outbound.map OutboundBody.held).getD 0

namespace Phase

variable {F : Type}

/-- The answer to the request, once there is one. -/
def response : Phase F → Option (Response F)
  | .rejected rejection _ => some (jsonError rejection)
  | .observed response => some response
  | .called ⟨route, _, .responded completion⟩ => some (route.response completion)
  | _ => none

/-- The route the request was given, if it got that far. -/
def route : Phase F → Option Route
  | .rejected _ route => route
  | .called call => some call.route
  | _ => none

/-- The route and the end of a forwarding call. -/
def completed : Phase F → Option (Route × Completion)
  | .called call => call.stage.completion.map fun completion => (call.route, completion)
  | _ => none

/-- Permits held by the handler or by the outbound body of the request. -/
def held : Phase F → ℕ
  | .buffering permit => permit.count
  | .called call => call.held
  | _ => 0

end Phase

/-- A refusal for want of memory is counted. -/
def Rejection.effects : Rejection → List Effect
  | .budgetExhausted => [.bufferRejection]
  | _ => []

end Views

section Advance

variable {F : Type} [Float64 F] {Map : Type}

namespace AppState

def setBudget (app : AppState F) (budget : BufferBudget) : AppState F :=
  { app with budget := budget }

def release (app : AppState F) (permit : Permit) : AppState F :=
  app.setBudget (app.budget.release permit)

/-- Dropping an outbound body drops its permit. -/
def dropBody (app : AppState F) (body : OutboundBody) : AppState F :=
  match body.permit with
  | some permit => app.release permit
  | none => app

end AppState

/-- Run a received request up to the await of its body. -/
def advanceReceived (codecs : Codecs Map) (app : AppState F) (request : Request) :
    AppState F × Phase F × List Effect :=
  match admission codecs app request with
  | .observed response => (app, .observed response, [])
  | .rejected rejection =>
      (rejection.effects.foldl AppState.perform app, .rejected rejection none, rejection.effects)
  | .admitted permit budget => (app.setBudget budget, .buffering permit, [])

/-- Route a request whose body was collected.  An early return drops the permit; the
outbound body carries it on otherwise. -/
def advanceCollected (codecs : Codecs Map) (app : AppState F) (request : Request)
    (permit : Permit) (read : Except BodyError (List UInt8)) :
    AppState F × Phase F × List Effect :=
  match routeBody codecs.json app request.affinityHeader permit read with
  | (.rejected rejection route, rrState) =>
      ({ app with rrState := rrState }.release permit, .rejected rejection route, ticksOf route)
  | (.forwarding route outbound, rrState) =>
      ({ app with rrState := rrState }, .called ⟨route, some outbound, .awaiting⟩, route.ticks)

/-- Advance a call; nothing that has no await can be cancelled. -/
def advanceCall (app : AppState F) (call : Call) : Input → Option (AppState F × Call × List Effect)
  | .exchanged exchange =>
      match call.stage with
      | .awaiting =>
          (forwardRequest call.route.candidate call.route.isStreaming app.budget.maxBodyBytes
            app.gcpTokenProvider exchange).map fun result =>
              let completion : Completion := ⟨exchange, result⟩
              (app,
                { call with stage := .recording completion (call.route.effects completion) }, [])
      | _ => none
  | .record =>
      match call.stage with
      | .recording completion (effect :: rest) =>
          some (app.perform effect, { call with stage := .recording completion rest }, [effect])
      | .recording completion [] => some (app, { call with stage := .responded completion }, [])
      | _ => none
  | .cancel =>
      match call.stage with
      | .awaiting => some (app, { call with stage := .cancelled }, [])
      | _ => none
  | .uploadFrame =>
      call.outbound.map fun body => (app, { call with outbound := some body.pollFrame.2 }, [])
  | .dropOutbound =>
      call.outbound.map fun body => (app.dropBody body, { call with outbound := none }, [])
  | .poll | .collected _ => none

def advancePhase (codecs : Codecs Map) (app : AppState F) (request : Request) :
    Phase F → Input → Option (AppState F × Phase F × List Effect)
  | .received, .poll => some (advanceReceived codecs app request)
  | .received, .cancel => some (app, .cancelled, [])
  | .buffering permit, .collected read =>
      some (advanceCollected codecs app request permit read)
  | .buffering permit, .cancel => some (app.release permit, .cancelled, [])
  | .called call, input =>
      (advanceCall app call input).map fun (app, call, effects) => (app, .called call, effects)
  | _, _ => none

def handler (codecs : Codecs Map) : Handler (AppState F) Request Input (Task F) Effect where
  start := Task.start
  advance app task input :=
    (advancePhase codecs app task.request task.phase input).map fun (app, phase, effects) =>
      (app, { task with phase := phase }, effects)

/-- The server as a system of its requests. -/
abbrev Server (F : Type) := System (AppState F) (Task F) Effect

end Advance

end Sturnus
