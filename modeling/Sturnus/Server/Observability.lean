import Sturnus.Server.Ledger

/-!
# The observability surface

The metrics listener answers the observability GETs of the full router and
nothing else.  To the full router its requests are GETs, so that what is known
of runs of the router carries over.
-/

namespace Sturnus

open Foundation Foundation.Http Foundation.Concurrent

/-- Which surface a listener serves. -/
inductive ServerRole where
  /-- Full router: the proxy plus the observability endpoints. -/
  | full
  /-- Observability only; never proxies. -/
  | observability
  deriving DecidableEq

variable {F : Type} [Float64 F] {Map : Type}

section Handling

/-- Metrics-listener handler: observability GETs only; never proxies. -/
def handleObservabilityRequest (codecs : Codecs Map) (app : AppState F) (request : Request) :
    Except Rejection (Response F) :=
  if request.method = .get then
    match observabilityGet codecs request.path app with
    | some response => .ok response
    | none => .error .notFound
  else .error .notFound

/-- The handler has no await: polled once, it answers. -/
def advanceObserving (codecs : Codecs Map) (app : AppState F) (request : Request) :
    Phase F → Input → Option (AppState F × Phase F × List Effect)
  | .received, .poll =>
      match handleObservabilityRequest codecs app request with
      | .ok response => some (app, .observed response, [])
      | .error rejection => some (app, .rejected rejection none, [])
  | .received, .cancel => some (app, .cancelled, [])
  | _, _ => none

/-- The handler a connection was accepted for. -/
def ServerRole.advance (codecs : Codecs Map) (app : AppState F) (request : Request) :
    ServerRole → Phase F → Input → Option (AppState F × Phase F × List Effect)
  | .full => advancePhase codecs app request
  | .observability => advanceObserving codecs app request

end Handling

section Embedding

variable {codecs : Codecs Map} {app after : AppState F} {request : Request}
  {phase next : Phase F} {input : Input} {effects : List Effect}

/-- The request to the full router that is answered alike. -/
def Request.observing (request : Request) : Request :=
  if request.method = .get then request else { request with method := .get, path := [] }

def ServerRole.embed : ServerRole → Request → Request
  | .full, request => request
  | .observability, request => request.observing

@[simp] theorem Request.observing_method (request : Request) :
    request.observing.method = .get := by
  unfold observing
  split
  next get => exact get
  next => rfl

theorem observabilityGet_empty (codecs : Codecs Map) (app : AppState F) :
    observabilityGet codecs [] app = none := by
  unfold observabilityGet
  simp

theorem admission_observing (codecs : Codecs Map) (app : AppState F) (request : Request) :
    admission codecs app request.observing =
      match handleObservabilityRequest codecs app request with
      | .ok response => .observed response
      | .error rejection => .rejected rejection := by
  unfold admission handleObservabilityRequest Request.observing
  by_cases get : request.method = .get
  · simp only [get, if_true]
    cases observabilityGet codecs request.path app <;> rfl
  · simp only [get, if_false, observabilityGet_empty]

theorem handleObservabilityRequest_error {rejection : Rejection}
    (refused : handleObservabilityRequest codecs app request = .error rejection) :
    rejection = .notFound := by
  unfold handleObservabilityRequest at refused
  split at refused
  · split at refused
    · cases refused
    · cases refused
      rfl
  · cases refused
    rfl

/-- What the metrics listener does, the full router does with the request as a GET. -/
theorem advancePhase_of_observing
    (moved : advanceObserving codecs app request phase input = some (after, next, effects)) :
    advancePhase codecs app request.observing phase input = some (after, next, effects) := by
  cases phase with
  | received =>
      cases input with
      | poll =>
          simp only [advanceObserving] at moved
          simp only [advancePhase, advanceReceived, admission_observing]
          cases answered : handleObservabilityRequest codecs app request with
          | ok response => simpa only [answered] using moved
          | error rejection =>
              obtain rfl := handleObservabilityRequest_error answered
              simp only [answered] at moved ⊢
              exact moved
      | cancel => exact moved
      | collected | exchanged | record | uploadFrame | dropOutbound => cases moved
  | buffering | rejected | observed | cancelled | called => cases input <;> cases moved

theorem ServerRole.advance_embed {role : ServerRole}
    (moved : role.advance codecs app request phase input = some (after, next, effects)) :
    advancePhase codecs app (role.embed request) phase input = some (after, next, effects) := by
  cases role with
  | full => exact moved
  | observability => exact advancePhase_of_observing moved

theorem ServerRole.advance_moves {role : ServerRole}
    (moved : role.advance codecs app request phase input = some (after, next, effects)) :
    Moves codecs app (role.embed request) phase after next effects :=
  advancePhase_moves (advance_embed moved)

end Embedding

section Flag

variable {codecs : Codecs Map} {app after : AppState F} {request : Request}
  {phase other next : Phase F} {input : Input} {effects : List Effect}

/-- The paths of the health probe. -/
def IsHealthPath (path : Text) : Prop := path = "/health".toList ∨ path = "/healthz".toList

instance (path : Text) : Decidable (IsHealthPath path) :=
  inferInstanceAs (Decidable (path = "/health".toList ∨ path = "/healthz".toList))

def healthResponse (shuttingDown : Bool) : Response F :=
  if shuttingDown then ⟨statusUnavailable, jsonHeaders, .health "shutting_down".toList⟩
  else ⟨statusOk, jsonHeaders, .health "ok".toList⟩

/-- The state with the shutdown flag as given. -/
def AppState.mark (app : AppState F) (shuttingDown : Bool) : AppState F :=
  { app with shuttingDown := shuttingDown }

theorem observabilityGet_health (codecs : Codecs Map) (app : AppState F) {path : Text}
    (health : IsHealthPath path) :
    observabilityGet codecs path app = some (healthResponse app.shuttingDown) := by
  refine (if_pos health).trans ?_
  unfold healthResponse
  split <;> rfl

/-- Nothing but the health probe reads the flag. -/
theorem observabilityGet_mark (codecs : Codecs Map) (app : AppState F) (flag : Bool) {path : Text}
    (other : ¬IsHealthPath path) :
    observabilityGet codecs path (app.mark flag) = observabilityGet codecs path app := by
  exact (if_neg other).trans (if_neg other).symm

/-- The same phase of a request, but for what an observability GET was answered. -/
inductive Phase.Alike (request : Request) : Phase F → Phase F → Prop where
  | same (phase : Phase F) : Alike request phase phase
  | observed (left right : Response F) : request.method = .get →
      Alike request (.observed left) (.observed right)

omit [Float64 F] in
theorem Phase.Alike.eq_of_ne (alike : phase.Alike request other) (noGet : request.method ≠ .get) :
    phase = other := by
  cases alike with
  | same => rfl
  | observed left right get => exact absurd get noGet

theorem admission_mark (codecs : Codecs Map) (app : AppState F) (request : Request) (flag : Bool) :
    admission codecs (app.mark flag) request = admission codecs app request ∨
      request.method = .get ∧ ∃ left right, admission codecs app request = .observed left ∧
        admission codecs (app.mark flag) request = .observed right := by
  unfold admission
  cases method : request.method with
  | get =>
      by_cases health : IsHealthPath request.path
      · simp only [observabilityGet_health _ _ health]
        exact .inr ⟨trivial, _, _, rfl, rfl⟩
      · left
        simp only [observabilityGet_mark codecs app flag health]
  | post => exact .inl rfl
  | other => exact .inl rfl

/-- Effects do not touch the flag, and do not depend on it. -/
theorem AppState.performAll_mark (app : AppState F) (flag : Bool) (effects : List Effect) :
    (app.mark flag).performAll effects = (app.performAll effects).mark flag := by
  induction effects generalizing app with
  | nil => rfl
  | cons effect rest inductionHypothesis =>
      refine Eq.trans ?_ (inductionHypothesis _)
      cases effect <;> rfl

theorem advanceReceived_mark (codecs : Codecs Map) (app : AppState F) (request : Request)
    (flag : Bool) :
    (advanceReceived codecs (app.mark flag) request).1 =
        (advanceReceived codecs app request).1.mark flag ∧
      (advanceReceived codecs app request).2.1.Alike request
        (advanceReceived codecs (app.mark flag) request).2.1 ∧
      (advanceReceived codecs (app.mark flag) request).2.2 =
        (advanceReceived codecs app request).2.2 := by
  unfold advanceReceived
  rcases admission_mark codecs app request flag with same | ⟨get, left, right, before, after⟩
  · rw [same]
    cases admission codecs app request with
    | observed response => exact ⟨rfl, .same _, rfl⟩
    | rejected rejection => exact ⟨app.performAll_mark flag _, .same _, rfl⟩
    | admitted permit budget => exact ⟨rfl, .same _, rfl⟩
  · rw [before, after]
    exact ⟨rfl, .observed left right get, rfl⟩

theorem advanceCollected_mark (codecs : Codecs Map) (app : AppState F) (request : Request)
    (permit : Permit) (read : Except BodyError (List UInt8)) (flag : Bool) :
    advanceCollected codecs (app.mark flag) request permit read =
      ((advanceCollected codecs app request permit read).1.mark flag,
        (advanceCollected codecs app request permit read).2) := by
  have routed : routeBody codecs.json (app.mark flag) request.affinityHeader permit read =
      routeBody codecs.json app request.affinityHeader permit read := rfl
  unfold advanceCollected
  rw [routed]
  split <;> rfl

theorem advanceCall_mark (app : AppState F) (call : Call) (input : Input) (flag : Bool) :
    advanceCall (app.mark flag) call input =
      (advanceCall app call input).map fun (app, call, effects) =>
        (app.mark flag, call, effects) := by
  obtain ⟨route, outbound, stage⟩ := call
  cases input with
  | exchanged exchange =>
      cases stage with
      | awaiting => simp only [advanceCall, Option.map_map, AppState.mark, Function.comp_def]
      | recording | responded | cancelled => rfl
  | record =>
      cases stage with
      | recording completion remaining =>
          cases remaining with
          | nil => rfl
          | cons effect rest =>
              have performed := app.performAll_mark flag [effect]
              simp only [AppState.performAll, List.foldl_cons, List.foldl_nil] at performed
              simp only [advanceCall, performed, Option.map_some]
      | awaiting | responded | cancelled => rfl
  | cancel => cases stage <;> rfl
  | uploadFrame => cases outbound <;> rfl
  | dropOutbound =>
      cases outbound with
      | none => rfl
      | some body =>
          simp only [advanceCall, Option.map_some, AppState.dropBody]
          cases body.permit <;> rfl
  | poll | collected => rfl

/-- A request advances under either flag, to the same state but for the flag. -/
theorem advancePhase_mark (alike : phase.Alike request other)
    (moved : advancePhase codecs app request phase input = some (after, next, effects))
    (flag : Bool) :
    ∃ result, advancePhase codecs (app.mark flag) request other input =
      some (after.mark flag, result, effects) ∧ next.Alike request result := by
  cases alike with
  | observed left right => cases input <;> cases moved
  | same =>
      cases phase with
      | received =>
          cases input with
          | poll =>
              obtain ⟨shared, phases, recorded⟩ := advanceReceived_mark codecs app request flag
              simp only [advancePhase, Option.some.injEq] at moved
              rw [moved] at shared phases recorded
              refine ⟨_, congrArg some ?_, phases⟩
              exact Prod.ext shared (Prod.ext rfl recorded)
          | cancel =>
              cases moved
              exact ⟨_, rfl, .same _⟩
          | collected | exchanged | record | uploadFrame | dropOutbound => cases moved
      | buffering permit =>
          cases input with
          | collected read =>
              simp only [advancePhase, Option.some.injEq] at moved
              have collected := advanceCollected_mark codecs app request permit read flag
              rw [moved] at collected
              exact ⟨next, congrArg some collected, .same _⟩
          | cancel =>
              cases moved
              exact ⟨_, rfl, .same _⟩
          | poll | exchanged | record | uploadFrame | dropOutbound => cases moved
      | called call =>
          simp only [advancePhase, Option.map_eq_some_iff] at moved
          obtain ⟨⟨shared, called, recorded⟩, advanced, same⟩ := moved
          cases same
          refine ⟨.called called, ?_, .same _⟩
          simp only [advancePhase, advanceCall_mark, advanced, Option.map_some]
      | rejected | observed | cancelled => cases input <;> cases moved

end Flag

end Sturnus
