import Sturnus.Proxy.Forward
import Sturnus.Router
import Sturnus.Server.Affinity
import Sturnus.Server.Budget
import Sturnus.Server.Status

/-!
# Handling a request

The stretches of `handle_request` between its awaits: admission, routing once
the body was collected, and what is recorded once the upstream call has ended.
-/

namespace Sturnus

open Foundation Foundation.Http

structure AppState (F : Type) where
  modelMap : ModelMap
  tracker : Tracker F
  rrState : RoundRobinState
  exploitK : F
  gcpTokenProvider : Option GcpTokenProvider
  budget : BufferBudget
  metrics : Metrics
  shuttingDown : Bool

inductive Method where
  | get
  | post
  | other
  deriving DecidableEq

/-- The parts of a request that are read before its body. -/
structure Request where
  method : Method
  path : Text
  affinityHeader : Option HeaderValue
  /-- `size_hint().exact()`. -/
  declaredLen : Option UInt64

/-- Why a body could not be collected. -/
inductive BodyError where
  | lengthLimit
  | other

/-- The libraries that read and write texts. -/
structure Codecs (Map : Type) where
  json : SerdeJson Map
  encodeMetrics : Metrics → Except Text (List UInt8)

section Responses

/-- Every error `handle_request` answers itself. -/
inductive Rejection where
  | notFound
  | methodNotAllowed
  | lengthRequired
  | tooLarge (maxBody : UInt64)
  | budgetExhausted
  | unreadable
  | notAnObject
  | invalidJson (message : Text)
  | missingModel
  | unknownAlias (modelAlias : Text) (available : List Text)
  | noCandidate (modelAlias : Text)
  | unserializable
  | upstream (error : ForwardError)
  | metrics

def Rejection.status : Rejection → StatusCode
  | .notFound => ⟨404, by decide⟩
  | .methodNotAllowed => ⟨405, by decide⟩
  | .lengthRequired => ⟨411, by decide⟩
  | .tooLarge _ => ⟨413, by decide⟩
  | .budgetExhausted => ⟨429, by decide⟩
  | .unreadable | .notAnObject | .invalidJson _ | .missingModel | .unknownAlias _ _ =>
      ⟨400, by decide⟩
  | .noCandidate _ | .upstream _ => ⟨502, by decide⟩
  | .unserializable | .metrics => ⟨500, by decide⟩

/-- The message of an error; `debug` prints a list of names. -/
def Rejection.message (debug : List Text → Text) : Rejection → Text
  | .notFound => "not found".toList
  | .methodNotAllowed => "method not allowed".toList
  | .lengthRequired => "Content-Length is required".toList
  | .tooLarge maxBody =>
      "request body too large (max ".toList ++ (toString (maxBody.toNat / 1024 / 1024)).toList ++
        " MB)".toList
  | .budgetExhausted => "buffer budget exhausted, retry shortly".toList
  | .unreadable => "failed to read request body".toList
  | .notAnObject => "request body must be a JSON object".toList
  | .invalidJson message => "request body is not valid JSON: ".toList ++ message
  | .missingModel => "missing 'model' field in request body".toList
  | .unknownAlias modelAlias available =>
      "unknown model alias '".toList ++ modelAlias ++ "', available: ".toList ++ debug available
  | .noCandidate modelAlias =>
      "no healthy candidate for model alias '".toList ++ modelAlias ++ "'".toList
  | .unserializable => "failed to serialize outbound body".toList
  | .upstream error => "upstream error: ".toList ++ error.message
  | .metrics => "failed to encode metrics".toList

inductive ResponseBody (F : Type) where
  /-- A JSON object with the message and the type `invalid_request_error`. -/
  | error (rejection : Rejection)
  | health (status : Text)
  | status (candidates : List (CandidateStatus F))
  | metrics (text : List UInt8)
  | proxied (body : ProxyBody)

structure Response (F : Type) where
  status : StatusCode
  headers : HeaderMap
  body : ResponseBody F

def providerNameHeader : HeaderName := staticName "x-sturnus-provider"

def sessionAffinityHeader : HeaderName := staticName "x-session-affinity"

def statusOk : StatusCode := ⟨200, by decide⟩

def statusUnavailable : StatusCode := ⟨503, by decide⟩

def jsonHeaders : HeaderMap :=
  AList.singleton contentTypeHeader [staticValue "application/json"]

variable {F : Type} [Float64 F] {Map : Type}

def jsonError (rejection : Rejection) : Response F :=
  let headers := match rejection with
    | .budgetExhausted => (jsonHeaders.insert (staticName "retry-after") (staticValue "1")).1
    | _ => jsonHeaders
  ⟨rejection.status, headers, .error rejection⟩

def encodeMetricsResponse (codecs : Codecs Map) (app : AppState F) : Response F :=
  match codecs.encodeMetrics app.metrics with
  | .ok text =>
      ⟨statusOk, AList.singleton contentTypeHeader
        [staticValue "text/plain; version=0.0.4; charset=utf-8"], .metrics text⟩
  | .error _ => jsonError .metrics

/-- Observability GETs shared by every listener; `none` is not an observability path. -/
def observabilityGet (codecs : Codecs Map) (path : Text) (app : AppState F) :
    Option (Response F) :=
  if path = "/health".toList ∨ path = "/healthz".toList then
    if app.shuttingDown then
      some ⟨statusUnavailable, jsonHeaders, .health "shutting_down".toList⟩
    else some ⟨statusOk, jsonHeaders, .health "ok".toList⟩
  else if path = "/status".toList then
    some ⟨statusOk, jsonHeaders, .status (buildStatusResponse app.tracker app.modelMap.iter)⟩
  else if path = "/metrics".toList then some (encodeMetricsResponse codecs app)
  else none

end Responses

section Effects

/-- An atomic change of the tracker, a counter or a metric. -/
inductive Effect where
  | bufferRejection
  | tick (modelAlias : Text)
  | latency (slot : ℕ) (mode : LatencyMode) (observed : Duration)
  | outcome (slot : ℕ) (success : Bool)
  | request (labels : UpstreamLabels) (status : Text)
  | error (labels : UpstreamLabels)
  | observe (mode : LatencyMode) (labels : UpstreamLabels) (observed : Duration)

variable {F : Type} [Float64 F]

def AppState.perform (app : AppState F) : Effect → AppState F
  | .bufferRejection =>
      { app with metrics :=
          { app.metrics with bufferRejectionsTotal := app.metrics.bufferRejectionsTotal + 1 } }
  | .tick modelAlias => { app with rrState := (app.rrState.nextTick modelAlias).2 }
  | .latency slot mode observed =>
      { app with tracker := app.tracker.updateEwma slot mode observed }
  | .outcome slot success => { app with tracker := app.tracker.recordOutcome slot success }
  | .request labels status =>
      { app with metrics :=
          { app.metrics with requestsTotal := app.metrics.requestsTotal.inc (labels, status) } }
  | .error labels =>
      { app with metrics :=
          { app.metrics with errorsTotal := app.metrics.errorsTotal.inc labels } }
  | .observe mode labels observed =>
      { app with metrics := app.metrics.observe mode labels observed }

end Effects

section Routing

/-- The candidate a request was routed to, and how. -/
structure Route where
  modelAlias : Text
  candidate : ResolvedCandidate
  /-- By its affinity header, without a selection. -/
  pinned : Bool
  isStreaming : Bool

def Route.mode (route : Route) : LatencyMode := .ofStreaming route.isStreaming

def Route.labels (route : Route) : UpstreamLabels :=
  ⟨route.modelAlias, route.candidate.providerName, route.candidate.model⟩

/-- The tick a selection draws; a pin draws none. -/
def Route.ticks (route : Route) : List Effect :=
  if route.pinned then [] else [.tick route.modelAlias]

/-- The ticks drawn for a request that may have been given a route. -/
def ticksOf (route : Option Route) : List Effect := (route.map Route.ticks).getD []

def streamKey : Text := "stream".toList

variable {F : Type} [Float64 F] {Map : Type}

/-- The body, the alias it names and the candidates of that alias. -/
def readBody (json : SerdeJson Map) (app : AppState F) (read : Except BodyError (List UInt8)) :
    Except Rejection (RawBody × Text × List ResolvedCandidate) := do
  let bytes ← read.mapError fun
    | .lengthLimit => .tooLarge app.budget.maxBodyBytes
    | .other => .unreadable
  let body ← (RawBody.deserialize json bytes).mapError fun
    | .data => .notAnObject
    | .other message => .invalidJson message
  let modelAlias ← okOr (body.getAs json.parseString modelKey) .missingModel
  let candidates ← okOr (app.modelMap.get modelAlias)
    (.unknownAlias modelAlias app.modelMap.aliasNames)
  return (body, modelAlias, candidates)

/-- The pinned candidate, or the one the router selects for the mode. -/
def chooseCandidate (app : AppState F) (header : Option HeaderValue) (modelAlias : Text)
    (candidates : List ResolvedCandidate) (isStreaming : Bool) :
    Option Route × RoundRobinState :=
  match pinned app.tracker candidates header with
  | some candidate => (some ⟨modelAlias, candidate, true, isStreaming⟩, app.rrState)
  | none =>
      let (selected, rrState) := selectCandidate modelAlias candidates app.tracker app.rrState
        app.exploitK (.ofStreaming isStreaming)
      let candidate := selected.bind fun index => candidates[index]?
      (candidate.map fun candidate => ⟨modelAlias, candidate, false, isStreaming⟩, rrState)

/-- What routing a request leads to. -/
inductive Routed where
  | rejected (rejection : Rejection) (route : Option Route)
  | forwarding (route : Route) (outbound : OutboundBody)

def Routed.route : Routed → Option Route
  | .rejected _ route => route
  | .forwarding route _ => some route

def routeBody (json : SerdeJson Map) (app : AppState F) (header : Option HeaderValue)
    (permit : Permit) (read : Except BodyError (List UInt8)) : Routed × RoundRobinState :=
  match readBody json app read with
  | .error rejection => (.rejected rejection none, app.rrState)
  | .ok (body, modelAlias, candidates) =>
      let isStreaming := (body.getAs json.parseBool streamKey).getD false
      match chooseCandidate app header modelAlias candidates isStreaming with
      | (none, rrState) => (.rejected (.noCandidate modelAlias) none, rrState)
      | (some route, rrState) =>
          match prepareOutbound json body route.candidate.model
              route.candidate.attributionLabels (some permit) with
          | .error _ => (.rejected .unserializable (some route), rrState)
          | .ok outbound => (.forwarding route outbound, rrState)

end Routing

section Admission

variable {F : Type} [Float64 F] {Map : Type}

inductive Admission (F : Type) where
  | observed (response : Response F)
  | rejected (rejection : Rejection)
  | admitted (permit : Permit) (budget : BufferBudget)

/-- Everything before the body is collected: the size is reserved before it is buffered. -/
def admission (codecs : Codecs Map) (app : AppState F) (request : Request) : Admission F :=
  match request.method with
  | .get =>
      match observabilityGet codecs request.path app with
      | some response => .observed response
      | none => .rejected .notFound
  | .other => .rejected .methodNotAllowed
  | .post =>
      match request.declaredLen with
      | none => .rejected .lengthRequired
      | some declaredLen =>
          if app.budget.maxBodyBytes < declaredLen then
            .rejected (.tooLarge app.budget.maxBodyBytes)
          else
            match app.budget.reserve declaredLen with
            | none => .rejected .budgetExhausted
            | some (permit, budget) => .admitted permit budget

end Admission

section Completion

/-- How a forwarding call has ended. -/
structure Completion where
  exchange : Exchange
  result : Except ForwardError ProxyResult

def UpstreamLatency.elapsed : UpstreamLatency → Duration
  | .ttfc elapsed => elapsed
  | .total elapsed => elapsed

/-- What is recorded about a completion, in order. -/
def Route.effects (route : Route) (completion : Completion) : List Effect :=
  let slot := route.candidate.statsIndex
  match completion.result with
  | .ok answer =>
      let observedMode := answer.latency.mode
      let latency := answer.latency.elapsed
      let status := (toString answer.status.code).toList
      -- `record_success` is two atomic updates, the latency first.
      (if answer.status.isSuccess then [.latency slot observedMode latency, .outcome slot true]
        else [.outcome slot false]) ++
        [.request route.labels status, .observe observedMode route.labels latency]
  | .error _ => [.outcome slot false, .error route.labels]

def Route.response {F : Type} (route : Route) (completion : Completion) : Response F :=
  match completion.result with
  | .ok answer =>
      let candidate := route.candidate
      let headers := (answer.headers.insert providerNameHeader candidate.providerHeader).1
      let headers := (headers.insert sessionAffinityHeader candidate.affinityHeader).1
      ⟨answer.status, headers, .proxied answer.body⟩
  | .error error => jsonError (.upstream error)

end Completion

end Sturnus
