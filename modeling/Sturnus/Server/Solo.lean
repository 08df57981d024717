import Sturnus.Server.Permits

/-!
# One request alone

A request that is forwarded is answered: once its exchange has ended, nothing but
recording is left to do.
-/

namespace Sturnus

open Foundation Foundation.Http Foundation.Concurrent

variable {F : Type} [Float64 F] {Map : Type}

section Answered

variable {codecs : Codecs Map} {app shared : AppState F} {request : Request} {route : Route}
  {outbound : Option OutboundBody} (tasks : List (Task F)) {journal : List (ℕ × Effect)}

/-- A completion is answered once everything it is due was recorded. -/
theorem run_responds {completion : Completion} {remaining : List Effect}
    (run : Run (handler codecs) app ⟨shared,
      tasks ++ [⟨request, .called ⟨route, outbound, .recording completion remaining⟩⟩], journal⟩) :
    ∃ after journal, Run (handler codecs) app ⟨after,
      tasks ++ [⟨request, .called ⟨route, outbound, .responded completion⟩⟩], journal⟩ ∧
      after.budget = shared.budget := by
  induction remaining generalizing shared journal with
  | nil =>
      have moved : (handler codecs).advance shared
          ⟨request, .called ⟨route, outbound, .recording completion []⟩⟩ .record =
            some (shared, ⟨request, .called ⟨route, outbound, .responded completion⟩⟩, []) := rfl
      obtain ⟨journal, answered⟩ := run.last_advance moved
      exact ⟨_, journal, answered, rfl⟩
  | cons effect rest inductionHypothesis =>
      have moved : (handler codecs).advance shared
          ⟨request, .called ⟨route, outbound, .recording completion (effect :: rest)⟩⟩ .record =
            some (shared.perform effect,
              ⟨request, .called ⟨route, outbound, .recording completion rest⟩⟩, [effect]) := rfl
      obtain ⟨journal, recorded⟩ := run.last_advance moved
      obtain ⟨after, journal, answered, budget⟩ := inductionHypothesis recorded
      refine ⟨after, journal, answered, budget.trans ?_⟩
      cases effect <;> rfl

/-- A forwarded request whose exchange ends is answered. -/
theorem run_completes (run : Run (handler codecs) app ⟨shared,
      tasks ++ [⟨request, .called ⟨route, outbound, .awaiting⟩⟩], journal⟩)
    {exchange : Exchange} {result : Except ForwardError ProxyResult}
    (ended : forwardRequest route.candidate route.isStreaming shared.budget.maxBodyBytes
      shared.gcpTokenProvider exchange = some result) :
    ∃ after journal, Run (handler codecs) app ⟨after,
      tasks ++ [⟨request, .called ⟨route, outbound, .responded ⟨exchange, result⟩⟩⟩], journal⟩ ∧
      after.budget = shared.budget := by
  have moved : (handler codecs).advance shared ⟨request, .called ⟨route, outbound, .awaiting⟩⟩
      (.exchanged exchange) = some (shared, ⟨request, .called ⟨route, outbound,
        .recording ⟨exchange, result⟩ (route.effects ⟨exchange, result⟩)⟩⟩, []) := by
    simp only [handler, advancePhase, advanceCall, ended, Option.map_some]
  obtain ⟨journal, recording⟩ := run.last_advance moved
  exact run_responds tasks recording

end Answered

section Plain

variable {json : SerdeJson Map} {IsValue : Text → Prop} {app : AppState F} {modelAlias : Text}

/-- A body with nothing but the alias. -/
def plainBody (modelAlias : Text) : Text := Json.compact [(modelKey, Json.quote modelAlias)]

theorem plainBody_values (lawful : json.Lawful IsValue) (modelAlias : Text) :
    ∀ member ∈ [(modelKey, Json.quote modelAlias)], IsValue member.2 := by
  intro member inside
  rw [List.mem_singleton.mp inside]
  exact lawful.isValue _ _ (Json.token_quote modelAlias)

omit [Float64 F] in
/-- An object is read back with the alias it names. -/
theorem readBody_compact (lawful : json.Lawful IsValue) {members : List (Text × Text)}
    (values : ∀ member ∈ members, IsValue member.2)
    (model : last modelKey members = some (Json.quote modelAlias))
    {candidates : List ResolvedCandidate}
    (lookup : app.modelMap.get modelAlias = some candidates) :
    readBody json app (.ok (Json.compact members).bytes) =
      .ok (.ofMembers members, modelAlias, candidates) := by
  have read := lawful.readObject_compact values
  have named : (RawBody.ofMembers members).getAs json.parseString modelKey = some modelAlias := by
    unfold RawBody.getAs
    rw [RawBody.get_ofMembers]
    change (last modelKey members).bind _ = _
    rw [model]
    exact lawful.parseString _ _ (Json.token_quote modelAlias)
  unfold readBody RawBody.deserialize
  simp only [Except.mapError, bind, Except.bind, read, Except.map, named, okOr, lookup, pure,
    Except.pure]

/-- Without a pin the only candidate of an alias is selected. -/
theorem chooseCandidate_only (app : AppState F) (modelAlias : Text)
    (candidate : ResolvedCandidate) (isStreaming : Bool) :
    ∃ rrState, chooseCandidate app none modelAlias [candidate] isStreaming =
      (some ⟨modelAlias, candidate, false, isStreaming⟩, rrState) := by
  cases chosen : chooseCandidate app none modelAlias [candidate] isStreaming with
  | mk route rrState =>
      cases chooseCandidate_chooses chosen with
      | nothing empty => cases empty
      | honors honored => cases honored
      | selects member =>
          rw [List.mem_singleton.mp member]
          exact ⟨_, rfl⟩

theorem routeBody_forwards {header : Option HeaderValue} {permit : Permit}
    {read : Except BodyError (List UInt8)} {body : RawBody} {candidates : List ResolvedCandidate}
    {route : Route} {rrState : RoundRobinState} {outbound : OutboundBody}
    (accepted : readBody json app read = .ok (body, modelAlias, candidates))
    (chosen : chooseCandidate app header modelAlias candidates
      ((body.getAs json.parseBool streamKey).getD false) = (some route, rrState))
    (prepared : prepareOutbound json body route.candidate.model route.candidate.attributionLabels
      (some permit) = .ok outbound) :
    routeBody json app header permit read = (.forwarding route outbound, rrState) := by
  unfold routeBody
  simp only [accepted, chosen, prepared]

/-- A request is forwarded to the only candidate of the alias it names. -/
theorem routeBody_prepared (lawful : json.Lawful IsValue) {members : List (Text × Text)}
    (values : ∀ member ∈ members, IsValue member.2)
    (model : last modelKey members = some (Json.quote modelAlias)) {candidate : ResolvedCandidate}
    (lookup : app.modelMap.get modelAlias = some [candidate]) {permit : Permit}
    {outbound : OutboundBody}
    (prepared : prepareOutbound json (.ofMembers members) candidate.model
      candidate.attributionLabels (some permit) = .ok outbound) :
    ∃ isStreaming rrState,
      routeBody json app none permit (.ok (Json.compact members).bytes) =
        (.forwarding ⟨modelAlias, candidate, false, isStreaming⟩ outbound, rrState) ∧
      isStreaming = ((RawBody.ofMembers members).getAs json.parseBool streamKey).getD false := by
  obtain ⟨rrState, chosen⟩ := chooseCandidate_only app modelAlias candidate
    (((RawBody.ofMembers members).getAs json.parseBool streamKey).getD false)
  exact ⟨_, rrState, routeBody_forwards (readBody_compact lawful values model lookup) chosen
    prepared, rfl⟩

theorem routeBody_compact (lawful : json.Lawful IsValue) {members : List (Text × Text)}
    (values : ∀ member ∈ members, IsValue member.2)
    (model : last modelKey members = some (Json.quote modelAlias)) {candidate : ResolvedCandidate}
    (lookup : app.modelMap.get modelAlias = some [candidate])
    (unlabelled : candidate.attributionLabels = none) (permit : Permit) :
    ∃ isStreaming rrState,
      routeBody json app none permit (.ok (Json.compact members).bytes) =
        (.forwarding ⟨modelAlias, candidate, false, isStreaming⟩
          ⟨some (Json.compact (rewritten candidate.model members)).bytes, some permit⟩, rrState) ∧
      isStreaming = ((RawBody.ofMembers members).getAs json.parseBool streamKey).getD false := by
  have prepared := lawful.prepareOutbound_ofMembers values candidate.model (some permit)
  rw [← unlabelled] at prepared
  exact routeBody_prepared lawful values model lookup prepared

/-- A plain body is forwarded to the only candidate of its alias. -/
theorem routeBody_plain (lawful : json.Lawful IsValue) {candidate : ResolvedCandidate}
    (lookup : app.modelMap.get modelAlias = some [candidate])
    (unlabelled : candidate.attributionLabels = none) (permit : Permit) :
    ∃ data rrState, routeBody json app none permit (.ok (plainBody modelAlias).bytes) =
      (.forwarding ⟨modelAlias, candidate, false, false⟩ ⟨some data, some permit⟩, rrState) := by
  have values := plainBody_values lawful modelAlias
  have other : (streamKey == modelKey) = false := rfl
  have streaming : ((RawBody.ofMembers [(modelKey, Json.quote modelAlias)]).getAs json.parseBool
      streamKey).getD false = false := by
    unfold RawBody.getAs
    rw [RawBody.get_ofMembers]
    simp [List.lookup_cons, other]
  obtain ⟨isStreaming, rrState, routed, flag⟩ :=
    routeBody_compact lawful values rfl lookup unlabelled permit
  rw [streaming] at flag
  subst flag
  exact ⟨_, rrState, routed⟩

/-- A request that names the alias of one candidate is forwarded to it and answered. -/
theorem run_serves {codecs : Codecs Map} {shared : AppState F} {tasks : List (Task F)}
    {journal : List (ℕ × Effect)} (run : Run (handler codecs) app ⟨shared, tasks, journal⟩)
    (lawful : codecs.json.Lawful IsValue) {candidate : ResolvedCandidate}
    (lookup : shared.modelMap.get modelAlias = some [candidate])
    (unlabelled : candidate.attributionLabels = none) {request : Request}
    (unpinned : request.affinityHeader = none) {permit : Permit} {budget : BufferBudget}
    (admitted : admission codecs shared request = .admitted permit budget)
    {exchange : Exchange} {result : Except ForwardError ProxyResult}
    (ended : forwardRequest candidate false budget.maxBodyBytes shared.gcpTokenProvider exchange =
      some result) :
    ∃ after data journal, Run (handler codecs) app ⟨after, tasks ++ [⟨request,
        .called ⟨⟨modelAlias, candidate, false, false⟩, some ⟨some data, some permit⟩,
          .responded ⟨exchange, result⟩⟩⟩], journal⟩ ∧ after.budget = budget := by
  obtain ⟨journal, buffering⟩ := run.accept_advance (advance_admitted admitted)
  have buffered : (shared.setBudget budget).modelMap.get modelAlias = some [candidate] := lookup
  obtain ⟨data, rrState, routed⟩ := routeBody_plain lawful buffered unlabelled permit
  rw [← unpinned] at routed
  obtain ⟨journal, forwarded⟩ := buffering.last_advance (advance_forwarded routed)
  obtain ⟨after, journal, answered, same⟩ := run_completes tasks forwarded ended
  exact ⟨after, data, journal, answered, same⟩

end Plain

section Exchanges

/-- The upstream answered with an empty body. -/
def emptyAnswer : Exchange where
  token := .ok []
  sent := .ok ⟨statusOk, ∅, none, .nil⟩
  awaited := 1
  elapsed := .fromMillis 5

def refusedConnection : Exchange where
  token := .ok []
  sent := .error "connection refused".toList
  awaited := 0
  elapsed := .fromMillis 5

variable {candidate : ResolvedCandidate} (keyed : candidate.kind = .apiKey) (isStreaming : Bool)
  (cap : UInt64) (provider : Option GcpTokenProvider)

include keyed

theorem forwardRequest_emptyAnswer :
    ∃ answer, forwardRequest candidate isStreaming cap provider emptyAnswer = some (.ok answer) ∧
      answer.status = statusOk ∧ answer.latency.elapsed = .fromMillis 5 := by
  unfold forwardRequest
  rw [keyed]
  cases isStreaming with
  | true => exact ⟨_, rfl, rfl, rfl⟩
  | false => exact ⟨_, rfl, rfl, rfl⟩

theorem forwardRequest_refusedConnection :
    forwardRequest candidate isStreaming cap provider refusedConnection =
      some (.error (.send "connection refused".toList)) := by
  unfold forwardRequest
  rw [keyed]
  rfl

end Exchanges

end Sturnus
