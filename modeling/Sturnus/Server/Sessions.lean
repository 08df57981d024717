import Sturnus.Server.Accounting
import Sturnus.Server.Degraded
import Sturnus.Server.Replicas
import Sturnus.Server.ResponseHeaders

/-!
# Sessions

A client that passes the affinity header of every response back keeps its
provider and its model, whichever process of the service a request reaches.
-/

namespace Sturnus

open Foundation Foundation.Http Foundation.Concurrent

variable {F Addr : Type} [Float64 F] {Map : Type}

/-- The alias has a candidate with the names. -/
def ModelMap.Offers (map : ModelMap) (modelAlias : Text) (pair : Text × Text) : Prop :=
  ∃ candidates, map.get modelAlias = some candidates ∧ ∃ candidate ∈ candidates,
    candidate.pair = pair

/-- No candidate with the names is degraded. -/
def AppState.Healthy (app : AppState F) (pair : Text × Text) : Prop :=
  ∀ candidate ∈ app.modelMap.candidates, candidate.pair = pair →
    app.tracker.isDegraded candidate.statsIndex = false

section Pins

variable {app : AppState F} {pair : Text × Text} {header : Option HeaderValue}

/-- A header that spells a healthy candidate of the alias pins to it. -/
theorem pinned_of_healthy {modelAlias : Text} {candidates : List ResolvedCandidate}
    (lookup : app.modelMap.get modelAlias = some candidates)
    (asked : parseAffinity header = some pair) (offered : app.modelMap.Offers modelAlias pair)
    (healthy : app.Healthy pair) :
    ∃ found, pinned app.tracker candidates header = some found ∧ found.pair = pair := by
  obtain ⟨others, same, candidate, member, rfl⟩ := offered
  rw [lookup, Option.some.injEq] at same
  subst same
  obtain ⟨found, resolved, named⟩ := (affinityCandidate_pair_iff member header).mpr asked
  have inMap := ModelMap.mem_candidates_of_get lookup (affinityCandidate_mem resolved)
  refine ⟨found, Option.filter_eq_some_iff.mpr ⟨resolved, ?_⟩, named⟩
  rw [healthy found inMap named]
  rfl

theorem chooseCandidate_pins {modelAlias : Text} {candidates : List ResolvedCandidate}
    {isStreaming : Bool} {route : Route} {rrState : RoundRobinState}
    (chosen : chooseCandidate app header modelAlias candidates isStreaming = (some route, rrState))
    (pins : ∃ found, pinned app.tracker candidates header = some found ∧ found.pair = pair) :
    route.pinned = true ∧ route.candidate.pair = pair := by
  obtain ⟨found, honored, named⟩ := pins
  cases chooseCandidate_chooses chosen with
  | honors given =>
      rw [honored, Option.some.injEq] at given
      subst given
      exact ⟨rfl, named⟩
  | selects _ unpinned =>
      rw [honored] at unpinned
      cases unpinned

theorem routeBody_pins {json : SerdeJson Map} {permit : Permit}
    {read : Except BodyError (List UInt8)} {routed : Routed} {rrState : RoundRobinState}
    (result : routeBody json app header permit read = (routed, rrState)) {route : Route}
    (given : routed.route = some route) (asked : parseAffinity header = some pair)
    (offered : app.modelMap.Offers route.modelAlias pair) (healthy : app.Healthy pair) :
    route.pinned = true ∧ route.candidate.pair = pair := by
  unfold routeBody at result
  split at result
  next rejection refused =>
      cases result
      cases given
  next body modelAlias candidates accepted =>
      have lookup := readBody_lookup accepted
      dsimp only at result
      split at result
      next chosen =>
          cases result
          cases given
      next chosenRoute _ chosen =>
          have same : routed.route = some chosenRoute := by
            split at result
            all_goals
              cases result
              rfl
          rw [given, Option.some.injEq] at same
          subst same
          have named := chooseCandidate_modelAlias (congrArg Prod.fst chosen)
          rw [named] at offered
          exact chooseCandidate_pins chosen (pinned_of_healthy lookup asked offered healthy)

end Pins

section Runs

variable {codecs : Codecs Map} {app after : AppState F} {pair : Text × Text}

/-- Once it is routed, a request that asked for the pair was pinned to it. -/
def Task.Sticks (map : ModelMap) (pair : Text × Text) (task : Task F) : Prop :=
  ∀ route, task.phase.route = some route → parseAffinity task.request.affinityHeader = some pair →
    map.Offers route.modelAlias pair → route.pinned = true ∧ route.candidate.pair = pair

/-- A route is given only when the body was collected, and never changed. -/
theorem Moves.sticks {request : Request} {phase next : Phase F} {effects : List Effect}
    (moves : Moves codecs app request phase after next effects)
    (healthy : phase.route = none → ∀ route, next.route = some route →
      parseAffinity request.affinityHeader = some pair → app.Healthy pair)
    (sticks : Task.Sticks app.modelMap pair ⟨request, phase⟩) :
    Task.Sticks app.modelMap pair ⟨request, next⟩ := by
  cases moves with
  | observe | refuse | reserve | leave | leaveBody =>
      rintro route ⟨⟩
  | reject routed =>
      intro route given asked offered
      exact routeBody_pins routed given asked offered (healthy rfl route given asked)
  | forward routed =>
      intro route given asked offered
      exact routeBody_pins routed given asked offered (healthy rfl route given asked)
  | complete | record | respond | abandon | upload | drop => exact sticks

/-- Only the collected body of a request gives it a route. -/
theorem collected_of_routed {request : Request} {phase next : Phase F} {input : Input}
    {effects : List Effect}
    (moved : advancePhase codecs app request phase input = some (after, next, effects))
    (unrouted : phase.route = none) {route : Route} (routed : next.route = some route) :
    (∃ permit, phase = .buffering permit) ∧ ∃ read, input = .collected read := by
  cases phase with
  | called call => cases unrouted
  | received | rejected | observed | cancelled =>
      cases advancePhase_moves moved
      all_goals cases routed
  | buffering permit =>
      refine ⟨⟨permit, rfl⟩, ?_⟩
      cases input with
      | collected read => exact ⟨read, rfl⟩
      | cancel =>
          cases moved
          cases routed
      | poll | exchanged | record | uploadFrame | dropOutbound => cases moved

/-- Where a request that asks for the pair is routed, the pair is healthy. -/
def HealthyWhereRouted (pair : Text × Text) (app : AppState F) (task : Task F) (input : Input) :
    Prop :=
  (∃ permit, task.phase = .buffering permit) → (∃ read, input = .collected read) →
    parseAffinity task.request.affinityHeader = some pair → app.Healthy pair

theorem run_sticks {server : Server F}
    (run : Run ((handler codecs).restrict (HealthyWhereRouted pair)) app server) :
    ∀ task ∈ server.tasks, task.Sticks app.modelMap pair := by
  intro task member
  obtain ⟨i, found⟩ := List.mem_iff_getElem?.mp member
  apply run.task_rule (fun task _ => task.Sticks app.modelMap pair) _ _ found
  · rintro request route ⟨⟩
  · intro system reached task next input shared done events sticks moved
    obtain ⟨healthy, moved⟩ := Handler.restrict_advance.mp moved
    obtain ⟨⟨after, phase, effects⟩, advanced, same⟩ := Option.map_eq_some_iff.mp moved
    cases same
    rw [← run_modelMap reached.of_restrict] at sticks ⊢
    refine (advancePhase_moves advanced).sticks ?_ sticks
    intro unrouted route routed asked
    obtain ⟨buffering, collected⟩ := collected_of_routed advanced unrouted routed
    exact healthy buffering collected asked

end Runs

section Answers

variable {phase : Phase F} {route : Route} {response : Response F} {value : HeaderValue}

omit [Float64 F] in
theorem getAll_jsonError (rejection : Rejection) :
    (jsonError rejection : Response F).headers.getAll sessionAffinityHeader = [] := by
  have plain : HeaderMap.getAll jsonHeaders sessionAffinityHeader = [] := by decide
  unfold jsonError
  dsimp only
  split
  · rw [HeaderMap.getAll_insert, if_neg (by decide), plain]
  · exact plain

omit [Float64 F] in
/-- The affinity header of an answer names the candidate that the request was routed to. -/
theorem affinity_of_answer (routed : phase.route = some route)
    (answered : phase.response = some response)
    (sent : response.headers.getAll sessionAffinityHeader = [value]) :
    value = route.candidate.affinityHeader := by
  cases phase with
  | received | buffering | observed | cancelled => cases routed
  | rejected rejection =>
      cases answered
      rw [getAll_jsonError] at sent
      cases sent
  | called call =>
      obtain ⟨own, outbound, stage⟩ := call
      cases routed
      cases stage with
      | awaiting | recording | cancelled => cases answered
      | responded completion =>
          cases answered
          cases result : completion.result with
          | error error =>
              rw [Route.response, result, getAll_jsonError] at sent
              cases sent
          | ok answer =>
              rw [getAll_response _ result, getAll_responseHeaders, if_pos rfl] at sent
              exact (List.cons.inj sent).1.symm

/-- The names of a candidate that an exchange of headers over HTTP carries through. -/
structure SurvivesWire (candidate : ResolvedCandidate) : Prop where
  header : SurvivesHeader candidate
  first : ∀ c ∈ candidate.providerName.head?, c ≠ ' ' ∧ c ≠ '\t'
  last : ∀ c ∈ candidate.model.getLast?, c ≠ ' ' ∧ c ≠ '\t'

theorem SurvivesWire.of_pair {candidate other : ResolvedCandidate}
    (survives : SurvivesWire candidate) (same : other.pair = candidate.pair) :
    SurvivesWire other := by
  obtain ⟨provider, model⟩ := Prod.mk.inj same
  obtain ⟨header, first, last⟩ := survives
  refine ⟨?_, provider ▸ first, model ▸ last⟩
  unfold SurvivesHeader
  rw [provider, model]
  exact header

/-- The header of such a candidate arrives as it was sent. -/
theorem SurvivesWire.received {candidate : ResolvedCandidate} (survives : SurvivesWire candidate)
    (emitted : HeaderValue.tryFrom (affinityText candidate.providerName candidate.model) =
      some candidate.affinityHeader) :
    candidate.affinityHeader.received = candidate.affinityHeader := by
  obtain ⟨⟨provider, model, -⟩, first, last⟩ := survives
  refine received_tryFrom emitted ?_ ?_ ?_
  · rw [all_visible_affinityText, provider, model]
    rfl
  · unfold affinityText
    cases named : candidate.providerName with
    | nil => simp
    | cons c rest => simpa [named] using first
  · unfold affinityText
    cases named : candidate.model.getLast? with
    | none => simp [List.getLast?_eq_none_iff.mp named]
    | some c => simpa [List.getLast?_append, List.getLast?_cons, named] using last

end Answers

section Orders

variable {left middle right : Config F}

omit [Float64 F] in
theorem Config.Reorders.symm (reorders : left.Reorders right) : right.Reorders left where
  listen := reorders.listen.symm
  metricsListen := reorders.metricsListen.symm
  provider := reorders.provider.symm
  model := reorders.model.symm
  routing := reorders.routing.symm
  attribution := reorders.attribution.symm

omit [Float64 F] in
theorem Config.Reorders.trans (first : left.Reorders middle) (second : middle.Reorders right) :
    left.Reorders right where
  listen := first.listen.trans second.listen
  metricsListen := first.metricsListen.trans second.metricsListen
  provider := first.provider.trans second.provider
  model := first.model.trans second.model
  routing := first.routing.trans second.routing
  attribution := first.attribution.trans second.attribution

end Orders

section Pods

variable [DecidableEq Addr]

/-- A process of the service, in a run that routes the requests which ask for the pair while it
is healthy. -/
structure Pod (codecs : Codecs Map) (parseAddr : Text → Option Addr) (config : Config F)
    (pair : Text × Text) where
  cgroupMemoryLimit : Option UInt64
  /-- The configuration, as the hash maps of this process iterate. -/
  own : Config F
  reorders : config.Reorders own
  app : AppState F
  booted : boot parseAddr cgroupMemoryLimit own = .ok app
  server : Server F
  run : Run ((handler codecs).restrict (HealthyWhereRouted pair)) app server

/-- A request for the alias that a process has routed. -/
structure Turn (codecs : Codecs Map) (parseAddr : Text → Option Addr) (config : Config F)
    (pair : Text × Text) (modelAlias : Text) where
  pod : Pod codecs parseAddr config pair
  task : Task F
  inside : task ∈ pod.server.tasks
  route : Route
  routed : task.phase.route = some route
  named : route.modelAlias = modelAlias

variable {codecs : Codecs Map} {parseAddr : Text → Option Addr} {config : Config F}
  {pair : Text × Text} {modelAlias : Text}

theorem Pod.twins (left right : Pod codecs parseAddr config pair) :
    left.app.modelMap.Twins right.app.modelMap := by
  have reorders := left.reorders.symm.trans right.reorders
  have accepted := boot_fromConfig left.booted
  have acceptedRight := boot_fromConfig right.booted
  obtain ⟨map, tracker, same, twins⟩ := exists_fromConfig_twins reorders accepted
  rw [reorders.routing, acceptedRight] at same
  cases same
  exact twins

namespace Turn

/-- The client passes the affinity header of the one answer on with the next request, as it is
received over HTTP. -/
def Follows (turn next : Turn codecs parseAddr config pair modelAlias) : Prop :=
  ∃ response value, turn.task.phase.response = some response ∧
    response.headers.getAll sessionAffinityHeader = [value] ∧
    next.task.request.affinityHeader = some value.received

theorem lookup (turn : Turn codecs parseAddr config pair modelAlias) :
    ∃ candidates, turn.pod.app.modelMap.get modelAlias = some candidates ∧
      turn.route.candidate ∈ candidates := by
  obtain ⟨i, found⟩ := List.mem_iff_getElem?.mp turn.inside
  obtain ⟨candidates, lookup, member⟩ :=
    (run_ledger turn.pod.run.of_restrict found).routes turn.route turn.routed
  rw [turn.named] at lookup
  exact ⟨candidates, lookup, member⟩

/-- What one process offers for an alias, every process does. -/
theorem offers (turn next : Turn codecs parseAddr config pair modelAlias)
    (here : turn.route.candidate.pair = pair) :
    next.pod.app.modelMap.Offers next.route.modelAlias pair := by
  obtain ⟨candidates, found, member⟩ := turn.lookup
  have both := (turn.pod.twins next.pod).get modelAlias
  rw [found] at both
  obtain ⟨others, foundNext, related⟩ := exists_of_some_rel both
  obtain ⟨other, memberNext, twin⟩ := exists_related related member
  rw [next.named]
  exact ⟨others, foundNext, other, memberNext, (twin.view ResolvedCandidate.pair).symm.trans here⟩

/-- One turn of a session leads to the next. -/
theorem Follows.sticks {turn next : Turn codecs parseAddr config pair modelAlias}
    (follows : turn.Follows next) (here : turn.route.candidate.pair = pair)
    (survives : SurvivesWire turn.route.candidate) :
    next.route.pinned = true ∧ next.route.candidate.pair = pair := by
  obtain ⟨response, value, answered, sent, passed⟩ := follows
  have spelled := affinity_of_answer turn.routed answered sent
  obtain ⟨candidates, found, member⟩ := turn.lookup
  obtain ⟨dedup, registered⟩ := (booted_of_boot turn.pod.booted).wired
  have inMap := ModelMap.mem_candidates_of_get found member
  have emitted := (registered.faithful _ inMap).affinityHeader
  have asked : parseAffinity next.task.request.affinityHeader =
      some turn.route.candidate.pair := by
    rw [passed, spelled, survives.received emitted]
    exact (parseAffinity_eq_pair_iff emitted).mpr survives.header
  exact run_sticks next.pod.run next.task next.inside next.route next.routed
    (asked.trans (congrArg some here)) (turn.offers next here)

end Turn

/-- In a session, a client passes the affinity header of each answer on with its next request for
an alias.  Whichever process a request reaches, however its hash maps iterate and whatever else it
serves: as long as the provider and the model of the first answer are not degraded there when the
request is routed, it is pinned to them, if their names survive a header. -/
theorem sessions_stick {first : Turn codecs parseAddr config pair modelAlias}
    {rest : List (Turn codecs parseAddr config pair modelAlias)}
    (session : (first :: rest).IsChain Turn.Follows) (start : first.route.candidate.pair = pair)
    (survives : SurvivesWire first.route.candidate) :
    ∀ turn ∈ rest, turn.route.pinned = true ∧ turn.route.candidate.pair = pair := by
  induction rest generalizing first with
  | nil => exact List.forall_mem_nil _
  | cons next rest inductionHypothesis =>
      obtain ⟨follows, session⟩ := List.isChain_cons_cons.mp session
      have sticks := follows.sticks start survives
      refine List.forall_mem_cons.mpr ⟨sticks, ?_⟩
      exact inductionHypothesis session sticks.2 (survives.of_pair (sticks.2.trans start.symm))

end Pods

section Unfailed

variable {codecs : Codecs Map} {app : AppState ℝ} {server : Server ℝ} {slot : ℕ}

/-- An update of another slot, or one that leaves a whole success rate whole. -/
theorem Tracker.modify_successRate (tracker : Tracker ℝ) {index : ℕ}
    {f : CandidateStats ℝ → CandidateStats ℝ}
    (keeps : index = slot → ∀ stats, stats.successRate = 1 → (f stats).successRate = 1)
    (whole : (tracker.stats slot).successRate = 1) :
    ((tracker.modify index f).stats slot).successRate = 1 := by
  by_cases here : index = slot
  · subst here
    by_cases inBounds : tracker.InBounds index
    · rw [tracker.stats_modify_self inBounds]
      exact keeps rfl _ whole
    · rw [tracker.stats_modify_out inBounds]
      exact whole
  · rw [tracker.stats_modify_of_ne index (Ne.symm here)]
    exact whole

/-- Without a failure a whole success rate stays whole. -/
theorem AppState.performAll_successRate (app : AppState ℝ) {effects : List Effect}
    (unfailed : Effect.outcome slot false ∉ effects)
    (whole : (app.tracker.stats slot).successRate = 1) :
    ((app.performAll effects).tracker.stats slot).successRate = 1 := by
  induction effects generalizing app with
  | nil => exact whole
  | cons effect rest inductionHypothesis =>
      obtain ⟨first, later⟩ := not_or.mp (mt List.mem_cons.mpr unfailed)
      apply inductionHypothesis (app.perform effect) later
      cases effect with
      | bufferRejection | tick | request | error => exact whole
      | observe mode => cases mode <;> exact whole
      | latency index mode observed =>
          apply app.tracker.modify_successRate _ whole
          intro _ stats whole
          rw [CandidateStats.updateEwma_successRate, whole]
      | outcome index success =>
          apply app.tracker.modify_successRate _ whole
          rintro rfl stats whole
          cases success with
          | false => exact absurd rfl first
          | true =>
              change app.tracker.alpha * 1 + (1 - app.tracker.alpha) * stats.successRate = 1
              rw [whole]
              ring

variable [DecidableEq Addr] {parseAddr : Text → Option Addr} {cgroupMemoryLimit : Option UInt64}
  {config : Config ℝ} {pair : Text × Text}

/-- A boot checks the threshold, and every slot is new. -/
theorem healthy_of_unfailed (started : boot parseAddr cgroupMemoryLimit config = .ok app)
    (run : Run (handler codecs) app server)
    (unfailed : ∀ candidate ∈ app.modelMap.candidates, candidate.pair = pair →
      Effect.outcome candidate.statsIndex false ∉ server.events) :
    server.shared.Healthy pair := by
  intro candidate member named
  rw [run_modelMap run] at member
  have accepted := boot_fromConfig started
  have replayed := congrArg AppState.tracker (run_replays run)
  change server.shared.tracker = _ at replayed
  have whole : (app.tracker.stats candidate.statsIndex).successRate = 1 := by
    rw [fromConfig_fresh accepted]
    rfl
  have rate := app.performAll_successRate (unfailed candidate member named) whole
  have kept : (app.performAll server.events).tracker.errorThreshold =
      config.routing.errorThreshold := by
    obtain ⟨count, slots⟩ := fromConfig_slots accepted
    rw [app.performAll_keeps (fun app => app.tracker.errorThreshold) _ server.events, slots]
    · rfl
    · intro app effect
      cases effect with
      | observe mode => cases mode <;> rfl
      | bufferRejection | tick | latency | outcome | request | error => rfl
  obtain ⟨_, valid, -⟩ := bind_eq_ok.mp started
  have unit := (Config.valid_of_validate valid).errorThreshold
  have nonneg : 0 ≤ config.routing.errorThreshold :=
    (le_real _ _).mp (Bool.and_eq_true_iff.mp unit).1
  rw [Tracker.isDegraded_eq_false_iff, replayed, rate, kept, sub_self]
  exact nonneg

/-- A failed outcome comes from a failed request. -/
theorem unfailed_of_completed (started : boot parseAddr cgroupMemoryLimit config = .ok app)
    (run : Run (handler codecs) app server)
    (succeeded : ∀ task ∈ server.tasks, ∀ route completion,
      task.phase.completed = some (route, completion) → route.candidate.pair = pair →
        ∃ answer, completion.result = .ok answer ∧ answer.status.isSuccess = true)
    {candidate : ResolvedCandidate} (member : candidate ∈ app.modelMap.candidates)
    (named : candidate.pair = pair) :
    Effect.outcome candidate.statsIndex false ∉ server.events := by
  intro failed
  obtain ⟨⟨i, effect⟩, entry, rfl⟩ := List.mem_map.mp failed
  obtain ⟨task, found, did⟩ := run.exists_task entry
  have ledger := run_ledger run found
  rcases ledger.mem did with opening | ⟨route, completion, completed, due⟩
  · rcases mem_opening opening with refused | ⟨_, -, ticked⟩
    · cases refused
    · cases ticked
  · obtain ⟨slot, verdict⟩ := mem_effects_outcome due
    obtain ⟨candidates, lookup, inside⟩ :=
      ledger.routes route (Phase.route_of_completed completed)
    obtain ⟨dedup, registered⟩ := (booted_of_boot started).wired
    have samePair := (registered.slotsNamePairs _ (ModelMap.mem_candidates_of_get lookup inside)
      _ member).mp slot
    have success := succeeded task (List.mem_of_getElem? found) route completion completed
      (samePair.trans named)
    cases verdict.mpr success

/-- Only failures break a pin: where no request for the pair has failed, the pair was healthy in
all of the run. -/
theorem run_healthy (started : boot parseAddr cgroupMemoryLimit config = .ok app)
    (run : Run (handler codecs) app server)
    (succeeded : ∀ task ∈ server.tasks, ∀ route completion,
      task.phase.completed = some (route, completion) → route.candidate.pair = pair →
        ∃ answer, completion.result = .ok answer ∧ answer.status.isSuccess = true) :
    Run ((handler codecs).restrict (HealthyWhereRouted pair)) app server := by
  have unfailed : ∀ candidate ∈ app.modelMap.candidates, candidate.pair = pair →
      Effect.outcome candidate.statsIndex false ∉ server.events :=
    fun _ member named => unfailed_of_completed started run succeeded member named
  clear succeeded
  induction run with
  | boot => exact .boot
  | accept request _ inductionHypothesis => exact .accept request (inductionHypothesis unfailed)
  | @advance system i task next input shared events reached found moved inductionHypothesis =>
      have earlier : ∀ candidate ∈ app.modelMap.candidates, candidate.pair = pair →
          Effect.outcome candidate.statsIndex false ∉ system.events := by
        intro candidate member named failed
        apply unfailed candidate member named
        rw [System.events, List.map_append]
        exact List.mem_append_left _ failed
      have healthy := healthy_of_unfailed started reached earlier
      exact .advance (inductionHypothesis earlier) found
        (Handler.restrict_advance.mpr ⟨fun _ _ _ => healthy, moved⟩)

end Unfailed

section Swapped

/-- The only candidate of an alias is chosen, pinned or selected. -/
theorem chooseCandidate_single (app : AppState F) (header : Option HeaderValue) (modelAlias : Text)
    (candidate : ResolvedCandidate) (isStreaming : Bool) :
    ∃ pinned rrState, chooseCandidate app header modelAlias [candidate] isStreaming =
      (some ⟨modelAlias, candidate, pinned, isStreaming⟩, rrState) := by
  cases chosen : chooseCandidate app header modelAlias [candidate] isStreaming with
  | mk route rrState =>
      have chooses := chooseCandidate_chooses chosen
      cases route with
      | none => cases chooses.empty
      | some route =>
          obtain ⟨found, member, pinned, rfl⟩ := chooses.given
          rw [List.mem_singleton.mp member]
          exact ⟨pinned, rrState, rfl⟩

/-- A plain body is forwarded to the only candidate of its alias, with any header. -/
theorem routeBody_single {json : SerdeJson Map} {IsValue : Text → Prop}
    (lawful : json.Lawful IsValue) (app : AppState F) (header : Option HeaderValue)
    {modelAlias : Text} {candidate : ResolvedCandidate}
    (lookup : app.modelMap.get modelAlias = some [candidate])
    (unlabelled : candidate.attributionLabels = none) (permit : Permit) :
    ∃ pinned isStreaming outbound rrState,
      routeBody json app header permit (.ok (plainBody modelAlias).bytes) =
        (.forwarding ⟨modelAlias, candidate, pinned, isStreaming⟩ outbound, rrState) := by
  have values := plainBody_values lawful modelAlias
  have prepared := lawful.prepareOutbound_ofMembers values candidate.model (some permit)
  rw [← unlabelled] at prepared
  obtain ⟨pinned, rrState, chosen⟩ := chooseCandidate_single app header modelAlias candidate
    (((RawBody.ofMembers [(modelKey, Json.quote modelAlias)]).getAs json.parseBool
      streamKey).getD false)
  have accepted := readBody_compact lawful values rfl lookup
  exact ⟨pinned, _, _, rrState, routeBody_forwards accepted chosen prepared⟩

/-- A request for `fast`, with an affinity header or without. -/
def fastRequest (header : Option HeaderValue) : Request :=
  ⟨.post, "/v1/chat/completions".toList, header, some 1500⟩

/-- A request for `fast` is routed in either process. -/
theorem exists_swapped_route (slowFirst : Bool) (header : Option HeaderValue) :
    ∃ (app shared : AppState ℝ) (candidate : ResolvedCandidate) (pinned isStreaming : Bool)
        (outbound : OutboundBody) (journal : List (ℕ × Effect)),
      boot (some : Text → Option Text) none (swappedConfig slowFirst) = .ok app ∧
      Run (handler plainCodecs) app ⟨shared, [⟨fastRequest header,
        .called ⟨⟨"fast".toList, candidate, pinned, isStreaming⟩, some outbound, .awaiting⟩⟩],
        journal⟩ ∧
      candidate.pair = ("openai".toList, "gpt-4o".toList) ∧ candidate.kind = .apiKey ∧
      candidate.statsIndex = if slowFirst then 1 else 0 := by
  have valid : (swappedConfig slowFirst).validate some =
      (.ok () : Except (ConfigError ℝ Text) Unit) := swappedConfig_validate slowFirst
  have start : ∃ app candidate permit budget,
      boot (some : Text → Option Text) none (swappedConfig slowFirst : Config ℝ) = .ok app ∧
      app.modelMap.get "fast".toList = some [candidate] ∧
      candidate.attributionLabels = none ∧
      candidate.pair = ("openai".toList, "gpt-4o".toList) ∧ candidate.kind = .apiKey ∧
      (candidate.statsIndex = if slowFirst then 1 else 0) ∧
      admission plainCodecs app (fastRequest header) = .admitted permit budget := by
    cases slowFirst with
    | false =>
        exact ⟨_, _, _, _, bind_eq_ok.mpr ⟨(), valid, rfl⟩, rfl, rfl, rfl, rfl, rfl, rfl⟩
    | true =>
        exact ⟨_, _, _, _, bind_eq_ok.mpr ⟨(), valid, rfl⟩, rfl, rfl, rfl, rfl, rfl, rfl⟩
  obtain ⟨app, candidate, permit, budget, started, lookup, unlabelled, pair, kind, slot,
    admitted⟩ := start
  have buffered : (app.setBudget budget).modelMap.get "fast".toList = some [candidate] := lookup
  obtain ⟨pinned, isStreaming, outbound, rrState, routed⟩ :=
    routeBody_single SerdeJson.flat_lawful _ header buffered unlabelled permit
  exact ⟨app, _, candidate, pinned, isStreaming, outbound, _, started,
    ((Run.alone (handler plainCodecs) app (fastRequest header)).alone_advance
      (advance_admitted admitted)).alone_advance (advance_forwarded routed), pair, kind, slot⟩

/-- The first request is answered by a process that gave the candidate the first slot; a process
that gave it the second pins the next request to it. -/
theorem sessions_stick_swapped :
    ∃ first next : Turn plainCodecs (some : Text → Option Text) (swappedConfig false : Config ℝ)
        ("openai".toList, "gpt-4o".toList) "fast".toList,
      first.Follows next ∧ first.route.candidate.statsIndex = 0 ∧
      next.route.candidate.statsIndex = 1 ∧ next.route.pinned = true := by
  obtain ⟨app, shared, candidate, pinned, isStreaming, outbound, journal, started, routed, pair,
    kind, slot⟩ := exists_swapped_route false none
  obtain ⟨answer, ended, success, -⟩ := forwardRequest_emptyAnswer kind isStreaming
    shared.budget.maxBodyBytes shared.gcpTokenProvider
  obtain ⟨served, journal, run, -⟩ := run_completes [] routed ended
  have healthy : Run ((handler plainCodecs).restrict
      (HealthyWhereRouted ("openai".toList, "gpt-4o".toList))) app
      ⟨served, [⟨fastRequest none, .called ⟨⟨"fast".toList, candidate, pinned, isStreaming⟩,
        some outbound, .responded ⟨emptyAnswer, .ok answer⟩⟩⟩], journal⟩ := by
    apply run_healthy started run
    intro task member route completion completed _
    rw [List.mem_singleton.mp member] at completed
    cases completed
    exact ⟨answer, rfl, by rw [success]; rfl⟩
  obtain ⟨appNext, sharedNext, candidateNext, pinnedNext, streamingNext, outboundNext, journalNext,
    startedNext, routedNext, pairNext, -, slotNext⟩ :=
    exists_swapped_route true (some candidate.affinityHeader.received)
  have healthyNext : Run ((handler plainCodecs).restrict
      (HealthyWhereRouted ("openai".toList, "gpt-4o".toList))) appNext
      ⟨sharedNext, [⟨fastRequest (some candidate.affinityHeader.received),
        .called ⟨⟨"fast".toList, candidateNext, pinnedNext, streamingNext⟩, some outboundNext,
          .awaiting⟩⟩], journalNext⟩ := by
    apply run_healthy startedNext routedNext
    intro task member route completion completed _
    rw [List.mem_singleton] at member
    subst member
    cases completed
  let first : Turn plainCodecs (some : Text → Option Text) (swappedConfig false : Config ℝ)
      ("openai".toList, "gpt-4o".toList) "fast".toList := {
    pod := {
      cgroupMemoryLimit := none
      own := swappedConfig false
      reorders := ⟨rfl, rfl, .refl _, .refl _, rfl, rfl⟩
      app := app
      booted := started
      server := _
      run := healthy }
    task := _
    inside := List.mem_singleton_self _
    route := _
    routed := rfl
    named := rfl }
  let next : Turn plainCodecs (some : Text → Option Text) (swappedConfig false : Config ℝ)
      ("openai".toList, "gpt-4o".toList) "fast".toList := {
    pod := {
      cgroupMemoryLimit := none
      own := swappedConfig true
      reorders := ⟨rfl, rfl, .refl _, .swap slowEntry fastEntry [], rfl, rfl⟩
      app := appNext
      booted := startedNext
      server := _
      run := healthyNext }
    task := _
    inside := List.mem_singleton_self _
    route := _
    routed := rfl
    named := rfl }
  have follows : first.Follows next := by
    refine ⟨_, candidate.affinityHeader, rfl, ?_, rfl⟩
    exact (getAll_response _ rfl _).trans (getAll_responseHeaders _ _ _)
  have survives : SurvivesWire first.route.candidate := by
    obtain ⟨provider, model⟩ := Prod.mk.inj pair
    have header : SurvivesHeader candidate := by
      unfold SurvivesHeader
      rw [provider, model]
      decide
    refine ⟨header, ?_, ?_⟩
    · change ∀ c ∈ candidate.providerName.head?, _
      intro c first
      rw [provider] at first
      obtain rfl : 'o' = c := Option.some.inj first
      decide
    · change ∀ c ∈ candidate.model.getLast?, _
      intro c last
      rw [model] at last
      obtain rfl : 'o' = c := Option.some.inj last
      decide
  have session : [first, next].IsChain Turn.Follows := .cons_cons follows (.singleton next)
  have sticks := sessions_stick session pair survives next (List.mem_singleton_self _)
  exact ⟨first, next, follows, slot, slotNext, sticks.1⟩

end Swapped

end Sturnus
