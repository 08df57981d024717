import Mathlib.Data.List.Permutation
import Sturnus.Server.Recording
import Sturnus.Server.Solo

/-!
# Outcomes, metrics and ticks agree

Counting over the ledgers of all requests: once every completed request has been
answered, the outcomes of a slot, the requests completed on it and the metrics of
its labels are the same number.
-/

namespace Sturnus

open Foundation Foundation.Http Foundation.Concurrent

/-- The labels of a slot: one triple for each alias that has a candidate with it. -/
def slotLabels (map : ModelMap) (slot : ℕ) : List UpstreamLabels :=
  (map.iter.filter fun entry => entry.2.statsIndex == slot).map upstreamLabels

section Shared

variable {F : Type} [Float64 F] {config : Config F} {app : AppState F}

/-- A well-routed request counts under the labels of a slot exactly when its candidate
has that slot. -/
theorem Booted.labels_mem_iff (booted : Booted config app) {route : Route}
    (routes : app.modelMap.Routes route) (slot : ℕ) :
    route.labels ∈ slotLabels app.modelMap slot ↔ route.candidate.statsIndex = slot := by
  obtain ⟨candidates, lookup, member⟩ := routes
  obtain ⟨dedup, registered⟩ := booted.wired
  have listed : (route.modelAlias, route.candidate) ∈ app.modelMap.iter := by
    apply List.mem_flatMap.mpr
    exact ⟨⟨route.modelAlias, candidates⟩, AList.mem_lookup_iff.mp lookup,
      List.mem_map_of_mem member⟩
  have inMap := ModelMap.mem_candidates_of_get lookup member
  unfold slotLabels
  rw [List.mem_map]
  constructor
  · rintro ⟨entry, chosen, same⟩
    obtain ⟨inIter, slotOfEntry⟩ := List.mem_filter.mp chosen
    have entryInMap : entry.2 ∈ app.modelMap.candidates :=
      app.modelMap.iter_snd ▸ List.mem_map_of_mem inIter
    have samePair : entry.2.pair = route.candidate.pair :=
      Prod.ext (congrArg UpstreamLabels.provider same) (congrArg UpstreamLabels.model same)
    rw [← (registered.slotsNamePairs _ entryInMap _ inMap).mpr samePair]
    exact beq_iff_eq.mp slotOfEntry
  · rintro rfl
    exact ⟨_, List.mem_filter.mpr ⟨listed, beq_self_eq_true _⟩, rfl⟩

/-- A completed request counts under the labels of the slot it was completed on. -/
theorem Ledger.completed_labels {phase : Phase F} {done : List Effect}
    (ledger : Ledger app phase done) (booted : Booted config app) (slot : ℕ) :
    (phase.completed.any fun completed => decide (completed.1.labels ∈ slotLabels app.modelMap slot)) =
      phase.completedOn slot := by
  unfold Phase.completedOn
  cases ended : phase.completed with
  | none => rfl
  | some completed =>
      have member := booted.labels_mem_iff (ledger.routes _ (Phase.route_of_completed ended)) slot
      rw [Bool.eq_iff_iff]
      simpa using member

theorem AppState.performAll_forwarded (app : AppState F) (p : UpstreamLabels → Bool)
    (effects : List Effect) :
    (app.performAll effects).metrics.forwarded p =
      app.metrics.forwarded p + effects.countP (Effect.isMetered p) := by
  induction effects generalizing app with
  | nil => rfl
  | cons effect rest inductionHypothesis =>
      have step : (app.perform effect).metrics.forwarded p =
          app.metrics.forwarded p + if Effect.isMetered p effect then 1 else 0 := by
        cases effect with
        | request labels status =>
            have counted := Counters.total_inc (fun label => p label.1) (labels, status)
              app.metrics.requestsTotal
            unfold Metrics.forwarded Effect.isMetered
            cases labelled : p labels <;> simp [perform, counted, labelled]; omega
        | error labels =>
            have counted := Counters.total_inc p labels app.metrics.errorsTotal
            unfold Metrics.forwarded Effect.isMetered
            cases labelled : p labels <;> simp [perform, counted, labelled, Nat.add_assoc]
        | observe mode labels observed => exact app.metrics.forwarded_observe p mode labels observed
        | bufferRejection | tick | latency | outcome => rfl
      refine (inductionHypothesis _).trans ?_
      rw [step, List.countP_cons]
      omega

/-- A registered counter has advanced by the ticks that were drawn from it. -/
theorem AppState.performAll_counter (app : AppState F) {modelAlias : Text} {tick : UInt64}
    (registered : app.rrState.counters.lookup modelAlias = some tick) (effects : List Effect) :
    (app.performAll effects).rrState.counters.lookup modelAlias =
      some (tick + UInt64.ofNat (effects.countP (Effect.isTickOf modelAlias))) := by
  induction effects generalizing app tick with
  | nil =>
      refine registered.trans ?_
      simp
  | cons effect rest inductionHypothesis =>
      cases effect with
      | tick drawn =>
          by_cases same : drawn = modelAlias
          · subst same
            have step : (app.perform (.tick drawn)).rrState.counters.lookup drawn =
                some (tick + 1) := RoundRobinState.lookup_nextTick registered
            refine (inductionHypothesis _ step).trans ?_
            have drawnHere : Effect.isTickOf drawn (.tick drawn) = true := beq_self_eq_true drawn
            rw [tick_succ, List.countP_cons_of_pos drawnHere]
          · have step : (app.perform (.tick drawn)).rrState.counters.lookup modelAlias =
                some tick :=
              (app.rrState.lookup_nextTick_of_ne (Ne.symm same)).trans registered
            refine (inductionHypothesis _ step).trans ?_
            rw [List.countP_cons_of_neg (by simpa [Effect.isTickOf] using same)]
      | bufferRejection | latency | outcome | request | error | observe =>
          exact inductionHypothesis _ registered

end Shared

section Draws

variable {F : Type} [Float64 F] {Map : Type}

/-- A request for an alias with candidates that is not pinned to one of them. -/
def Draws (json : SerdeJson Map) (app : AppState F) (header : Option HeaderValue)
    (read : Except BodyError (List UInt8)) (modelAlias : Text) : Prop :=
  ∃ body candidates, readBody json app read = .ok (body, modelAlias, candidates) ∧
    candidates ≠ [] ∧ pinned app.tracker candidates header = none

theorem chooseCandidate_selects (app : AppState F) (header : Option HeaderValue)
    (modelAlias : Text) (candidates : List ResolvedCandidate) (isStreaming : Bool) :
    (∃ route, (chooseCandidate app header modelAlias candidates isStreaming).1 = some route ∧
        route.pinned = false) ↔
      candidates ≠ [] ∧ pinned app.tracker candidates header = none := by
  cases chosen : chooseCandidate app header modelAlias candidates isStreaming with
  | mk route rrState =>
      cases chooseCandidate_chooses chosen with
      | nothing empty => simp [empty]
      | honors honored => simp [honored]
      | selects member unpinned => simp [unpinned, List.ne_nil_of_mem member]

/-- Whatever alias a route is for, it is the one the body names. -/
theorem chooseCandidate_modelAlias {app : AppState F} {header : Option HeaderValue}
    {modelAlias : Text} {candidates : List ResolvedCandidate} {isStreaming : Bool} {route : Route}
    (chosen : (chooseCandidate app header modelAlias candidates isStreaming).1 = some route) :
    route.modelAlias = modelAlias := by
  obtain ⟨_, -, _, rfl⟩ := (chooseCandidate_chooses (Prod.ext chosen rfl)).given
  rfl

/-- Routing selects for the alias exactly when the request draws from it. -/
theorem routeBody_selects {json : SerdeJson Map} {app : AppState F} {header : Option HeaderValue}
    {permit : Permit} {read : Except BodyError (List UInt8)} {routed : Routed}
    {rrState : RoundRobinState}
    (result : routeBody json app header permit read = (routed, rrState)) (modelAlias : Text) :
    (∃ route, routed.route = some route ∧ route.pinned = false ∧
        route.modelAlias = modelAlias) ↔ Draws json app header read modelAlias := by
  unfold routeBody at result
  split at result
  next rejection refused =>
    cases result
    simp [Draws, refused, Routed.route]
  next body named candidates accepted =>
    have reached : Draws json app header read modelAlias ↔ named = modelAlias ∧
        ∃ route, (chooseCandidate app header named candidates
          ((body.getAs json.parseBool streamKey).getD false)).1 = some route ∧
          route.pinned = false := by
      rw [chooseCandidate_selects]
      constructor
      · rintro ⟨_, _, same, some, unpinned⟩
        rw [accepted] at same
        cases same
        exact ⟨rfl, some, unpinned⟩
      · rintro ⟨rfl, some, unpinned⟩
        exact ⟨body, candidates, accepted, some, unpinned⟩
    rw [reached]
    dsimp only at result
    split at result
    next chosen =>
      cases result
      simp [chosen, Routed.route]
    next route _ chosen =>
      obtain rfl : named = route.modelAlias :=
        (chooseCandidate_modelAlias (by rw [chosen])).symm
      split at result
      all_goals
        cases result
        simp [chosen, Routed.route, and_comm]

omit [Float64 F] in
theorem Phase.selectedFor_iff (phase : Phase F) (modelAlias : Text) :
    phase.selectedFor modelAlias = true ↔ ∃ route, phase.route = some route ∧
      route.pinned = false ∧ route.modelAlias = modelAlias := by
  unfold selectedFor
  cases phase.route <;> simp

theorem advance_selects {codecs : Codecs Map} {app after : AppState F} {request : Request}
    {permit : Permit} {read : Except BodyError (List UInt8)} {next : Task F}
    {effects : List Effect} (moved : (handler codecs).advance app ⟨request, .buffering permit⟩
      (.collected read) = some (after, next, effects)) (modelAlias : Text) :
    next.phase.selectedFor modelAlias = true ↔
      Draws codecs.json app request.affinityHeader read modelAlias := by
  have advanced := Option.some.inj (advancePhase_of_advance moved)
  have collected : (advanceCollected codecs app request permit read).2.1 = next.phase :=
    congrArg (fun result => result.2.1) advanced
  rw [Phase.selectedFor_iff, ← collected]
  unfold advanceCollected
  split
  all_goals
    next routed => exact routeBody_selects routed modelAlias

end Draws

section Runs

variable {F Addr : Type} [Float64 F] [DecidableEq Addr] {Map : Type}

/-- What every run accounts for. -/
structure Accounted (codecs : Codecs Map) (config : Config F) (app : AppState F)
    (server : Server F) : Prop where
  /-- Tracker, counters and metrics are those of the boot with every recorded effect applied. -/
  replayed : server.shared.setBudget app.budget = app.performAll server.events
  /-- A completed request that was answered recorded one outcome, any other request none. -/
  once : Settled server → ∀ i task, server.tasks[i]? = some task →
    (server.journalOf i).countP Effect.isOutcome = if task.phase.completed.isSome then 1 else 0
  outcomes : Settled server → ∀ slot, server.events.countP (Effect.isOutcomeOf slot) =
    server.tasks.countP fun task => task.phase.completedOn slot
  /-- A slot ends where the completions on it end when they are recorded one after the other on
  a new slot: a success by its latency in the mode of its route and by a good outcome, anything
  else by a bad outcome. -/
  recorded : Settled server → ∀ slot, app.tracker.InBounds slot →
    ∃ order : List (Route × Completion),
      order.Perm (server.tasks.filterMap fun task => task.phase.completionOn slot) ∧
      server.shared.tracker.stats slot = order.foldl (fun stats completed =>
        completed.1.onStats config.routing.ewmaAlpha stats completed.2) .new
  /-- A success recorded exactly one latency, in the mode that routing used. -/
  latencies : Settled server → ∀ i task, server.tasks[i]? = some task →
    (server.journalOf i).filter Effect.isLatency = (task.phase.completed.bind fun completed =>
      completed.2.latency.map (.latency completed.1.candidate.statsIndex completed.1.mode)).toList
  /-- A completion has a latency exactly when its exchange succeeds, and then the measured one. -/
  succeeds : ∀ task ∈ server.tasks, ∀ route completion,
    task.phase.completed = some (route, completion) →
      (completion.latency.isSome = true ↔ completion.exchange.Succeeds route.candidate.kind
        app.gcpTokenProvider route.isStreaming app.budget.maxBodyBytes) ∧
      ∀ observed ∈ completion.latency, observed = completion.exchange.elapsed
  /-- Requests and errors counted under the labels of a slot. -/
  metered : Settled server → ∀ slot, server.shared.metrics.forwarded
    (fun labels => labels ∈ slotLabels app.modelMap slot) =
      server.tasks.countP fun task => task.phase.completedOn slot
  /-- An outcome is a success exactly when the exchange of its completion succeeds. -/
  verdict : ∀ i slot success, (i, Effect.outcome slot success) ∈ server.journal →
    ∃ task route completion, server.tasks[i]? = some task ∧
      task.phase.completed = some (route, completion) ∧ route.candidate.statsIndex = slot ∧
      (success = true ↔ completion.exchange.Succeeds route.candidate.kind app.gcpTokenProvider
        route.isStreaming app.budget.maxBodyBytes)
  mode : ∀ i slot mode observed, (i, Effect.latency slot mode observed) ∈ server.journal →
    ∃ task route completion, server.tasks[i]? = some task ∧
      task.phase.completed = some (route, completion) ∧ route.candidate.statsIndex = slot ∧
      route.mode = mode
  ticks : ∀ modelAlias ∈ config.model, server.shared.rrState.counters.lookup modelAlias =
    some (UInt64.ofNat (server.tasks.countP fun task => task.phase.selectedFor modelAlias))
  /-- A selection was made for the requests that draw, when their body was collected. -/
  drawn : ∀ request permit read after next effects modelAlias,
    (handler codecs).advance server.shared ⟨request, .buffering permit⟩ (.collected read) =
        some (after, next, effects) →
      (next.phase.selectedFor modelAlias = true ↔
        Draws codecs.json server.shared request.affinityHeader read modelAlias)
  /-- Refused and cancelled requests touch neither the tracker nor the counts of requests
  and errors. -/
  silent : ∀ i task, server.tasks[i]? = some task → task.phase.completed = none →
    ∀ effect ∈ server.journalOf i, effect = .bufferRejection ∨
      ∃ route, task.phase.route = some route ∧ effect = .tick route.modelAlias

variable {codecs : Codecs Map} {config : Config F} {app : AppState F} {server : Server F}

/-- What is due once for a completion was done as often as requests were completed. -/
theorem run_counts (run : Run (handler codecs) app server) (rest : Settled server)
    {p : Effect → Bool} {q : Route → Bool} (refusal : p .bufferRejection = false)
    (ticks : ∀ modelAlias, p (.tick modelAlias) = false)
    (due : ∀ route completion,
      (route.effects completion).countP p = if q route then 1 else 0) :
    server.events.countP p = server.tasks.countP fun task =>
      task.phase.completed.any fun completed => q completed.1 := by
  apply run.countP_events_of_once
  intro i task found
  have settled := rest task (List.mem_of_getElem? found)
  exact (run_ledger run found).countP_settled settled refusal ticks due

theorem run_forwarded (booted : Booted config app) (run : Run (handler codecs) app server)
    (p : UpstreamLabels → Bool) :
    server.shared.metrics.forwarded p = server.events.countP (Effect.isMetered p) := by
  have metrics := congrArg AppState.metrics (run_replays run)
  change server.shared.metrics = _ at metrics
  rw [metrics, app.performAll_forwarded, booted.metrics, Metrics.forwarded_initZero, Nat.zero_add]

/-- The metrics of a slot count the requests completed on it. -/
theorem run_metered (booted : Booted config app) (run : Run (handler codecs) app server)
    (rest : Settled server) (slot : ℕ) :
    server.shared.metrics.forwarded (fun labels => labels ∈ slotLabels app.modelMap slot) =
      server.tasks.countP fun task => task.phase.completedOn slot := by
  rw [run_forwarded booted run,
    run_counts run rest rfl (fun _ => rfl) (countP_effects_metered · · _)]
  apply List.countP_congr
  intro task member
  obtain ⟨i, found⟩ := List.getElem?_of_mem member
  rw [(run_ledger run found).completed_labels booted]

/-- A counter counts the selections made for its alias. -/
theorem run_ticks (booted : Booted config app) (run : Run (handler codecs) app server)
    {modelAlias : Text} (registered : modelAlias ∈ config.model) :
    server.shared.rrState.counters.lookup modelAlias =
      some (UInt64.ofNat (server.tasks.countP fun task => task.phase.selectedFor modelAlias)) := by
  have zero : app.rrState.counters.lookup modelAlias = some 0 := by
    rw [booted.counters]
    exact RoundRobinState.lookup_ofAliases (AList.mem_keys.mp registered)
  have drawn : server.events.countP (Effect.isTickOf modelAlias) =
      server.tasks.countP fun task => task.phase.selectedFor modelAlias := by
    apply run.countP_events_of_once
    intro i task found
    exact (run_ledger run found).countP_tick modelAlias
  have rrState := congrArg AppState.rrState (run_replays run)
  change server.shared.rrState = _ at rrState
  rw [rrState, app.performAll_counter zero, drawn, UInt64.zero_add]

/-- In every state of every run from a boot, with any number of requests in any order. -/
theorem run_accounted {parseAddr : Text → Option Addr} {cgroupMemoryLimit : Option UInt64}
    {config : Config F} {app : AppState F}
    (started : boot parseAddr cgroupMemoryLimit config = .ok app) {codecs : Codecs Map}
    {server : Server F} (run : Run (handler codecs) app server) :
    Accounted codecs config app server := by
  have booted := booted_of_boot started
  refine ⟨run_replays run, ?_, ?_, ?_, ?_, ?_, ?_, ?_, ?_, ?_, ?_, ?_⟩
  · intro rest i task found
    have settled := rest task (List.mem_of_getElem? found)
    have counted := (run_ledger run found).countP_settled settled (p := Effect.isOutcome)
      (q := fun _ => true) rfl (fun _ => rfl) (countP_effects_outcome · ·)
    simpa using counted
  · intro rest slot
    exact run_counts run rest rfl (fun _ => rfl) (countP_effects_outcomeOf · · slot)
  · intro rest slot inBounds
    exact run_recorded started run rest inBounds
  · intro rest i task found
    exact (run_ledger run found).latencies_settled (rest task (List.mem_of_getElem? found))
  · intro task member route completion completed
    obtain ⟨i, found⟩ := List.getElem?_of_mem member
    exact (run_ledger run found).latency_spec completed
  · intro rest slot
    exact run_metered booted run rest slot
  · intro i slot success member
    obtain ⟨task, found, did⟩ := run.exists_task member
    obtain ⟨route, completion, verdict⟩ := (run_ledger run found).verdict did
    exact ⟨task, route, completion, found, verdict⟩
  · intro i slot mode observed member
    obtain ⟨task, found, did⟩ := run.exists_task member
    obtain ⟨route, completion, same⟩ := (run_ledger run found).mode did
    exact ⟨task, route, completion, found, same⟩
  · intro modelAlias registered
    exact run_ticks booted run registered
  · intro request permit read after next effects modelAlias moved
    exact advance_selects moved modelAlias
  · intro i task found pending effect did
    exact (run_ledger run found).silent pending did

end Runs

section Served

noncomputable def plainConfig : Config ℝ :=
  .single "openai".toList "https://api.openai.com/v1".toList "fast".toList ["gpt-4o".toList]

theorem plainConfig_alpha :
    0 < plainConfig.routing.ewmaAlpha ∧ plainConfig.routing.ewmaAlpha < 1 := by
  change 0 < (Float64.literal (3 / 10) : ℝ) ∧ (Float64.literal (3 / 10) : ℝ) < 1
  rw [literal_real]
  norm_num

/-- The only route of the configuration. -/
def plainRoute (candidate : ResolvedCandidate) : Route := ⟨"fast".toList, candidate, false, false⟩

/-- Two requests to one candidate: the upstream answered the first, the connection for the second
was refused. -/
theorem exists_answered_refused :
    ∃ (app : AppState ℝ) (server : Server ℝ) (candidate : ResolvedCandidate)
        (first second : OutboundBody) (answer : ProxyResult),
      boot (some : Text → Option Text) none plainConfig = .ok app ∧
      Run (handler plainCodecs) app server ∧
      server.tasks = [
        ⟨plainRequest, .called ⟨plainRoute candidate, some first,
          .responded ⟨emptyAnswer, .ok answer⟩⟩⟩,
        ⟨plainRequest, .called ⟨plainRoute candidate, some second,
          .responded ⟨refusedConnection, .error (.send "connection refused".toList)⟩⟩⟩] ∧
      answer.status = statusOk ∧ answer.latency.elapsed = .fromMillis 5 ∧
      candidate.providerName = "openai".toList ∧ candidate.model = "gpt-4o".toList ∧
      candidate.statsIndex = 0 ∧ app.tracker.InBounds 0 ∧ first.held = 2 ∧ second.held = 2 := by
  have start : ∃ app candidate permit budget permit' budget',
      boot (some : Text → Option Text) none plainConfig = .ok app ∧
      app.modelMap.get "fast".toList = some [candidate] ∧ candidate.kind = .apiKey ∧
      candidate.attributionLabels = none ∧ candidate.providerName = "openai".toList ∧
      candidate.model = "gpt-4o".toList ∧ candidate.statsIndex = 0 ∧ app.tracker.InBounds 0 ∧
      admission plainCodecs app plainRequest = .admitted permit budget ∧
      budget.reserve 1500 = some (permit', budget') ∧ 1500 ≤ budget.maxBodyBytes ∧
      permit.count = 2 ∧ permit'.count = 2 :=
    ⟨_, _, _, _, _, _, bind_eq_ok.mpr ⟨(), Config.single_validate _ _ _ (by decide), rfl⟩,
      rfl, rfl, rfl, rfl, rfl, rfl, Nat.one_pos, rfl, rfl, by decide, rfl, rfl⟩
  obtain ⟨app, candidate, permit, budget, permit', budget', started, lookup, keyed, unlabelled,
    provider, model, slot, inBounds, admitted, reserved, within, held, held'⟩ := start
  obtain ⟨answer, answered, status, elapsed⟩ :=
    forwardRequest_emptyAnswer keyed false budget.maxBodyBytes app.gcpTokenProvider
  obtain ⟨shared, first, journal, run, same⟩ := run_serves .boot SerdeJson.flat_lawful lookup
    unlabelled rfl admitted answered
  have admittedNext : admission plainCodecs shared plainRequest = .admitted permit' budget' :=
    admission_reserves rfl rfl (same ▸ within) (same ▸ reserved)
  obtain ⟨after, second, journal, both, -⟩ := run_serves run SerdeJson.flat_lawful
    ((congrArg (ModelMap.get · _) (run_modelMap run)).trans lookup) unlabelled rfl admittedNext
    (forwardRequest_refusedConnection keyed false budget'.maxBodyBytes shared.gcpTokenProvider)
  exact ⟨app, _, candidate, _, _, answer, started, both, rfl, status, elapsed, provider, model,
    slot, inBounds, held, held'⟩

theorem completionOn_plain {candidate : ResolvedCandidate} (slot : candidate.statsIndex = 0)
    (outbound : OutboundBody) (completion : Completion) :
    Phase.completionOn (F := ℝ) 0 (.called ⟨plainRoute candidate, some outbound,
      .responded completion⟩) = some (plainRoute candidate, completion) := by
  simp [Phase.completionOn, Phase.completed, Stage.completion, plainRoute, slot]

/-- In either order, the latency is that of the answer, and the failure has cost some success. -/
theorem stats_of_answered {candidate : ResolvedCandidate} {answer : ProxyResult}
    (status : answer.status = statusOk) (elapsed : answer.latency.elapsed = .fromMillis 5)
    {alpha : ℝ} (positive : 0 < alpha) (less : alpha < 1) {order : List (Route × Completion)}
    (pair : order.Perm [(plainRoute candidate, ⟨emptyAnswer, .ok answer⟩),
      (plainRoute candidate, ⟨refusedConnection, .error (.send "connection refused".toList)⟩)]) :
    let stats := order.foldl (fun (stats : CandidateStats ℝ) (completed : Route × Completion) =>
      completed.1.onStats alpha stats completed.2) .new
    stats.nonstreamingEwmaMs = 5 ∧ stats.successRate < 1 := by
  have good : Completion.latency ⟨emptyAnswer, .ok answer⟩ = some (.fromMillis 5) := by
    simp only [Completion.latency, status, elapsed]
    rfl
  have bad : Completion.latency
      ⟨refusedConnection, .error (.send "connection refused".toList)⟩ = none := rfl
  rcases List.perm_pair.mp pair with rfl | rfl
  · simp only [List.foldl_cons, List.foldl_nil, Route.onStats, good, bad]
    refine ⟨rfl, ?_⟩
    simpa [CandidateStats.recordOutcome, CandidateStats.new] using positive
  · simp only [List.foldl_cons, List.foldl_nil, Route.onStats, good, bad]
    refine ⟨rfl, ?_⟩
    have rate : alpha + (1 - alpha) * (1 - alpha) < 1 := by nlinarith
    simpa [CandidateStats.recordOutcome, CandidateStats.new] using rate

/-- Requests that were all answered leave nothing to record. -/
theorem settled_of_answered {server : Server ℝ}
    (answered : ∀ task ∈ server.tasks, ∃ route outbound completion,
      task.phase = .called ⟨route, outbound, .responded completion⟩) : Settled server := by
  intro task member
  obtain ⟨_, _, _, phase⟩ := answered task member
  rw [phase]
  rfl

/-- An answered and a refused request count twice, and both are in the statistics. -/
theorem run_accounted_served :
    ∃ app server, boot (some : Text → Option Text) none plainConfig = .ok app ∧
      Run (handler plainCodecs) app server ∧
      server.events.countP (Effect.isOutcomeOf 0) = 2 ∧
      server.shared.metrics.forwarded (fun labels => labels ∈ slotLabels app.modelMap 0) = 2 ∧
      server.shared.rrState.counters.lookup "fast".toList = some 2 ∧
      (server.shared.tracker.stats 0).nonstreamingEwmaMs = 5 ∧
      (server.shared.tracker.stats 0).successRate < 1 := by
  obtain ⟨app, server, candidate, first, second, answer, started, run, tasks, status, elapsed, -,
    -, slot, inBounds, -⟩ := exists_answered_refused
  have accounted := run_accounted started run
  have settled : Settled server := by
    apply settled_of_answered
    rw [tasks]
    simp
  refine ⟨app, server, started, run, ?_, ?_, ?_, ?_⟩
  · rw [accounted.outcomes settled, tasks]
    simp [Phase.completedOn, Phase.completed, Stage.completion, plainRoute, slot]
  · rw [accounted.metered settled, tasks]
    simp [Phase.completedOn, Phase.completed, Stage.completion, plainRoute, slot]
  · rw [accounted.ticks _ (List.mem_singleton_self _), tasks]
    rfl
  · obtain ⟨order, completed, stats⟩ := accounted.recorded settled 0 inBounds
    rw [tasks] at completed
    rw [stats]
    apply stats_of_answered status elapsed plainConfig_alpha.1 plainConfig_alpha.2
    simpa only [List.filterMap_cons, List.filterMap_nil, completionOn_plain slot] using completed

end Served

end Sturnus
