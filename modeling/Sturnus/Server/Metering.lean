import Sturnus.Server.Accounting

/-!
# What a scrape reports

Counting over the ledgers once more: the counters are the answers that the
clients were given, and the histograms hold one latency for each answer that was
relayed.
-/

namespace Sturnus

open Foundation Foundation.Http Foundation.Concurrent

section Kinds

namespace Effect

def isRejection : Effect → Bool
  | .bufferRejection => true
  | _ => false

/-- A request counted under labels and a status. -/
def isRequestOf (key : UpstreamLabels × Text) : Effect → Bool
  | .request labels status => (labels, status) == key
  | _ => false

def isErrorOf (key : UpstreamLabels) : Effect → Bool
  | .error labels => labels == key
  | _ => false

/-- The latency observed in the histogram of a mode. -/
def observation (mode : LatencyMode) : Effect → Option (UpstreamLabels × Duration)
  | .observe observed labels elapsed => if observed = mode then some (labels, elapsed) else none
  | _ => none

end Effect

/-- The histogram of a mode. -/
def Metrics.observations (metrics : Metrics) : LatencyMode → List (UpstreamLabels × Duration)
  | .streaming => metrics.ttfcSeconds
  | .nonStreaming => metrics.latencySeconds

namespace Phase

variable {F : Type} [Float64 F]

/-- Answered that the buffer budget is exhausted. -/
def isShed : Phase F → Bool
  | .rejected .budgetExhausted _ => true
  | _ => false

/-- The labels and the answer of a forwarded request. -/
def delivered : Phase F → Option (UpstreamLabels × Response F)
  | .called ⟨route, _, .responded completion⟩ => some (route.labels, route.response completion)
  | _ => none

/-- Answered with a relayed response, under labels and with a status. -/
def relayed (key : UpstreamLabels × Text) (phase : Phase F) : Bool :=
  phase.delivered.any fun (labels, response) =>
    match response.body with
    | .proxied _ => (labels, (toString response.status.code).toList) == key
    | _ => false

/-- Answered that the upstream with some labels has failed. -/
def failed (key : UpstreamLabels) (phase : Phase F) : Bool :=
  phase.delivered.any fun (labels, response) =>
    match response.body with
    | .error (.upstream _) => labels == key
    | _ => false

/-- How long the response that was relayed to a request of a mode took. -/
def timed (mode : LatencyMode) : Phase F → Option (UpstreamLabels × Duration)
  | .called ⟨route, _, .responded completion⟩ =>
      match completion.result with
      | .ok answer =>
          if route.mode = mode then some (route.labels, answer.latency.elapsed) else none
      | .error _ => none
  | _ => none

end Phase

end Kinds

section Replay

variable {F : Type} [Float64 F]

/-- What grows by one with the effects of a kind counts them. -/
theorem AppState.performAll_counts (app : AppState F) (value : AppState F → ℕ)
    (kind : Effect → Bool) (step : ∀ app effect,
      value (AppState.perform app effect) = value app + if kind effect then 1 else 0)
    (effects : List Effect) : value (app.performAll effects) = value app + effects.countP kind := by
  induction effects generalizing app with
  | nil => rfl
  | cons effect rest inductionHypothesis =>
      refine (inductionHypothesis _).trans ?_
      rw [step, List.countP_cons]
      omega

/-- What is appended to with some effects collects them in order. -/
theorem AppState.performAll_collects (app : AppState F) {Item : Type}
    (items : AppState F → List Item) (item : Effect → Option Item) (step : ∀ app effect,
      items (AppState.perform app effect) = items app ++ (item effect).toList)
    (effects : List Effect) :
    items (app.performAll effects) = items app ++ effects.filterMap item := by
  induction effects generalizing app with
  | nil => exact (List.append_nil _).symm
  | cons effect rest inductionHypothesis =>
      refine (inductionHypothesis _).trans ?_
      rw [step, List.append_assoc, List.filterMap_cons]
      cases item effect <;> rfl

theorem AppState.performAll_rejections (app : AppState F) (effects : List Effect) :
    (app.performAll effects).metrics.bufferRejectionsTotal =
      app.metrics.bufferRejectionsTotal + effects.countP Effect.isRejection := by
  apply app.performAll_counts (fun app => app.metrics.bufferRejectionsTotal) Effect.isRejection
  intro app effect
  cases effect with
  | observe mode => cases mode <;> rfl
  | bufferRejection | tick | latency | outcome | request | error => rfl

theorem AppState.performAll_requests (key : UpstreamLabels × Text) (app : AppState F)
    (effects : List Effect) :
    Counters.total (· == key) (app.performAll effects).metrics.requestsTotal =
      Counters.total (· == key) app.metrics.requestsTotal +
        effects.countP (Effect.isRequestOf key) := by
  apply app.performAll_counts (fun app => Counters.total (· == key) app.metrics.requestsTotal)
    (Effect.isRequestOf key)
  intro app effect
  cases effect with
  | request labels status => exact Counters.total_inc (· == key) (labels, status) _
  | observe mode => cases mode <;> rfl
  | bufferRejection | tick | latency | outcome | error => rfl

theorem AppState.performAll_errors (key : UpstreamLabels) (app : AppState F)
    (effects : List Effect) :
    Counters.total (· == key) (app.performAll effects).metrics.errorsTotal =
      Counters.total (· == key) app.metrics.errorsTotal +
        effects.countP (Effect.isErrorOf key) := by
  apply app.performAll_counts (fun app => Counters.total (· == key) app.metrics.errorsTotal)
    (Effect.isErrorOf key)
  intro app effect
  cases effect with
  | error labels => exact Counters.total_inc (· == key) labels _
  | observe mode => cases mode <;> rfl
  | bufferRejection | tick | latency | outcome | request => rfl

theorem AppState.performAll_observations (mode : LatencyMode) (app : AppState F)
    (effects : List Effect) :
    (app.performAll effects).metrics.observations mode =
      app.metrics.observations mode ++ effects.filterMap (Effect.observation mode) := by
  apply app.performAll_collects (fun app => app.metrics.observations mode)
    (Effect.observation mode)
  intro app effect
  cases effect with
  | observe observed =>
      cases observed <;> cases mode <;>
        simp [perform, Metrics.observe, Metrics.observations, Effect.observation]
  | bufferRejection | tick | latency | outcome | request | error =>
      cases mode <;> exact (List.append_nil _).symm

end Replay

section Due

/-- What is metered about a completion. -/
def Route.meters (route : Route) (completion : Completion) : List Effect :=
  match completion.result with
  | .ok answer =>
      [.request route.labels (toString answer.status.code).toList,
        .observe answer.latency.mode route.labels answer.latency.elapsed]
  | .error _ => [.error route.labels]

/-- Whatever is neither a latency nor an outcome is due as a metric. -/
theorem Route.countP_effects (route : Route) (completion : Completion) {kind : Effect → Bool}
    (latency : ∀ slot mode elapsed, kind (.latency slot mode elapsed) = false)
    (outcome : ∀ slot success, kind (.outcome slot success) = false) :
    (route.effects completion).countP kind = (route.meters completion).countP kind := by
  unfold effects meters
  cases completion.result with
  | error error => simp only [List.countP_cons_of_neg, outcome, Bool.false_eq_true,
      not_false_eq_true]
  | ok answer =>
      dsimp only
      split
      · simp only [List.cons_append, List.nil_append, List.countP_cons_of_neg, latency, outcome,
          Bool.false_eq_true, not_false_eq_true]
      · simp only [List.cons_append, List.nil_append, List.countP_cons_of_neg, outcome,
          Bool.false_eq_true, not_false_eq_true]

end Due

section Tasks

variable {F : Type} {app : AppState F} {phase : Phase F} {done : List Effect}

/-- A refusal is recorded when it is answered, and by no other request. -/
theorem Ledger.countP_rejection (ledger : Ledger app phase done) :
    done.countP Effect.isRejection = if phase.isShed then 1 else 0 := by
  obtain ⟨recorded, rfl, whole⟩ := ledger.recorded
  have closing : phase.closing.countP Effect.isRejection = 0 := by
    unfold Phase.closing
    cases phase.completed with
    | none => rfl
    | some completed =>
        refine (completed.1.countP_effects completed.2 (fun _ _ _ => rfl) fun _ _ => rfl).trans ?_
        unfold Route.meters
        split <;> rfl
  have ticked : (ticksOf phase.route).countP Effect.isRejection = 0 := by
    cases phase.route with
    | none => rfl
    | some route =>
        unfold ticksOf Route.ticks
        cases drawn : route.pinned <;> simp [drawn, Effect.isRejection]
  have refused : phase.refusal.countP Effect.isRejection = if phase.isShed then 1 else 0 := by
    cases phase with
    | rejected rejection route => cases rejection <;> rfl
    | received | buffering | observed | cancelled | called => rfl
  rw [← whole, List.countP_append] at closing
  rw [List.countP_append, Phase.opening, List.countP_append, refused, ticked]
  omega

/-- A settled request recorded what is metered about its answer, and nothing of the kind if it
was given none. -/
theorem Ledger.countP_metered [Float64 F] (ledger : Ledger app phase done)
    (settled : phase.isRecording = false) (kind : Effect → Bool)
    (refusal : kind .bufferRejection = false)
    (ticks : ∀ modelAlias, kind (.tick modelAlias) = false)
    (latency : ∀ slot mode elapsed, kind (.latency slot mode elapsed) = false)
    (outcome : ∀ slot success, kind (.outcome slot success) = false) :
    (∃ route outbound completion, phase = .called ⟨route, outbound, .responded completion⟩ ∧
      done.countP kind = (route.meters completion).countP kind) ∨
    (phase.delivered = none ∧ (∀ mode, phase.timed mode = none) ∧ done.countP kind = 0) := by
  have opening : phase.opening.countP kind = 0 := by
    apply List.countP_eq_zero.mpr
    intro effect member
    rcases mem_opening member with rfl | ⟨route, -, rfl⟩
    · simp [refusal]
    · simp [ticks]
  rw [ledger.done_eq settled, List.countP_append, opening, Nat.zero_add]
  cases phase with
  | called call =>
      obtain ⟨route, outbound, stage⟩ := call
      cases stage with
      | recording => cases settled
      | responded completion =>
          exact .inl ⟨route, outbound, completion, rfl,
            route.countP_effects completion latency outcome⟩
      | awaiting | cancelled => exact .inr ⟨rfl, fun _ => rfl, rfl⟩
  | received | buffering | rejected | observed | cancelled => exact .inr ⟨rfl, fun _ => rfl, rfl⟩

variable [Float64 F]

/-- A request is counted under the labels and the status of the response relayed to it. -/
theorem Ledger.countP_request (ledger : Ledger app phase done)
    (settled : phase.isRecording = false) (key : UpstreamLabels × Text) :
    done.countP (Effect.isRequestOf key) = if phase.relayed key then 1 else 0 := by
  rcases ledger.countP_metered settled (Effect.isRequestOf key) rfl (fun _ => rfl)
    (fun _ _ _ => rfl) (fun _ _ => rfl) with ⟨route, outbound, completion, rfl, count⟩ | silent
  · rw [count]
    obtain ⟨exchange, result⟩ := completion
    cases result with
    | error error => rfl
    | ok answer =>
        simp only [Route.meters, List.countP_cons, List.countP_nil]
        exact Nat.zero_add _
  · obtain ⟨undelivered, -, count⟩ := silent
    rw [count, Phase.relayed, undelivered]
    rfl

/-- An error is counted under the labels of the upstream that failed. -/
theorem Ledger.countP_error (ledger : Ledger app phase done)
    (settled : phase.isRecording = false) (key : UpstreamLabels) :
    done.countP (Effect.isErrorOf key) = if phase.failed key then 1 else 0 := by
  rcases ledger.countP_metered settled (Effect.isErrorOf key) rfl (fun _ => rfl)
    (fun _ _ _ => rfl) (fun _ _ => rfl) with ⟨route, outbound, completion, rfl, count⟩ | silent
  · rw [count]
    obtain ⟨exchange, result⟩ := completion
    cases result with
    | error error => exact List.countP_singleton
    | ok answer => rfl
  · obtain ⟨undelivered, -, count⟩ := silent
    rw [count, Phase.failed, undelivered]
    rfl

/-- A latency is observed in the histogram of the mode that the request asked for. -/
theorem Ledger.countP_observation (ledger : Ledger app phase done)
    (settled : phase.isRecording = false) (mode : LatencyMode)
    (sample : UpstreamLabels × Duration) :
    done.countP (fun effect => effect.observation mode == some sample) =
      if phase.timed mode == some sample then 1 else 0 := by
  rcases ledger.countP_metered settled (fun effect => effect.observation mode == some sample) rfl
      (fun _ => rfl) (fun _ _ _ => rfl) (fun _ _ => rfl) with
    ⟨route, outbound, completion, rfl, count⟩ | ⟨-, untimed, count⟩
  · have ended := ledger.ended route completion rfl
    rw [count]
    obtain ⟨exchange, result⟩ := completion
    cases result with
    | error error => rfl
    | ok answer =>
        have asked : answer.latency.mode = route.mode := forwardRequest_mode ended
        have timed : (Phase.called ⟨route, outbound, .responded ⟨exchange, .ok answer⟩⟩ :
            Phase F).timed mode = if answer.latency.mode = mode then
              some (route.labels, answer.latency.elapsed) else none := by
          rw [asked]
          rfl
        simp only [Route.meters, timed, List.countP_cons, List.countP_nil]
        exact Nat.zero_add _
  · rw [count, untimed]
    rfl

end Tasks

section Runs

variable {F Addr : Type} [Float64 F] [DecidableEq Addr] {Map : Type}

/-- The metrics are what the clients were answered, in every run from a boot: at any time every
429 of the proxy's own was counted, and once every completion was recorded each label triple has
the responses relayed with each status, a 429 or 502 of the upstream among them, and the 502 of the
proxy's own that were answered under it, and each histogram the latencies of the responses that
were relayed in its mode. -/
theorem metrics_match_answers {parseAddr : Text → Option Addr} {cgroupMemoryLimit : Option UInt64}
    {config : Config F} {app : AppState F}
    (started : boot parseAddr cgroupMemoryLimit config = .ok app) {codecs : Codecs Map}
    {server : Server F} (run : Run (handler codecs) app server) :
    server.shared.metrics.bufferRejectionsTotal =
      server.tasks.countP (fun task => task.phase.isShed) ∧
    (Settled server →
      (∀ key, Counters.total (· == key) server.shared.metrics.requestsTotal =
        server.tasks.countP fun task => task.phase.relayed key) ∧
      (∀ key, Counters.total (· == key) server.shared.metrics.errorsTotal =
        server.tasks.countP fun task => task.phase.failed key) ∧
      ∀ mode, (server.shared.metrics.observations mode).Perm
        (server.tasks.filterMap fun task => task.phase.timed mode)) := by
  have booted := booted_of_boot started
  have replayed := congrArg AppState.metrics (run_replays run)
  change server.shared.metrics = _ at replayed
  rw [replayed]
  constructor
  · rw [app.performAll_rejections, booted.metrics]
    refine (Nat.zero_add _).trans (run.countP_events_of_once _ ?_)
    intro i task found
    exact (run_ledger run found).countP_rejection
  · intro rest
    have settled : ∀ (i : ℕ) task, server.tasks[i]? = some task → task.phase.isRecording = false :=
      fun _ task found => rest task (List.mem_of_getElem? found)
    refine ⟨?_, ?_, ?_⟩
    · intro key
      rw [app.performAll_requests key, booted.metrics]
      refine (Nat.zero_add _).trans (run.countP_events_of_once _ ?_)
      intro i task found
      exact (run_ledger run found).countP_request (settled i task found) key
    · intro key
      have fresh : Counters.total (· == key) app.metrics.errorsTotal = 0 := by
        have zero := Metrics.forwarded_initZero (· == key) (app.modelMap.iter.map upstreamLabels)
        rw [← booted.metrics] at zero
        exact (Nat.add_eq_zero_iff.mp zero).2
      rw [app.performAll_errors key, fresh, Nat.zero_add]
      apply run.countP_events_of_once
      intro i task found
      exact (run_ledger run found).countP_error (settled i task found) key
    · intro mode
      have empty : app.metrics.observations mode = [] := by
        rw [booted.metrics]
        cases mode <;> rfl
      rw [app.performAll_observations mode, empty, List.nil_append]
      apply List.perm_iff_count.mpr
      intro sample
      rw [List.count_filterMap, List.count_filterMap]
      apply run.countP_events_of_once
      intro i task found
      exact (run_ledger run found).countP_observation (settled i task found) mode sample

end Runs

section Served

/-- The answer that was relayed is in the requests and in the histogram, the failure that the
client was told of in the errors. -/
theorem metrics_match_answers_served :
    ∃ (app : AppState ℝ) (server : Server ℝ),
      boot (some : Text → Option Text) none plainConfig = .ok app ∧
      Run (handler plainCodecs) app server ∧
      server.shared.metrics.bufferRejectionsTotal = 0 ∧
      Counters.total (· == (⟨"fast".toList, "openai".toList, "gpt-4o".toList⟩, "200".toList))
        server.shared.metrics.requestsTotal = 1 ∧
      Counters.total (· == ⟨"fast".toList, "openai".toList, "gpt-4o".toList⟩)
        server.shared.metrics.errorsTotal = 1 ∧
      server.shared.metrics.observations .nonStreaming =
        [(⟨"fast".toList, "openai".toList, "gpt-4o".toList⟩, .fromMillis 5)] := by
  obtain ⟨app, server, candidate, first, second, answer, started, run, tasks, status, elapsed,
    provider, model, -⟩ := exists_answered_refused
  obtain ⟨rejections, rest⟩ := metrics_match_answers started run
  have settled : Settled server := by
    apply settled_of_answered
    rw [tasks]
    simp
  obtain ⟨requests, errors, observed⟩ := rest settled
  have labels : (plainRoute candidate).labels =
      ⟨"fast".toList, "openai".toList, "gpt-4o".toList⟩ := by
    simp only [Route.labels, plainRoute, provider, model]
  refine ⟨app, server, started, run, ?_, ?_, ?_, ?_⟩
  · rw [rejections, tasks]
    rfl
  · have relayed : Phase.relayed (F := ℝ)
        (⟨"fast".toList, "openai".toList, "gpt-4o".toList⟩, "200".toList)
        (.called ⟨plainRoute candidate, some first, .responded ⟨emptyAnswer, .ok answer⟩⟩) =
          true := by
      simp only [Phase.relayed, Phase.delivered, Route.response, Option.any_some, labels, status]
      rfl
    rw [requests, tasks, List.countP_cons, relayed]
    rfl
  · rw [errors, tasks]
    simp [Phase.failed, Phase.delivered, Route.response, labels, jsonError]
  · have timed : Phase.timed (F := ℝ) .nonStreaming
        (.called ⟨plainRoute candidate, some first, .responded ⟨emptyAnswer, .ok answer⟩⟩) =
          some (⟨"fast".toList, "openai".toList, "gpt-4o".toList⟩, .fromMillis 5) := by
      simp only [Phase.timed, labels, elapsed]
      rfl
    have collected := observed .nonStreaming
    rw [tasks, List.filterMap_cons, timed] at collected
    exact List.perm_singleton.mp collected

end Served

end Sturnus
