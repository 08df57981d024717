import Sturnus.Foundation.Concurrent.Simulation
import Sturnus.ModelMap.Twins
import Sturnus.Server.Boot

/-!
# Twin states

The states of two processes that read the same configuration, but whose hash
maps iterate in different orders: they agree up to the numbers of the slots.
-/

namespace Sturnus

open Foundation Foundation.Http Foundation.Concurrent

variable {F Addr : Type} [Float64 F] {Map : Type}

section Relations

/-- The same candidate in two maps, each with a slot of its own. -/
structure ModelMap.Twin (left right : ModelMap) (candidate other : ResolvedCandidate) : Prop where
  inLeft : candidate ∈ left.candidates
  inRight : other ∈ right.candidates
  same : candidate.unslotted = other.unslotted

structure Tracker.Twins (maps : ModelMap × ModelMap) (tracker other : Tracker F) : Prop where
  alpha : tracker.alpha = other.alpha
  threshold : tracker.errorThreshold = other.errorThreshold
  inBounds : ∀ candidate twin, maps.1.Twin maps.2 candidate twin →
    tracker.InBounds candidate.statsIndex ∧ other.InBounds twin.statsIndex
  stats : ∀ candidate twin, maps.1.Twin maps.2 candidate twin →
    tracker.stats candidate.statsIndex = other.stats twin.statsIndex

/-- The same series with the same values. -/
structure Metrics.Twins (metrics other : Metrics) : Prop where
  requestsTotal : metrics.requestsTotal = other.requestsTotal
  ttfcSeconds : metrics.ttfcSeconds = other.ttfcSeconds
  latencySeconds : metrics.latencySeconds = other.latencySeconds
  /-- The counters that a boot initialises, in whatever order. -/
  errorsTotal : ∀ labels, metrics.errorsTotal.lookup labels = other.errorsTotal.lookup labels
  bufferRejectionsTotal : metrics.bufferRejectionsTotal = other.bufferRejectionsTotal

structure AppState.Twins (maps : ModelMap × ModelMap) (app other : AppState F) : Prop where
  map : app.modelMap = maps.1
  mapRight : other.modelMap = maps.2
  tracker : app.tracker.Twins maps other.tracker
  counters : ∀ modelAlias,
    app.rrState.counters.lookup modelAlias = other.rrState.counters.lookup modelAlias
  exploitK : app.exploitK = other.exploitK
  gcpTokenProvider : app.gcpTokenProvider = other.gcpTokenProvider
  budget : app.budget = other.budget
  metrics : app.metrics.Twins other.metrics
  shuttingDown : app.shuttingDown = other.shuttingDown

structure Route.Twins (maps : ModelMap × ModelMap) (route other : Route) : Prop where
  modelAlias : route.modelAlias = other.modelAlias
  candidate : maps.1.Twin maps.2 route.candidate other.candidate
  pinned : route.pinned = other.pinned
  isStreaming : route.isStreaming = other.isStreaming

inductive Effect.Twins (maps : ModelMap × ModelMap) : Effect → Effect → Prop where
  | bufferRejection : Twins maps .bufferRejection .bufferRejection
  | tick (modelAlias : Text) : Twins maps (.tick modelAlias) (.tick modelAlias)
  | latency {candidate other : ResolvedCandidate} (twin : maps.1.Twin maps.2 candidate other)
      (mode : LatencyMode) (observed : Duration) :
      Twins maps (.latency candidate.statsIndex mode observed)
        (.latency other.statsIndex mode observed)
  | outcome {candidate other : ResolvedCandidate} (twin : maps.1.Twin maps.2 candidate other)
      (success : Bool) :
      Twins maps (.outcome candidate.statsIndex success) (.outcome other.statsIndex success)
  | request (labels : UpstreamLabels) (status : Text) :
      Twins maps (.request labels status) (.request labels status)
  | error (labels : UpstreamLabels) : Twins maps (.error labels) (.error labels)
  | observe (mode : LatencyMode) (labels : UpstreamLabels) (observed : Duration) :
      Twins maps (.observe mode labels observed) (.observe mode labels observed)

/-- The aliases that an error lists come in the order of a hash map. -/
inductive Rejection.Twins : Rejection → Rejection → Prop where
  | same (rejection : Rejection) : Twins rejection rejection
  | unknownAlias (modelAlias : Text) {available others : List Text} :
      available.Perm others →
      Twins (.unknownAlias modelAlias available) (.unknownAlias modelAlias others)

inductive ResponseBody.Twins : ResponseBody F → ResponseBody F → Prop where
  | same (body : ResponseBody F) : Twins body body
  | error {rejection other : Rejection} : rejection.Twins other →
      Twins (.error rejection) (.error other)
  | status {entries others : List (CandidateStatus F)} : entries.Perm others →
      Twins (.status entries) (.status others)

structure Response.Twins (response other : Response F) : Prop where
  status : response.status = other.status
  headers : response.headers = other.headers
  body : response.body.Twins other.body

inductive Stage.Twins (maps : ModelMap × ModelMap) : Stage → Stage → Prop where
  | awaiting : Twins maps .awaiting .awaiting
  | recording (completion : Completion) {remaining others : List Effect} :
      List.Forall₂ (Effect.Twins maps) remaining others →
      Twins maps (.recording completion remaining) (.recording completion others)
  | responded (completion : Completion) : Twins maps (.responded completion) (.responded completion)
  | cancelled : Twins maps .cancelled .cancelled

inductive Phase.Twins (maps : ModelMap × ModelMap) : Phase F → Phase F → Prop where
  | received : Twins maps .received .received
  | buffering (permit : Permit) : Twins maps (.buffering permit) (.buffering permit)
  | rejected {rejection other : Rejection} {route twin : Option Route} :
      rejection.Twins other → Option.Rel (Route.Twins maps) route twin →
      Twins maps (.rejected rejection route) (.rejected other twin)
  | observed {response other : Response F} : response.Twins other →
      Twins maps (.observed response) (.observed other)
  | cancelled : Twins maps .cancelled .cancelled
  | called {route twin : Route} {stage other : Stage} (outbound : Option OutboundBody) :
      route.Twins maps twin → stage.Twins maps other →
      Twins maps (.called ⟨route, outbound, stage⟩) (.called ⟨twin, outbound, other⟩)

/-- Two results of an advance. -/
structure Advanced.Twins (maps : ModelMap × ModelMap)
    (result other : AppState F × Phase F × List Effect) : Prop where
  app : result.1.Twins maps other.1
  phase : result.2.1.Twins maps other.2.1
  effects : List.Forall₂ (Effect.Twins maps) result.2.2 other.2.2

end Relations

section Candidates

variable {left right : ModelMap} {candidate other : ResolvedCandidate}

/-- Whatever does not look at slots sees no difference. -/
theorem ModelMap.Twin.view {View : Type} (twin : left.Twin right candidate other)
    (view : ResolvedCandidate → View)
    (blind : ∀ candidate, view candidate.unslotted = view candidate := by exact fun _ => rfl) :
    view candidate = view other := by
  rw [← blind candidate, twin.same, blind]

/-- Candidates with the same names have the same slot, in either map. -/
theorem ModelMap.Twins.slot_iff (twins : left.Twins right) {first second : ResolvedCandidate}
    (twin : left.Twin right candidate other) (twinToo : left.Twin right first second) :
    candidate.statsIndex = first.statsIndex ↔ other.statsIndex = second.statsIndex := by
  rw [twins.named _ twin.inLeft _ twinToo.inLeft, twin.view ResolvedCandidate.pair,
    twinToo.view ResolvedCandidate.pair, twins.namedRight _ twin.inRight _ twinToo.inRight]

theorem forall₂_of_unslotted {candidates others : List ResolvedCandidate}
    (same : candidates.map ResolvedCandidate.unslotted = others.map ResolvedCandidate.unslotted)
    (inLeft : ∀ candidate ∈ candidates, candidate ∈ left.candidates)
    (inRight : ∀ candidate ∈ others, candidate ∈ right.candidates) :
    List.Forall₂ (left.Twin right) candidates others := by
  induction candidates generalizing others with
  | nil =>
      rw [List.map_nil, eq_comm, List.map_eq_nil_iff] at same
      rw [same]
      exact .nil
  | cons candidate rest inductionHypothesis =>
      cases others with
      | nil => cases same
      | cons other others =>
          obtain ⟨head, tail⟩ := List.cons_eq_cons.mp same
          obtain ⟨first, later⟩ := List.forall_mem_cons.mp inLeft
          obtain ⟨firstRight, laterRight⟩ := List.forall_mem_cons.mp inRight
          exact .cons ⟨first, firstRight, head⟩ (inductionHypothesis tail later laterRight)

theorem ModelMap.Twins.get (twins : left.Twins right) (modelAlias : Text) :
    Option.Rel (List.Forall₂ (left.Twin right)) (left.get modelAlias) (right.get modelAlias) := by
  have same := twins.same modelAlias
  cases found : left.get modelAlias with
  | none =>
      rw [found, Option.map_none, eq_comm, Option.map_eq_none_iff] at same
      rw [same]
      exact .none
  | some candidates =>
      rw [found, Option.map_some, eq_comm, Option.map_eq_some_iff] at same
      obtain ⟨others, foundRight, same⟩ := same
      rw [foundRight]
      exact .some (forall₂_of_unslotted same.symm
        (fun _ member => ModelMap.mem_candidates_of_get found member)
        (fun _ member => ModelMap.mem_candidates_of_get foundRight member))

theorem ModelMap.Twins.aliasNames (twins : left.Twins right) :
    left.aliasNames.Perm right.aliasNames := by
  apply (List.perm_ext_iff_of_nodup left.aliases.keys_nodup right.aliases.keys_nodup).mpr
  intro modelAlias
  have known : (left.get modelAlias).isSome = (right.get modelAlias).isSome := by
    have same := congrArg Option.isSome (twins.same modelAlias)
    simpa using same
  rw [← AList.mem_keys, ← AList.mem_keys, ← AList.lookup_isSome, ← AList.lookup_isSome]
  exact Iff.of_eq (congrArg (· = true) known)

end Candidates

section Routing

variable {maps : ModelMap × ModelMap} {app other : AppState F}

theorem Route.Twins.labels {route twin : Route} (twins : route.Twins maps twin) :
    route.labels = twin.labels := by
  rw [Route.labels, Route.labels, twins.modelAlias,
    twins.candidate.view ResolvedCandidate.providerName,
    twins.candidate.view ResolvedCandidate.model]

theorem Route.Twins.ticks {route twin : Route} (twins : route.Twins maps twin) :
    List.Forall₂ (Effect.Twins maps) route.ticks twin.ticks := by
  unfold Route.ticks
  rw [← twins.pinned, ← twins.modelAlias]
  split
  · exact .nil
  · exact .cons (.tick _) .nil

theorem ticksOf_twins {route twin : Option Route}
    (twins : Option.Rel (Route.Twins maps) route twin) :
    List.Forall₂ (Effect.Twins maps) (ticksOf route) (ticksOf twin) := by
  cases twins with
  | none => exact .nil
  | some twins => exact twins.ticks

/-- The same is due for a completion, each time on the slot of the candidate. -/
theorem Route.Twins.effects {route twin : Route} (twins : route.Twins maps twin)
    (completion : Completion) :
    List.Forall₂ (Effect.Twins maps) (route.effects completion) (twin.effects completion) := by
  unfold Route.effects
  rw [twins.labels]
  cases completion.result with
  | error error => exact .cons (.outcome twins.candidate _) (.cons (.error _) .nil)
  | ok answer =>
      dsimp only
      split
      · exact .cons (.latency twins.candidate _ _) (.cons (.outcome twins.candidate _)
          (.cons (.request _ _) (.cons (.observe _ _ _) .nil)))
      · exact .cons (.outcome twins.candidate _)
          (.cons (.request _ _) (.cons (.observe _ _ _) .nil))

omit [Float64 F] in
theorem Route.Twins.response {route twin : Route} (twins : route.Twins maps twin)
    (completion : Completion) :
    (route.response completion : Response F) = twin.response completion := by
  unfold Route.response
  dsimp only
  rw [twins.candidate.view ResolvedCandidate.providerHeader,
    twins.candidate.view ResolvedCandidate.affinityHeader]

/-- The same name is found, and is degraded or not in both. -/
theorem pinned_twins {tracker trackerRight : Tracker F}
    (twins : tracker.Twins maps trackerRight) {candidates others : List ResolvedCandidate}
    (related : List.Forall₂ (maps.1.Twin maps.2) candidates others) (header : Option HeaderValue) :
    Option.Rel (maps.1.Twin maps.2) (pinned tracker candidates header)
      (pinned trackerRight others header) := by
  apply rel_filter
  · unfold affinityCandidate
    cases parseAffinity header with
    | none => exact .none
    | some name =>
        apply rel_find? related
        intro candidate twin both
        rw [both.view ResolvedCandidate.providerName, both.view ResolvedCandidate.model]
  · intro candidate twin both
    rw [Tracker.isDegraded, Tracker.isDegraded, twins.threshold, twins.stats candidate twin both]

/-- Counters that agree draw the same tick and agree afterwards. -/
theorem nextTick_twins {rr other : RoundRobinState}
    (same : ∀ modelAlias, rr.counters.lookup modelAlias = other.counters.lookup modelAlias)
    (drawn : Text) :
    (rr.nextTick drawn).1 = (other.nextTick drawn).1 ∧
      ∀ modelAlias, (rr.nextTick drawn).2.counters.lookup modelAlias =
        (other.nextTick drawn).2.counters.lookup modelAlias := by
  cases found : other.counters.lookup drawn with
  | none =>
      have unregistered := (same drawn).trans found
      rw [RoundRobinState.nextTick, RoundRobinState.nextTick, unregistered, found]
      exact ⟨rfl, same⟩
  | some tick =>
      have registered := (same drawn).trans found
      rw [RoundRobinState.nextTick_of_lookup found, RoundRobinState.nextTick_of_lookup registered]
      refine ⟨rfl, ?_⟩
      intro modelAlias
      by_cases here : modelAlias = drawn
      · rw [here, AList.lookup_insert, AList.lookup_insert]
      · rw [AList.lookup_insert_ne here, AList.lookup_insert_ne here]
        exact same modelAlias

theorem candidateWeights_twins {tracker trackerRight : Tracker F}
    (twins : tracker.Twins maps trackerRight) {candidates others : List ResolvedCandidate}
    (related : List.Forall₂ (maps.1.Twin maps.2) candidates others) (k : F) (mode : LatencyMode) :
    candidateWeights candidates tracker k mode = candidateWeights others trackerRight k mode := by
  have same : candidates.map (fun candidate => tracker.stats candidate.statsIndex) =
      others.map fun candidate => trackerRight.stats candidate.statsIndex := by
    induction related with
    | nil => rfl
    | cons both _ inductionHypothesis =>
        rw [List.map_cons, List.map_cons, inductionHypothesis, twins.stats _ _ both]
  rw [candidateWeights, candidateWeights, same]

/-- The same position is selected, by the same tick. -/
theorem selectCandidate_twins (twins : app.Twins maps other)
    {candidates others : List ResolvedCandidate}
    (related : List.Forall₂ (maps.1.Twin maps.2) candidates others) (modelAlias : Text)
    (mode : LatencyMode) :
    (selectCandidate modelAlias candidates app.tracker app.rrState app.exploitK mode).1 =
        (selectCandidate modelAlias others other.tracker other.rrState other.exploitK mode).1 ∧
      ∀ name, (selectCandidate modelAlias candidates app.tracker app.rrState app.exploitK
          mode).2.counters.lookup name =
        (selectCandidate modelAlias others other.tracker other.rrState other.exploitK
          mode).2.counters.lookup name := by
  have weights := candidateWeights_twins twins.tracker related app.exploitK mode
  obtain ⟨tick, counters⟩ := nextTick_twins twins.counters modelAlias
  cases related with
  | nil =>
      simp only [selectCandidate, List.isEmpty_nil, if_true]
      exact ⟨trivial, twins.counters⟩
  | cons first rest =>
      simp only [selectCandidate_of_ne_nil (List.cons_ne_nil _ _)]
      rw [weights, tick, twins.exploitK]
      exact ⟨rfl, counters⟩

/-- A request is given the same candidate, pinned or selected. -/
theorem chooseCandidate_twins (twins : app.Twins maps other)
    {candidates others : List ResolvedCandidate}
    (related : List.Forall₂ (maps.1.Twin maps.2) candidates others) (header : Option HeaderValue)
    (modelAlias : Text) (isStreaming : Bool) :
    Option.Rel (Route.Twins maps)
        (chooseCandidate app header modelAlias candidates isStreaming).1
        (chooseCandidate other header modelAlias others isStreaming).1 ∧
      ∀ name, (chooseCandidate app header modelAlias candidates isStreaming).2.counters.lookup
          name =
        (chooseCandidate other header modelAlias others isStreaming).2.counters.lookup name := by
  obtain ⟨position, counters⟩ :=
    selectCandidate_twins twins related modelAlias (.ofStreaming isStreaming)
  have pins := pinned_twins twins.tracker related header
  unfold chooseCandidate
  generalize pinned app.tracker candidates header = pin at pins
  generalize pinned other.tracker others header = pinRight at pins
  cases pins with
  | some both => exact ⟨.some ⟨rfl, both, rfl, rfl⟩, twins.counters⟩
  | none =>
      have chosen : ∀ selected : Option ℕ, Option.Rel (maps.1.Twin maps.2)
          (selected.bind fun index => candidates[index]?)
          (selected.bind fun index => others[index]?) := by
        intro selected
        cases selected with
        | none => exact .none
        | some index => exact rel_getElem? related index
      dsimp only
      rw [position]
      refine ⟨rel_map (chosen _) ?_, counters⟩
      intro candidate twin both
      exact ⟨rfl, both, rfl, rfl⟩

end Routing

end Sturnus
