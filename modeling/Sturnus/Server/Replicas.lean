import Sturnus.Server.Ledger
import Sturnus.Server.Solo
import Sturnus.Server.Twins

/-!
# Replicas

Two processes read the same configuration, and their hash maps iterate in
different orders.  They number their slots differently, and nothing else that
a client or a scrape can see depends on it.
-/

namespace Sturnus

open Foundation Foundation.Http Foundation.Concurrent

variable {F Addr : Type} [Float64 F] {Map : Type}

/-- Equal series are written in the same way: the text format sorts them. -/
def Codecs.Sorted (codecs : Codecs Map) : Prop :=
  ∀ metrics other, metrics.Twins other → codecs.encodeMetrics metrics = codecs.encodeMetrics other

section Effects

variable {maps : ModelMap × ModelMap} {app other : AppState F}

/-- Updating the slot that each side has given to a candidate. -/
theorem Tracker.Twins.modify {tracker trackerRight : Tracker F} (related : maps.1.Twins maps.2)
    (twins : tracker.Twins maps trackerRight) {candidate twin : ResolvedCandidate}
    (both : maps.1.Twin maps.2 candidate twin) (f : CandidateStats F → CandidateStats F) :
    (tracker.modify candidate.statsIndex f).Twins maps (trackerRight.modify twin.statsIndex f) where
  alpha := twins.alpha
  threshold := twins.threshold
  inBounds first second others := by
    simpa [Tracker.InBounds] using twins.inBounds first second others
  stats first second others := by
    obtain ⟨inside, insideRight⟩ := twins.inBounds _ _ both
    by_cases here : first.statsIndex = candidate.statsIndex
    · have hereRight := (related.slot_iff others both).mp here
      rw [here, hereRight, tracker.stats_modify_self inside,
        trackerRight.stats_modify_self insideRight, twins.stats _ _ both]
    · have elsewhere := mt (related.slot_iff others both).mpr here
      rw [tracker.stats_modify_of_ne _ here, trackerRight.stats_modify_of_ne _ elsewhere,
        twins.stats _ _ others]

theorem perform_twins (related : maps.1.Twins maps.2) (twins : app.Twins maps other)
    {effect twin : Effect} (same : effect.Twins maps twin) :
    (app.perform effect).Twins maps (other.perform twin) := by
  cases same with
  | bufferRejection =>
      exact { twins with
        metrics := { twins.metrics with
          bufferRejectionsTotal := congrArg (· + 1) twins.metrics.bufferRejectionsTotal } }
  | tick modelAlias =>
      exact { twins with counters := (nextTick_twins twins.counters modelAlias).2 }
  | latency both mode observed =>
      have updated := twins.tracker.modify related both fun stats =>
        stats.updateEwma mode (UInt64.ofNat observed.asMillis) other.tracker.alpha
      refine { twins with tracker := ?_ }
      unfold AppState.perform Tracker.updateEwma
      rw [twins.tracker.alpha]
      exact updated
  | outcome both success =>
      have updated := twins.tracker.modify related both fun stats =>
        stats.recordOutcome success other.tracker.alpha
      refine { twins with tracker := ?_ }
      unfold AppState.perform Tracker.recordOutcome
      rw [twins.tracker.alpha]
      exact updated
  | request labels status =>
      exact { twins with
        metrics := { twins.metrics with
          requestsTotal := congrArg (Counters.inc · (labels, status))
            twins.metrics.requestsTotal } }
  | error labels =>
      exact { twins with
        metrics := { twins.metrics with
          errorsTotal := Counters.lookup_add_congr twins.metrics.errorsTotal 1 labels } }
  | observe mode labels observed =>
      cases mode with
      | streaming =>
          exact { twins with
            metrics := { twins.metrics with
              ttfcSeconds := congrArg (· ++ [(labels, observed)]) twins.metrics.ttfcSeconds } }
      | nonStreaming =>
          exact { twins with
            metrics := { twins.metrics with
              latencySeconds := congrArg (· ++ [(labels, observed)])
                twins.metrics.latencySeconds } }

end Effects

section Answers

variable {maps : ModelMap × ModelMap} {app other : AppState F}

theorem Rejection.Twins.effects {rejection twin : Rejection} (twins : rejection.Twins twin) :
    rejection.effects = twin.effects := by
  cases twins with
  | same => rfl
  | unknownAlias => rfl

omit [Float64 F] in
theorem Rejection.Twins.response {rejection twin : Rejection} (twins : rejection.Twins twin) :
    (jsonError rejection : Response F).Twins (jsonError twin) := by
  cases twins with
  | same => exact ⟨rfl, rfl, .same _⟩
  | unknownAlias modelAlias others => exact ⟨rfl, rfl, .error (.unknownAlias modelAlias others)⟩

/-- Every candidate has a twin. -/
theorem ModelMap.Twins.exists_twin {left right : ModelMap} (twins : left.Twins right) :
    (∀ candidate ∈ left.candidates, ∃ other, left.Twin right candidate other) ∧
      ∀ other ∈ right.candidates, ∃ candidate, left.Twin right candidate other := by
  constructor
  · intro candidate member
    obtain ⟨entry, inside, member⟩ := List.mem_flatMap.mp member
    have found : left.get entry.1 = some entry.2 := AList.mem_lookup_iff.mpr inside
    obtain ⟨others, -, related⟩ := exists_of_some_rel (found ▸ twins.get entry.1)
    obtain ⟨other, -, twin⟩ := exists_related related member
    exact ⟨other, twin⟩
  · intro other member
    obtain ⟨entry, inside, member⟩ := List.mem_flatMap.mp member
    have found : right.get entry.1 = some entry.2 := AList.mem_lookup_iff.mpr inside
    obtain ⟨candidates, -, related⟩ := exists_of_rel_some (found ▸ twins.get entry.1)
    obtain ⟨candidate, -, twin⟩ := exists_related related.flip member
    exact ⟨candidate, twin⟩

theorem candidateStatus_twins {tracker trackerRight : Tracker F}
    (twins : tracker.Twins maps trackerRight) {candidate twin : ResolvedCandidate}
    (both : maps.1.Twin maps.2 candidate twin) :
    candidateStatus tracker candidate = candidateStatus trackerRight twin := by
  unfold candidateStatus Tracker.isDegraded
  rw [twins.stats _ _ both, twins.threshold, both.view ResolvedCandidate.providerName,
    both.view ResolvedCandidate.model]

/-- The same statistics are listed, in the order of either hash map. -/
theorem buildStatusResponse_twins {tracker trackerRight : Tracker F}
    (related : maps.1.Twins maps.2) (twins : tracker.Twins maps trackerRight) :
    (buildStatusResponse tracker maps.1.iter).Perm
      (buildStatusResponse trackerRight maps.2.iter) := by
  have named : SlotsNamePairs (maps.1.iter.map Prod.snd) := by
    rw [ModelMap.iter_snd]
    exact related.named
  have namedRight : SlotsNamePairs (maps.2.iter.map Prod.snd) := by
    rw [ModelMap.iter_snd]
    exact related.namedRight
  apply (List.perm_ext_iff_of_nodup (.of_map _ (nodup_statusEntries named ∅))
    (.of_map _ (nodup_statusEntries namedRight ∅))).mpr
  intro status
  change status ∈ buildStatusResponse _ _ ↔ status ∈ buildStatusResponse _ _
  rw [mem_buildStatusResponse named, mem_buildStatusResponse namedRight, ModelMap.iter_snd,
    ModelMap.iter_snd]
  constructor
  · rintro ⟨candidate, member, same⟩
    obtain ⟨other, twin⟩ := related.exists_twin.1 candidate member
    exact ⟨other, twin.inRight, (candidateStatus_twins twins twin).symm.trans same⟩
  · rintro ⟨other, member, same⟩
    obtain ⟨candidate, twin⟩ := related.exists_twin.2 other member
    exact ⟨candidate, twin.inLeft, (candidateStatus_twins twins twin).trans same⟩

theorem observabilityGet_twins {codecs : Codecs Map} (sorted : codecs.Sorted)
    (related : maps.1.Twins maps.2) (twins : app.Twins maps other) (path : Text) :
    Option.Rel Response.Twins (observabilityGet codecs path app)
      (observabilityGet codecs path other) := by
  unfold observabilityGet
  rw [twins.shuttingDown, twins.map, twins.mapRight]
  split
  next health => split <;> exact .some ⟨rfl, rfl, .same _⟩
  next noHealth =>
      split
      next status =>
          exact .some ⟨rfl, rfl, .status (buildStatusResponse_twins related twins.tracker)⟩
      next noStatus =>
          split
          next metrics =>
              rw [encodeMetricsResponse, encodeMetricsResponse, sorted _ _ twins.metrics]
              split <;> exact .some ⟨rfl, rfl, .same _⟩
          next noMetrics => exact .none

end Answers

section Steps

variable {codecs : Codecs Map} {maps : ModelMap × ModelMap} {app other : AppState F}

theorem performAll_twins (related : maps.1.Twins maps.2) (twins : app.Twins maps other)
    {effects others : List Effect} (same : List.Forall₂ (Effect.Twins maps) effects others) :
    (effects.foldl AppState.perform app).Twins maps (others.foldl AppState.perform other) := by
  induction same generalizing app other with
  | nil => exact twins
  | cons first _ inductionHypothesis =>
      exact inductionHypothesis (perform_twins related twins first)

theorem Rejection.effects_twins (rejection : Rejection) :
    List.Forall₂ (Effect.Twins maps) rejection.effects rejection.effects := by
  unfold Rejection.effects
  split
  · exact .cons .bufferRejection .nil
  · exact .nil

theorem AppState.Twins.setBudget (twins : app.Twins maps other) (budget : BufferBudget) :
    (app.setBudget budget).Twins maps (other.setBudget budget) :=
  { twins with budget := rfl }

theorem AppState.Twins.release (twins : app.Twins maps other) (permit : Permit) :
    (app.release permit).Twins maps (other.release permit) := by
  unfold AppState.release
  rw [twins.budget]
  exact twins.setBudget _

theorem AppState.Twins.dropBody (twins : app.Twins maps other) (body : OutboundBody) :
    (app.dropBody body).Twins maps (other.dropBody body) := by
  unfold AppState.dropBody
  split
  · exact twins.release _
  · exact twins

theorem advanceReceived_twins (sorted : codecs.Sorted) (related : maps.1.Twins maps.2)
    (twins : app.Twins maps other) (request : Request) :
    Advanced.Twins maps (advanceReceived codecs app request)
      (advanceReceived codecs other request) := by
  have rejected : ∀ rejection : Rejection, Advanced.Twins maps
      (rejection.effects.foldl AppState.perform app, .rejected rejection none, rejection.effects)
      (rejection.effects.foldl AppState.perform other, .rejected rejection none,
        rejection.effects) := by
    intro rejection
    exact ⟨performAll_twins related twins rejection.effects_twins, .rejected (.same _) .none,
      rejection.effects_twins⟩
  unfold advanceReceived admission
  cases request.method with
  | get =>
      have observed := observabilityGet_twins sorted related twins request.path
      dsimp only
      generalize observabilityGet codecs request.path app = answer at observed
      generalize observabilityGet codecs request.path other = answerRight at observed
      cases observed with
      | none => exact rejected _
      | some same => exact ⟨twins, .observed same, .nil⟩
  | other => exact rejected _
  | post =>
      cases request.declaredLen with
      | none => exact rejected _
      | some declaredLen =>
          dsimp only
          rw [twins.budget]
          by_cases tooLarge : other.budget.maxBodyBytes < declaredLen
          · simp only [if_pos tooLarge]
            exact rejected _
          · simp only [if_neg tooLarge]
            cases other.budget.reserve declaredLen with
            | none => exact rejected _
            | some reserved => exact ⟨twins.setBudget _, .buffering _, .nil⟩

/-- The same body names the same alias, whose candidates are twins. -/
theorem readBody_twins (json : SerdeJson Map) (related : maps.1.Twins maps.2)
    (twins : app.Twins maps other) (read : Except BodyError (List UInt8)) :
    RelExcept Rejection.Twins
      (fun left right => left.1 = right.1 ∧ left.2.1 = right.2.1 ∧
        List.Forall₂ (maps.1.Twin maps.2) left.2.2 right.2.2)
      (readBody json app read) (readBody json other read) := by
  unfold readBody
  rw [twins.budget, twins.map, twins.mapRight]
  apply RelExcept.bind .same
  intro bytes
  apply RelExcept.bind .same
  intro body
  apply RelExcept.bind .same
  intro modelAlias
  have found := related.get modelAlias
  generalize maps.1.get modelAlias = candidates at found
  generalize maps.2.get modelAlias = others at found
  cases found with
  | none => exact .error (.unknownAlias modelAlias related.aliasNames)
  | some both => exact .ok ⟨rfl, rfl, both⟩

inductive Routed.Twins (maps : ModelMap × ModelMap) : Routed → Routed → Prop where
  | rejected {rejection other : Rejection} {route twin : Option Route} : rejection.Twins other →
      Option.Rel (Route.Twins maps) route twin →
      Twins maps (.rejected rejection route) (.rejected other twin)
  | forwarding {route twin : Route} (outbound : OutboundBody) : route.Twins maps twin →
      Twins maps (.forwarding route outbound) (.forwarding twin outbound)

theorem routeBody_twins (json : SerdeJson Map) (related : maps.1.Twins maps.2)
    (twins : app.Twins maps other) (header : Option HeaderValue) (permit : Permit)
    (read : Except BodyError (List UInt8)) :
    (routeBody json app header permit read).1.Twins maps
        (routeBody json other header permit read).1 ∧
      ∀ name, (routeBody json app header permit read).2.counters.lookup name =
        (routeBody json other header permit read).2.counters.lookup name := by
  have readings := readBody_twins json related twins read
  unfold routeBody
  generalize readBody json app read = reading at readings
  generalize readBody json other read = readingRight at readings
  cases readings with
  | error same => exact ⟨.rejected same .none, twins.counters⟩
  | @ok left right same =>
      obtain ⟨body, modelAlias, candidates⟩ := left
      obtain ⟨bodyRight, aliasRight, others⟩ := right
      obtain ⟨rfl, rfl, both⟩ := same
      obtain ⟨chosen, counters⟩ := chooseCandidate_twins twins both header modelAlias
        ((body.getAs json.parseBool streamKey).getD false)
      dsimp only at chosen counters ⊢
      generalize chooseCandidate app header modelAlias candidates _ = choice at chosen counters
      generalize chooseCandidate other header modelAlias others _ = choiceRight at chosen counters
      obtain ⟨route, rr⟩ := choice
      obtain ⟨routeRight, rrRight⟩ := choiceRight
      cases chosen with
      | none => exact ⟨.rejected (.same _) .none, counters⟩
      | some routes =>
          dsimp only
          rw [routes.candidate.view ResolvedCandidate.model,
            routes.candidate.view ResolvedCandidate.attributionLabels]
          split
          · exact ⟨.rejected (.same _) (.some routes), counters⟩
          · exact ⟨.forwarding _ routes, counters⟩

theorem advanceCollected_twins (related : maps.1.Twins maps.2) (twins : app.Twins maps other)
    (request : Request) (permit : Permit) (read : Except BodyError (List UInt8)) :
    Advanced.Twins maps (advanceCollected codecs app request permit read)
      (advanceCollected codecs other request permit read) := by
  obtain ⟨routed, counters⟩ :=
    routeBody_twins codecs.json related twins request.affinityHeader permit read
  unfold advanceCollected
  generalize routeBody codecs.json app request.affinityHeader permit read = left
    at routed counters
  generalize routeBody codecs.json other request.affinityHeader permit read = right
    at routed counters
  obtain ⟨routedLeft, rrLeft⟩ := left
  obtain ⟨routedRight, rrRight⟩ := right
  have moved : ({ app with rrState := rrLeft } : AppState F).Twins maps
      { other with rrState := rrRight } := { twins with counters := counters }
  cases routed with
  | rejected same routes =>
      exact ⟨moved.release permit, .rejected same routes, ticksOf_twins routes⟩
  | forwarding outbound routes =>
      exact ⟨moved, .called (some outbound) routes .awaiting, routes.ticks⟩

/-- The same input lets the call of a twin do the same. -/
theorem advanceCall_twins (related : maps.1.Twins maps.2) (twins : app.Twins maps other)
    {route twin : Route} (routes : route.Twins maps twin) (outbound : Option OutboundBody)
    {stage stageRight : Stage} (stages : stage.Twins maps stageRight) (input : Input) :
    Option.Rel (Advanced.Twins maps)
      ((advanceCall app ⟨route, outbound, stage⟩ input).map fun (app, call, effects) =>
        (app, .called call, effects))
      ((advanceCall other ⟨twin, outbound, stageRight⟩ input).map fun (app, call, effects) =>
        (app, .called call, effects)) := by
  cases input with
  | exchanged exchange =>
      cases stages with
      | awaiting =>
          simp only [advanceCall, Option.map_map]
          rw [routes.candidate.view (forwardRequest · route.isStreaming app.budget.maxBodyBytes
            app.gcpTokenProvider exchange), routes.isStreaming, twins.budget,
            twins.gcpTokenProvider]
          cases forwardRequest twin.candidate twin.isStreaming other.budget.maxBodyBytes
            other.gcpTokenProvider exchange with
          | none => exact .none
          | some result =>
              exact .some ⟨twins, .called outbound routes
                (.recording ⟨exchange, result⟩ (routes.effects _)), .nil⟩
      | recording | responded | cancelled => exact .none
  | record =>
      cases stages with
      | recording completion remaining =>
          cases remaining with
          | nil => exact .some ⟨twins, .called outbound routes (.responded completion), .nil⟩
          | cons first rest =>
              exact .some ⟨perform_twins related twins first,
                .called outbound routes (.recording completion rest), .cons first .nil⟩
      | awaiting | responded | cancelled => exact .none
  | cancel =>
      cases stages with
      | awaiting => exact .some ⟨twins, .called outbound routes .cancelled, .nil⟩
      | recording | responded | cancelled => exact .none
  | uploadFrame =>
      cases outbound with
      | none => exact .none
      | some body => exact .some ⟨twins, .called (some body.pollFrame.2) routes stages, .nil⟩
  | dropOutbound =>
      cases outbound with
      | none => exact .none
      | some body => exact .some ⟨twins.dropBody body, .called none routes stages, .nil⟩
  | poll | collected => exact .none

theorem advancePhase_twins (sorted : codecs.Sorted) (related : maps.1.Twins maps.2)
    (twins : app.Twins maps other) (request : Request) {phase phaseRight : Phase F}
    (phases : phase.Twins maps phaseRight) (input : Input) :
    Option.Rel (Advanced.Twins maps) (advancePhase codecs app request phase input)
      (advancePhase codecs other request phaseRight input) := by
  cases phases with
  | received =>
      cases input with
      | poll => exact .some (advanceReceived_twins sorted related twins request)
      | cancel => exact .some ⟨twins, .cancelled, .nil⟩
      | collected | exchanged | record | uploadFrame | dropOutbound => exact .none
  | buffering permit =>
      cases input with
      | collected read => exact .some (advanceCollected_twins related twins request permit read)
      | cancel => exact .some ⟨twins.release permit, .cancelled, .nil⟩
      | poll | exchanged | record | uploadFrame | dropOutbound => exact .none
  | called outbound routes stages =>
      exact advanceCall_twins related twins routes outbound stages input
  | rejected | observed | cancelled => cases input <;> exact .none

end Steps

section Boot

variable {left right : ModelMap} {modelAlias : Text}

theorem ModelMap.exists_get_of_mem_iter {map : ModelMap} {entry : Text × ResolvedCandidate}
    (listed : entry ∈ map.iter) :
    ∃ candidates, map.get entry.1 = some candidates ∧ entry.2 ∈ candidates := by
  obtain ⟨source, inside, listed⟩ := List.mem_flatMap.mp listed
  obtain ⟨candidate, member, rfl⟩ := List.mem_map.mp listed
  exact ⟨source.2, AList.mem_lookup_iff.mpr inside, member⟩

theorem ModelMap.mem_iter_of_get {map : ModelMap} {candidates : List ResolvedCandidate}
    (found : map.get modelAlias = some candidates) {candidate : ResolvedCandidate}
    (member : candidate ∈ candidates) : (modelAlias, candidate) ∈ map.iter :=
  List.mem_flatMap.mpr ⟨⟨modelAlias, candidates⟩, AList.mem_lookup_iff.mp found,
    List.mem_map_of_mem member⟩

/-- A boot initialises the error counters of the same labels. -/
theorem ModelMap.Twins.mem_labels (twins : left.Twins right) (labels : UpstreamLabels) :
    labels ∈ left.iter.map upstreamLabels ↔ labels ∈ right.iter.map upstreamLabels := by
  simp only [List.mem_map]
  constructor
  · rintro ⟨entry, listed, rfl⟩
    obtain ⟨candidates, found, member⟩ := exists_get_of_mem_iter listed
    obtain ⟨others, foundRight, related⟩ := exists_of_some_rel (found ▸ twins.get entry.1)
    obtain ⟨other, memberRight, twin⟩ := exists_related related member
    refine ⟨(entry.1, other), mem_iter_of_get foundRight memberRight, ?_⟩
    rw [upstreamLabels, upstreamLabels, twin.view ResolvedCandidate.providerName,
      twin.view ResolvedCandidate.model]
  · rintro ⟨entry, listed, rfl⟩
    obtain ⟨others, found, member⟩ := exists_get_of_mem_iter listed
    obtain ⟨candidates, foundLeft, related⟩ := exists_of_rel_some (found ▸ twins.get entry.1)
    obtain ⟨candidate, memberLeft, twin⟩ := exists_related related.flip member
    refine ⟨(entry.1, candidate), mem_iter_of_get foundLeft memberLeft, ?_⟩
    rw [upstreamLabels, upstreamLabels, twin.view ResolvedCandidate.providerName,
      twin.view ResolvedCandidate.model]

theorem initZero_twins (twins : left.Twins right) :
    (Metrics.new.initZero (left.iter.map upstreamLabels)).Twins
      (Metrics.new.initZero (right.iter.map upstreamLabels)) where
  requestsTotal := rfl
  ttfcSeconds := rfl
  latencySeconds := rfl
  errorsTotal labels := by
    unfold Metrics.initZero
    rw [Counters.lookup_foldl_touch, Counters.lookup_foldl_touch]
    exact if_congr (twins.mem_labels labels) rfl rfl
  bufferRejectionsTotal := rfl

/-- Counters start at zero for the same aliases. -/
theorem ofAliases_twins {aliases others : List Text} (perm : aliases.Perm others) :
    (RoundRobinState.ofAliases aliases).counters.lookup modelAlias =
      (RoundRobinState.ofAliases others).counters.lookup modelAlias := by
  by_cases known : modelAlias ∈ aliases
  · rw [RoundRobinState.lookup_ofAliases known,
      RoundRobinState.lookup_ofAliases (perm.mem_iff.mp known)]
  · have unknown := mt (RoundRobinState.mem_ofAliases aliases modelAlias).mp known
    have unknownRight := mt (RoundRobinState.mem_ofAliases others modelAlias).mp
      (mt perm.mem_iff.mpr known)
    rw [AList.lookup_eq_none.mpr unknown, AList.lookup_eq_none.mpr unknownRight]

/-- New slots on both sides. -/
theorem fromConfig_tracker_twins {config other : Config F} {alpha threshold : F}
    {map mapRight : ModelMap} {after afterRight : Tracker F}
    (accepted : (fromConfig config (.new alpha threshold) :
      Except (ConfigError F Addr) _) = .ok (map, after))
    (acceptedRight : (fromConfig other (.new alpha threshold) :
      Except (ConfigError F Addr) _) = .ok (mapRight, afterRight)) :
    after.Twins (map, mapRight) afterRight := by
  obtain ⟨count, slots⟩ := fromConfig_slots accepted
  obtain ⟨countRight, slotsRight⟩ := fromConfig_slots acceptedRight
  obtain ⟨⟨dedup, registered⟩, -⟩ := fromConfig_registered accepted
  obtain ⟨⟨dedupRight, registeredRight⟩, -⟩ := fromConfig_registered acceptedRight
  refine ⟨?_, ?_, ?_, ?_⟩
  · rw [slots, slotsRight]
  · rw [slots, slotsRight]
  · intro candidate twin both
    exact ⟨registered.wired.inBounds _ _ (registered.recorded _ both.inLeft),
      registeredRight.wired.inBounds _ _ (registeredRight.recorded _ both.inRight)⟩
  · intro candidate twin both
    rw [fromConfig_fresh accepted, fromConfig_fresh acceptedRight]

/-- The other process boots as well, into a twin state. -/
theorem exists_boot_twins [DecidableEq Addr] {parseAddr : Text → Option Addr}
    {cgroupMemoryLimit : Option UInt64} {config other : Config F}
    (reorders : config.Reorders other) {app : AppState F}
    (booted : boot parseAddr cgroupMemoryLimit config = .ok app) :
    ∃ appRight, boot parseAddr cgroupMemoryLimit other = .ok appRight ∧
      app.modelMap.Twins appRight.modelMap ∧
      app.Twins (app.modelMap, appRight.modelMap) appRight := by
  obtain ⟨_, valid, remaining⟩ := bind_eq_ok.mp booted
  obtain ⟨⟨map, tracker⟩, accepted, result⟩ := bind_eq_ok.mp remaining
  cases result
  obtain ⟨mapRight, trackerRight, acceptedRight, twins⟩ :=
    exists_fromConfig_twins reorders accepted
  have trackers := fromConfig_tracker_twins accepted acceptedRight
  rw [reorders.routing] at acceptedRight
  refine ⟨_, bind_eq_ok.mpr ⟨(), reorders.validate valid,
    bind_eq_ok.mpr ⟨(mapRight, trackerRight), acceptedRight, rfl⟩⟩, twins, ?_⟩
  exact {
    map := rfl
    mapRight := rfl
    tracker := trackers
    counters := fun _ => ofAliases_twins (reorders.model.map Sigma.fst)
    exploitK := by rw [reorders.routing]
    gcpTokenProvider := by rw [reorders.provider.any_eq]
    budget := by rw [reorders.routing]
    metrics := initZero_twins twins
    shuttingDown := rfl }

end Boot

section Runs

variable {codecs : Codecs Map} {maps : ModelMap × ModelMap}

/-- The same request in both processes. -/
structure Task.Twins (maps : ModelMap × ModelMap) (task other : Task F) : Prop where
  request : task.request = other.request
  phase : task.phase.Twins maps other.phase

/-- What the client and the upstream see of a request. -/
structure Task.Agrees (task other : Task F) : Prop where
  request : task.request = other.request
  /-- The upstream it was routed to: its URL, its model, its headers. -/
  upstream : task.phase.route.map (fun route => route.candidate.unslotted) =
    other.phase.route.map fun route => route.candidate.unslotted
  answer : Option.Rel Response.Twins task.phase.response other.phase.response

omit [Float64 F] in
theorem Phase.Twins.response {phase twin : Phase F} (twins : phase.Twins maps twin) :
    Option.Rel Response.Twins phase.response twin.response := by
  cases twins with
  | received | buffering | cancelled => exact .none
  | rejected same => exact .some same.response
  | observed same => exact .some same
  | called outbound routes stages =>
      cases stages with
      | awaiting | recording | cancelled => exact .none
      | responded completion =>
          apply Option.Rel.some
          rw [routes.response completion]
          exact ⟨rfl, rfl, .same _⟩

omit [Float64 F] in
theorem Phase.Twins.upstream {phase twin : Phase F} (twins : phase.Twins maps twin) :
    phase.route.map (fun route => route.candidate.unslotted) =
      twin.route.map fun route => route.candidate.unslotted := by
  cases twins with
  | received | buffering | observed | cancelled => rfl
  | rejected _ routes =>
      cases routes with
      | none => rfl
      | some routes => exact congrArg some routes.candidate.same
  | called outbound routes => exact congrArg some routes.candidate.same

/-- Every run of the server has a run of its twin, by the same steps. -/
theorem run_twins (sorted : codecs.Sorted) (related : maps.1.Twins maps.2)
    {app other : AppState F} (twins : app.Twins maps other) {server : Server F}
    (run : Run (handler codecs) app server) :
    ∃ replica, Run (handler codecs) other replica ∧
      server.Related (AppState.Twins maps) (Task.Twins maps) (Effect.Twins maps) replica := by
  apply run.simulate twins
  · intro request
    exact ⟨rfl, .received⟩
  · intro shared sharedRight task taskRight input states tasks
    obtain ⟨request, phase⟩ := task
    obtain ⟨requestRight, phaseRight⟩ := taskRight
    obtain ⟨rfl, phases⟩ := tasks
    apply rel_map (advancePhase_twins sorted related states request phases input)
    intro result resultRight advanced
    exact ⟨advanced.app, ⟨rfl, advanced.phase⟩, advanced.effects⟩

variable [DecidableEq Addr]

/-- Processes whose hash maps iterate in different orders cannot be told apart: the one boots when
the other does, and what one does in any run the other does in a run by the same steps, with the
same answers from the same upstreams, the same metrics, counters and budget, and the same
statistics for every pair of names. -/
theorem replicas_agree {codecs : Codecs Map} (sorted : codecs.Sorted)
    {parseAddr : Text → Option Addr} {cgroupMemoryLimit : Option UInt64} {config other : Config F}
    (reorders : config.Reorders other) {app : AppState F}
    (booted : boot parseAddr cgroupMemoryLimit config = .ok app) {server : Server F}
    (run : Run (handler codecs) app server) :
    ∃ appRight replica, boot parseAddr cgroupMemoryLimit other = .ok appRight ∧
      Run (handler codecs) appRight replica ∧
      List.Forall₂ Task.Agrees server.tasks replica.tasks ∧
      server.shared.metrics.Twins replica.shared.metrics ∧
      (∀ modelAlias, server.shared.rrState.counters.lookup modelAlias =
        replica.shared.rrState.counters.lookup modelAlias) ∧
      server.shared.budget = replica.shared.budget ∧
      ∀ candidate ∈ server.shared.modelMap.candidates,
        ∀ twin ∈ replica.shared.modelMap.candidates, candidate.pair = twin.pair →
          server.shared.tracker.stats candidate.statsIndex =
            replica.shared.tracker.stats twin.statsIndex := by
  obtain ⟨appRight, bootedRight, related, start⟩ := exists_boot_twins reorders booted
  obtain ⟨replica, runRight, twins⟩ := run_twins sorted related start run
  refine ⟨appRight, replica, bootedRight, runRight, ?_, twins.shared.metrics,
    twins.shared.counters, twins.shared.budget, ?_⟩
  · exact twins.tasks.imp fun task twin same =>
      ⟨same.request, same.phase.upstream, same.phase.response⟩
  · intro candidate member twin memberRight samePair
    rw [twins.shared.map] at member
    rw [twins.shared.mapRight] at memberRight
    obtain ⟨other, both⟩ := related.exists_twin.1 candidate member
    have slot : other.statsIndex = twin.statsIndex := by
      apply (related.namedRight _ both.inRight _ memberRight).mpr
      rw [← both.view ResolvedCandidate.pair, samePair]
    rw [twins.shared.tracker.stats _ _ both, slot]

end Runs

section Swapped

/-- Other aliases for the same providers. -/
theorem Config.validate_model [DecidableEq Addr] {config : Config F}
    {parseAddr : Text → Option Addr} (valid : config.validate parseAddr = .ok ())
    (model : HashMap Text (List ModelCandidate))
    (known : ∀ entry ∈ model.entries, ∀ candidate ∈ entry.2,
      (config.provider.lookup candidate.provider).isSome = true) :
    { config with model := model }.validate parseAddr = .ok () := by
  simp only [validate, bind_eq_ok, require_eq_ok, checkAll_eq_ok] at valid ⊢
  obtain ⟨listens, parsed, _, alpha, _, k, _, threshold, _, providers, _, headers, _, -,
    attribution⟩ := valid
  refine ⟨listens, parsed, (), alpha, (), k, (), threshold, (), providers, _, headers, (), ?_,
    attribution⟩
  intro entry member candidate inside
  exact require_eq_ok.mpr (known entry member candidate inside)

def fastEntry : Σ _ : Text, List ModelCandidate :=
  ⟨"fast".toList, [⟨"openai".toList, "gpt-4o".toList⟩]⟩

def slowEntry : Σ _ : Text, List ModelCandidate :=
  ⟨"slow".toList, [⟨"openai".toList, "gpt-5".toList⟩]⟩

/-- The aliases `fast` and `slow`, in the order in which a hash map meets them. -/
def swappedConfig (slowFirst : Bool) : Config F :=
  { Config.single "openai".toList "https://api.openai.com/v1".toList "fast".toList [] with
    model :=
      if slowFirst then ⟨[slowEntry, fastEntry], by unfold List.NodupKeys; decide⟩
      else ⟨[fastEntry, slowEntry], by unfold List.NodupKeys; decide⟩ }

theorem swappedConfig_validate (slowFirst : Bool) : (swappedConfig slowFirst).validate some =
    (.ok () : Except (ConfigError ℝ Text) Unit) := by
  apply Config.validate_model (Config.single_validate _ _ _ (by decide))
  cases slowFirst <;> decide

/-- A request is answered by the upstream, in a slot that the replica numbers differently. -/
theorem replicas_agree_swapped :
    ∃ (app appRight : AppState ℝ) (server replica : Server ℝ) (candidate : ResolvedCandidate)
        (outbound : OutboundBody) (answer : ProxyResult),
      boot (some : Text → Option Text) none (swappedConfig false) = .ok app ∧
      boot (some : Text → Option Text) none (swappedConfig true) = .ok appRight ∧
      candidate.statsIndex = 0 ∧
      (appRight.modelMap.get "fast".toList).map (List.map ResolvedCandidate.statsIndex) =
        some [1] ∧
      Run (handler plainCodecs) app server ∧ Run (handler plainCodecs) appRight replica ∧
      server.tasks = [⟨plainRequest, .called ⟨⟨"fast".toList, candidate, false, false⟩,
        some outbound, .responded ⟨emptyAnswer, .ok answer⟩⟩⟩] ∧
      List.Forall₂ Task.Agrees server.tasks replica.tasks ∧
      server.shared.tracker.stats 0 = replica.shared.tracker.stats 1 := by
  have start : ∃ app candidate permit budget,
      boot (some : Text → Option Text) none (swappedConfig false) = .ok app ∧
      app.modelMap.get "fast".toList = some [candidate] ∧ candidate.kind = .apiKey ∧
      candidate.attributionLabels = none ∧ candidate.statsIndex = 0 ∧
      candidate.pair = ("openai".toList, "gpt-4o".toList) ∧
      admission plainCodecs app plainRequest = .admitted permit budget :=
    ⟨_, _, _, _, bind_eq_ok.mpr ⟨(), swappedConfig_validate false, rfl⟩, rfl, rfl, rfl, rfl, rfl,
      rfl⟩
  have startRight : ∃ app twin,
      boot (some : Text → Option Text) none (swappedConfig true) = .ok app ∧
      app.modelMap.get "fast".toList = some [twin] ∧ twin.statsIndex = 1 ∧
      twin.pair = ("openai".toList, "gpt-4o".toList) :=
    ⟨_, _, bind_eq_ok.mpr ⟨(), swappedConfig_validate true, rfl⟩, rfl, rfl, rfl⟩
  obtain ⟨app, candidate, permit, budget, started, lookup, keyed, unlabelled, slot, pair,
    admitted⟩ := start
  obtain ⟨other, twin, startedRight, lookupRight, slotRight, pairRight⟩ := startRight
  have sorted : plainCodecs.Sorted := by
    intro metrics other _
    rfl
  have reorders : (swappedConfig false : Config ℝ).Reorders (swappedConfig true) :=
    ⟨rfl, rfl, .refl _, .swap slowEntry fastEntry [], rfl, rfl⟩
  obtain ⟨answer, answered, -⟩ :=
    forwardRequest_emptyAnswer keyed false budget.maxBodyBytes app.gcpTokenProvider
  obtain ⟨after, data, journal, run, -⟩ := run_serves .boot SerdeJson.flat_lawful lookup
    unlabelled rfl admitted answered
  obtain ⟨appRight, replica, booted, runRight, agree, -, -, -, same⟩ :=
    replicas_agree sorted reorders started run
  rw [startedRight] at booted
  cases booted
  refine ⟨app, other, _, replica, candidate, _, answer, started, startedRight, slot, ?_, run,
    runRight, rfl, agree, ?_⟩
  · rw [lookupRight, ← slotRight]
    rfl
  · rw [← slot, ← slotRight]
    apply same
    · rw [run_modelMap run]
      exact ModelMap.mem_candidates_of_get lookup (List.mem_singleton_self _)
    · rw [run_modelMap runRight]
      exact ModelMap.mem_candidates_of_get lookupRight (List.mem_singleton_self _)
    · rw [pair, pairRight]

end Swapped

end Sturnus
