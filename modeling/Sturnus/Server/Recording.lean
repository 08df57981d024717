import Sturnus.Server.Boot
import Sturnus.Server.Tally
import Sturnus.Tracker.Serialization

/-!
# What completions do to the tracker

The updates of a slot that all requests recorded are those of the requests
completed on it, in some order of their atomic steps.  The slot therefore ends
where recording these completions one after the other ends.
-/

namespace Sturnus

open Foundation Foundation.Http Foundation.Concurrent

section Kinds

namespace Effect

def isLatency : Effect → Bool
  | .latency _ _ _ => true
  | _ => false

/-- The update of a slot that an effect is. -/
def updateOf (slot : ℕ) : Effect → Option AtomicUpdate
  | .latency applied mode observed => if applied = slot then some (.ewma mode observed) else none
  | .outcome applied success => if applied = slot then some (.outcome success) else none
  | _ => none

end Effect

/-- How long a success took; a failure has no latency. -/
def Completion.latency (completion : Completion) : Option Duration :=
  match completion.result with
  | .ok answer => if answer.status.isSuccess then some answer.latency.elapsed else none
  | .error _ => none

/-- What a completion does to the statistics of its slot: a success moves the latency of the
mode it was routed in and the success rate up, anything else the success rate down. -/
def Route.onStats {F : Type} [Float64 F] (route : Route) (alpha : F) (stats : CandidateStats F)
    (completion : Completion) : CandidateStats F :=
  match completion.latency with
  | some observed =>
      (stats.updateEwma route.mode (UInt64.ofNat observed.asMillis) alpha).recordOutcome true alpha
  | none => stats.recordOutcome false alpha

/-- The call on the tracker that a completion is. -/
def Route.call (route : Route) (completion : Completion) : SlotCall :=
  match completion.latency with
  | some observed => .recordSuccess route.mode observed
  | none => .recordError

/-- How the request was completed, if it was on a candidate with the slot. -/
def Phase.completionOn {F : Type} (slot : ℕ) (phase : Phase F) : Option (Route × Completion) :=
  phase.completed.filter fun completed => completed.1.candidate.statsIndex == slot

end Kinds

section Calls

variable {F : Type} [Float64 F]

/-- Recording completions in order is running their calls in order. -/
theorem foldl_onStats_calls (alpha : F) (order : List (Route × Completion))
    (stats : CandidateStats F) :
    order.foldl (fun stats completed => completed.1.onStats alpha stats completed.2) stats =
      ((order.map fun completed => completed.1.call completed.2).flatMap SlotCall.program).foldl
        (AtomicUpdate.onStats alpha) stats := by
  rw [List.foldl_flatMap, List.foldl_map]
  congr 1
  funext stats completed
  obtain ⟨route, completion⟩ := completed
  unfold Route.onStats Route.call
  cases completion.latency <;> rfl

/-- One effect changes a slot by the update of it that it is, if any. -/
theorem AppState.perform_stats (app : AppState F) {slot : ℕ}
    (inBounds : app.tracker.InBounds slot) (effect : Effect) :
    (app.perform effect).tracker.stats slot =
      ((Effect.updateOf slot effect).toList).foldl (AtomicUpdate.onStats app.tracker.alpha)
        (app.tracker.stats slot) := by
  have modified (applied : ℕ) (f : CandidateStats F → CandidateStats F) :
      (app.tracker.modify applied f).stats slot =
        if applied = slot then f (app.tracker.stats slot) else app.tracker.stats slot := by
    split
    next here =>
      subst here
      exact app.tracker.stats_modify_self inBounds f
    next elsewhere => exact app.tracker.stats_modify_of_ne applied (Ne.symm elsewhere) f
  cases effect with
  | latency applied mode observed =>
      refine (modified applied _).trans ?_
      by_cases here : applied = slot <;> simp [Effect.updateOf, here, AtomicUpdate.onStats]
  | outcome applied success =>
      refine (modified applied _).trans ?_
      by_cases here : applied = slot <;> simp [Effect.updateOf, here, AtomicUpdate.onStats]
  | bufferRejection | tick | request | error | observe => rfl

/-- Effects change a slot by its updates. -/
theorem AppState.performAll_stats (app : AppState F) {slot : ℕ}
    (inBounds : app.tracker.InBounds slot) (effects : List Effect) :
    (app.performAll effects).tracker.stats slot =
      (effects.filterMap (Effect.updateOf slot)).foldl (AtomicUpdate.onStats app.tracker.alpha)
        (app.tracker.stats slot) := by
  induction effects generalizing app with
  | nil => rfl
  | cons effect rest inductionHypothesis =>
      have stillIn : (app.perform effect).tracker.InBounds slot := by
        cases effect <;>
          simpa [perform, Tracker.InBounds, Tracker.updateEwma, Tracker.recordOutcome]
            using inBounds
      have sameAlpha : (app.perform effect).tracker.alpha = app.tracker.alpha := by
        cases effect <;> rfl
      have first := app.perform_stats inBounds effect
      refine (inductionHypothesis _ stillIn).trans ?_
      rw [first, sameAlpha, ← List.foldl_append]
      cases update : effect.updateOf slot <;> simp [update]

end Calls

section Tasks

variable {F : Type} {app : AppState F} {phase : Phase F} {done : List Effect}

/-- A latency due for a completion is that of its success, in the mode of the route. -/
theorem Ledger.latency_eq (ledger : Ledger app phase done) {route : Route}
    {completion : Completion} (completed : phase.completed = some (route, completion)) :
    (route.effects completion).filter Effect.isLatency =
      (completion.latency.map (.latency route.candidate.statsIndex route.mode)).toList := by
  have call := ledger.ended route completion completed
  unfold Route.effects Completion.latency
  cases ended : completion.result with
  | error error => rfl
  | ok answer =>
      rw [ended] at call
      have asked : answer.latency.mode = route.mode := forwardRequest_mode call
      cases good : answer.status.isSuccess with
      | false => simp [good, Effect.isLatency]
      | true =>
          simp only [good, asked, if_true]
          rfl

/-- The updates due for a completion are its call, on the slot of its candidate. -/
theorem Ledger.updates_eq (ledger : Ledger app phase done) {route : Route}
    {completion : Completion} (completed : phase.completed = some (route, completion))
    (slot : ℕ) : (route.effects completion).filterMap (Effect.updateOf slot) =
      if route.candidate.statsIndex = slot then (route.call completion).program else [] := by
  have call := ledger.ended route completion completed
  unfold Route.effects Route.call Completion.latency
  cases ended : completion.result with
  | error error =>
      by_cases here : route.candidate.statsIndex = slot <;>
        simp [Effect.updateOf, here, SlotCall.program]
  | ok answer =>
      rw [ended] at call
      have asked : answer.latency.mode = route.mode := forwardRequest_mode call
      cases good : answer.status.isSuccess <;>
        by_cases here : route.candidate.statsIndex = slot <;>
          simp [good, asked, Effect.updateOf, here, SlotCall.program]

/-- A completion has a latency exactly when its exchange succeeds, and then the measured one. -/
theorem Ledger.latency_spec [Float64 F] (ledger : Ledger app phase done) {route : Route}
    {completion : Completion} (completed : phase.completed = some (route, completion)) :
    (completion.latency.isSome = true ↔ completion.exchange.Succeeds route.candidate.kind
      app.gcpTokenProvider route.isStreaming app.budget.maxBodyBytes) ∧
    ∀ observed ∈ completion.latency, observed = completion.exchange.elapsed := by
  have call := ledger.ended route completion completed
  rw [← forwardRequest_succeeds_iff call]
  unfold Completion.latency
  cases ended : completion.result with
  | error error => simp
  | ok answer =>
      rw [ended] at call
      have measured : answer.latency.elapsed = completion.exchange.elapsed := by
        obtain ⟨response, body, -, rfl⟩ := forwardRequest_eq_ok call
        cases route.isStreaming <;> rfl
      cases good : answer.status.isSuccess <;> simp [good, measured]

/-- What the tracker does not see comes first. -/
theorem filterMap_opening {Item : Type} (item : Effect → Option Item)
    (refusal : item .bufferRejection = none)
    (ticks : ∀ modelAlias, item (.tick modelAlias) = none) :
    phase.opening.filterMap item = [] := by
  apply List.filterMap_eq_nil_iff.mpr
  intro effect member
  rcases mem_opening member with rfl | ⟨route, -, rfl⟩
  · exact refusal
  · exact ticks _

/-- A settled request updated the slot of its candidate by its call, and no other slot. -/
theorem Ledger.updates_settled (ledger : Ledger app phase done)
    (settled : phase.isRecording = false) (slot : ℕ) :
    done.filterMap (Effect.updateOf slot) =
      (phase.completionOn slot).toList.flatMap fun completed =>
        (completed.1.call completed.2).program := by
  rw [ledger.done_eq settled, List.filterMap_append,
    filterMap_opening _ rfl fun _ => rfl, List.nil_append, Phase.closing, Phase.completionOn]
  cases completed : phase.completed with
  | none => rfl
  | some ended =>
      refine (ledger.updates_eq completed slot).trans ?_
      by_cases here : ended.1.candidate.statsIndex = slot <;> simp [Option.filter, here]

/-- A settled request recorded one latency for its success, and none otherwise. -/
theorem Ledger.latencies_settled (ledger : Ledger app phase done)
    (settled : phase.isRecording = false) :
    done.filter Effect.isLatency = (phase.completed.bind fun completed =>
      completed.2.latency.map
        (.latency completed.1.candidate.statsIndex completed.1.mode)).toList := by
  have opening : phase.opening.filter Effect.isLatency = [] := by
    rw [← List.filterMap_eq_filter]
    exact filterMap_opening _ rfl fun _ => rfl
  rw [ledger.done_eq settled, List.filter_append, opening, List.nil_append, Phase.closing]
  cases completed : phase.completed with
  | none => rfl
  | some ended => exact ledger.latency_eq completed

end Tasks

section Runs

variable {F Addr : Type} [Float64 F] [DecidableEq Addr] {Map : Type} {codecs : Codecs Map}
  {config : Config F} {app : AppState F} {server : Server F}

/-- The updates of a slot are those of the requests completed on it. -/
theorem run_updates (run : Run (handler codecs) app server) (rest : Settled server) (slot : ℕ) :
    (server.events.filterMap (Effect.updateOf slot)).Perm
      (((server.tasks.filterMap fun task => task.phase.completionOn slot).map fun completed =>
        completed.1.call completed.2).flatMap SlotCall.program) := by
  rw [List.flatMap_map, List.filterMap_eq_flatMap_toList (fun task : Task F => _),
    List.flatMap_assoc]
  apply run.filterMap_events_perm
  intro i task found
  exact (run_ledger run found).updates_settled (rest task (List.mem_of_getElem? found)) slot

/-- The statistics of a slot are those of a new one with the requests completed on it recorded,
one after the other. -/
theorem run_recorded {parseAddr : Text → Option Addr} {cgroupMemoryLimit : Option UInt64}
    (started : boot parseAddr cgroupMemoryLimit config = .ok app)
    (run : Run (handler codecs) app server) (rest : Settled server) {slot : ℕ}
    (inBounds : app.tracker.InBounds slot) :
    ∃ order : List (Route × Completion),
      order.Perm (server.tasks.filterMap fun task => task.phase.completionOn slot) ∧
      server.shared.tracker.stats slot = order.foldl (fun stats completed =>
        completed.1.onStats config.routing.ewmaAlpha stats completed.2) .new := by
  have accepted := boot_fromConfig started
  have sameAlpha : app.tracker.alpha = config.routing.ewmaAlpha := by
    obtain ⟨count, slots⟩ := fromConfig_slots accepted
    rw [slots]
    rfl
  obtain ⟨calls, reordered, serial⟩ := SlotCall.exists_order (F := F) (run_updates run rest slot)
  -- The serial order of the calls is one of the completions they stand for.
  obtain ⟨order, rfl, completed⟩ :=
    (congrFun (congrFun (List.eq_map_comp_perm fun completed : Route × Completion =>
      completed.1.call completed.2) calls) _).mpr reordered
  have tracker := congrArg AppState.tracker (run_replays run)
  change server.shared.tracker = _ at tracker
  refine ⟨order, completed, ?_⟩
  rw [tracker, app.performAll_stats inBounds, sameAlpha, serial, fromConfig_fresh accepted,
    foldl_onStats_calls]

end Runs

end Sturnus
