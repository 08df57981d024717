import Sturnus.Foundation.Interleaving
import Sturnus.Tracker

/-!
# Concurrent records on one slot

`record_success` is two atomic updates, `record_error` is one.  Whatever the
interleaving, the slot ends in the state of some serial order of the calls:
the success updates carry no data, so each of them can be credited to any of
the successful calls, in the order of their latency updates.
-/

namespace Sturnus

open Foundation

variable {F : Type} [Float64 F]

/-- One `fetch_update`. -/
inductive AtomicUpdate where
  | ewma (mode : LatencyMode) (observed : Duration)
  | outcome (success : Bool)
  deriving DecidableEq

/-- A call on the slot under consideration. -/
inductive SlotCall where
  | recordSuccess (mode : LatencyMode) (observed : Duration)
  | recordError
  deriving DecidableEq

def SlotCall.program : SlotCall → List AtomicUpdate
  | .recordSuccess mode observed => [.ewma mode observed, .outcome true]
  | .recordError => [.outcome false]

def SlotCall.record (index : ℕ) : SlotCall → Tracker.Record
  | .recordSuccess mode observed => .success index mode observed
  | .recordError => .error index

def Tracker.update (index : ℕ) (tracker : Tracker F) : AtomicUpdate → Tracker F
  | .ewma mode observed => tracker.updateEwma index mode observed
  | .outcome success => tracker.recordOutcome index success

/-- A whole call is its updates, run without interruption. -/
theorem Tracker.apply_record (index : ℕ) (tracker : Tracker F) (call : SlotCall) :
    tracker.apply (call.record index) = call.program.foldl (Tracker.update index) tracker := by
  cases call <;> rfl

namespace AtomicUpdate

/-- The duration of a latency update of the given mode. -/
def observedIn (mode : LatencyMode) : AtomicUpdate → Option Duration
  | .ewma other observed => if other = mode then some observed else none
  | .outcome _ => none

def outcome? : AtomicUpdate → Option Bool
  | .ewma _ _ => none
  | .outcome success => some success

def onStats (alpha : F) (stats : CandidateStats F) : AtomicUpdate → CandidateStats F
  | .ewma mode observed => stats.updateEwma mode (UInt64.ofNat observed.asMillis) alpha
  | .outcome success => stats.recordOutcome success alpha

end AtomicUpdate

/-- Updates of the same slot touch nothing else. -/
theorem Tracker.foldl_update (index : ℕ) (updates : List AtomicUpdate) (tracker : Tracker F) :
    updates.foldl (Tracker.update index) tracker =
      tracker.modify index fun stats => updates.foldl (AtomicUpdate.onStats tracker.alpha) stats := by
  induction updates generalizing tracker with
  | nil =>
      change tracker = { tracker with slots := tracker.slots.modify index id }
      rw [List.modify_id]
  | cons update rest inductionHypothesis =>
      have first : Tracker.update index tracker update =
          tracker.modify index fun stats => update.onStats tracker.alpha stats := by
        cases update <;> rfl
      rw [List.foldl_cons, inductionHypothesis, first]
      simp only [Tracker.modify, List.modify_modify_eq, Function.comp_def, List.foldl_cons]

/-- The three fields of a slot have independent histories. -/
theorem foldl_onStats (alpha : F) (updates : List AtomicUpdate) (stats : CandidateStats F) :
    updates.foldl (AtomicUpdate.onStats alpha) stats =
      { streamingEwmaMs := (updates.filterMap (AtomicUpdate.observedIn .streaming)).foldl
          (fun old observed => CandidateStats.nextEwma alpha (UInt64.ofNat observed.asMillis) old)
          stats.streamingEwmaMs
        nonstreamingEwmaMs := (updates.filterMap (AtomicUpdate.observedIn .nonStreaming)).foldl
          (fun old observed => CandidateStats.nextEwma alpha (UInt64.ofNat observed.asMillis) old)
          stats.nonstreamingEwmaMs
        successRate := (updates.filterMap AtomicUpdate.outcome?).foldl
          (fun rate success => alpha * (if success then 1 else 0) + (1 - alpha) * rate)
          stats.successRate } := by
  induction updates generalizing stats with
  | nil => rfl
  | cons update rest inductionHypothesis =>
      rw [List.foldl_cons, inductionHypothesis]
      cases update with
      | ewma mode observed => cases mode <;> rfl
      | outcome success => rfl

namespace SlotCall

/-- Credit the successes of an outcome history to the given calls, in order. -/
def assign : List Bool → List SlotCall → List SlotCall
  | [], _ => []
  | false :: outcomes, calls => .recordError :: assign outcomes calls
  | true :: _, [] => []
  | true :: outcomes, call :: calls => call :: assign outcomes calls

/-- The successful calls with the given latency histories. -/
def successes (streaming nonStreaming : List Duration) : List SlotCall :=
  streaming.map (.recordSuccess .streaming) ++ nonStreaming.map (.recordSuccess .nonStreaming)

def outcome : SlotCall → Bool
  | .recordSuccess _ _ => true
  | .recordError => false

theorem outcome_successes (streaming nonStreaming : List Duration) :
    ∀ call ∈ successes streaming nonStreaming, call.outcome = true := by
  intro call member
  rcases List.mem_append.mp member with inStreaming | inNonStreaming
  · obtain ⟨_, _, rfl⟩ := List.mem_map.mp inStreaming
    rfl
  · obtain ⟨_, _, rfl⟩ := List.mem_map.mp inNonStreaming
    rfl

theorem program_outcomes (call : SlotCall) :
    call.program.filterMap AtomicUpdate.outcome? = [call.outcome] := by
  cases call <;> rfl

/-- There is one call for each success. -/
inductive Credited : List Bool → List SlotCall → Prop where
  | nil : Credited [] []
  | error {outcomes : List Bool} {calls : List SlotCall} :
      Credited outcomes calls → Credited (false :: outcomes) calls
  | success (call : SlotCall) {outcomes : List Bool} {calls : List SlotCall} :
      Credited outcomes calls → Credited (true :: outcomes) (call :: calls)

theorem credited_of_count {outcomes : List Bool} {calls : List SlotCall}
    (enough : outcomes.count true = calls.length) : Credited outcomes calls := by
  induction outcomes generalizing calls with
  | nil =>
      have empty : calls = [] := List.eq_nil_of_length_eq_zero (by simpa using enough.symm)
      exact empty ▸ .nil
  | cons outcome rest inductionHypothesis =>
      cases outcome with
      | false => exact .error (inductionHypothesis (by simpa using enough))
      | true =>
          cases calls with
          | nil => simp at enough
          | cons call calls => exact .success call (inductionHypothesis (by simpa using enough))

theorem assign_perm {outcomes : List Bool} {calls : List SlotCall}
    (credited : Credited outcomes calls) :
    (assign outcomes calls).Perm
      (calls ++ List.replicate (outcomes.count false) .recordError) := by
  induction credited with
  | nil => exact .refl _
  | error _ permuted =>
      simp only [assign, List.count_cons_self, List.replicate_succ]
      exact (permuted.cons _).trans List.perm_middle.symm
  | success call _ permuted => simpa [assign] using permuted

theorem assign_outcomes {outcomes : List Bool} {calls : List SlotCall}
    (credited : Credited outcomes calls) (successful : ∀ call ∈ calls, call.outcome = true) :
    (assign outcomes calls).map outcome = outcomes := by
  induction credited with
  | nil => rfl
  | error _ inductionHypothesis =>
      simp [assign, inductionHypothesis successful, SlotCall.outcome]
  | success call _ inductionHypothesis =>
      obtain ⟨first, others⟩ := List.forall_mem_cons.mp successful
      simp [assign, inductionHypothesis others, first]

/-- A projection that errors do not have only sees the credited calls. -/
theorem assign_filterMap {Part : Type} (part : SlotCall → Option Part)
    (noError : part .recordError = none) {outcomes : List Bool} {calls : List SlotCall}
    (credited : Credited outcomes calls) :
    (assign outcomes calls).filterMap part = calls.filterMap part := by
  induction credited with
  | nil => rfl
  | error _ inductionHypothesis => simp [assign, noError, inductionHypothesis]
  | success call _ inductionHypothesis =>
      cases found : part call <;> simp [assign, found, inductionHypothesis]

/-- The duration a call observes in the given mode. -/
def observedIn (mode : LatencyMode) : SlotCall → Option Duration
  | .recordSuccess other observed => if other = mode then some observed else none
  | .recordError => none

theorem program_observedIn (mode : LatencyMode) (call : SlotCall) :
    call.program.filterMap (AtomicUpdate.observedIn mode) = (call.observedIn mode).toList := by
  cases call with
  | recordSuccess other observed =>
      by_cases same : other = mode <;> simp [program, AtomicUpdate.observedIn, observedIn, same]
  | recordError => rfl

theorem flatMap_observedIn (mode : LatencyMode) (calls : List SlotCall) :
    (calls.flatMap program).filterMap (AtomicUpdate.observedIn mode) =
      calls.filterMap (observedIn mode) := by
  induction calls with
  | nil => rfl
  | cons call rest inductionHypothesis =>
      rw [List.flatMap_cons, List.filterMap_append, program_observedIn, inductionHypothesis]
      cases found : call.observedIn mode <;> simp [found]

theorem flatMap_outcomes (calls : List SlotCall) :
    (calls.flatMap program).filterMap AtomicUpdate.outcome? = calls.map outcome := by
  induction calls with
  | nil => rfl
  | cons call rest inductionHypothesis =>
      rw [List.flatMap_cons, List.filterMap_append, program_outcomes, inductionHypothesis]
      rfl

theorem successes_observedIn (history : LatencyMode → List Duration) (mode : LatencyMode) :
    (successes (history .streaming) (history .nonStreaming)).filterMap (observedIn mode) =
      history mode := by
  cases mode <;>
    simp [successes, List.filterMap_map, Function.comp_def, observedIn, List.filterMap_some]

/-- The successful calls, sorted by mode, followed by the errors. -/
theorem perm_successes_errors (calls : List SlotCall) :
    calls.Perm (successes (calls.filterMap (observedIn .streaming))
        (calls.filterMap (observedIn .nonStreaming)) ++
      List.replicate ((calls.map outcome).count false) .recordError) := by
  induction calls with
  | nil => rfl
  | cons call rest inductionHypothesis =>
      refine (inductionHypothesis.cons call).trans ?_
      cases call with
      | recordSuccess mode observed =>
          cases mode with
          | streaming => simp [successes, observedIn, outcome]
          | nonStreaming =>
              simp only [successes, observedIn, outcome, List.filterMap_cons, List.map_cons,
                List.append_assoc]
              simpa using (List.perm_middle (a := recordSuccess .nonStreaming observed)).symm
      | recordError =>
          simp only [observedIn, outcome, List.filterMap_cons, List.map_cons,
            List.count_cons_self, List.replicate_succ]
          exact List.perm_middle.symm

theorem length_successes (calls : List SlotCall) :
    (calls.map outcome).count true =
      (successes (calls.filterMap (observedIn .streaming))
        (calls.filterMap (observedIn .nonStreaming))).length := by
  induction calls with
  | nil => rfl
  | cons call rest inductionHypothesis =>
      cases call with
      | recordSuccess mode observed =>
          cases mode <;> simp [successes, observedIn, outcome] at inductionHypothesis ⊢ <;> omega
      | recordError =>
          simpa [List.filterMap_cons, observedIn, outcome] using inductionHypothesis

end SlotCall

/-- Whatever the order of the updates of some calls, the slot ends where a serial order of
these calls ends. -/
theorem SlotCall.exists_order {calls : List SlotCall} {schedule : List AtomicUpdate}
    (permuted : schedule.Perm (calls.flatMap program)) :
    ∃ order : List SlotCall, order.Perm calls ∧ ∀ (alpha : F) (stats : CandidateStats F),
      schedule.foldl (AtomicUpdate.onStats alpha) stats =
        (order.flatMap program).foldl (AtomicUpdate.onStats alpha) stats := by
  let history (mode : LatencyMode) := schedule.filterMap (AtomicUpdate.observedIn mode)
  let outcomes := schedule.filterMap AtomicUpdate.outcome?
  let credited := SlotCall.successes (history .streaming) (history .nonStreaming)
  have historyPerm (mode : LatencyMode) :
      (history mode).Perm (calls.filterMap (SlotCall.observedIn mode)) := by
    have projected := permuted.filterMap (AtomicUpdate.observedIn mode)
    rwa [SlotCall.flatMap_observedIn] at projected
  have outcomesPerm : outcomes.Perm (calls.map SlotCall.outcome) := by
    have projected := permuted.filterMap AtomicUpdate.outcome?
    rwa [SlotCall.flatMap_outcomes] at projected
  have enough : outcomes.count true = credited.length := by
    rw [outcomesPerm.count_eq, SlotCall.length_successes]
    simp [credited, SlotCall.successes, (historyPerm _).length_eq]
  have matched := SlotCall.credited_of_count enough
  refine ⟨SlotCall.assign outcomes credited, ?_, ?_⟩
  · have creditedPerm : credited.Perm (SlotCall.successes
        (calls.filterMap (SlotCall.observedIn .streaming))
        (calls.filterMap (SlotCall.observedIn .nonStreaming))) :=
      ((historyPerm .streaming).map _).append ((historyPerm .nonStreaming).map _)
    have errors : outcomes.count false = (calls.map SlotCall.outcome).count false :=
      outcomesPerm.count_eq false
    calc (SlotCall.assign outcomes credited).Perm
          (credited ++ List.replicate (outcomes.count false) .recordError) :=
            SlotCall.assign_perm matched
      _ |>.Perm _ := creditedPerm.append (by rw [errors])
      _ |>.Perm calls := (SlotCall.perm_successes_errors calls).symm
  · intro alpha stats
    have sameHistory (mode : LatencyMode) : schedule.filterMap (AtomicUpdate.observedIn mode) =
        ((SlotCall.assign outcomes credited).flatMap program).filterMap
          (AtomicUpdate.observedIn mode) := by
      rw [SlotCall.flatMap_observedIn, SlotCall.assign_filterMap _ rfl matched,
        SlotCall.successes_observedIn]
    have sameOutcomes : schedule.filterMap AtomicUpdate.outcome? =
        ((SlotCall.assign outcomes credited).flatMap program).filterMap AtomicUpdate.outcome? := by
      rw [SlotCall.flatMap_outcomes, SlotCall.assign_outcomes matched
        (SlotCall.outcome_successes _ _)]
    rw [foldl_onStats, foldl_onStats, sameHistory, sameHistory, sameOutcomes]

/-- Every interleaving of calls on one slot ends exactly where some serial order
of the same calls ends; nothing is assumed of the arithmetic. -/
theorem Tracker.interleaving_serializable (index : ℕ) (calls : List SlotCall)
    (schedule : List AtomicUpdate)
    (run : Interleaving (calls.map SlotCall.program) schedule) :
    ∃ order : List SlotCall, order.Perm calls ∧ ∀ tracker : Tracker F,
      schedule.foldl (Tracker.update index) tracker =
        (order.map (SlotCall.record index)).foldl Tracker.apply tracker := by
  have permuted : schedule.Perm (calls.flatMap SlotCall.program) := by
    rw [List.flatMap_def]
    exact run.perm
  obtain ⟨order, reordered, same⟩ := SlotCall.exists_order (F := F) permuted
  refine ⟨order, reordered, ?_⟩
  intro tracker
  calc schedule.foldl (Tracker.update index) tracker
      = tracker.modify index fun stats =>
          (order.flatMap SlotCall.program).foldl (AtomicUpdate.onStats tracker.alpha) stats := by
        rw [Tracker.foldl_update]
        congr 1
        funext stats
        exact same tracker.alpha stats
    _ = (order.flatMap SlotCall.program).foldl (Tracker.update index) tracker :=
        (Tracker.foldl_update index _ tracker).symm
    _ = (order.map (SlotCall.record index)).foldl Tracker.apply tracker := by
        rw [List.foldl_map, List.foldl_flatMap]
        simp only [Tracker.apply_record]

/-- Two successes whose latency and outcome updates cross, with an error in between. -/
theorem Tracker.interleaving_serializable_crossed :
    ∃ order : List SlotCall,
      order.Perm [.recordSuccess .streaming (.fromMillis 100),
        .recordSuccess .streaming (.fromMillis 200), .recordError] ∧
      ∀ tracker : Tracker ℝ,
        [AtomicUpdate.ewma .streaming (.fromMillis 100), .ewma .streaming (.fromMillis 200),
          .outcome true, .outcome false, .outcome true].foldl (Tracker.update 0) tracker =
        (order.map (SlotCall.record 0)).foldl Tracker.apply tracker := by
  let first := AtomicUpdate.ewma .streaming (.fromMillis 100)
  let second := AtomicUpdate.ewma .streaming (.fromMillis 200)
  let good := AtomicUpdate.outcome true
  let bad := AtomicUpdate.outcome false
  have finished : Interleaving [[], [], []] ([] : List AtomicUpdate) := .finished (by simp)
  have last : Interleaving [[good], [], []] [good] :=
    @Interleaving.step _ [] [[], []] _ _ _ finished
  have error : Interleaving [[good], [], [bad]] [bad, good] :=
    @Interleaving.step _ [[good], []] [] _ _ _ last
  have crossing : Interleaving [[good], [good], [bad]]
      [good, bad, good] :=
    @Interleaving.step _ [[good]] [[bad]] _ _ _ error
  have later : Interleaving [[good], [second, good], [bad]]
      [second, good, bad, good] :=
    @Interleaving.step _ [[good]] [[bad]] _ _ _ crossing
  have run : Interleaving [[first, good], [second, good], [bad]]
      [first, second, good, bad, good] :=
    @Interleaving.step _ [] [[second, good], [bad]] _ _ _ later
  exact Tracker.interleaving_serializable 0 [.recordSuccess .streaming (.fromMillis 100),
    .recordSuccess .streaming (.fromMillis 200), .recordError] _ run

end Sturnus
