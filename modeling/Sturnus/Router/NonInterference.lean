import Sturnus.Foundation.Unwinding
import Sturnus.Router

/-!
# What routing on one alias in one mode depends on

The observer sees the selections of one alias in one mode.  It is shown every
selection on that alias, because they all draw ticks from its counter, and the
records on the slots its candidates use, without the durations of the other
mode.  Nothing here looks into the arithmetic: the result holds for any `f64`.
-/

namespace Sturnus

open Foundation

/-- A step of a run over a fixed set of registered aliases and slots. -/
inductive RoutingStep where
  | select (modelAlias : Text) (mode : LatencyMode)
  | record (call : Tracker.Record)
  deriving DecidableEq

structure RoutingState (F : Type) where
  tracker : Tracker F
  rr : RoundRobinState

/-- A call without the duration it measured in another mode. -/
def Tracker.Record.masked (mode : LatencyMode) : Tracker.Record → Tracker.Record
  | .success slot recorded observed =>
      .success slot recorded (if recorded = mode then observed else .fromMillis 0)
  | .error slot => .error slot

namespace ModelMap

def uses (map : ModelMap) (modelAlias : Text) (slot : ℕ) : Bool :=
  ((map.get modelAlias).getD []).any fun candidate => candidate.statsIndex == slot

/-- The part of a step that may influence selections of `modelAlias` in `mode`. -/
def relevant (map : ModelMap) (modelAlias : Text) (mode : LatencyMode) :
    RoutingStep → Option RoutingStep
  | .select other selected =>
      if other = modelAlias then some (.select modelAlias selected) else none
  | .record call =>
      if map.uses modelAlias call.slot then some (.record (call.masked mode)) else none

/-- Steps that look the same select in the same mode or are the same call up to the mask. -/
theorem relevant_pair {map : ModelMap} {modelAlias : Text} {mode : LatencyMode}
    {step other seen : RoutingStep} (shown : map.relevant modelAlias mode step = some seen)
    (shownToo : map.relevant modelAlias mode other = some seen) :
    (∃ selected, step = .select modelAlias selected ∧ other = .select modelAlias selected) ∨
      ∃ call call', step = .record call ∧ other = .record call' ∧
        call.masked mode = call'.masked mode := by
  cases step with
  | select first selected =>
      left
      simp only [relevant, Option.ite_none_right_eq_some, Option.some.injEq] at shown
      obtain ⟨rfl, rfl⟩ := shown
      cases other with
      | select second selected' =>
          simp only [relevant, Option.ite_none_right_eq_some, Option.some.injEq] at shownToo
          obtain ⟨rfl, same⟩ := shownToo
          exact ⟨selected, rfl, same⟩
      | record call => simp [relevant] at shownToo
  | record call =>
      right
      simp only [relevant, Option.ite_none_right_eq_some, Option.some.injEq] at shown
      obtain ⟨-, rfl⟩ := shown
      cases other with
      | select second selected => simp [relevant] at shownToo
      | record call' =>
          simp only [relevant, Option.ite_none_right_eq_some, Option.some.injEq,
            RoutingStep.record.injEq] at shownToo
          exact ⟨call, call', rfl, rfl, shownToo.2.symm⟩

end ModelMap

variable {F : Type} [Float64 F]

/-- `select_candidate` on the candidates registered for the alias. -/
def RoutingState.select (map : ModelMap) (k : F) (state : RoutingState F) (modelAlias : Text)
    (mode : LatencyMode) : Option ℕ × RoundRobinState :=
  selectCandidate modelAlias ((map.get modelAlias).getD []) state.tracker state.rr k mode

def RoutingState.next (map : ModelMap) (k : F) (state : RoutingState F) :
    RoutingStep → RoutingState F
  | .select modelAlias mode => ⟨state.tracker, (state.select map k modelAlias mode).2⟩
  | .record call => ⟨state.tracker.apply call, state.rr⟩

/-- The router as seen by the clients of one alias in one mode. -/
def router (map : ModelMap) (k : F) (modelAlias : Text) (mode : LatencyMode) :
    Machine (RoutingState F) RoutingStep (Option ℕ) where
  next := RoutingState.next map k
  emits state
    | .select other selected =>
        if other = modelAlias ∧ selected = mode then some (state.select map k other selected).1
        else none
    | .record _ => none

/-- What the selections on an alias in a mode return during a run, in order. -/
def selectionsOn (map : ModelMap) (k : F) (modelAlias : Text) (mode : LatencyMode)
    (start : RoutingState F) (steps : List RoutingStep) : List (Option ℕ) :=
  (router map k modelAlias mode).trace start steps

section Statistics

variable {left right : CandidateStats F} {mode : LatencyMode}

/-- All that a selection in `mode` reads from a slot. -/
structure CandidateStats.AgreeIn (mode : LatencyMode) (left right : CandidateStats F) : Prop where
  ewma : left.ewmaMs mode = right.ewmaMs mode
  rate : left.successRate = right.successRate

omit [Float64 F] in
theorem CandidateStats.AgreeIn.symm (agree : left.AgreeIn mode right) : right.AgreeIn mode left :=
  ⟨agree.ewma.symm, agree.rate.symm⟩

omit [Float64 F] in
theorem CandidateStats.AgreeIn.trans {third : CandidateStats F} (before : left.AgreeIn mode right)
    (after : right.AgreeIn mode third) : left.AgreeIn mode third :=
  ⟨before.ewma.trans after.ewma, before.rate.trans after.rate⟩

theorem CandidateStats.AgreeIn.effectiveLatency_eq (agree : left.AgreeIn mode right) :
    effectiveLatency left mode = effectiveLatency right mode := by
  rw [effectiveLatency, effectiveLatency, CandidateStats.isCold, CandidateStats.isCold, agree.ewma,
    agree.rate]

theorem CandidateStats.AgreeIn.rawWeight_eq (agree : left.AgreeIn mode right) (best : Option F)
    (k : F) : rawWeight best k left mode = rawWeight best k right mode := by
  rw [rawWeight, rawWeight, agree.effectiveLatency_eq, agree.rate]

theorem CandidateStats.AgreeIn.outcome (agree : left.AgreeIn mode right) (success : Bool)
    (alpha : F) :
    (left.recordOutcome success alpha).AgreeIn mode (right.recordOutcome success alpha) where
  ewma := by rw [recordOutcome_ewmaMs, recordOutcome_ewmaMs, agree.ewma]
  rate := by rw [recordOutcome, recordOutcome, agree.rate]

/-- Observations of the other mode need not agree. -/
theorem CandidateStats.AgreeIn.latency (agree : left.AgreeIn mode right) {recorded : LatencyMode}
    {first second : UInt64} (same : recorded = mode → first = second) (alpha : F) :
    (left.updateEwma recorded first alpha).AgreeIn mode
      (right.updateEwma recorded second alpha) where
  ewma := by
    by_cases visible : recorded = mode
    · rw [← visible, updateEwma_ewmaMs, updateEwma_ewmaMs, visible, agree.ewma, same visible]
    · rw [left.updateEwma_ewmaMs_of_ne (Ne.symm visible),
        right.updateEwma_ewmaMs_of_ne (Ne.symm visible), agree.ewma]
  rate := by rw [updateEwma_successRate, updateEwma_successRate, agree.rate]

/-- The mask hides nothing that matters in `mode`. -/
theorem CandidateStats.AgreeIn.masked (agree : left.AgreeIn mode right) (call : Tracker.Record)
    (alpha : F) :
    (call.onStats alpha left).AgreeIn mode ((call.masked mode).onStats alpha right) := by
  cases call with
  | error slot => exact agree.outcome false alpha
  | success slot recorded observed =>
      apply (agree.latency _ alpha).outcome true alpha
      intro visible
      rw [if_pos visible]

@[simp] theorem Tracker.Record.slot_masked (call : Tracker.Record) (mode : LatencyMode) :
    (call.masked mode).slot = call.slot := by
  cases call <;> rfl

end Statistics

/-- States the observer cannot tell apart. -/
structure RoutingState.Agree (map : ModelMap) (modelAlias : Text) (mode : LatencyMode)
    (left right : RoutingState F) : Prop where
  alpha : left.tracker.alpha = right.tracker.alpha
  slots : left.tracker.slots.length = right.tracker.slots.length
  stats : ∀ slot, map.uses modelAlias slot = true →
    (left.tracker.stats slot).AgreeIn mode (right.tracker.stats slot)
  tick : left.rr.counters.lookup modelAlias = right.rr.counters.lookup modelAlias

namespace RoutingState

variable {map : ModelMap} {k : F} {modelAlias : Text} {mode : LatencyMode}
  {left right : RoutingState F}

theorem agree_equivalence : Equivalence (Agree (F := F) map modelAlias mode) where
  refl _ := ⟨rfl, rfl, fun _ _ => ⟨rfl, rfl⟩, rfl⟩
  symm agree := {
    alpha := agree.alpha.symm
    slots := agree.slots.symm
    stats := fun slot used => (agree.stats slot used).symm
    tick := agree.tick.symm }
  trans first second := {
    alpha := first.alpha.trans second.alpha
    slots := first.slots.trans second.slots
    stats := fun slot used => (first.stats slot used).trans (second.stats slot used)
    tick := first.tick.trans second.tick }

theorem Agree.candidateWeights_eq (agree : Agree map modelAlias mode left right) :
    candidateWeights ((map.get modelAlias).getD []) left.tracker k mode =
      candidateWeights ((map.get modelAlias).getD []) right.tracker k mode := by
  have same : ∀ candidate ∈ (map.get modelAlias).getD [],
      (left.tracker.stats candidate.statsIndex).AgreeIn mode
        (right.tracker.stats candidate.statsIndex) := by
    intro candidate member
    apply agree.stats
    exact List.any_eq_true.mpr ⟨candidate, member, beq_self_eq_true _⟩
  have latencies : ((map.get modelAlias).getD []).map (fun candidate =>
        effectiveLatency (left.tracker.stats candidate.statsIndex) mode) =
      ((map.get modelAlias).getD []).map fun candidate =>
        effectiveLatency (right.tracker.stats candidate.statsIndex) mode :=
    List.map_congr_left fun candidate member => (same candidate member).effectiveLatency_eq
  simp only [candidateWeights, weightsOf, List.map_map, Function.comp_def, latencies]
  apply List.map_congr_left
  intro candidate member
  rw [(same candidate member).rawWeight_eq]

theorem Agree.nextTick_eq (agree : Agree map modelAlias mode left right) :
    (left.rr.nextTick modelAlias).1 = (right.rr.nextTick modelAlias).1 ∧
      (left.rr.nextTick modelAlias).2.counters.lookup modelAlias =
        (right.rr.nextTick modelAlias).2.counters.lookup modelAlias := by
  cases found : right.rr.counters.lookup modelAlias with
  | none =>
      have unregistered := agree.tick.trans found
      simp only [RoundRobinState.nextTick, found, unregistered, and_self]
  | some tick =>
      have registered := agree.tick.trans found
      rw [RoundRobinState.nextTick_of_lookup found, RoundRobinState.nextTick_of_lookup registered,
        AList.lookup_insert, AList.lookup_insert]
      exact ⟨rfl, rfl⟩

/-- A selection in the observed mode returns the same candidate in both states. -/
theorem Agree.select_eq (agree : Agree map modelAlias mode left right) :
    (left.select map k modelAlias mode).1 = (right.select map k modelAlias mode).1 := by
  rw [select, select]
  by_cases empty : (map.get modelAlias).getD [] = []
  · simp only [empty, selectCandidate, List.isEmpty_nil, if_true]
  · rw [selectCandidate_of_ne_nil empty, selectCandidate_of_ne_nil empty,
      agree.candidateWeights_eq, agree.nextTick_eq.1]

/-- A selection in either mode moves the counter in the same way. -/
theorem Agree.select_tick (agree : Agree map modelAlias mode left right) (selected : LatencyMode) :
    (left.select map k modelAlias selected).2.counters.lookup modelAlias =
      (right.select map k modelAlias selected).2.counters.lookup modelAlias := by
  rw [select, select]
  by_cases empty : (map.get modelAlias).getD [] = []
  · simpa only [empty, selectCandidate, List.isEmpty_nil, if_true] using agree.tick
  · rw [selectCandidate_of_ne_nil empty, selectCandidate_of_ne_nil empty]
    exact agree.nextTick_eq.2

/-- Selections on another alias leave the counter alone. -/
theorem select_tick_of_ne (state : RoutingState F) {other : Text} (different : other ≠ modelAlias)
    (selected : LatencyMode) :
    (state.select map k other selected).2.counters.lookup modelAlias =
      state.rr.counters.lookup modelAlias := by
  rw [select]
  by_cases empty : (map.get other).getD [] = []
  · simp only [empty, selectCandidate, List.isEmpty_nil, if_true]
  · rw [selectCandidate_of_ne_nil empty]
    exact state.rr.lookup_nextTick_of_ne (Ne.symm different)

/-- A record on a slot the alias does not use is not noticed. -/
theorem agree_of_unused (state : RoutingState F) {call : Tracker.Record}
    (unused : map.uses modelAlias call.slot = false) :
    Agree map modelAlias mode state ⟨state.tracker.apply call, state.rr⟩ where
  alpha := (state.tracker.apply_alpha call).symm
  slots := (state.tracker.length_apply call).symm
  stats slot used := by
    have different : slot ≠ call.slot := by
      rintro rfl
      rw [unused] at used
      cases used
    rw [state.tracker.stats_apply_of_ne different]
    exact ⟨rfl, rfl⟩
  tick := rfl

/-- The same call on both sides, except for a duration measured in the other mode. -/
theorem Agree.record (agree : Agree map modelAlias mode left right) {call other : Tracker.Record}
    (same : call.masked mode = other.masked mode) :
    Agree map modelAlias mode ⟨left.tracker.apply call, left.rr⟩
      ⟨right.tracker.apply other, right.rr⟩ := by
  have sameSlot : call.slot = other.slot := by
    rw [← call.slot_masked mode, same, other.slot_masked]
  refine ⟨?_, ?_, ?_, agree.tick⟩
  · rw [left.tracker.apply_alpha, right.tracker.apply_alpha, agree.alpha]
  · rw [left.tracker.length_apply, right.tracker.length_apply, agree.slots]
  intro slot used
  by_cases here : slot = call.slot
  · by_cases inBounds : left.tracker.InBounds call.slot
    · have alsoIn : right.tracker.InBounds other.slot := by
        rwa [Tracker.InBounds, ← agree.slots, ← sameSlot]
      have before := agree.stats slot used
      rw [here, left.tracker.stats_apply_self inBounds]
      rw [sameSlot, right.tracker.stats_apply_self alsoIn, ← sameSlot, ← here, ← agree.alpha]
      have masked := before.masked call left.tracker.alpha
      rw [same] at masked
      exact masked.trans ((before.symm.trans before).masked other left.tracker.alpha).symm
    · have alsoOut : ¬right.tracker.InBounds other.slot := by
        rwa [Tracker.InBounds, ← agree.slots, ← sameSlot]
      rw [Tracker.apply_of_out inBounds, Tracker.apply_of_out alsoOut]
      exact agree.stats slot used
  · rw [left.tracker.stats_apply_of_ne here, right.tracker.stats_apply_of_ne (sameSlot ▸ here)]
    exact agree.stats slot used

end RoutingState

theorem router_unwinds (map : ModelMap) (k : F) (modelAlias : Text) (mode : LatencyMode) :
    (router map k modelAlias mode).Unwinds (map.relevant modelAlias mode)
      (RoutingState.Agree map modelAlias mode) where
  equivalence := RoutingState.agree_equivalence
  silent state step hidden := by
    cases step with
    | record call => rfl
    | select other selected =>
        have different : other ≠ modelAlias := by
          simpa [ModelMap.relevant] using hidden
        exact if_neg fun both => different both.1
  invisible state step hidden := by
    cases step with
    | record call =>
        apply state.agree_of_unused
        simpa [ModelMap.relevant] using hidden
    | select other selected =>
        have different : other ≠ modelAlias := by
          simpa [ModelMap.relevant] using hidden
        exact {
          alpha := rfl
          slots := rfl
          stats := fun _ _ => ⟨rfl, rfl⟩
          tick := (state.select_tick_of_ne different selected).symm }
  output left right step other seen agree shown shownToo := by
    rcases ModelMap.relevant_pair shown shownToo with
      ⟨selected, rfl, rfl⟩ | ⟨call, call', rfl, rfl, -⟩
    · by_cases observed : selected = mode
      · subst observed
        have same := agree.select_eq (k := k)
        simp only [router, and_self, if_true, same]
      · simp only [router, observed, and_false, if_false]
    · rfl
  visible left right step other seen agree shown shownToo := by
    rcases ModelMap.relevant_pair shown shownToo with
      ⟨selected, rfl, rfl⟩ | ⟨call, call', rfl, rfl, same⟩
    · exact {
        alpha := agree.alpha
        slots := agree.slots
        stats := agree.stats
        tick := agree.select_tick selected }
    · exact agree.record same

/-- Two runs that differ only in durations of the other mode, in records on slots the
alias does not use and in selections on other aliases select the same candidates on the
alias in the mode. -/
theorem selections_noninterference (map : ModelMap) (k : F) (modelAlias : Text)
    (mode : LatencyMode) (start : RoutingState F) {left right : List RoutingStep}
    (agree : left.filterMap (map.relevant modelAlias mode) =
      right.filterMap (map.relevant modelAlias mode)) :
    selectionsOn map k modelAlias mode start left =
      selectionsOn map k modelAlias mode start right :=
  (router_unwinds map k modelAlias mode).trace_eq agree (RoutingState.agree_equivalence.refl start)

/-- A response ninety times slower in the other mode, an error on a slot of another
alias and a selection there go unnoticed. -/
theorem selections_noninterference_slow_responses :
    ∃ map after, (fromConfig (Config.single "openai".toList "https://api.openai.com/v1".toList
        "fast".toList ["gpt-4o".toList, "gpt-5".toList]) (.new (1 / 2) (1 / 2) : Tracker ℝ) :
          Except (ConfigError ℝ Text) _) = .ok (map, after) ∧
      selectionsOn map 3 "fast".toList .streaming
          ⟨after, RoundRobinState.new.registerAlias "fast".toList⟩
          [.record (.success 0 .nonStreaming (.fromMillis 100)),
            .record (.success 1 .streaming (.fromMillis 20)),
            .select "fast".toList .nonStreaming, .select "fast".toList .streaming] =
        selectionsOn map 3 "fast".toList .streaming
          ⟨after, RoundRobinState.new.registerAlias "fast".toList⟩
          [.record (.success 0 .nonStreaming (.fromMillis 9000)), .record (.error 2),
            .record (.success 1 .streaming (.fromMillis 20)), .select "slow".toList .streaming,
            .select "fast".toList .nonStreaming, .select "fast".toList .streaming] :=
  ⟨_, _, rfl, selections_noninterference _ 3 _ _ _ rfl⟩

end Sturnus
