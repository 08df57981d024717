import Mathlib.Data.List.GetD
import Sturnus.Router.Feedback
import Sturnus.Router.Starvation

/-!
# How small the share of a candidate can get

The probe floor is applied to each weight before the total is known.  With two
candidates ten units are at least a hundred-and-first of the total; with more,
one candidate at the floor and the others at the top leave it less.
-/

namespace Sturnus

open Foundation

/-- Ten units of 1010: the floor against one candidate at the top. -/
noncomputable def probeShare : ℝ := ((10 : ℕ) : ℝ) / (1010 : ℕ)

section Totals

variable {weights : List UInt64} {own total : ℕ}

/-- The total when one of the weights is known. -/
theorem InRange.total_around (inRange : InRange weights) {index : ℕ}
    (inside : index < weights.length) :
    weights[index].toNat + 10 * (weights.length - 1) ≤ totalWeight weights ∧
      totalWeight weights ≤ weights[index].toNat + 1000 * (weights.length - 1) := by
  obtain ⟨front, back, split, -⟩ := exists_split inside
  generalize weights[index] = weight at split ⊢
  subst split
  have others : InRange (front ++ back) := by
    intro other member
    apply inRange
    rcases List.mem_append.mp member with left | right
    · exact List.mem_append_left _ left
    · exact List.mem_append_right _ (List.mem_cons_of_mem _ right)
  obtain ⟨below, above⟩ := others.total_bounds
  have parts : totalWeight (front ++ back) = totalWeight front + totalWeight back := by
    simp [totalWeight]
  rw [parts, List.length_append] at below above
  rw [totalWeight_middle, List.length_append, List.length_cons]
  omega

theorem le_ratio_iff (positive : 0 < total) :
    probeShare ≤ (own / total : ℝ) ↔ total ≤ 101 * own := by
  have totalReal : (0 : ℝ) < total := by exact_mod_cast positive
  rw [probeShare, div_le_div_iff₀ (by norm_num) totalReal]
  constructor
  · intro bound
    have scaled : (total : ℝ) ≤ (101 * own : ℕ) := by push_cast at bound ⊢; linarith
    exact_mod_cast scaled
  · intro bound
    have scaled : (total : ℝ) ≤ (101 * own : ℕ) := by exact_mod_cast bound
    push_cast at scaled ⊢
    linarith

theorem ratio_le_iff (positive : 0 < total) :
    (own / total : ℝ) ≤ probeShare ↔ 101 * own ≤ total := by
  have totalReal : (0 : ℝ) < total := by exact_mod_cast positive
  rw [probeShare, div_le_div_iff₀ totalReal (by norm_num)]
  constructor
  · intro bound
    have scaled : (101 * own : ℕ) ≤ (total : ℝ) := by push_cast at bound ⊢; linarith
    exact_mod_cast scaled
  · intro bound
    have scaled : ((101 * own : ℕ) : ℝ) ≤ total := by exact_mod_cast bound
    push_cast at scaled ⊢
    linarith

end Totals

section Enough

variable {tracker : Tracker ℝ} {k : ℝ} {mode : LatencyMode}
  {candidates : List ResolvedCandidate} {index : ℕ}

theorem share_eq (tracker : Tracker ℝ) (k : ℝ) (mode : LatencyMode)
    (inside : index < (candidateWeights candidates tracker k mode).length) :
    share candidates tracker k mode index =
      (candidateWeights candidates tracker k mode)[index].toNat /
        totalWeight (candidateWeights candidates tracker k mode) := by
  simp only [share, List.getD_eq_getElem _ _ inside]

/-- Two candidates always keep the probe share. -/
theorem probe_share_of_two (inRange : InRange (candidateWeights candidates tracker k mode))
    (two : candidates.length ≤ 2) (inside : index < candidates.length) :
    probeShare ≤ share candidates tracker k mode index := by
  have inWeights : index < (candidateWeights candidates tracker k mode).length := by
    rwa [length_candidateWeights]
  obtain ⟨below, above⟩ := inRange.total_around inWeights
  obtain ⟨least, -⟩ := inRange _ (List.getElem_mem inWeights)
  rw [length_candidateWeights] at below above
  rw [share_eq _ _ _ inWeights, le_ratio_iff (by omega)]
  omega

/-- Candidates on one slot divide the traffic evenly. -/
theorem share_of_one_slot {slot : ℕ} (same : ∀ candidate ∈ candidates, candidate.statsIndex = slot)
    (tracker : Tracker ℝ) (k : ℝ) (mode : LatencyMode) (inside : index < candidates.length) :
    probeShare ≤ share candidates tracker k mode index ↔ candidates.length ≤ 101 := by
  obtain ⟨weight, least, equal⟩ : ∃ weight : UInt64, 10 ≤ weight.toNat ∧
      candidateWeights candidates tracker k mode = List.replicate candidates.length weight := by
    refine ⟨weightOf (rawWeight (bestOf mode
      (candidates.map fun candidate => tracker.stats candidate.statsIndex)) k
        (tracker.stats slot) mode), floor_le_weightOf _, ?_⟩
    rw [candidateWeights, weightsOf, List.map_map, ← List.map_const]
    apply List.map_congr_left
    intro candidate member
    rw [Function.comp_apply, same candidate member]
    rfl
  have total : totalWeight (List.replicate candidates.length weight) =
      candidates.length * weight.toNat := by
    rw [totalWeight, List.map_replicate, List.sum_replicate, smul_eq_mul]
  have positive : 0 < candidates.length * weight.toNat := Nat.mul_pos (by omega) (by omega)
  have inWeights : index < (candidateWeights candidates tracker k mode).length := by
    rwa [length_candidateWeights]
  rw [share_eq _ _ _ inWeights]
  simp only [equal, List.getElem_replicate, total]
  rw [le_ratio_iff positive]
  exact Nat.mul_le_mul_right_iff (by omega)

end Enough

section Outage

/-- One failure on a slot and one fast success on each of the others. -/
def outageRecords (failing slots : ℕ) : List Tracker.Record :=
  (List.range slots).map fun slot =>
    if slot = failing then .error slot else .success slot .streaming (.fromMillis 1)

/-- `slots` new slots after those records; the last outcome alone counts. -/
noncomputable def outage (failing slots : ℕ) : Tracker ℝ :=
  (outageRecords failing slots).foldl Tracker.apply ⟨List.replicate slots .new, 1, 1⟩

theorem outage_reachable (failing slots : ℕ) :
    Tracker.Reachable 1 1 (outage failing slots) :=
  (Tracker.Reachable.new.replicate slots).foldl _

variable {failing slots slot : ℕ}

theorem outage_inBounds (inside : slot < slots) : (outage failing slots).InBounds slot := by
  rw [outage, Tracker.inBounds_foldl_apply, Tracker.InBounds, List.length_replicate]
  exact inside

theorem outageRecords_filter (inside : slot < slots) :
    (outageRecords failing slots).filter (·.slot == slot) =
      [if slot = failing then .error slot else .success slot .streaming (.fromMillis 1)] := by
  have own : (fun call : Tracker.Record => call.slot == slot) ∘ (fun slot : ℕ =>
      if slot = failing then Tracker.Record.error slot
      else .success slot .streaming (.fromMillis 1)) = (· == slot) := by
    funext other
    rw [Function.comp_apply]
    split <;> rfl
  rw [outageRecords, List.filter_map, own, List.filter_beq,
    List.nodup_range.count, if_pos (List.mem_range.mpr inside)]
  rfl

theorem outage_stats (inside : slot < slots) :
    (outage failing slots).stats slot =
      if slot = failing then ⟨u64Max, u64Max, 0⟩ else ⟨1, u64Max, 1⟩ := by
  have inBounds : (⟨List.replicate slots .new, 1, 1⟩ : Tracker ℝ).InBounds slot := by
    rwa [Tracker.InBounds, List.length_replicate]
  have fresh : (⟨List.replicate slots .new, 1, 1⟩ : Tracker ℝ).stats slot = .new := by
    simp [Tracker.stats, List.getD_eq_getElem?_getD, inside]
  rw [outage, Tracker.stats_foldl_apply _ _ inBounds, fresh, outageRecords_filter inside]
  split
  · simp [Tracker.Record.onStats, CandidateStats.recordOutcome, CandidateStats.new]
  · simp [Tracker.Record.onStats, CandidateStats.recordOutcome, CandidateStats.new,
      CandidateStats.updateEwma, CandidateStats.nextEwma]
    decide

theorem effectiveLatency_failed :
    effectiveLatency (⟨u64Max, u64Max, 0⟩ : CandidateStats ℝ) .streaming = none := rfl

theorem effectiveLatency_fast :
    effectiveLatency (⟨1, u64Max, 1⟩ : CandidateStats ℝ) .streaming = some 1 := by
  have rate : flooredRate (⟨1, u64Max, 1⟩ : CandidateStats ℝ) = 1 := by
    norm_num [flooredRate, minSuccessRate]
  have latency : max ((⟨1, u64Max, 1⟩ : CandidateStats ℝ).ewmaMs .streaming).toNat 1 = 1 := rfl
  rw [effectiveLatency_of_warm (by decide), rate, latency]
  norm_num

variable {candidates : List ResolvedCandidate} {i j : ℕ} {probed healthy : ResolvedCandidate}

/-- The failing candidate is at the floor and every healthy one at the top. -/
theorem outage_weights (registered : ∀ candidate ∈ candidates, candidate.statsIndex < slots)
    (atI : candidates[i]? = some probed) (probedSlot : probed.statsIndex = failing)
    (atJ : candidates[j]? = some healthy) (healthySlot : healthy.statsIndex ≠ failing) :
    ∃ low high,
      (candidateWeights candidates (outage failing slots) 3 .streaming)[i]? = some low ∧
      (candidateWeights candidates (outage failing slots) 3 .streaming)[j]? = some high ∧
      low.toNat = 10 ∧ high.toNat = 1000 := by
  have memberI := List.mem_of_getElem? atI
  have memberJ := List.mem_of_getElem? atJ
  have failed : (outage failing slots).stats probed.statsIndex = ⟨u64Max, u64Max, 0⟩ := by
    rw [outage_stats (registered _ memberI), if_pos probedSlot]
  have fast : (outage failing slots).stats healthy.statsIndex = ⟨1, u64Max, 1⟩ := by
    rw [outage_stats (registered _ memberJ), if_neg healthySlot]
  have best : bestOf .streaming (candidates.map fun candidate =>
      (outage failing slots).stats candidate.statsIndex) = some 1 := by
    have inList : (outage failing slots).stats healthy.statsIndex ∈ candidates.map fun candidate =>
        (outage failing slots).stats candidate.statsIndex := List.mem_map_of_mem memberJ
    obtain ⟨least, found, -⟩ := bestOf_le _ inList
      ((congrArg (effectiveLatency · .streaming) fast).trans effectiveLatency_fast)
    obtain ⟨stats, inside, warm⟩ := bestOf_attained found
    obtain ⟨candidate, member, rfl⟩ := List.mem_map.mp inside
    rw [outage_stats (registered _ member)] at warm
    split at warm
    · rw [effectiveLatency_failed] at warm
      cases warm
    · rw [effectiveLatency_fast] at warm
      rw [found, ← warm]
  refine ⟨_, _, candidateWeights_getElem? atI _ 3 .streaming,
    candidateWeights_getElem? atJ _ 3 .streaming, ?_, ?_⟩
  · rw [failed, best]
    have raw : rawWeight (some 1) 3 (⟨u64Max, u64Max, 0⟩ : CandidateStats ℝ) .streaming =
        1 / 4 * (1 / 1000) ^ (3 : ℝ) := by
      rw [rawWeight_of_cold _ effectiveLatency_failed]
      norm_num [flooredRate, minSuccessRate]
    rw [raw, weightOf_eq_ten_iff (by positivity)]
    norm_num
  · rw [fast, best, rawWeight_of_warm effectiveLatency_fast, div_one, Real.one_rpow, weightOf_one]
    decide

/-- With three candidates the failing one is left with less than the probe share. -/
theorem outage_share_lt (registered : ∀ candidate ∈ candidates, candidate.statsIndex < slots)
    (three : 3 ≤ candidates.length) (atI : candidates[i]? = some probed)
    (probedSlot : probed.statsIndex = failing) (atJ : candidates[j]? = some healthy)
    (healthySlot : healthy.statsIndex ≠ failing) :
    ¬probeShare ≤ share candidates (outage failing slots) 3 .streaming i := by
  obtain ⟨low, high, foundLow, foundHigh, ten, thousand⟩ :=
    outage_weights registered atI probedSlot atJ healthySlot
  obtain ⟨insideI, rfl⟩ := List.getElem?_eq_some_iff.mp foundLow
  obtain ⟨insideJ, rfl⟩ := List.getElem?_eq_some_iff.mp foundHigh
  have inRange := candidateWeights_inRange (by norm_num) (outage_reachable failing slots)
    candidates (k := 3) (by norm_num) .streaming
  have around := (inRange.total_around insideJ).1
  rw [length_candidateWeights] at around
  rw [share_eq _ _ _ insideI, le_ratio_iff (by omega)]
  omega

end Outage

/-- Every candidate of the alias has the probe share in every reachable state. -/
def KeepsProbeShare (candidates : List ResolvedCandidate) : Prop :=
  ∀ (alpha errorThreshold : ℝ) (tracker : Tracker ℝ), alpha ∈ Set.Icc 0 1 →
    Tracker.Reachable alpha errorThreshold tracker →
    (∀ candidate ∈ candidates, tracker.InBounds candidate.statsIndex) →
    ∀ (k : ℝ), 0 ≤ k → ∀ (mode : LatencyMode) (index : ℕ), index < candidates.length →
      probeShare ≤ share candidates tracker k mode index

/-- The probe share is kept by one or two candidates, and by up to 101 that share a slot. -/
theorem probe_share_iff {candidates : List ResolvedCandidate} (nonempty : candidates ≠ []) :
    KeepsProbeShare candidates ↔ candidates.length ≤ 2 ∨
      candidates.length ≤ 101 ∧ ∀ first ∈ candidates, ∀ second ∈ candidates,
        first.statsIndex = second.statsIndex := by
  have positive := List.length_pos_of_ne_nil nonempty
  obtain ⟨bound, registered⟩ : ∃ bound, ∀ candidate ∈ candidates, candidate.statsIndex < bound := by
    refine ⟨(candidates.map ResolvedCandidate.statsIndex).sum + 1, ?_⟩
    intro candidate member
    exact Nat.lt_succ_of_le (List.le_sum_of_mem (List.mem_map_of_mem member))
  constructor
  · intro keeps
    by_contra fails
    simp only [not_or, not_and, not_le] at fails
    obtain ⟨three, spread⟩ := fails
    -- The first candidate's slot fails; the others are healthy unless they share it.
    obtain ⟨probed, rest, split⟩ := List.exists_cons_of_ne_nil nonempty
    have inSlots : ∀ candidate ∈ candidates,
        (outage probed.statsIndex bound).InBounds candidate.statsIndex :=
      fun candidate member => outage_inBounds (registered candidate member)
    have kept := keeps 1 1 _ (by norm_num) (outage_reachable probed.statsIndex bound) inSlots
      3 (by norm_num) .streaming 0 positive
    by_cases same : ∀ candidate ∈ candidates, candidate.statsIndex = probed.statsIndex
    · have few := (share_of_one_slot same _ 3 .streaming positive).mp kept
      obtain ⟨first, inFirst, second, inSecond, different⟩ := by simpa using spread few
      exact different ((same first inFirst).trans (same second inSecond).symm)
    · simp only [not_forall] at same
      obtain ⟨healthy, member, different⟩ := same
      obtain ⟨j, insideJ, atJ⟩ := List.getElem_of_mem member
      have head : candidates[0]? = some probed := by rw [split]; rfl
      exact outage_share_lt registered three head rfl
        (List.getElem?_eq_some_iff.mpr ⟨insideJ, atJ⟩) different kept
  · rintro (two | ⟨few, same⟩)
    · intro alpha errorThreshold tracker unit reachable _ k nonneg mode index inside
      exact probe_share_of_two (candidateWeights_inRange unit reachable candidates nonneg mode)
        two inside
    · intro alpha errorThreshold tracker unit reachable _ k nonneg mode index inside
      exact (share_of_one_slot (fun candidate member => same candidate member _
        (List.getElem_mem positive)) tracker k mode inside).mpr few

theorem probe_share_of_pair :
    ∃ map after left right, (fromConfig (Config.single "openai".toList
        "https://api.openai.com/v1".toList "fast".toList ["gpt-4o".toList, "gpt-5".toList])
        (.new (1 / 2) (1 / 2) : Tracker ℝ) : Except (ConfigError ℝ Text) _) = .ok (map, after) ∧
      map.get "fast".toList = some [left, right] ∧
      (KeepsProbeShare [left, right] ↔ [left, right].length ≤ 2 ∨
        [left, right].length ≤ 101 ∧ ∀ first ∈ [left, right], ∀ second ∈ [left, right],
          first.statsIndex = second.statsIndex) := by
  obtain ⟨map, after, left, right, accepted, found, -⟩ := fromConfig_pair (1 / 2) (1 / 2)
  exact ⟨map, after, left, right, accepted, found, probe_share_iff (List.cons_ne_nil _ _)⟩

/-- Three candidates, one error on the first and one fast success on the others. -/
theorem probe_share_lost_by_three :
    ∃ map after candidates, (fromConfig (Config.single "openai".toList
        "https://api.openai.com/v1".toList "fast".toList
        ["gpt-4o".toList, "gpt-5".toList, "o3".toList])
        (.new 1 1 : Tracker ℝ) : Except (ConfigError ℝ Text) _) = .ok (map, after) ∧
      map.get "fast".toList = some candidates ∧ candidates.length = 3 ∧
      ¬probeShare ≤ share candidates ([.error 0, .success 1 .streaming (.fromMillis 1),
        .success 2 .streaming (.fromMillis 1)].foldl Tracker.apply after) 3 .streaming 0 := by
  have start : ∃ map after first second third, (fromConfig (Config.single "openai".toList
        "https://api.openai.com/v1".toList "fast".toList
        ["gpt-4o".toList, "gpt-5".toList, "o3".toList])
        (.new 1 1 : Tracker ℝ) : Except (ConfigError ℝ Text) _) = .ok (map, after) ∧
      map.get "fast".toList = some [first, second, third] ∧ first.statsIndex = 0 ∧
      second.statsIndex = 1 ∧ third.statsIndex = 2 ∧
      after = ⟨List.replicate 3 .new, 1, 1⟩ := ⟨_, _, _, _, _, rfl, rfl, rfl, rfl, rfl, rfl⟩
  obtain ⟨map, after, first, second, third, accepted, found, zero, one, two, slots⟩ := start
  refine ⟨map, after, [first, second, third], accepted, found, rfl, ?_⟩
  have registered : ∀ candidate ∈ [first, second, third], candidate.statsIndex < 3 := by
    simp [zero, one, two]
  have records : outageRecords 0 3 = [.error 0, .success 1 .streaming (.fromMillis 1),
      .success 2 .streaming (.fromMillis 1)] := rfl
  have state : [.error 0, .success 1 .streaming (.fromMillis 1),
      .success 2 .streaming (.fromMillis 1)].foldl Tracker.apply after = outage 0 3 := by
    rw [slots, outage, records]
  have other : second.statsIndex ≠ 0 := by simp [one]
  rw [state]
  exact outage_share_lt (i := 0) (j := 1) registered (Nat.le_refl 3) rfl zero rfl other

end Sturnus
