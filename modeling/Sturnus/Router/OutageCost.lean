import Sturnus.Router.ProbeShare

/-!
# What an outage costs

A candidate that only fails has a thousand times its old latency as effective
latency.  That puts it at the probe floor unless it used to be about 219 times
faster than the healthy candidates: then it keeps a larger share, and from a
thousand times on it is itself the reference.
-/

namespace Sturnus

open Foundation

/-- The latency EWMA as `select_candidate` uses it, guarded against 0 ms. -/
def guardedEwma (stats : CandidateStats ℝ) (mode : LatencyMode) : ℕ :=
  max (stats.ewmaMs mode).toNat 1

/-- In every alias with both candidates the failing one has at most the probe share. -/
def OutageCostBounded (tracker : Tracker ℝ) (mode : LatencyMode)
    (failing healthy : ResolvedCandidate) : Prop :=
  ∀ (candidates : List ResolvedCandidate) (index : ℕ), candidates[index]? = some failing →
    healthy ∈ candidates → share candidates tracker exploitK mode index ≤ probeShare

section Latencies

variable {stats : CandidateStats ℝ} {mode : LatencyMode}

theorem guardedEwma_pos (stats : CandidateStats ℝ) (mode : LatencyMode) :
    0 < guardedEwma stats mode := lt_max_of_lt_right one_pos

theorem effectiveLatency_of_failing (warm : stats.isCold mode = false)
    (failed : stats.successRate ≤ minSuccessRate) :
    effectiveLatency stats mode = some (1000 * guardedEwma stats mode : ℝ) := by
  have rate : flooredRate stats = 1 / 1000 := by
    rw [flooredRate, max_eq_right failed]
    norm_num [minSuccessRate]
  rw [effectiveLatency_of_warm warm, rate, guardedEwma, div_div_eq_mul_div, div_one, mul_comm]

theorem effectiveLatency_of_healthy (warm : stats.isCold mode = false)
    (perfect : stats.successRate = 1) :
    effectiveLatency stats mode = some (guardedEwma stats mode : ℝ) := by
  have rate : flooredRate stats = 1 := by
    rw [flooredRate, perfect]
    norm_num [minSuccessRate]
  rw [effectiveLatency_of_warm warm, rate, guardedEwma, div_one]

theorem exploitK_real : (exploitK : ℝ) = (3 : ℕ) := by norm_num [exploitK]

theorem exploitK_nonneg : (0 : ℝ) ≤ exploitK := by norm_num [exploitK]

/-- The raw weight of a failing candidate measured against a healthy one. -/
theorem cubed_ratio_lt_iff {slow fast : ℕ} (positive : 0 < fast) :
    ((slow : ℝ) / (1000 * fast)) ^ (exploitK : ℝ) < 21 / 2000 ↔
      2 * slow ^ 3 < 21 * 10 ^ 6 * fast ^ 3 := by
  have fastReal : (0 : ℝ) < (1000 * fast) ^ 3 := by positivity
  rw [exploitK_real, Real.rpow_natCast, div_pow, div_lt_div_iff₀ fastReal (by norm_num)]
  constructor
  · intro bound
    have scaled : ((2 * slow ^ 3 : ℕ) : ℝ) < (21 * 10 ^ 6 * fast ^ 3 : ℕ) := by
      push_cast
      linarith
    exact_mod_cast scaled
  · intro bound
    have scaled : ((2 * slow ^ 3 : ℕ) : ℝ) < (21 * 10 ^ 6 * fast ^ 3 : ℕ) := by
      exact_mod_cast bound
    push_cast at scaled
    linarith

/-- A reference below the slow latency makes the ratio smaller still. -/
theorem cubed_ratio_lt_of_le {least : ℝ} {slow fast : ℕ} (nonneg : 0 ≤ least)
    (below : least ≤ slow) (positive : 0 < fast) (bound : 2 * slow ^ 3 < 21 * 10 ^ 6 * fast ^ 3) :
    (least / (1000 * fast)) ^ (exploitK : ℝ) < 21 / 2000 := by
  have ratio : least / (1000 * (fast : ℝ)) ≤ slow / (1000 * fast) :=
    div_le_div_of_nonneg_right below (by positivity)
  calc (least / (1000 * fast)) ^ (exploitK : ℝ)
      ≤ (slow / (1000 * fast)) ^ (exploitK : ℝ) :=
        Real.rpow_le_rpow (by positivity) ratio exploitK_nonneg
    _ < 21 / 2000 := (cubed_ratio_lt_iff positive).mpr bound

end Latencies

section Cost

variable {alpha errorThreshold : ℝ} {tracker : Tracker ℝ} {mode : LatencyMode}
  {failing healthy : ResolvedCandidate}

/-- The failing candidate is not the reference, so another one has all thousand units. -/
theorem outage_cost_of_floor (unit : alpha ∈ Set.Icc 0 1)
    (reachable : Tracker.Reachable alpha errorThreshold tracker)
    {candidates : List ResolvedCandidate} {index : ℕ} (found : candidates[index]? = some failing)
    {least : ℝ}
    (best : bestOf mode (candidates.map fun candidate => tracker.stats candidate.statsIndex) =
      some least)
    (notBest : effectiveLatency (tracker.stats failing.statsIndex) mode ≠ some least)
    (floor : (weightOf (rawWeight (some least) exploitK (tracker.stats failing.statsIndex)
      mode)).toNat = 10) :
    share candidates tracker exploitK mode index ≤ probeShare := by
  obtain ⟨stats, member, attained⟩ := bestOf_attained best
  obtain ⟨reference, inside, rfl⟩ := List.mem_map.mp member
  obtain ⟨position, inCandidates, at'⟩ := List.getElem_of_mem inside
  have atPosition : candidates[position]? = some reference :=
    List.getElem?_eq_some_iff.mpr ⟨inCandidates, at'⟩
  have other : position ≠ index := by
    rintro rfl
    rw [found, Option.some.injEq] at atPosition
    exact notBest (atPosition ▸ attained)
  have own := candidateWeights_getElem? found tracker exploitK mode
  have top := candidateWeights_getElem? atPosition tracker exploitK mode
  rw [best] at own top
  rw [rawWeight_of_warm attained, div_self (bestOf_pos best).ne', Real.one_rpow,
    weightOf_one] at top
  obtain ⟨insideOwn, ownWeight⟩ := List.getElem?_eq_some_iff.mp own
  obtain ⟨insideTop, topWeight⟩ := List.getElem?_eq_some_iff.mp top
  have inRange := candidateWeights_inRange unit reachable candidates exploitK_nonneg mode
  have around := (inRange.total_around insideTop).1
  have thousand : (1000 : UInt64).toNat = 1000 := rfl
  rw [topWeight, thousand] at around
  rw [share_eq _ _ _ insideOwn, ownWeight, floor, ratio_le_iff (by omega)]
  omega

/-- A cold candidate, or one whose old latency is not far below the healthy one's, is at
the floor next to it. -/
theorem outage_cost_bounded (unit : alpha ∈ Set.Icc 0 1)
    (reachable : Tracker.Reachable alpha errorThreshold tracker)
    (failed : (tracker.stats failing.statsIndex).successRate ≤ minSuccessRate)
    (warm : (tracker.stats healthy.statsIndex).isCold mode = false)
    (perfect : (tracker.stats healthy.statsIndex).successRate = 1)
    (condition : (tracker.stats failing.statsIndex).isCold mode = true ∨
      2 * guardedEwma (tracker.stats healthy.statsIndex) mode ^ 3 <
        21 * 10 ^ 6 * guardedEwma (tracker.stats failing.statsIndex) mode ^ 3) :
    OutageCostBounded tracker mode failing healthy := by
  intro candidates index found member
  have latency := effectiveLatency_of_healthy warm perfect
  have inList : tracker.stats healthy.statsIndex ∈
      candidates.map fun candidate => tracker.stats candidate.statsIndex :=
    List.mem_map_of_mem member
  obtain ⟨least, best, below⟩ := bestOf_le _ inList latency
  have leastPositive := bestOf_pos best
  cases isCold : (tracker.stats failing.statsIndex).isCold mode with
  | true =>
      have cold := effectiveLatency_of_cold isCold
      apply outage_cost_of_floor unit reachable found best (by simp [cold])
      have rate : flooredRate (tracker.stats failing.statsIndex) = 1 / 1000 := by
        rw [flooredRate, max_eq_right failed]
        norm_num [minSuccessRate]
      rw [rawWeight_of_cold _ cold, rate, exploitK_real, Real.rpow_natCast,
        weightOf_eq_ten_iff (by positivity)]
      norm_num
  | false =>
      rw [isCold] at condition
      have bound := condition.resolve_left Bool.false_ne_true
      have positive := guardedEwma_pos (tracker.stats failing.statsIndex) mode
      have own := effectiveLatency_of_failing isCold failed
      have raw := cubed_ratio_lt_of_le leastPositive.le below positive bound
      apply outage_cost_of_floor unit reachable found best
      · rw [own]
        intro same
        rw [Option.some.inj same, div_self leastPositive.ne', Real.one_rpow] at raw
        norm_num at raw
      · rw [rawWeight_of_warm own, weightOf_eq_ten_iff (by positivity)]
        exact raw

/-- Beyond that ratio the failing candidate has more than the probe share of an alias of
just these two. -/
theorem outage_cost_exceeded (unit : alpha ∈ Set.Icc 0 1)
    (reachable : Tracker.Reachable alpha errorThreshold tracker)
    (failed : (tracker.stats failing.statsIndex).successRate ≤ minSuccessRate)
    (warm : (tracker.stats healthy.statsIndex).isCold mode = false)
    (perfect : (tracker.stats healthy.statsIndex).successRate = 1)
    (isWarm : (tracker.stats failing.statsIndex).isCold mode = false)
    (faster : 21 * 10 ^ 6 * guardedEwma (tracker.stats failing.statsIndex) mode ^ 3 ≤
      2 * guardedEwma (tracker.stats healthy.statsIndex) mode ^ 3) :
    ¬share [failing, healthy] tracker exploitK mode 0 ≤ probeShare := by
  have own := effectiveLatency_of_failing isWarm failed
  have latency := effectiveLatency_of_healthy warm perfect
  have positive := guardedEwma_pos (tracker.stats failing.statsIndex) mode
  have inRange := candidateWeights_inRange unit reachable [failing, healthy] exploitK_nonneg mode
  have weight := candidateWeights_getElem?
    (rfl : [failing, healthy][0]? = some failing) tracker exploitK mode
  obtain ⟨inside, weight⟩ := List.getElem?_eq_some_iff.mp weight
  obtain ⟨below, above⟩ := inRange.total_around inside
  rw [length_candidateWeights] at below above
  have inList : tracker.stats failing.statsIndex ∈
      [failing, healthy].map fun candidate => tracker.stats candidate.statsIndex :=
    List.mem_map_of_mem List.mem_cons_self
  -- Whichever of the two is the reference, the ratio is not below the bound.
  have raw : ¬rawWeight (bestOf mode ([failing, healthy].map fun candidate =>
      tracker.stats candidate.statsIndex)) exploitK (tracker.stats failing.statsIndex) mode <
        21 / 2000 := by
    obtain ⟨least, best, -⟩ := bestOf_le _ inList own
    obtain ⟨stats, member, attained⟩ := bestOf_attained best
    rw [best, rawWeight_of_warm own]
    simp only [List.map_cons, List.map_nil, List.mem_cons, List.not_mem_nil, or_false] at member
    rcases member with rfl | rfl
    · rw [own, Option.some.injEq] at attained
      rw [attained, div_self (bestOf_pos best).ne', Real.one_rpow]
      norm_num
    · rw [latency, Option.some.injEq] at attained
      rw [← attained, cubed_ratio_lt_iff positive, not_lt]
      exact faster
  have notTen : (candidateWeights [failing, healthy] tracker exploitK mode)[0].toNat ≠ 10 := by
    rw [weight]
    exact fun ten => raw ((weightOf_eq_ten_iff (rawWeight_nonneg inList _)).mp ten)
  obtain ⟨least, -⟩ := inRange _ (List.getElem_mem inside)
  rw [share_eq _ _ _ inside, ratio_le_iff (by omega)]
  simp only [List.length_cons, List.length_nil] at below above
  omega

/-- Next to a warm candidate that never fails, one that only fails is held to the probe
share in every alias exactly if it is cold or not some 219 times faster. -/
theorem outage_cost_iff (unit : alpha ∈ Set.Icc 0 1)
    (reachable : Tracker.Reachable alpha errorThreshold tracker) (mode : LatencyMode)
    (failed : (tracker.stats failing.statsIndex).successRate ≤ minSuccessRate)
    (warm : (tracker.stats healthy.statsIndex).isCold mode = false)
    (perfect : (tracker.stats healthy.statsIndex).successRate = 1) :
    OutageCostBounded tracker mode failing healthy ↔
      (tracker.stats failing.statsIndex).isCold mode = true ∨
      2 * guardedEwma (tracker.stats healthy.statsIndex) mode ^ 3 <
        21 * 10 ^ 6 * guardedEwma (tracker.stats failing.statsIndex) mode ^ 3 := by
  constructor
  · intro bounded
    by_contra fails
    simp only [not_or, Bool.not_eq_true, not_lt] at fails
    exact outage_cost_exceeded unit reachable failed warm perfect fails.1 fails.2
      (bounded [failing, healthy] 0 rfl (by simp))
  · exact outage_cost_bounded unit reachable failed warm perfect

end Cost

section Pair

/-- With `alpha = 1`: a success in `fast` ms and an error on slot 0, and a success in `slow`
ms on slot 1. -/
def outageOfFirst (fast slow : UInt64) : List Tracker.Record :=
  [.success 0 .streaming (.fromMillis fast), .error 0, .success 1 .streaming (.fromMillis slow)]

theorem outageOfFirst_stats (fast slow : UInt64) {after : Tracker ℝ} (alpha : after.alpha = 1)
    (fresh : ∀ slot, after.stats slot = .new) (inBounds : after.InBounds 0 ∧ after.InBounds 1) :
    ((outageOfFirst fast slow).foldl Tracker.apply after).stats 0 =
        ⟨UInt64.ofNat (Duration.fromMillis fast).asMillis, u64Max, 0⟩ ∧
      ((outageOfFirst fast slow).foldl Tracker.apply after).stats 1 =
        ⟨UInt64.ofNat (Duration.fromMillis slow).asMillis, u64Max, 1⟩ := by
  constructor
  · rw [Tracker.stats_foldl_apply _ _ inBounds.1, fresh, alpha]
    simp [outageOfFirst, Tracker.Record.slot, Tracker.Record.onStats, CandidateStats.recordOutcome,
      CandidateStats.new, CandidateStats.updateEwma, CandidateStats.nextEwma]
  · rw [Tracker.stats_foldl_apply _ _ inBounds.2, fresh, alpha]
    simp [outageOfFirst, Tracker.Record.slot, Tracker.Record.onStats, CandidateStats.recordOutcome,
      CandidateStats.new, CandidateStats.updateEwma, CandidateStats.nextEwma]

/-- 40 ms before the outage against a healthy 50 ms. -/
theorem outage_cost_of_similar :
    ∃ map after left right, (fromConfig (Config.single "openai".toList
        "https://api.openai.com/v1".toList "fast".toList ["gpt-4o".toList, "gpt-5".toList])
        (.new 1 (1 / 2) : Tracker ℝ) : Except (ConfigError ℝ Text) _) = .ok (map, after) ∧
      map.get "fast".toList = some [left, right] ∧
      (OutageCostBounded ((outageOfFirst 40 50).foldl Tracker.apply after) .streaming left right ↔
        (((outageOfFirst 40 50).foldl Tracker.apply after).stats left.statsIndex).isCold
            .streaming = true ∨
          2 * guardedEwma (((outageOfFirst 40 50).foldl Tracker.apply after).stats
              right.statsIndex) .streaming ^ 3 <
            21 * 10 ^ 6 * guardedEwma (((outageOfFirst 40 50).foldl Tracker.apply after).stats
              left.statsIndex) .streaming ^ 3) := by
  obtain ⟨map, after, left, right, accepted, found, first, second, alpha, inBounds⟩ :=
    fromConfig_pair 1 (1 / 2)
  obtain ⟨failed, healthy⟩ := outageOfFirst_stats 40 50 alpha
    (fromConfig_fresh accepted) inBounds
  refine ⟨map, after, left, right, accepted, found, ?_⟩
  apply outage_cost_iff (by norm_num) ((fromConfig_reachable accepted .new).foldl _) .streaming
  · rw [first, failed]
    norm_num [minSuccessRate]
  · rw [second, healthy]
    rfl
  · rw [second, healthy]

/-- One millisecond before the outage against a healthy ten seconds: the failing candidate
is the reference. -/
theorem outage_cost_unbounded :
    ∃ map after left right, (fromConfig (Config.single "openai".toList
        "https://api.openai.com/v1".toList "fast".toList ["gpt-4o".toList, "gpt-5".toList])
        (.new 1 (1 / 2) : Tracker ℝ) : Except (ConfigError ℝ Text) _) = .ok (map, after) ∧
      map.get "fast".toList = some [left, right] ∧
      (((outageOfFirst 1 10000).foldl Tracker.apply after).stats left.statsIndex).successRate ≤
        minSuccessRate ∧
      (((outageOfFirst 1 10000).foldl Tracker.apply after).stats right.statsIndex).isCold
        .streaming = false ∧
      (((outageOfFirst 1 10000).foldl Tracker.apply after).stats right.statsIndex).successRate = 1 ∧
      ¬share [left, right] ((outageOfFirst 1 10000).foldl Tracker.apply after) exploitK
        .streaming 0 ≤ probeShare := by
  obtain ⟨map, after, left, right, accepted, found, first, second, alpha, inBounds⟩ :=
    fromConfig_pair 1 (1 / 2)
  obtain ⟨failed, healthy⟩ := outageOfFirst_stats 1 10000 alpha
    (fromConfig_fresh accepted) inBounds
  rw [← first] at failed
  rw [← second] at healthy
  have failing : (((outageOfFirst 1 10000).foldl Tracker.apply after).stats
      left.statsIndex).successRate ≤ minSuccessRate := by
    rw [failed]
    norm_num [minSuccessRate]
  have warm : (((outageOfFirst 1 10000).foldl Tracker.apply after).stats
      right.statsIndex).isCold .streaming = false := by
    rw [healthy]
    rfl
  have perfect : (((outageOfFirst 1 10000).foldl Tracker.apply after).stats
      right.statsIndex).successRate = 1 := by
    rw [healthy]
  refine ⟨map, after, left, right, accepted, found, failing, warm, perfect, ?_⟩
  apply outage_cost_exceeded (by norm_num) ((fromConfig_reachable accepted .new).foldl _) failing
    warm perfect
  · rw [failed]
    rfl
  · have slow : guardedEwma ⟨UInt64.ofNat (Duration.fromMillis 10000).asMillis, u64Max, 1⟩
        .streaming = 10000 := rfl
    have fast : guardedEwma ⟨UInt64.ofNat (Duration.fromMillis 1).asMillis, u64Max, 0⟩
        .streaming = 1 := rfl
    rw [failed, healthy, slow, fast]
    norm_num

end Pair

end Sturnus
