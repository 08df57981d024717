import Mathlib.Data.List.Forall2
import Sturnus.Router.Feedback

/-!
# A faster candidate is never weighted below a slower one

Two slots see outcomes of the same pattern, one with latencies that are never
above the other's.  The relation between their statistics that every pair of
outcomes keeps: equal success rates, and in each mode both cold or the EWMAs
in order and too small to be taken for the cold mark.
-/

namespace Sturnus

open Foundation CandidateStats

/-- At one position of two histories: both errors, or both successes in one mode with
the first latency at most the second. -/
inductive Tracker.Record.NotSlower : Tracker.Record → Tracker.Record → Prop where
  | error (fast slow : ℕ) : NotSlower (.error fast) (.error slow)
  | success (fast slow : ℕ) (mode : LatencyMode) {quick long : Duration} :
      quick.asMillis ≤ long.asMillis → long.asMillis < 2 ^ 53 →
      NotSlower (.success fast mode quick) (.success slow mode long)

/-- Two EWMAs of one mode: both cold, or in order and below `2^53`. -/
def EwmaLe (fast slow : UInt64) : Prop :=
  fast = u64Max ∧ slow = u64Max ∨ fast.toNat ≤ slow.toNat ∧ slow.toNat < 2 ^ 53

structure CandidateStats.NotSlower (fast slow : CandidateStats ℝ) : Prop where
  rate : fast.successRate = slow.successRate
  ewma : ∀ mode, EwmaLe (fast.ewmaMs mode) (slow.ewmaMs mode)

section Histories

variable {alpha : ℝ} {fast slow : CandidateStats ℝ}

theorem EwmaLe.warm {fast slow : UInt64} (ordered : fast.toNat ≤ slow.toNat)
    (small : slow.toNat < 2 ^ 53) : fast ≠ u64Max ∧ slow ≠ u64Max :=
  ⟨ne_u64Max_of_lt (by omega), ne_u64Max_of_lt (by omega)⟩

theorem EwmaLe.next (unit : alpha ∈ Set.Icc 0 1) {fast slow quick long : UInt64}
    (average : EwmaLe fast slow) (observed : quick.toNat ≤ long.toNat)
    (small : long.toNat < 2 ^ 53) :
    EwmaLe (nextEwma alpha quick fast) (nextEwma alpha long slow) := by
  right
  rcases average with ⟨rfl, rfl⟩ | ⟨ordered, bounded⟩
  · rw [nextEwma_of_cold, nextEwma_of_cold]
    exact ⟨observed, small⟩
  · obtain ⟨fastWarm, slowWarm⟩ := EwmaLe.warm ordered bounded
    have bound : (nextEwma alpha long slow).toNat ≤ 2 ^ 53 - 1 :=
      nextEwma_le_of_le unit slowWarm (by omega) (by omega)
    exact ⟨nextEwma_mono unit fastWarm slowWarm observed ordered, by omega⟩

theorem CandidateStats.NotSlower.outcome (related : fast.NotSlower slow) (success : Bool)
    (alpha : ℝ) :
    (fast.recordOutcome success alpha).NotSlower (slow.recordOutcome success alpha) where
  rate := by rw [recordOutcome, recordOutcome, related.rate]
  ewma mode := by
    rw [recordOutcome_ewmaMs, recordOutcome_ewmaMs]
    exact related.ewma mode

theorem CandidateStats.NotSlower.latency (related : fast.NotSlower slow)
    (unit : alpha ∈ Set.Icc 0 1) (mode : LatencyMode) {quick long : UInt64}
    (observed : quick.toNat ≤ long.toNat) (small : long.toNat < 2 ^ 53) :
    (fast.updateEwma mode quick alpha).NotSlower (slow.updateEwma mode long alpha) where
  rate := by rw [updateEwma_successRate, updateEwma_successRate, related.rate]
  ewma other := by
    by_cases same : other = mode
    · subst same
      rw [updateEwma_ewmaMs, updateEwma_ewmaMs]
      exact (related.ewma other).next unit observed small
    · rw [fast.updateEwma_ewmaMs_of_ne same, slow.updateEwma_ewmaMs_of_ne same]
      exact related.ewma other

theorem CandidateStats.NotSlower.record (related : fast.NotSlower slow)
    (unit : alpha ∈ Set.Icc 0 1) {first second : Tracker.Record} (calls : first.NotSlower second) :
    (first.onStats alpha fast).NotSlower (second.onStats alpha slow) := by
  cases calls with
  | error => exact related.outcome false alpha
  | @success _ _ mode quick long ordered small =>
      have exact (d : Duration) (fits : d.asMillis < 2 ^ 53) :
          (UInt64.ofNat d.asMillis).toNat = d.asMillis :=
        UInt64.toNat_ofNat_of_lt' (fits.trans (by norm_num))
      apply (related.latency unit mode ?_ ?_).outcome true alpha
      · rwa [exact quick (ordered.trans_lt small), exact long small]
      · rwa [exact long small]

/-- Histories of one pattern keep the relation. -/
theorem CandidateStats.NotSlower.history (unit : alpha ∈ Set.Icc 0 1)
    {first second : List Tracker.Record}
    (pattern : List.Forall₂ Tracker.Record.NotSlower first second)
    {fast slow : CandidateStats ℝ} (related : fast.NotSlower slow) :
    (first.foldl (Tracker.Record.onStats alpha) fast).NotSlower
      (second.foldl (Tracker.Record.onStats alpha) slow) := by
  induction pattern generalizing fast slow with
  | nil => exact related
  | cons calls _ inductionHypothesis => exact inductionHypothesis (related.record unit calls)

theorem CandidateStats.NotSlower.fresh : (.new : CandidateStats ℝ).NotSlower .new where
  rate := rfl
  ewma mode := by
    left
    cases mode <;> exact ⟨rfl, rfl⟩

/-- In the terms of the routing: the slower statistics are not better. -/
theorem CandidateStats.NotSlower.noBetter (related : fast.NotSlower slow) (mode : LatencyMode) :
    NoBetter mode slow fast := by
  rcases related.ewma mode with ⟨fastCold, slowCold⟩ | ⟨ordered, bounded⟩
  · apply noBetter_of_le
    · rw [isCold, isCold, fastCold, slowCold]
    · intro warm
      simp [isCold, fastCold] at warm
    · exact related.rate.ge
  · obtain ⟨fastWarm, slowWarm⟩ := EwmaLe.warm ordered bounded
    apply noBetter_of_le
    · simp [isCold, fastWarm, slowWarm]
    · intro _
      exact ordered
    · exact related.rate.ge

end Histories

section Weights

variable {mode : LatencyMode} {k : ℝ}

/-- Among the candidates of one list, worse statistics do not weigh more. -/
theorem rawWeight_le_of_noBetter {slots : List (CandidateStats ℝ)} {worse better : CandidateStats ℝ}
    (order : NoBetter mode worse better) (nonneg : 0 ≤ k) (member : better ∈ slots) :
    rawWeight (bestOf mode slots) k worse mode ≤ rawWeight (bestOf mode slots) k better mode := by
  cases order with
  | cold worseCold betterCold rate =>
      have powered : flooredRate worse ^ k ≤ flooredRate better ^ k :=
        Real.rpow_le_rpow (flooredRate_pos worse).le (flooredRate_mono rate) nonneg
      rw [rawWeight_of_cold _ worseCold, rawWeight_of_cold _ betterCold]
      apply mul_le_mul_of_nonneg_left powered
      split <;> norm_num
  | @warm slow fast worseWarm betterWarm faster =>
      obtain ⟨least, found, -⟩ := bestOf_le better member betterWarm
      have slowPositive := effectiveLatency_pos worseWarm
      have fastPositive := effectiveLatency_pos betterWarm
      have bestPositive := bestOf_pos found
      rw [found, rawWeight_of_warm worseWarm, rawWeight_of_warm betterWarm]
      apply Real.rpow_le_rpow (div_nonneg bestPositive.le slowPositive.le) _ nonneg
      exact div_le_div_of_nonneg_left bestPositive.le fastPositive faster

/-- After two histories of one pattern on fresh slots, the candidate whose latencies were
never above the other's weighs at least as much as the other, in every list of candidates
that contains both. -/
theorem faster_candidate_never_below {tracker : Tracker ℝ} (unit : tracker.alpha ∈ Set.Icc 0 1)
    {fast slow : ℕ} (fastIn : tracker.InBounds fast) (slowIn : tracker.InBounds slow)
    (fastFresh : tracker.stats fast = .new) (slowFresh : tracker.stats slow = .new)
    {records : List Tracker.Record}
    (pattern : List.Forall₂ Tracker.Record.NotSlower (records.filter (·.slot == fast))
      (records.filter (·.slot == slow)))
    (nonneg : 0 ≤ k) (mode : LatencyMode) {candidates : List ResolvedCandidate} {i j : ℕ}
    {quick long : ResolvedCandidate} (atI : candidates[i]? = some quick)
    (atJ : candidates[j]? = some long) (quickSlot : quick.statsIndex = fast)
    (longSlot : long.statsIndex = slow) :
    ∃ heavy light, (candidateWeights candidates (records.foldl Tracker.apply tracker) k mode)[i]? =
        some heavy ∧
      (candidateWeights candidates (records.foldl Tracker.apply tracker) k mode)[j]? = some light ∧
      light.toNat ≤ heavy.toNat := by
  have related : ((records.foldl Tracker.apply tracker).stats fast).NotSlower
      ((records.foldl Tracker.apply tracker).stats slow) := by
    rw [Tracker.stats_foldl_apply records tracker fastIn,
      Tracker.stats_foldl_apply records tracker slowIn, fastFresh, slowFresh]
    exact CandidateStats.NotSlower.fresh.history unit pattern
  refine ⟨_, _, candidateWeights_getElem? atI _ k mode, candidateWeights_getElem? atJ _ k mode, ?_⟩
  rw [quickSlot, longSlot]
  have inList (index : ℕ) {candidate : ResolvedCandidate}
      (at' : candidates[index]? = some candidate) :
      (records.foldl Tracker.apply tracker).stats candidate.statsIndex ∈
        candidates.map fun candidate =>
          (records.foldl Tracker.apply tracker).stats candidate.statsIndex :=
    List.mem_map_of_mem (List.mem_of_getElem? at')
  apply weightOf_mono
  · exact rawWeight_nonneg (longSlot ▸ inList j atJ) k
  · exact rawWeight_le_of_noBetter (related.noBetter mode) nonneg (quickSlot ▸ inList i atI)

/-- Latencies of 100 and 250 ms and one error each, in another order. -/
theorem faster_candidate_never_below_mixed :
    ∃ map after left right, (fromConfig (Config.single "openai".toList
        "https://api.openai.com/v1".toList "fast".toList ["gpt-4o".toList, "gpt-5".toList])
        (.new (1 / 2) (1 / 2) : Tracker ℝ) : Except (ConfigError ℝ Text) _) = .ok (map, after) ∧
      map.get "fast".toList = some [left, right] ∧
      ∃ heavy light,
        (candidateWeights [left, right] ([.success 0 .streaming (.fromMillis 100),
          .success 1 .streaming (.fromMillis 250), .error 1, .error 0].foldl Tracker.apply after)
          3 .streaming)[0]? = some heavy ∧
        (candidateWeights [left, right] ([.success 0 .streaming (.fromMillis 100),
          .success 1 .streaming (.fromMillis 250), .error 1, .error 0].foldl Tracker.apply after)
          3 .streaming)[1]? = some light ∧
        light.toNat ≤ heavy.toNat := by
  obtain ⟨map, after, left, right, accepted, found, first, second, alpha, firstIn, secondIn⟩ :=
    fromConfig_pair (1 / 2) (1 / 2)
  have quick : (Duration.fromMillis 100).asMillis ≤ (Duration.fromMillis 250).asMillis := by decide
  have small : (Duration.fromMillis 250).asMillis < 2 ^ 53 := by decide
  refine ⟨map, after, left, right, accepted, found, ?_⟩
  refine faster_candidate_never_below (by rw [alpha]; norm_num) firstIn secondIn
    (fromConfig_fresh accepted 0) (fromConfig_fresh accepted 1) ?_ (by norm_num) .streaming rfl rfl
    first second
  exact .cons (.success 0 1 .streaming quick small) (.cons (.error 0 1) .nil)

end Weights

end Sturnus
