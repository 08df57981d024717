import Sturnus.Router

/-!
# Weights in exact arithmetic

With `f64` read as the reals every weight lies between the probe floor and the
resolution, and it moves with the raw weight.
-/

namespace Sturnus

open Foundation

section WeightOf

/-- The least weight, `weightResolution * probeFloor`. -/
theorem floor_le_weightOf (raw : ℝ) : 10 ≤ (weightOf raw).toNat := by
  have floored : (10 : ℝ) ≤ max (Float64.round (raw * weightResolution))
      (weightResolution * probeFloor) := by
    apply le_max_of_le_right
    apply le_of_eq
    norm_num [weightResolution, probeFloor]
  have truncated : 10 ≤ ⌊max (Float64.round (raw * weightResolution))
      (weightResolution * probeFloor)⌋₊ := Nat.le_floor (by exact_mod_cast floored)
  rw [weightOf, toU64_real_toNat]
  omega

theorem weightOf_toNat {raw : ℝ} (nonneg : 0 ≤ raw) :
    (weightOf raw).toNat = min (max ⌊raw * 1000 + 1 / 2⌋₊ 10) (2 ^ 64 - 1) := by
  have scaled : 0 ≤ raw * 1000 := mul_nonneg nonneg (by norm_num)
  have rounded : Float64.round (raw * weightResolution) = (⌊raw * 1000 + 1 / 2⌋₊ : ℕ) := by
    have resolution : (weightResolution : ℝ) = 1000 := by norm_num [weightResolution]
    rw [resolution, round_real, roundHalfAway_of_nonneg scaled,
      natCast_floor_eq_intCast_floor (by linarith)]
  have floored : (weightResolution * probeFloor : ℝ) = (10 : ℕ) := by
    norm_num [weightResolution, probeFloor]
  rw [weightOf, toU64_real_toNat, rounded, floored, ← Nat.cast_max, Nat.floor_natCast]

/-- A candidate is at the floor as long as its raw weight rounds to at most ten units. -/
theorem weightOf_eq_ten_iff {raw : ℝ} (nonneg : 0 ≤ raw) :
    (weightOf raw).toNat = 10 ↔ raw < 21 / 2000 := by
  have below : ⌊raw * 1000 + 1 / 2⌋₊ < 11 ↔ raw * 1000 + 1 / 2 < 11 := by
    rw [Nat.floor_lt' (by norm_num)]
    norm_num
  have scaled : raw * 1000 + 1 / 2 < 11 ↔ raw < 21 / 2000 := by
    constructor <;> intro bound <;> linarith
  rw [weightOf_toNat nonneg, ← scaled, ← below]
  omega

theorem weightOf_mono {raw other : ℝ} (nonneg : 0 ≤ raw) (ordered : raw ≤ other) :
    (weightOf raw).toNat ≤ (weightOf other).toNat := by
  have resolution : (0 : ℝ) ≤ weightResolution := by norm_num [weightResolution]
  apply toU64_real_mono
  apply max_le_max_right
  rw [round_real, round_real]
  exact roundHalfAway_mono (mul_nonneg nonneg resolution)
    (mul_le_mul_of_nonneg_right ordered resolution)

theorem weightOf_one : weightOf (1 : ℝ) = 1000 := by
  have exact : max (Float64.round ((1 : ℝ) * weightResolution)) (weightResolution * probeFloor) =
      (1000 : ℕ) := by
    have rounded : Float64.round ((1 : ℝ) * weightResolution) = (1000 : ℕ) := by
      rw [round_real, ← roundHalfAway_natCast 1000]
      norm_num [weightResolution]
    rw [rounded]
    norm_num [weightResolution, probeFloor]
  apply UInt64.toNat_inj.mp
  rw [weightOf, toU64_real_toNat, exact, Nat.floor_natCast]
  decide

theorem weightOf_le {raw : ℝ} (nonneg : 0 ≤ raw) (atMost : raw ≤ 1) :
    (weightOf raw).toNat ≤ 1000 := by
  have bound := weightOf_mono nonneg atMost
  rwa [weightOf_one] at bound

end WeightOf

section Effective

variable {stats other : CandidateStats ℝ} {mode : LatencyMode}

/-- Success rate with the floor applied. -/
noncomputable def flooredRate (stats : CandidateStats ℝ) : ℝ := max stats.successRate minSuccessRate

theorem flooredRate_pos (stats : CandidateStats ℝ) : 0 < flooredRate stats := by
  apply lt_max_of_lt_right
  norm_num [minSuccessRate]

theorem flooredRate_le_one (rate : stats.successRate ≤ 1) : flooredRate stats ≤ 1 := by
  apply max_le rate
  norm_num [minSuccessRate]

theorem flooredRate_mono (ordered : stats.successRate ≤ other.successRate) :
    flooredRate stats ≤ flooredRate other := max_le_max_right _ ordered

theorem max_one_toNat (n : UInt64) : (max n 1).toNat = max n.toNat 1 := by
  have unfolded : max n 1 = if n ≤ 1 then 1 else n := rfl
  rw [unfolded]
  split
  next small => exact (max_eq_right (UInt64.le_iff_toNat_le.mp small)).symm
  next large =>
      have above : 1 ≤ n.toNat :=
        (not_le.mp fun below => large (UInt64.le_iff_toNat_le.mpr below)).le
      exact (max_eq_left above).symm

theorem effectiveLatency_of_cold (cold : stats.isCold mode = true) :
    effectiveLatency stats mode = none := if_pos cold

theorem effectiveLatency_of_warm (warm : stats.isCold mode = false) :
    effectiveLatency stats mode =
      some ((max (stats.ewmaMs mode).toNat 1 : ℕ) / flooredRate stats) := by
  rw [effectiveLatency, warm, ofU64_real, max_one_toNat]
  rfl

theorem effectiveLatency_pos {latency : ℝ} (warm : effectiveLatency stats mode = some latency) :
    0 < latency := by
  cases cold : stats.isCold mode with
  | true => simp [effectiveLatency_of_cold cold] at warm
  | false =>
      rw [effectiveLatency_of_warm cold, Option.some.injEq] at warm
      have positive : 0 < max (stats.ewmaMs mode).toNat 1 := lt_max_of_lt_right one_pos
      rw [← warm]
      exact div_pos (by exact_mod_cast positive) (flooredRate_pos stats)

end Effective

section Best

/-- `best` is the least latency of the warm candidates, if there is one. -/
structure IsBest (effective : List (Option ℝ)) (best : Option ℝ) : Prop where
  bound : ∀ latency, some latency ∈ effective → ∃ least, best = some least ∧ least ≤ latency
  attained : ∀ least, best = some least → some least ∈ effective

theorem bestEffective_isBest (effective : List (Option ℝ)) :
    IsBest effective (bestEffective effective) := by
  induction effective using List.reverseRecOn with
  | nil => exact ⟨by simp, by simp [bestEffective]⟩
  | append_singleton earlier latency inductionHypothesis =>
      rw [bestEffective, List.foldl_append, ← bestEffective]
      obtain ⟨bound, attained⟩ := inductionHypothesis
      cases latency with
      | none => exact ⟨by simpa using bound, by simpa using attained⟩
      | some latency =>
          cases least : bestEffective earlier with
          | none =>
              refine ⟨?_, by simp⟩
              intro other member
              rcases List.mem_append.mp member with inside | last
              · obtain ⟨_, found, -⟩ := bound other inside
                rw [least] at found
                cases found
              · simp only [List.mem_singleton, Option.some.injEq] at last
                exact ⟨latency, rfl, last.ge⟩
          | some least' =>
              constructor
              · intro other member
                refine ⟨min least' latency, rfl, ?_⟩
                rcases List.mem_append.mp member with inside | last
                · obtain ⟨_, found, below⟩ := bound other inside
                  rw [least, Option.some.injEq] at found
                  exact (min_le_left _ _).trans (found ▸ below)
                · simp only [List.mem_singleton, Option.some.injEq] at last
                  exact (min_le_right _ _).trans last.ge
              · intro chosen same
                simp only [List.foldl_cons, List.foldl_nil, Option.some.injEq] at same
                rcases min_choice least' latency with left | right
                · rw [← same, left]
                  exact List.mem_append_left _ (attained least' least)
                · rw [← same, right]
                  simp

/-- The reference latency of a list of slots. -/
noncomputable def bestOf (mode : LatencyMode) (slots : List (CandidateStats ℝ)) : Option ℝ :=
  bestEffective (slots.map (effectiveLatency · mode))

variable {mode : LatencyMode} {slots : List (CandidateStats ℝ)} {latency least : ℝ}

theorem bestOf_le (stats : CandidateStats ℝ) (member : stats ∈ slots)
    (warm : effectiveLatency stats mode = some latency) :
    ∃ least, bestOf mode slots = some least ∧ least ≤ latency :=
  (bestEffective_isBest _).bound latency (List.mem_map.mpr ⟨stats, member, warm⟩)

theorem bestOf_attained (found : bestOf mode slots = some least) :
    ∃ stats ∈ slots, effectiveLatency stats mode = some least :=
  List.mem_map.mp ((bestEffective_isBest _).attained least found)

theorem bestOf_pos (found : bestOf mode slots = some least) : 0 < least := by
  obtain ⟨stats, -, warm⟩ := bestOf_attained found
  exact effectiveLatency_pos warm

end Best

section RawWeight

variable {stats : CandidateStats ℝ} {mode : LatencyMode} {k : ℝ}

theorem rawWeight_of_warm {latency least : ℝ} (warm : effectiveLatency stats mode = some latency) :
    rawWeight (some least) k stats mode = (least / latency) ^ k := by
  simp [rawWeight, warm]

theorem rawWeight_of_cold (best : Option ℝ) (cold : effectiveLatency stats mode = none) :
    rawWeight best k stats mode =
      (if best.isSome then 1 / 4 else 1) * flooredRate stats ^ k := by
  have finite : best.any Float64.isFinite = best.isSome := by cases best <;> rfl
  simp [rawWeight, cold, finite, coldProbeWeight, flooredRate]

theorem rawWeight_nonneg {slots : List (CandidateStats ℝ)} (member : stats ∈ slots) (k : ℝ) :
    0 ≤ rawWeight (bestOf mode slots) k stats mode := by
  cases warm : effectiveLatency stats mode with
  | some latency =>
      obtain ⟨least, found, -⟩ := bestOf_le stats member warm
      rw [found, rawWeight_of_warm warm]
      exact Real.rpow_nonneg (div_nonneg (bestOf_pos found).le (effectiveLatency_pos warm).le) k
  | none =>
      rw [rawWeight_of_cold _ warm]
      have powered : 0 ≤ flooredRate stats ^ k := Real.rpow_nonneg (flooredRate_pos stats).le k
      split <;> linarith

/-- No raw weight exceeds the best candidate's. -/
theorem rawWeight_le_one {slots : List (CandidateStats ℝ)} (member : stats ∈ slots)
    (nonneg : 0 ≤ k) (rate : stats.successRate ≤ 1) :
    rawWeight (bestOf mode slots) k stats mode ≤ 1 := by
  cases warm : effectiveLatency stats mode with
  | some latency =>
      obtain ⟨least, found, below⟩ := bestOf_le stats member warm
      have positive := effectiveLatency_pos warm
      rw [found, rawWeight_of_warm warm]
      exact Real.rpow_le_one (div_nonneg (bestOf_pos found).le positive.le)
        (div_le_one_of_le₀ below positive.le) nonneg
  | none =>
      rw [rawWeight_of_cold _ warm]
      have powered : flooredRate stats ^ k ≤ 1 :=
        Real.rpow_le_one (flooredRate_pos stats).le (flooredRate_le_one rate) nonneg
      split <;> linarith

/-- Every candidate owns between ten and a thousand units. -/
theorem weightsOf_bounds {slots : List (CandidateStats ℝ)} (nonneg : 0 ≤ k)
    (rates : ∀ stats ∈ slots, stats.successRate ≤ 1) {weight : UInt64}
    (member : weight ∈ weightsOf k mode slots) : 10 ≤ weight.toNat ∧ weight.toNat ≤ 1000 := by
  obtain ⟨stats, inside, rfl⟩ := List.mem_map.mp member
  exact ⟨floor_le_weightOf _, weightOf_le (rawWeight_nonneg inside k)
    (rawWeight_le_one inside nonneg (rates stats inside))⟩

/-- The weight `select_candidate` gives to the candidate at a position. -/
theorem candidateWeights_getElem? {candidates : List ResolvedCandidate} {index : ℕ}
    {candidate : ResolvedCandidate} (found : candidates[index]? = some candidate)
    (tracker : Tracker ℝ) (k : ℝ) (mode : LatencyMode) :
    (candidateWeights candidates tracker k mode)[index]? =
      some (weightOf (rawWeight (bestOf mode
        (candidates.map fun candidate => tracker.stats candidate.statsIndex)) k
          (tracker.stats candidate.statsIndex) mode)) := by
  rw [candidateWeights, weightsOf, List.getElem?_map, List.getElem?_map, found]
  rfl

/-- Before the first outcome all candidates weigh the same. -/
theorem candidateWeights_fresh {candidates : List ResolvedCandidate} {tracker : Tracker ℝ}
    (fresh : ∀ candidate ∈ candidates, tracker.stats candidate.statsIndex = .new) (k : ℝ)
    (mode : LatencyMode) :
    candidateWeights candidates tracker k mode = List.replicate candidates.length 1000 := by
  have slots : candidates.map (fun candidate => tracker.stats candidate.statsIndex) =
      List.replicate candidates.length .new := by
    rw [← List.map_const]
    exact List.map_congr_left fresh
  have cold : effectiveLatency (.new : CandidateStats ℝ) mode = none := by cases mode <;> rfl
  have noBest : bestOf mode (List.replicate candidates.length (.new : CandidateStats ℝ)) = none := by
    cases best : bestOf mode (List.replicate candidates.length (.new : CandidateStats ℝ)) with
    | none => rfl
    | some least =>
        obtain ⟨stats, member, warm⟩ := bestOf_attained best
        rw [List.eq_of_mem_replicate member, cold] at warm
        cases warm
  have rate : flooredRate (.new : CandidateStats ℝ) = 1 := by
    norm_num [flooredRate, CandidateStats.new, minSuccessRate]
  rw [candidateWeights, slots, weightsOf, List.map_replicate, List.map_replicate, ← weightOf_one]
  rw [bestOf, List.map_replicate] at noBest
  rw [noBest, rawWeight_of_cold none cold, rate]
  simp

end RawWeight

end Sturnus
