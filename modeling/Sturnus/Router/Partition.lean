import Sturnus.Config
import Sturnus.Router.Starvation

/-!
# The slices partition the ticks

With the settings `validate` accepts, every weight is in range, the total is
positive and every tick is scaled to a position below it.  The position lies in
the slice of exactly one candidate, so the walk never falls through.
-/

namespace Sturnus

open Foundation

theorem Config.inUnit_real {value : ℝ} : Config.inUnit value = true ↔ value ∈ Set.Icc 0 1 := by
  rw [Config.inUnit, Bool.and_eq_true, le_real, le_real]
  rfl

theorem Config.Valid.exploitK_nonneg {config : Config ℝ} (valid : config.Valid) :
    0 ≤ config.routing.exploitK := by
  have bound := valid.exploitK
  rwa [← Bool.not_eq_true, lt_real, not_lt] at bound

/-- The product of a spread tick and a total fits 128 bits. -/
theorem spread_mul_total_lt (tick : UInt64) (weights : List UInt64) :
    (tick * weylStep).toNat * weights.sum.toNat < 2 ^ 128 := by
  have product : (2 ^ 128 : ℕ) = 2 ^ 64 * 2 ^ 64 := by norm_num
  rw [product]
  exact Nat.mul_lt_mul'' (UInt64.toNat_lt _) (UInt64.toNat_lt _)

/-- Without overflow the walk stops in the only slice that contains the position. -/
theorem exists_unique_slice {weights : List UInt64} (bounded : totalWeight weights < 2 ^ 64)
    (positive : 0 < totalWeight weights) (tick : UInt64) :
    ∃ index < weights.length, scan (position weights tick) 0 weights = some index ∧
      ∀ other < weights.length,
        (sliceStart weights other ≤ (position weights tick).toNat ∧
          (position weights tick).toNat < sliceStart weights (other + 1)) ↔ other = index := by
  have below := position_lt bounded positive tick
  have start : (0 : UInt64).toNat + totalWeight weights < 2 ^ 64 := by simpa using bounded
  obtain ⟨index, inside, found⟩ := scan_isSome start (by simpa using below) UInt64.zero_le
  have picked : selectIndex weights tick = index := by rw [selectIndex, found, Option.getD_some]
  refine ⟨index, inside, found, ?_⟩
  intro other otherInside
  rw [← selectIndex_eq_iff bounded positive tick otherInside, picked, eq_comm]

/-- Every call with candidates picks the one whose slice the tick falls into. -/
theorem selectCandidate_partitions {Addr : Type} [DecidableEq Addr] {config : Config ℝ}
    {parseAddr : Text → Option Addr} (accepted : config.validate parseAddr = .ok ())
    {tracker : Tracker ℝ}
    (reachable : Tracker.Reachable config.routing.ewmaAlpha config.routing.errorThreshold tracker)
    (modelAlias : Text) (candidates : List ResolvedCandidate) (rr : RoundRobinState)
    (mode : LatencyMode) :
    let k := config.routing.exploitK
    let weights := candidateWeights candidates tracker k mode
    let tick := (rr.nextTick modelAlias).1
    ((selectCandidate modelAlias candidates tracker rr k mode).1 = none ↔ candidates = []) ∧
    (∀ weight ∈ weights, 10 ≤ weight.toNat ∧ weight.toNat ≤ 1000) ∧
    totalWeight weights ≤ 1000 * candidates.length ∧
    (tick * weylStep).toNat * weights.sum.toNat < 2 ^ 128 ∧
    -- A list that fits an address space is far shorter.
    (candidates ≠ [] → 1000 * candidates.length < 2 ^ 64 →
      weights.sum.toNat = totalWeight weights ∧
      (position weights tick).toNat < totalWeight weights ∧
      ∃ index < candidates.length,
        (selectCandidate modelAlias candidates tracker rr k mode).1 = some index ∧
        scan (position weights tick) 0 weights = some index ∧
        ∀ other < candidates.length,
          (sliceStart weights other ≤ (position weights tick).toNat ∧
            (position weights tick).toNat < sliceStart weights (other + 1)) ↔ other = index) := by
  intro k weights tick
  have valid := Config.valid_of_validate accepted
  have inRange : InRange weights := candidateWeights_inRange (Config.inUnit_real.mp valid.ewmaAlpha)
    reachable candidates valid.exploitK_nonneg mode
  have length : weights.length = candidates.length := length_candidateWeights ..
  obtain ⟨least, most⟩ := inRange.total_bounds
  rw [length] at least most
  refine ⟨?_, inRange, most, spread_mul_total_lt _ _, ?_⟩
  · constructor
    · intro nothing
      by_contra nonempty
      rw [selectCandidate_of_ne_nil nonempty] at nothing
      cases nothing
    · rintro rfl
      rfl
  · intro nonempty fits
    have bounded : totalWeight weights < 2 ^ 64 := most.trans_lt fits
    have positive : 0 < totalWeight weights := by
      have some : 0 < candidates.length := List.length_pos_iff.mpr nonempty
      omega
    refine ⟨sum_toNat bounded, position_lt bounded positive _, ?_⟩
    obtain ⟨index, inside, found, only⟩ := exists_unique_slice bounded positive tick
    rw [length] at inside only
    refine ⟨index, inside, ?_, found, only⟩
    rw [selectCandidate_of_ne_nil nonempty]
    exact congrArg some (by rw [selectIndex, found, Option.getD_some])

theorem selectCandidate_partitions_pair :
    (Config.single "openai".toList "https://api.openai.com/v1".toList "fast".toList
      ["gpt-4o".toList, "gpt-5".toList] : Config ℝ).validate some = .ok () ∧
    ∃ map after candidates, (fromConfig (Config.single "openai".toList
        "https://api.openai.com/v1".toList "fast".toList ["gpt-4o".toList, "gpt-5".toList])
        (.new (RoutingConfig.default : RoutingConfig ℝ).ewmaAlpha
          (RoutingConfig.default : RoutingConfig ℝ).errorThreshold) :
        Except (ConfigError ℝ Text) _) = .ok (map, after) ∧
      map.get "fast".toList = some candidates ∧
      ∃ index < candidates.length, (selectCandidate "fast".toList candidates after .new
        (RoutingConfig.default : RoutingConfig ℝ).exploitK .streaming).1 = some index := by
  have validated : (Config.single "openai".toList "https://api.openai.com/v1".toList "fast".toList
      ["gpt-4o".toList, "gpt-5".toList] : Config ℝ).validate some = .ok () :=
    Config.single_validate _ _ _ (by decide)
  obtain ⟨map, after, left, right, accepted, found, -⟩ := fromConfig_pair
    (RoutingConfig.default : RoutingConfig ℝ).ewmaAlpha
    (RoutingConfig.default : RoutingConfig ℝ).errorThreshold
  have partition := (selectCandidate_partitions validated (fromConfig_reachable accepted .new)
    "fast".toList [left, right] .new .streaming).2.2.2.2 (by simp) (by simp)
  obtain ⟨index, inside, picked, -⟩ := partition.2.2
  exact ⟨validated, map, after, [left, right], accepted, found, index, inside, picked⟩

end Sturnus
