import Mathlib.Analysis.SpecialFunctions.Log.Base
import Mathlib.Data.Nat.Fib.Zeckendorf
import Sturnus.Foundation.Equidistribution
import Sturnus.Router.Weights

/-!
# Routing shares follow the weights

While the statistics stand still, the picks of one alias are the visits of a
golden-ratio rotation to the slices of the candidates.  Fibonacci numbers are
denominators of good approximations of its angle, so every window of picks is
distributed in proportion to the weights up to a logarithmic error.
-/

namespace Sturnus

open Foundation

variable {F : Type} [Float64 F]

/-- `count` consecutive calls of `selectCandidate`. -/
def selections (modelAlias : Text) (candidates : List ResolvedCandidate) (tracker : Tracker F)
    (k : F) (mode : LatencyMode) : ℕ → RoundRobinState → List (Option ℕ)
  | 0, _ => []
  | count + 1, rr =>
      let (pick, rr) := selectCandidate modelAlias candidates tracker rr k mode
      pick :: selections modelAlias candidates tracker k mode count rr

/-- The picks of consecutive ticks. -/
theorem selections_eq_map {modelAlias : Text} {candidates : List ResolvedCandidate}
    (nonempty : candidates ≠ []) {tracker : Tracker F} {k : F} {mode : LatencyMode} (count : ℕ)
    {rr : RoundRobinState} {start : UInt64}
    (registered : rr.counters.lookup modelAlias = some start) :
    selections modelAlias candidates tracker k mode count rr =
      (List.range count).map fun j =>
        some (selectIndex (candidateWeights candidates tracker k mode) (start + UInt64.ofNat j)) := by
  induction count generalizing rr start with
  | zero => rfl
  | succ count inductionHypothesis =>
      let advanced : RoundRobinState := ⟨rr.counters.insert modelAlias (start + 1)⟩
      have next : advanced.counters.lookup modelAlias = some (start + 1) := AList.lookup_insert _
      have tail := inductionHypothesis next
      rw [selections, selectCandidate_of_lookup nonempty registered, List.range_succ_eq_map,
        List.map_cons, List.map_map]
      apply congrArg₂ _ ?_ (tail.trans ?_)
      · simp
      · apply List.map_congr_left
        intro j _
        simp [tick_succ]

section Rotation

/-- The angle of the rotation, close to the golden ratio's inverse. -/
noncomputable def weylRatio : ℝ := weylStep.toNat / (2 ^ 64 : ℕ)

/-- The spread tick is a point of the rotation; wrapping is reduction modulo one. -/
theorem spread_eq_fract (start : UInt64) (j : ℕ) :
    (((start + UInt64.ofNat j) * weylStep).toNat : ℝ) / 2 ^ 64 =
      Int.fract (start.toNat * weylRatio + j * weylRatio) := by
  have angle : start.toNat * weylRatio + j * weylRatio =
      (((start.toNat + j) * weylStep.toNat : ℕ) : ℝ) / ((2 ^ 64 : ℕ) : ℝ) := by
    rw [weylRatio]
    push_cast
    ring
  rw [angle, Int.fract_div_natCast_eq_div_natCast_mod, spread_toNat, Nat.cast_pow, Nat.cast_ofNat]

/-- A tick picks a candidate exactly when its point lies in the candidate's arc. -/
theorem selectIndex_eq_iff_fract {weights : List UInt64} (bounded : totalWeight weights < 2 ^ 64)
    (positive : 0 < totalWeight weights) (start : UInt64) (j : ℕ) {index : ℕ}
    (inside : index < weights.length) :
    selectIndex weights (start + UInt64.ofNat j) = index ↔
      (sliceStart weights index : ℝ) / totalWeight weights ≤
          Int.fract (start.toNat * weylRatio + j * weylRatio) ∧
        Int.fract (start.toNat * weylRatio + j * weylRatio) <
          (sliceStart weights (index + 1) : ℝ) / totalWeight weights := by
  have total : (0 : ℝ) < totalWeight weights := by exact_mod_cast positive
  have modulus : (0 : ℝ) < 2 ^ 64 := by positivity
  rw [selectIndex_eq_iff bounded positive _ inside, position_toNat bounded, ← spread_eq_fract,
    Nat.le_div_iff_mul_le (by positivity), Nat.div_lt_iff_lt_mul (by positivity),
    div_le_div_iff₀ total modulus, div_lt_div_iff₀ modulus total]
  norm_cast

theorem approximates_fib {index : ℕ} (positive : 0 < index) (atMost : index ≤ 46) :
    Approximates weylRatio (Nat.fib index) := by
  have close : ∀ i < 46, |(weylStep.toNat * Nat.fib (i + 1) - Nat.fib i * 2 ^ 64 : ℤ)| *
      (Nat.fib (i + 1) : ℤ) < 2 ^ 64 := by decide +kernel
  obtain ⟨i, rfl⟩ := Nat.exists_eq_add_one.mpr positive
  refine ⟨Nat.fib_pos.mpr positive, Nat.fib i, Nat.fib_coprime_fib_succ i, ?_⟩
  have scaled : weylRatio * Nat.fib (i + 1) - Nat.fib i =
      ((weylStep.toNat * Nat.fib (i + 1) - Nat.fib i * 2 ^ 64 : ℤ) : ℝ) / 2 ^ 64 := by
    rw [weylRatio]
    push_cast
    ring
  rw [scaled, abs_div, abs_of_pos (by positivity : (0 : ℝ) < 2 ^ 64), div_mul_eq_mul_div,
    div_lt_one (by positivity)]
  exact_mod_cast close i (by omega)

/-- Up to 2^31 picks, the greatest Fibonacci number that fits covers at least half. -/
theorem fib_cover (n : ℕ) (positive : 0 < n) (within : n ≤ 2 ^ 31) :
    ∃ q, q ≤ n ∧ n < 2 * q ∧ Approximates weylRatio q := by
  have indexPositive : 0 < n.greatestFib := Nat.greatestFib_pos.mpr positive
  have indexLe : n.greatestFib ≤ 46 := by
    have beyond : n < Nat.fib 47 := within.trans_lt (by decide +kernel)
    exact Nat.le_of_lt_succ (Nat.greatestFib_lt.mpr beyond)
  refine ⟨Nat.fib n.greatestFib, Nat.fib_greatestFib_le n, ?_,
    approximates_fib indexPositive indexLe⟩
  have next := Nat.lt_fib_greatestFib_add_one n
  obtain ⟨i, same⟩ := Nat.exists_eq_add_one.mpr indexPositive
  rw [same] at next ⊢
  rw [Nat.fib_add_two] at next
  have smaller : Nat.fib i ≤ Nat.fib (i + 1) := Nat.fib_mono (Nat.le_succ i)
  omega

end Rotation

section Arc

/-! A candidate's arc of the circle is its slice, scaled by the total. -/

theorem getElem_le_totalWeight {weights : List UInt64} {index : ℕ}
    (inside : index < weights.length) : weights[index].toNat ≤ totalWeight weights := by
  have next := sliceStart_succ inside
  have last := sliceStart_le_totalWeight weights (index + 1)
  omega

theorem arc_nonneg (weights : List UInt64) (index : ℕ) :
    (0 : ℝ) ≤ sliceStart weights index / totalWeight weights := by
  positivity

theorem arc_ordered {weights : List UInt64} {index : ℕ} (inside : index < weights.length) :
    (sliceStart weights index : ℝ) / totalWeight weights ≤
      sliceStart weights (index + 1) / totalWeight weights := by
  gcongr
  exact (Nat.le_add_right _ _).trans_eq (sliceStart_succ inside).symm

theorem arc_atMost (weights : List UInt64) (index : ℕ) :
    (sliceStart weights index : ℝ) / totalWeight weights ≤ 1 := by
  apply div_le_one_of_le₀ _ (Nat.cast_nonneg _)
  exact_mod_cast sliceStart_le_totalWeight weights index

theorem arc_width {weights : List UInt64} {index : ℕ} (inside : index < weights.length) :
    (sliceStart weights (index + 1) / totalWeight weights : ℝ) -
        sliceStart weights index / totalWeight weights =
      weights[index].toNat / totalWeight weights := by
  rw [sliceStart_succ inside, ← sub_div, Nat.cast_add, add_sub_cancel_left]

end Arc

theorem count_range_eq_card (p : ℕ → Prop) [DecidablePred p] (count : ℕ) :
    (List.range count).countP p = ((Finset.range count).filter p).card := by
  rw [← Nat.count_eq_card_filter_range]
  induction count with
  | zero => rfl
  | succ count inductionHypothesis =>
      rw [List.range_succ, List.countP_append, inductionHypothesis, Nat.count_succ]
      simp

/-- The picks of candidate `index` are the visits of the rotation to its arc. -/
theorem count_selections {modelAlias : Text} {candidates : List ResolvedCandidate}
    {tracker : Tracker F} {k : F} {mode : LatencyMode} {weights : List UInt64}
    (computed : candidateWeights candidates tracker k mode = weights)
    (bounded : totalWeight weights < 2 ^ 64) (positive : 0 < totalWeight weights)
    {rr : RoundRobinState} {start : UInt64}
    (registered : rr.counters.lookup modelAlias = some start) (count : ℕ) {index : ℕ}
    (inside : index < weights.length) :
    (selections modelAlias candidates tracker k mode count rr).count (some index) =
      visits weylRatio (start.toNat * weylRatio)
        (sliceStart weights index / totalWeight weights)
        (sliceStart weights (index + 1) / totalWeight weights) count := by
  have nonempty : candidates ≠ [] := by
    rintro rfl
    rw [← computed] at inside
    simp at inside
  rw [selections_eq_map nonempty count registered, computed, List.count_eq_countP,
    List.countP_map, visits, ← count_range_eq_card]
  apply List.countP_congr
  intro j _
  simpa using selectIndex_eq_iff_fract bounded positive start j inside

/-- Over any `count` consecutive picks with unchanged statistics, every candidate is
returned in proportion to its weight, up to a logarithmic error. -/
theorem selections_track_weights {modelAlias : Text} {candidates : List ResolvedCandidate}
    {tracker : Tracker F} {k : F} {mode : LatencyMode} {weights : List UInt64}
    (computed : candidateWeights candidates tracker k mode = weights)
    (positive : ∀ weight ∈ weights, 0 < weight) (bounded : totalWeight weights < 2 ^ 64)
    {rr : RoundRobinState} {start : UInt64}
    (registered : rr.counters.lookup modelAlias = some start) {count : ℕ} (atLeast : 1 ≤ count)
    (within : count ≤ 2 ^ 31) (index : Fin weights.length) :
    |((selections modelAlias candidates tracker k mode count rr).count (some index.val) : ℝ) -
        count * weights[index].toNat / totalWeight weights| ≤ 2 * Real.logb 2 count + 4 := by
  have totalPositive : 0 < totalWeight weights :=
    (UInt64.lt_iff_toNat_lt.mp (positive _ (List.getElem_mem index.isLt))).trans_le
      (getElem_le_totalWeight index.isLt)
  have bound := visits_discrepancy fib_cover (arc_nonneg weights index)
    (arc_ordered index.isLt) (arc_atMost weights _) atLeast within (start.toNat * weylRatio)
  rw [← count_selections computed bounded totalPositive registered count index.isLt,
    arc_width index.isLt, ← mul_div_assoc] at bound
  have logarithm : (Nat.log 2 count : ℝ) ≤ Real.logb 2 count := by
    exact_mod_cast Real.natLog_le_logb count 2
  apply bound.trans
  linarith

/-- Two fresh candidates over a thousand picks. -/
theorem selections_track_weights_fresh :
    ∃ map after candidates, (fromConfig (Config.single "openai".toList
        "https://api.openai.com/v1".toList "fast".toList ["gpt-4o".toList, "gpt-5".toList])
        (.new 0 0 : Tracker ℝ) : Except (ConfigError ℝ Text) _) = .ok (map, after) ∧
      map.get "fast".toList = some candidates ∧
      |((selections "fast".toList candidates after 3 .streaming 1000
          (RoundRobinState.new.registerAlias "fast".toList)).count (some 0) : ℝ) -
        (1000 : ℕ) * (1000 : UInt64).toNat / totalWeight [1000, 1000]| ≤
          2 * Real.logb 2 (1000 : ℕ) + 4 := by
  obtain ⟨map, after, left, right, accepted, found, -⟩ := fromConfig_pair 0 0
  have weights : candidateWeights [left, right] after 3 .streaming = [1000, 1000] := by
    rw [candidateWeights_fresh (fun candidate _ => fromConfig_fresh accepted _)]
    rfl
  exact ⟨map, after, [left, right], accepted, found, selections_track_weights weights (by simp)
    (by decide) rfl (by decide) (by decide) 0⟩

end Sturnus
