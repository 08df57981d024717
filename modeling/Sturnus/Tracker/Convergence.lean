import Sturnus.Foundation.Settling
import Sturnus.Tracker.Ewma

/-!
# When the latency EWMA reaches a constant signal

Every update is rounded to a whole millisecond.  An average `d` above the
signal is lowered only if `alpha * d` exceeds half a millisecond, one `d`
below it is raised only if `alpha * d` is at least that; for `d = 2` the bound
on `alpha` is a quarter.
-/

namespace Sturnus

open Foundation CandidateStats

/-- Within one millisecond of each other. -/
def Near (ewma signal : UInt64) : Prop :=
  ewma.toNat ≤ signal.toNat + 1 ∧ signal.toNat ≤ ewma.toNat + 1

section Step

variable {alpha : ℝ} {ewma signal : UInt64}

theorem near_nextEwma (unit : alpha ∈ Set.Icc 0 1) (small : ewma.toNat < 2 ^ 53)
    (near : Near ewma signal) : Near (nextEwma alpha signal ewma) signal := by
  have warm : ewma ≠ u64Max := ne_u64Max_of_lt (by omega)
  have above : (nextEwma alpha signal ewma).toNat ≤ signal.toNat + 1 :=
    nextEwma_le_of_le unit warm (Nat.le_succ _) near.1
  have below : signal.toNat - 1 ≤ (nextEwma alpha signal ewma).toNat :=
    le_nextEwma_of_le unit warm (Nat.sub_le _ _) (by have := near.2; omega)
  exact ⟨above, by omega⟩

/-- From two above, an update makes progress when `alpha` exceeds a quarter. -/
theorem nextEwma_lt (unit : alpha ∈ Set.Icc 0 1) (small : ewma.toNat < 2 ^ 53)
    (quarter : 1 / 4 < alpha) (far : signal.toNat + 2 ≤ ewma.toNat) :
    (nextEwma alpha signal ewma).toNat < ewma.toNat := by
  have farReal : (signal.toNat : ℝ) + 2 ≤ ewma.toNat := by exact_mod_cast far
  have gain : 1 / 4 * 2 < alpha * (ewma.toNat - signal.toNat) :=
    mul_lt_mul quarter (by linarith) two_pos unit.1
  rw [nextEwma_toNat unit (ne_u64Max_of_lt (by omega)), Nat.floor_lt' (by omega), blend]
  linarith

/-- From two below, a quarter is enough. -/
theorem lt_nextEwma (unit : alpha ∈ Set.Icc 0 1) (small : ewma.toNat < 2 ^ 53)
    (quarter : 1 / 4 ≤ alpha) (far : ewma.toNat + 2 ≤ signal.toNat) :
    ewma.toNat < (nextEwma alpha signal ewma).toNat := by
  have farReal : (ewma.toNat : ℝ) + 2 ≤ signal.toNat := by exact_mod_cast far
  have gain : 1 / 4 * 2 ≤ alpha * (signal.toNat - ewma.toNat) :=
    mul_le_mul quarter (by linarith) zero_le_two unit.1
  rw [nextEwma_toNat unit (ne_u64Max_of_lt (by omega)), ← Nat.succ_le_iff]
  apply Nat.le_floor
  rw [blend]
  push_cast
  linarith

/-- Up to a quarter, an average that is two too high stays so. -/
theorem nextEwma_stays_above (unit : alpha ∈ Set.Icc 0 1) (small : ewma.toNat < 2 ^ 53)
    (quarter : alpha ≤ 1 / 4) (far : signal.toNat + 2 ≤ ewma.toNat) :
    signal.toNat + 2 ≤ (nextEwma alpha signal ewma).toNat := by
  have farReal : (signal.toNat : ℝ) + 2 ≤ ewma.toNat := by exact_mod_cast far
  have kept : (1 - alpha) * (signal.toNat + 2) ≤ (1 - alpha) * (ewma.toNat : ℝ) :=
    mul_le_mul_of_nonneg_left farReal (sub_nonneg.mpr unit.2)
  rw [nextEwma_toNat unit (ne_u64Max_of_lt (by omega))]
  apply Nat.le_floor
  rw [blend]
  push_cast
  linarith

/-- Below a quarter, an average that is two too low stays so. -/
theorem nextEwma_stays_below (unit : alpha ∈ Set.Icc 0 1) (small : ewma.toNat < 2 ^ 53)
    (quarter : alpha < 1 / 4) (far : ewma.toNat + 2 ≤ signal.toNat) :
    (nextEwma alpha signal ewma).toNat + 2 ≤ signal.toNat := by
  have farReal : (ewma.toNat : ℝ) + 2 ≤ signal.toNat := by exact_mod_cast far
  have kept : (1 - alpha) * (ewma.toNat + 2) ≤ (1 - alpha) * (signal.toNat : ℝ) :=
    mul_le_mul_of_nonneg_left farReal (sub_nonneg.mpr unit.2)
  have below : (nextEwma alpha signal ewma).toNat < signal.toNat - 1 := by
    rw [nextEwma_toNat unit (ne_u64Max_of_lt (by omega)), Nat.floor_lt' (by omega), blend,
      Nat.cast_sub (by omega)]
    push_cast
    linarith
  omega

end Step

section Iteration

variable {alpha : ℝ} {ewma signal : UInt64}

/-- The distance to the signal. -/
def gap (signal ewma : UInt64) : ℕ := (ewma.toNat - signal.toNat) + (signal.toNat - ewma.toNat)

theorem nextEwma_small (unit : alpha ∈ Set.Icc 0 1) (observed : signal.toNat < 2 ^ 53)
    (small : ewma.toNat < 2 ^ 53) : (nextEwma alpha signal ewma).toNat < 2 ^ 53 := by
  have bound : (nextEwma alpha signal ewma).toNat ≤ 2 ^ 53 - 1 :=
    nextEwma_le_of_le unit (ne_u64Max_of_lt (by omega)) (by omega) (by omega)
  omega

/-- An average at or above the signal: the invariant is that it stays there. -/
theorem settles_from_above (unit : alpha ∈ Set.Icc 0 1) (observed : signal.toNat < 2 ^ 53)
    (quarter : 1 / 4 < alpha) (above : signal.toNat ≤ ewma.toNat) (small : ewma.toNat < 2 ^ 53) :
    Settles (nextEwma alpha signal) (fun ewma => ewma.toNat < 2 ^ 53 ∧ Near ewma signal) ewma := by
  apply settles_of_descent (fun ewma => signal.toNat ≤ ewma.toNat ∧ ewma.toNat < 2 ^ 53)
    (gap signal)
  · intro current good
    exact ⟨nextEwma_small unit observed good.1, near_nextEwma unit good.1 good.2⟩
  · intro current inv
    exact ⟨le_nextEwma_of_le unit (ne_u64Max_of_lt (by omega)) le_rfl inv.1,
      nextEwma_small unit observed inv.2⟩
  · intro current inv notNear
    have far : signal.toNat + 2 ≤ current.toNat := by
      by_contra close
      exact notNear ⟨inv.2, by omega, by omega⟩
    have lower := nextEwma_lt unit inv.2 quarter far
    have kept : signal.toNat ≤ (nextEwma alpha signal current).toNat :=
      le_nextEwma_of_le unit (ne_u64Max_of_lt (by omega)) le_rfl inv.1
    unfold gap
    omega
  · exact ⟨above, small⟩

/-- The mirror image; here a quarter is enough. -/
theorem settles_from_below (unit : alpha ∈ Set.Icc 0 1) (observed : signal.toNat < 2 ^ 53)
    (quarter : 1 / 4 ≤ alpha) (below : ewma.toNat ≤ signal.toNat) :
    Settles (nextEwma alpha signal) (fun ewma => ewma.toNat < 2 ^ 53 ∧ Near ewma signal) ewma := by
  have kept : ∀ current : UInt64, current.toNat ≤ signal.toNat →
      (nextEwma alpha signal current).toNat ≤ signal.toNat := by
    intro current inv
    exact nextEwma_le_of_le unit (ne_u64Max_of_lt (by omega)) le_rfl inv
  apply settles_of_descent (fun ewma => ewma.toNat ≤ signal.toNat) (gap signal)
  · intro current good
    exact ⟨nextEwma_small unit observed good.1, near_nextEwma unit good.1 good.2⟩
  · exact kept
  · intro current inv notNear
    have far : current.toNat + 2 ≤ signal.toNat := by
      by_contra close
      exact notNear ⟨by omega, by omega, by omega⟩
    have higher := lt_nextEwma unit (by omega) quarter far
    have bounded := kept current inv
    unfold gap
    omega
  · exact below

theorem not_settles_from_above (unit : alpha ∈ Set.Icc 0 1) (observed : signal.toNat < 2 ^ 53)
    (quarter : alpha ≤ 1 / 4) (far : signal.toNat + 2 ≤ ewma.toNat) (small : ewma.toNat < 2 ^ 53) :
    ¬Settles (nextEwma alpha signal) (fun ewma => Near ewma signal) ewma := by
  apply not_settles_of_invariant
    (fun ewma => signal.toNat + 2 ≤ ewma.toNat ∧ ewma.toNat < 2 ^ 53)
  · intro current inv
    exact ⟨nextEwma_stays_above unit inv.2 quarter inv.1, nextEwma_small unit observed inv.2⟩
  · intro current inv near
    have close := near.1
    omega
  · exact ⟨far, small⟩

theorem not_settles_from_below (unit : alpha ∈ Set.Icc 0 1) (observed : signal.toNat < 2 ^ 53)
    (quarter : alpha < 1 / 4) (far : ewma.toNat + 2 ≤ signal.toNat) :
    ¬Settles (nextEwma alpha signal) (fun ewma => Near ewma signal) ewma := by
  apply not_settles_of_invariant (fun ewma => ewma.toNat + 2 ≤ signal.toNat)
  · intro current inv
    exact nextEwma_stays_below unit (by omega) quarter inv
  · intro current inv near
    have close := near.2
    omega
  · exact far

end Iteration

/-- Repeating one observation brings the average within a millisecond of it for good. -/
def Converges (alpha : ℝ) (mode : LatencyMode) (signal : UInt64)
    (stats : CandidateStats ℝ) : Prop :=
  Settles (fun stats => stats.updateEwma mode signal alpha)
    (fun stats => Near (stats.ewmaMs mode) signal) stats

theorem converges_iff_settles {alpha : ℝ} {mode : LatencyMode} {signal : UInt64}
    {stats : CandidateStats ℝ} :
    Converges alpha mode signal stats ↔
      Settles (nextEwma alpha signal) (fun ewma => Near ewma signal) (stats.ewmaMs mode) :=
  settles_iff_of_semiconj (fun ewma => Near ewma signal)
    fun stats => stats.updateEwma_ewmaMs mode signal alpha

/-- Convergence depends on `alpha`, and at a quarter on the direction of approach. -/
theorem ewma_converges_iff {alpha : ℝ} (positive : 0 < alpha) (atMost : alpha ≤ 1)
    (mode : LatencyMode) {signal : UInt64} (observed : signal.toNat < 2 ^ 53)
    {stats : CandidateStats ℝ} (warm : (stats.ewmaMs mode).toNat < 2 ^ 53) :
    Converges alpha mode signal stats ↔
      Near (stats.ewmaMs mode) signal ∨ 1 / 4 < alpha ∨
        alpha = 1 / 4 ∧ (stats.ewmaMs mode).toNat ≤ signal.toNat := by
  have unit : alpha ∈ Set.Icc 0 1 := ⟨positive.le, atMost⟩
  rw [converges_iff_settles]
  constructor
  · intro settles
    by_contra stalls
    simp only [not_or, not_and, not_lt] at stalls
    obtain ⟨far, quarter, approach⟩ := stalls
    rcases Nat.lt_or_ge signal.toNat (stats.ewmaMs mode).toNat with above | below
    · have gapAbove : signal.toNat + 2 ≤ (stats.ewmaMs mode).toNat := by
        by_contra close
        exact far ⟨by omega, by omega⟩
      exact not_settles_from_above unit observed quarter gapAbove warm settles
    · have gapBelow : (stats.ewmaMs mode).toNat + 2 ≤ signal.toNat := by
        by_contra close
        exact far ⟨by omega, by omega⟩
      have smaller : alpha < 1 / 4 := lt_of_le_of_ne quarter fun same => approach same below
      exact not_settles_from_below unit observed smaller gapBelow settles
  · intro condition
    have settles : Settles (nextEwma alpha signal)
        (fun ewma => ewma.toNat < 2 ^ 53 ∧ Near ewma signal) (stats.ewmaMs mode) := by
      rcases condition with near | quarter | ⟨quarter, below⟩
      · apply settles_of_good
        · intro current good
          exact ⟨nextEwma_small unit observed good.1, near_nextEwma unit good.1 good.2⟩
        · exact ⟨warm, near⟩
      · rcases Nat.le_total signal.toNat (stats.ewmaMs mode).toNat with above | below
        · exact settles_from_above unit observed quarter above warm
        · exact settles_from_below unit observed quarter.le below
      · exact settles_from_below unit observed quarter.ge below
    exact settles.mono fun _ good => good.2

/-- From 900 ms down to 100 ms with the default smoothing. -/
theorem ewma_converges_default :
    Converges (3 / 10) .streaming 100
        ((.new : CandidateStats ℝ).updateEwma .streaming 900 (3 / 10)) ↔
      Near 900 100 ∨ (1 / 4 : ℝ) < 3 / 10 ∨
        (3 / 10 : ℝ) = 1 / 4 ∧ (900 : UInt64).toNat ≤ (100 : UInt64).toNat := by
  have first : ((.new : CandidateStats ℝ).updateEwma .streaming 900 (3 / 10)).ewmaMs .streaming =
      900 := rfl
  rw [← first]
  exact ewma_converges_iff (by norm_num) (by norm_num) .streaming (by decide) (by rw [first]; decide)

/-- With a smoothing of a tenth an average of 105 ms is never lowered to 100 ms. -/
theorem ewma_stalls_above :
    ¬Converges (1 / 10) .streaming 100
      ((.new : CandidateStats ℝ).updateEwma .streaming 105 (1 / 10)) := by
  rw [converges_iff_settles]
  exact not_settles_from_above (by norm_num) (by decide) (by norm_num) (by decide) (by decide)

end Sturnus
