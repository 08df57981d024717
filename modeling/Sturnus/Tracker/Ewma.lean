import Sturnus.Tracker

/-!
# The latency EWMA in exact arithmetic

One update is a convex combination, rounded to a whole millisecond: it is
monotone in both arguments and stays between them.
-/

namespace Sturnus

open Foundation CandidateStats

/-- The value `update_ewma` rounds. -/
noncomputable def blend (alpha : ℝ) (observedMs old : UInt64) : ℝ :=
  alpha * observedMs.toNat + (1 - alpha) * old.toNat

variable {alpha : ℝ} {observedMs old observedMs' old' : UInt64}

theorem blend_mono (unit : alpha ∈ Set.Icc 0 1) (observed : observedMs.toNat ≤ observedMs'.toNat)
    (average : old.toNat ≤ old'.toNat) :
    blend alpha observedMs old ≤ blend alpha observedMs' old' := by
  have observedReal : (observedMs.toNat : ℝ) ≤ observedMs'.toNat := by exact_mod_cast observed
  have averageReal : (old.toNat : ℝ) ≤ old'.toNat := by exact_mod_cast average
  exact add_le_add (mul_le_mul_of_nonneg_left observedReal unit.1)
    (mul_le_mul_of_nonneg_left averageReal (sub_nonneg.mpr unit.2))

theorem blend_nonneg (unit : alpha ∈ Set.Icc 0 1) (observedMs old : UInt64) :
    0 ≤ blend alpha observedMs old :=
  add_nonneg (mul_nonneg unit.1 (Nat.cast_nonneg _))
    (mul_nonneg (sub_nonneg.mpr unit.2) (Nat.cast_nonneg _))

theorem blend_le {bound : ℕ} (unit : alpha ∈ Set.Icc 0 1) (observed : observedMs.toNat ≤ bound)
    (average : old.toNat ≤ bound) : blend alpha observedMs old ≤ bound := by
  have observedReal : (observedMs.toNat : ℝ) ≤ bound := by exact_mod_cast observed
  have averageReal : (old.toNat : ℝ) ≤ bound := by exact_mod_cast average
  calc blend alpha observedMs old ≤ alpha * bound + (1 - alpha) * bound :=
        add_le_add (mul_le_mul_of_nonneg_left observedReal unit.1)
          (mul_le_mul_of_nonneg_left averageReal (sub_nonneg.mpr unit.2))
    _ = bound := by ring

theorem le_blend {bound : ℕ} (unit : alpha ∈ Set.Icc 0 1) (observed : bound ≤ observedMs.toNat)
    (average : bound ≤ old.toNat) : bound ≤ blend alpha observedMs old := by
  have observedReal : (bound : ℝ) ≤ observedMs.toNat := by exact_mod_cast observed
  have averageReal : (bound : ℝ) ≤ old.toNat := by exact_mod_cast average
  calc (bound : ℝ) = alpha * bound + (1 - alpha) * bound := by ring
    _ ≤ blend alpha observedMs old :=
        add_le_add (mul_le_mul_of_nonneg_left observedReal unit.1)
          (mul_le_mul_of_nonneg_left averageReal (sub_nonneg.mpr unit.2))

theorem floor_add_half_le {x : ℝ} {bound : ℕ} (below : x ≤ bound) : ⌊x + 1 / 2⌋₊ ≤ bound := by
  apply Nat.le_of_lt_succ
  rw [Nat.floor_lt' (Nat.succ_ne_zero bound)]
  push_cast
  linarith

/-- Nothing saturates: the rounded value is between two `u64`. -/
theorem nextEwma_toNat (unit : alpha ∈ Set.Icc 0 1) (warm : old ≠ u64Max) (observedMs : UInt64) :
    (nextEwma alpha observedMs old).toNat = ⌊blend alpha observedMs old + 1 / 2⌋₊ := by
  have nonneg := blend_nonneg unit observedMs old
  have bounded : blend alpha observedMs old ≤ (2 ^ 64 - 1 : ℕ) := by
    apply blend_le unit
    · exact Nat.le_pred_of_lt (UInt64.toNat_lt observedMs)
    · exact Nat.le_pred_of_lt (UInt64.toNat_lt old)
  have fits : ⌊blend alpha observedMs old + 1 / 2⌋₊ ≤ 2 ^ 64 - 1 := floor_add_half_le bounded
  have rounded : roundHalfAway (blend alpha observedMs old) =
      (⌊blend alpha observedMs old + 1 / 2⌋₊ : ℕ) := by
    rw [roundHalfAway_of_nonneg nonneg, ← natCast_floor_eq_intCast_floor (by linarith)]
  calc (nextEwma alpha observedMs old).toNat
      = (Float64.toU64 (roundHalfAway (blend alpha observedMs old))).toNat := by
        rw [nextEwma, if_neg warm]
        rfl
    _ = ⌊blend alpha observedMs old + 1 / 2⌋₊ := by
        rw [rounded, toU64_real_toNat, Nat.floor_natCast, min_eq_left fits]

theorem nextEwma_of_cold (observedMs : UInt64) : nextEwma alpha observedMs u64Max = observedMs :=
  if_pos rfl

theorem nextEwma_mono (unit : alpha ∈ Set.Icc 0 1) (warm : old ≠ u64Max) (warm' : old' ≠ u64Max)
    (observed : observedMs.toNat ≤ observedMs'.toNat) (average : old.toNat ≤ old'.toNat) :
    (nextEwma alpha observedMs old).toNat ≤ (nextEwma alpha observedMs' old').toNat := by
  rw [nextEwma_toNat unit warm, nextEwma_toNat unit warm']
  exact Nat.floor_mono (add_le_add_left (blend_mono unit observed average) _)

theorem nextEwma_le_of_le {bound : ℕ} (unit : alpha ∈ Set.Icc 0 1) (warm : old ≠ u64Max)
    (observed : observedMs.toNat ≤ bound) (average : old.toNat ≤ bound) :
    (nextEwma alpha observedMs old).toNat ≤ bound := by
  rw [nextEwma_toNat unit warm]
  exact floor_add_half_le (blend_le unit observed average)

theorem le_nextEwma_of_le {bound : ℕ} (unit : alpha ∈ Set.Icc 0 1) (warm : old ≠ u64Max)
    (observed : bound ≤ observedMs.toNat) (average : bound ≤ old.toNat) :
    bound ≤ (nextEwma alpha observedMs old).toNat := by
  rw [nextEwma_toNat unit warm]
  apply Nat.le_floor
  have above := le_blend unit observed average
  linarith

theorem ne_u64Max_of_lt (small : old.toNat < 2 ^ 64 - 1) : old ≠ u64Max := by
  rintro rfl
  rw [u64Max_toNat] at small
  omega

end Sturnus
