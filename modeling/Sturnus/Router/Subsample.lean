import Sturnus.Router.Share

/-!
# Shares under a shared counter

All requests of an alias draw from one counter, so one mode may see only every
`stride`-th tick.  The Weyl step is odd, hence such a subsequence is a rational
rotation of its own, and over one turn of it every candidate is picked in
proportion to its weight to within a single pick.
-/

namespace Sturnus

open Foundation

/-- The `m`-th tick of a caller that sees every `stride`-th one. -/
def subtick (start : UInt64) (stride m : ℕ) : UInt64 := start + UInt64.ofNat (m * stride)

/-- Its first `count` picks. -/
def subsample (weights : List UInt64) (start : UInt64) (stride count : ℕ) : List ℕ :=
  (List.range count).map fun m => selectIndex weights (subtick start stride m)

section Period

variable {stride j : ℕ}

/-- A stride is its greatest power of two below `2^64` times a factor that is coprime to
the number of ticks in a turn. -/
theorem exists_stride_factor (common : 2 ^ j = Nat.gcd stride (2 ^ 64)) :
    j ≤ 64 ∧ ∃ factor, stride = 2 ^ j * factor ∧ factor.Coprime (2 ^ (64 - j)) := by
  have divides : 2 ^ j ∣ 2 ^ 64 := common ▸ Nat.gcd_dvd_right stride (2 ^ 64)
  have atMost : j ≤ 64 := (Nat.pow_dvd_pow_iff_le_right one_lt_two).mp divides
  obtain ⟨factor, split⟩ : 2 ^ j ∣ stride := common ▸ Nat.gcd_dvd_left stride (2 ^ 64)
  have whole : 2 ^ 64 = 2 ^ j * 2 ^ (64 - j) := by rw [← pow_add, Nat.add_sub_cancel' atMost]
  refine ⟨atMost, factor, split, ?_⟩
  rw [split, whole, Nat.gcd_mul_left] at common
  exact Nat.eq_of_mul_eq_mul_left (Nat.two_pow_pos j) (by rw [← common, mul_one])

theorem weylStep_coprime (n : ℕ) : weylStep.toNat.Coprime (2 ^ n) := by
  apply Nat.Coprime.pow_right
  exact Nat.coprime_two_right.mpr (by decide)

/-- A turn of the subsequence has `2^(64 - j)` different ticks. -/
theorem subtick_eq_iff (common : 2 ^ j = Nat.gcd stride (2 ^ 64)) (start : UInt64) (m n : ℕ) :
    subtick start stride m = subtick start stride n ↔ m ≡ n [MOD 2 ^ (64 - j)] := by
  obtain ⟨atMost, factor, split, coprime⟩ := exists_stride_factor common
  have whole : 2 ^ 64 = 2 ^ j * 2 ^ (64 - j) := by rw [← pow_add, Nat.add_sub_cancel' atMost]
  have scaled (i : ℕ) : i * stride = 2 ^ j * (i * factor) := by
    rw [split]
    ring
  calc subtick start stride m = subtick start stride n
      ↔ UInt64.ofNat (m * stride) = UInt64.ofNat (n * stride) := UInt64.add_right_inj start
    _ ↔ m * stride ≡ n * stride [MOD 2 ^ 64] := by
        rw [← UInt64.toNat_inj, UInt64.toNat_ofNat', UInt64.toNat_ofNat', Nat.ModEq]
    _ ↔ m * factor ≡ n * factor [MOD 2 ^ (64 - j)] := by
        rw [scaled, scaled, whole]
        exact Nat.ModEq.mul_left_cancel_iff' (Nat.two_pow_pos j).ne'
    _ ↔ m ≡ n [MOD 2 ^ (64 - j)] :=
        ⟨Nat.ModEq.cancel_right_of_coprime coprime.symm, Nat.ModEq.mul_right factor⟩

/-- The points of the subsequence are those of a rational rotation whose denominator is
the length of the turn. -/
theorem stride_angle (common : 2 ^ j = Nat.gcd stride (2 ^ 64)) :
    ∃ p : ℕ, p.Coprime (2 ^ (64 - j)) ∧ stride * weylRatio = p / (2 ^ (64 - j) : ℕ) := by
  obtain ⟨atMost, factor, split, coprime⟩ := exists_stride_factor common
  refine ⟨factor * weylStep.toNat, coprime.mul_left (weylStep_coprime _), ?_⟩
  have whole : (2 ^ 64 : ℕ) = 2 ^ j * 2 ^ (64 - j) := by
    rw [← pow_add, Nat.add_sub_cancel' atMost]
  rw [weylRatio, split, whole]
  push_cast
  field_simp

end Period

/-- The picks of one turn are visits of that rotation to the candidate's arc. -/
theorem count_subsample {weights : List UInt64} (bounded : totalWeight weights < 2 ^ 64)
    (positive : 0 < totalWeight weights) (start : UInt64) (stride count : ℕ) {index : ℕ}
    (inside : index < weights.length) :
    (subsample weights start stride count).count index =
      visits (stride * weylRatio) (start.toNat * weylRatio)
        (sliceStart weights index / totalWeight weights)
        (sliceStart weights (index + 1) / totalWeight weights) count := by
  rw [subsample, List.count_eq_countP, List.countP_map, visits, ← count_range_eq_card]
  apply List.countP_congr
  intro m _
  have hit := selectIndex_eq_iff_fract bounded positive start (m * stride) inside
  rw [Nat.cast_mul, mul_assoc] at hit
  simpa [subtick] using hit

/-- Over one turn of the ticks a caller sees, every candidate is picked within one of its
proportional share. -/
theorem subsample_tracks_weights {weights : List UInt64} (bounded : totalWeight weights < 2 ^ 64)
    (positive : 0 < totalWeight weights) (start : UInt64) {stride j : ℕ}
    (common : 2 ^ j = Nat.gcd stride (2 ^ 64)) :
    (∀ m n, subtick start stride m = subtick start stride n ↔ m ≡ n [MOD 2 ^ (64 - j)]) ∧
      ∀ index : Fin weights.length,
        |((subsample weights start stride (2 ^ (64 - j))).count index.val : ℝ) -
          (2 ^ (64 - j) : ℕ) * weights[index].toNat / totalWeight weights| < 1 := by
  refine ⟨subtick_eq_iff common start, ?_⟩
  intro index
  obtain ⟨p, coprime, angle⟩ := stride_angle common
  have bound := visits_rational coprime (Nat.two_pow_pos _) (arc_nonneg weights index)
    (arc_ordered index.isLt) (arc_atMost weights _) (start.toNat * weylRatio)
  rwa [← angle, ← count_subsample bounded positive start stride _ index.isLt,
    arc_width index.isLt, ← mul_div_assoc] at bound

/-- Every sixth tick, on two candidates of weights 1000 and 10. -/
theorem subsample_tracks_weights_six :
    2 ^ 1 = Nat.gcd 6 (2 ^ 64) ∧
      |((subsample [1000, 10] 5 6 (2 ^ 63)).count 0 : ℝ) -
        (2 ^ 63 : ℕ) * (1000 : UInt64).toNat / totalWeight [1000, 10]| < 1 :=
  have bounded : totalWeight [1000, 10] < 2 ^ 64 := by decide
  have common : 2 ^ 1 = Nat.gcd 6 (2 ^ 64) := by decide
  ⟨common, (subsample_tracks_weights bounded (by decide) 5 common).2 0⟩

end Sturnus
