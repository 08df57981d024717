import Mathlib.Analysis.SpecialFunctions.Pow.Real

/-!
# Binary64 arithmetic as an interface

A program over `f64` is written once over `Float64 F`.  A theorem about every
`F` assumes nothing of rounding; a theorem at `F := ℝ` reads every operation
as exact real arithmetic.
-/

namespace Foundation

/-- The operations on `f64` a program uses.  `literal` is the value of a
decimal constant, `ofU64` is `as f64` and `toU64` is the saturating `as u64`. -/
class Float64 (F : Type) extends Add F, Sub F, Mul F, Div F, Zero F, One F,
    Max F, Min F where
  literal : ℚ → F
  ofU64 : UInt64 → F
  toU64 : F → UInt64
  round : F → F
  powf : F → F → F
  isFinite : F → Bool
  le : F → F → Bool
  lt : F → F → Bool

/-- The largest `u64`. -/
def u64Max : UInt64 := UInt64.ofNat (2 ^ 64 - 1)

theorem u64Max_toNat : u64Max.toNat = 2 ^ 64 - 1 := by decide

/-- Round to the nearest integer, halves away from zero. -/
noncomputable def roundHalfAway (x : ℝ) : ℝ :=
  if 0 ≤ x then ⌊x + 1 / 2⌋ else ⌈x - 1 / 2⌉

/-- Exact real arithmetic. -/
noncomputable instance exactReal : Float64 ℝ where
  literal q := q
  ofU64 n := n.toNat
  toU64 x := UInt64.ofNat (min ⌊x⌋₊ (2 ^ 64 - 1))
  round := roundHalfAway
  powf := Real.rpow
  isFinite _ := true
  le x y := @decide (x ≤ y) (Classical.dec _)
  lt x y := @decide (x < y) (Classical.dec _)

section Exact

@[simp] theorem literal_real (q : ℚ) : (Float64.literal q : ℝ) = q := rfl

@[simp] theorem ofU64_real (n : UInt64) : (Float64.ofU64 n : ℝ) = n.toNat := rfl

@[simp] theorem powf_real (x y : ℝ) : Float64.powf x y = x ^ y := rfl

@[simp] theorem round_real (x : ℝ) : Float64.round x = roundHalfAway x := rfl

@[simp] theorem le_real (x y : ℝ) : Float64.le x y = true ↔ x ≤ y := by
  simp [Float64.le]

@[simp] theorem lt_real (x y : ℝ) : Float64.lt x y = true ↔ x < y := by
  simp [Float64.lt]

theorem toU64_real_toNat (x : ℝ) :
    (Float64.toU64 x).toNat = min ⌊x⌋₊ (2 ^ 64 - 1) := by
  have bounded : min ⌊x⌋₊ (2 ^ 64 - 1) < 2 ^ 64 := by omega
  exact UInt64.toNat_ofNat_of_lt' bounded

theorem toU64_real_mono {x y : ℝ} (ordered : x ≤ y) :
    (Float64.toU64 x).toNat ≤ (Float64.toU64 y).toNat := by
  rw [toU64_real_toNat, toU64_real_toNat]
  exact min_le_min_right _ (Nat.floor_mono ordered)

theorem roundHalfAway_of_nonneg {x : ℝ} (nonneg : 0 ≤ x) :
    roundHalfAway x = ⌊x + 1 / 2⌋ := if_pos nonneg

theorem roundHalfAway_natCast (n : ℕ) : roundHalfAway n = n := by
  rw [roundHalfAway_of_nonneg n.cast_nonneg, Int.floor_natCast_add]
  norm_num

theorem roundHalfAway_mono {x y : ℝ} (nonneg : 0 ≤ x) (ordered : x ≤ y) :
    roundHalfAway x ≤ roundHalfAway y := by
  rw [roundHalfAway_of_nonneg nonneg, roundHalfAway_of_nonneg (nonneg.trans ordered)]
  exact_mod_cast Int.floor_mono (by linarith)

end Exact

end Foundation
