import Mathlib.Algebra.BigOperators.Intervals
import Mathlib.Algebra.BigOperators.Ring.Finset
import Mathlib.Algebra.Order.Archimedean.Real.Basic
import Mathlib.Algebra.Order.BigOperators.Group.Finset
import Mathlib.Algebra.Order.Floor.Ring
import Mathlib.Data.Int.ModEq
import Mathlib.Data.Nat.Log
import Mathlib.Tactic.Linarith
import Mathlib.Tactic.FieldSimp

/-!
# Discrepancy of a rotation of the circle

How often the points `θ, θ + α, θ + 2α, …` modulo one fall into `[a, b)`.  Over
`q` points, `q` the denominator of a good rational approximation of `α`, the
count is off by less than two, and by less than one when `α` is that fraction.
Splitting a longer run into such blocks gives a logarithmic bound.
-/

namespace Foundation

open Finset

/-- The number of the first `n` points of the rotation that lie in `[a, b)`. -/
noncomputable def visits (α θ a b : ℝ) (n : ℕ) : ℕ :=
  ((range n).filter fun j : ℕ =>
    a ≤ Int.fract (θ + j * α) ∧ Int.fract (θ + j * α) < b).card

/-- `q` is the denominator of an approximation of `α` within `1 / q²`. -/
def Approximates (α : ℝ) (q : ℕ) : Prop :=
  0 < q ∧ ∃ p : ℕ, p.Coprime q ∧ |α * q - p| * q < 1

section Floors

theorem floor_sub_of_mem_unit {c : ℝ} (nonneg : 0 ≤ c) (atMost : c ≤ 1) (y : ℝ) :
    ⌊y - c⌋ = ⌊y⌋ - if Int.fract y < c then 1 else 0 := by
  have split := Int.floor_add_fract y
  have fractNonneg := Int.fract_nonneg y
  have fractLt := Int.fract_lt_one y
  split
  next below =>
      rw [Int.floor_eq_iff]
      push_cast
      constructor <;> linarith
  next above =>
      rw [Int.floor_eq_iff]
      push_cast
      constructor <;> linarith

/-- Falling into `[a, b)` is a difference of two floors. -/
theorem mem_arc_eq_floors {a b : ℝ} (nonneg : 0 ≤ a) (ordered : a ≤ b) (atMost : b ≤ 1) (y : ℝ) :
    (if a ≤ Int.fract y ∧ Int.fract y < b then 1 else 0 : ℤ) = ⌊y - a⌋ - ⌊y - b⌋ := by
  rw [floor_sub_of_mem_unit nonneg (ordered.trans atMost),
    floor_sub_of_mem_unit (nonneg.trans ordered) atMost]
  by_cases beforeEnd : Int.fract y < b
  · by_cases beforeStart : Int.fract y < a
    · simp [beforeEnd, beforeStart, not_le.mpr beforeStart]
    · simp [beforeEnd, beforeStart, not_lt.mp beforeStart]
  · have afterStart : ¬Int.fract y < a := fun early => beforeEnd (early.trans_le ordered)
    simp [beforeEnd, afterStart]

theorem visits_eq_sum {a b : ℝ} (nonneg : 0 ≤ a) (ordered : a ≤ b) (atMost : b ≤ 1) (α θ : ℝ)
    (n : ℕ) : (visits α θ a b n : ℤ) =
      ∑ j ∈ range n, ⌊θ - a + j * α⌋ - ∑ j ∈ range n, ⌊θ - b + j * α⌋ := by
  rw [visits, card_filter, Nat.cast_sum, ← sum_sub_distrib]
  apply sum_congr rfl
  intro j _
  have arc := mem_arc_eq_floors nonneg ordered atMost (θ + j * α)
  rw [add_sub_right_comm, add_sub_right_comm θ _ b] at arc
  rw [← arc]
  split <;> rfl

theorem visits_add (α θ a b : ℝ) (m n : ℕ) :
    visits α θ a b (m + n) = visits α θ a b m + visits α (θ + m * α) a b n := by
  simp only [visits, card_filter, sum_range_add]
  congr 1
  apply sum_congr rfl
  intro j _
  rw [Nat.cast_add, add_mul, add_assoc]

end Floors

section Residues

variable {p q : ℕ}

/-- The residues of an arithmetic progression of `q` terms with a step coprime to
`q` are all residues. -/
theorem sum_residues (coprime : p.Coprime q) (positive : 0 < q) (m : ℤ) :
    ∑ j ∈ range q, (m + j * p) % q = ∑ r ∈ range q, (r : ℤ) := by
  have modulus : (0 : ℤ) < q := by exact_mod_cast positive
  let residue (j : ℕ) : ℕ := ((m + j * p) % q).toNat
  have value (j : ℕ) : (residue j : ℤ) = (m + j * p) % q :=
    Int.toNat_of_nonneg (Int.emod_nonneg _ modulus.ne')
  have injective : Set.InjOn residue (range q) := by
    intro i iRange j jRange same
    have congruent : m + i * p ≡ m + j * p [ZMOD q] := by
      rw [Int.ModEq, ← value, ← value, same]
    have steps : (i * p : ℤ) ≡ j * p [ZMOD q] := congruent.add_left_cancel' m
    have indices : i ≡ j [MOD q] := by
      apply Nat.ModEq.cancel_right_of_coprime coprime.symm
      exact Int.natCast_modEq_iff.mp (by exact_mod_cast steps)
    have iLt : i < q := mem_range.mp iRange
    have jLt : j < q := mem_range.mp jRange
    rwa [Nat.ModEq, Nat.mod_eq_of_lt iLt, Nat.mod_eq_of_lt jLt] at indices
  have all : (range q).image residue = range q := by
    apply eq_of_subset_of_card_le ?_ (card_image_of_injOn injective).ge
    intro r member
    obtain ⟨j, -, rfl⟩ := mem_image.mp member
    have below : (residue j : ℤ) < q := value j ▸ Int.emod_lt_of_pos _ modulus
    exact mem_range.mpr (by exact_mod_cast below)
  calc ∑ j ∈ range q, (m + j * p) % q = ∑ j ∈ range q, (residue j : ℤ) :=
        sum_congr rfl fun j _ => (value j).symm
    _ = ∑ r ∈ (range q).image residue, (r : ℤ) := (sum_image injective).symm
    _ = ∑ r ∈ range q, (r : ℤ) := by rw [all]

/-- Shifting the progression by `m` shifts the sum of its quotients by `m`. -/
theorem sum_quotients (coprime : p.Coprime q) (positive : 0 < q) (m : ℤ) :
    ∑ j ∈ range q, (m + j * p) / q = m + ∑ j ∈ range q, (j * p : ℤ) / q := by
  have modulus : (q : ℤ) ≠ 0 := by exact_mod_cast positive.ne'
  have divide (start : ℤ) : q * ∑ j ∈ range q, (start + j * p) / q =
      ∑ j ∈ range q, (start + j * p) - ∑ r ∈ range q, (r : ℤ) := by
    rw [← sum_residues coprime positive start, mul_sum, ← sum_sub_distrib]
    apply sum_congr rfl
    intro j _
    have division := Int.mul_ediv_add_emod (start + j * p) q
    omega
  have base := divide 0
  simp only [zero_add] at base
  apply mul_left_cancel₀ modulus
  rw [mul_add, divide, base, sum_add_distrib, sum_const, card_range, nsmul_eq_mul]
  ring

/-- The floors of `x + j p / q` sum to `⌊q x⌋` and a constant. -/
theorem sum_floor_rational (coprime : p.Coprime q) (positive : 0 < q) (x : ℝ) :
    ∑ j ∈ range q, ⌊x + j * (p / q)⌋ = ⌊q * x⌋ + ∑ j ∈ range q, (j * p : ℤ) / q := by
  have denominator : (q : ℝ) ≠ 0 := by exact_mod_cast positive.ne'
  rw [← sum_quotients coprime positive]
  apply sum_congr rfl
  intro j _
  have fraction : x + j * (p / q) = (q * x + (j * p : ℕ)) / q := by
    push_cast
    field_simp
  rw [fraction, Int.floor_div_natCast, Int.floor_add_natCast]
  push_cast
  rfl

end Residues

section Blocks

/-- Points that stay below those of the rational rotation have no more floors. -/
theorem sum_floor_le {p q : ℕ} {α x y : ℝ} (coprime : p.Coprime q) (positive : 0 < q)
    (below : ∀ j ∈ range q, x + j * α ≤ y + j * (p / q)) :
    ∑ j ∈ range q, ⌊x + j * α⌋ ≤ ⌊q * y⌋ + ∑ j ∈ range q, (j * p : ℤ) / q := by
  rw [← sum_floor_rational coprime positive]
  apply sum_le_sum
  intro j inside
  exact Int.floor_mono (below j inside)

theorem le_sum_floor {p q : ℕ} {α x y : ℝ} (coprime : p.Coprime q) (positive : 0 < q)
    (above : ∀ j ∈ range q, y + j * (p / q) ≤ x + j * α) :
    ⌊q * y⌋ + ∑ j ∈ range q, (j * p : ℤ) / q ≤ ∑ j ∈ range q, ⌊x + j * α⌋ := by
  rw [← sum_floor_rational coprime positive]
  apply sum_le_sum
  intro j inside
  exact Int.floor_mono (above j inside)

/-- Replacing `α` by `p / q` moves each of the first `q` points by less than `1 / q`,
all in one direction. -/
theorem sum_floor_bounds {α : ℝ} {q : ℕ} (good : Approximates α q) :
    ∃ shift : ℤ, ∀ x : ℝ, ⌊q * x⌋ + shift ≤ ∑ j ∈ range q, ⌊x + j * α⌋ ∧
      ∑ j ∈ range q, ⌊x + j * α⌋ ≤ ⌊q * x⌋ + shift + 1 := by
  obtain ⟨positive, p, coprime, close⟩ := good
  have denominator : (0 : ℝ) < q := by exact_mod_cast positive
  set drift := α - p / q with driftEq
  have scaled : |drift| * q * q < 1 := by
    have same : α * q - p = drift * q := by
      rw [driftEq, sub_mul, div_mul_cancel₀ _ denominator.ne']
    rwa [same, abs_mul, abs_of_pos denominator] at close
  have moved (j : ℕ) : j * α = j * (p / q) + j * drift := by
    rw [driftEq]
    ring
  have small (j : ℕ) (inside : j ∈ range q) : j * |drift| ≤ 1 / q := by
    have below : (j : ℝ) ≤ q := by exact_mod_cast (mem_range.mp inside).le
    rw [le_div_iff₀ denominator]
    calc j * |drift| * q ≤ q * |drift| * q := by gcongr
      _ = |drift| * q * q := by ring
      _ ≤ 1 := scaled.le
  rcases le_total 0 drift with right | left
  · rw [abs_of_nonneg right] at small
    refine ⟨∑ j ∈ range q, (j * p : ℤ) / q, ?_⟩
    intro x
    constructor
    · apply le_sum_floor coprime positive
      intro j _
      have nonneg : 0 ≤ j * drift := by positivity
      linarith [moved j]
    · have upper := sum_floor_le (α := α) (x := x) (y := x + 1 / q) coprime positive ?_
      · rw [mul_add, mul_one_div_cancel denominator.ne', Int.floor_add_one] at upper
        linarith
      · intro j inside
        linarith [moved j, small j inside]
  · rw [abs_of_nonpos left] at small
    refine ⟨∑ j ∈ range q, (j * p : ℤ) / q - 1, ?_⟩
    intro x
    constructor
    · have lower := le_sum_floor (α := α) (x := x) (y := x - 1 / q) coprime positive ?_
      · rw [mul_sub, mul_one_div_cancel denominator.ne', Int.floor_sub_one] at lower
        linarith
      · intro j inside
        linarith [moved j, small j inside]
    · have upper := sum_floor_le (α := α) (x := x) (y := x) coprime positive ?_
      · linarith
      · intro j _
        have nonpos : j * drift ≤ 0 := mul_nonpos_of_nonneg_of_nonpos j.cast_nonneg left
        linarith [moved j]

variable {a b : ℝ}

/-- A whole turn of a rational rotation is off by less than one. -/
theorem visits_rational {p q : ℕ} (coprime : p.Coprime q) (positive : 0 < q) (nonneg : 0 ≤ a)
    (ordered : a ≤ b) (atMost : b ≤ 1) (θ : ℝ) :
    |(visits (p / q) θ a b q : ℝ) - q * (b - a)| < 1 := by
  have count := visits_eq_sum nonneg ordered atMost (p / q) θ q
  rw [sum_floor_rational coprime positive, sum_floor_rational coprime positive,
    add_sub_add_right_eq_sub] at count
  have countReal : (visits (p / q) θ a b q : ℝ) = ⌊q * (θ - a)⌋ - ⌊q * (θ - b)⌋ := by
    exact_mod_cast count
  have floorA := Int.floor_le (q * (θ - a))
  have floorA' := Int.lt_floor_add_one (q * (θ - a))
  have floorB := Int.floor_le (q * (θ - b))
  have floorB' := Int.lt_floor_add_one (q * (θ - b))
  rw [countReal, abs_lt]
  constructor <;> linarith

/-- One block is off by less than two, wherever it starts. -/
theorem visits_block {α : ℝ} {q : ℕ} (good : Approximates α q) (nonneg : 0 ≤ a) (ordered : a ≤ b)
    (atMost : b ≤ 1) (θ : ℝ) : |(visits α θ a b q : ℝ) - q * (b - a)| < 2 := by
  obtain ⟨shift, bounds⟩ := sum_floor_bounds good
  obtain ⟨lowA, highA⟩ := bounds (θ - a)
  obtain ⟨lowB, highB⟩ := bounds (θ - b)
  have count := visits_eq_sum nonneg ordered atMost α θ q
  have most : (visits α θ a b q : ℤ) ≤ ⌊q * (θ - a)⌋ - ⌊q * (θ - b)⌋ + 1 := by omega
  have least : ⌊q * (θ - a)⌋ - ⌊q * (θ - b)⌋ - 1 ≤ (visits α θ a b q : ℤ) := by omega
  have mostReal : (visits α θ a b q : ℝ) ≤ ⌊q * (θ - a)⌋ - ⌊q * (θ - b)⌋ + 1 := by
    exact_mod_cast most
  have leastReal : (⌊q * (θ - a)⌋ - ⌊q * (θ - b)⌋ - 1 : ℝ) ≤ visits α θ a b q := by
    exact_mod_cast least
  have floorA := Int.floor_le (q * (θ - a))
  have floorA' := Int.lt_floor_add_one (q * (θ - a))
  have floorB := Int.floor_le (q * (θ - b))
  have floorB' := Int.lt_floor_add_one (q * (θ - b))
  rw [abs_lt]
  constructor <;> linarith

/-- When every length up to `limit` is at least half covered by one block, cutting
off the longest block again and again bounds the error logarithmically. -/
theorem visits_discrepancy {α : ℝ} {limit : ℕ}
    (cover : ∀ n, 0 < n → n ≤ limit → ∃ q, q ≤ n ∧ n < 2 * q ∧ Approximates α q)
    (nonneg : 0 ≤ a) (ordered : a ≤ b) (atMost : b ≤ 1) {n : ℕ} (positive : 0 < n)
    (within : n ≤ limit) (θ : ℝ) :
    |(visits α θ a b n : ℝ) - n * (b - a)| ≤ 2 * (Nat.log 2 n + 1) := by
  induction n using Nat.strong_induction_on generalizing θ with
  | _ n inductionHypothesis =>
      obtain ⟨q, fits, half, good⟩ := cover n positive within
      have block := visits_block good nonneg ordered atMost θ
      obtain ⟨rest, rfl⟩ := Nat.exists_eq_add_of_le fits
      rcases rest.eq_zero_or_pos with rfl | remaining
      · rw [add_zero]
        have logNonneg : (0 : ℝ) ≤ Nat.log 2 q := Nat.cast_nonneg _
        linarith
      · have tail := inductionHypothesis rest (by have := good.1; omega) remaining (by omega)
          (θ + q * α)
        have logStep : Nat.log 2 rest + 1 ≤ Nat.log 2 (q + rest) := by
          rw [← Nat.log_mul_base one_lt_two remaining.ne']
          exact Nat.log_mono_right (by omega)
        have logStepReal : (Nat.log 2 rest : ℝ) + 1 ≤ Nat.log 2 (q + rest) := by
          exact_mod_cast logStep
        rw [visits_add, Nat.cast_add, Nat.cast_add]
        calc |(visits α θ a b q + visits α (θ + q * α) a b rest - (q + rest) * (b - a) : ℝ)|
            = |(visits α θ a b q - q * (b - a)) +
                (visits α (θ + q * α) a b rest - rest * (b - a))| := by ring_nf
          _ ≤ |(visits α θ a b q - q * (b - a) : ℝ)| +
                |visits α (θ + q * α) a b rest - rest * (b - a)| := abs_add_le _ _
          _ ≤ 2 + 2 * (Nat.log 2 rest + 1) := add_le_add block.le tail
          _ ≤ 2 * (Nat.log 2 (q + rest) + 1) := by linarith

end Blocks

section Returns

/-- When going back `short` steps moves a point down by `down` and going back `long`
steps moves it up by `up`, an arc of length at least `down + up` that is visited
at all is visited in the first `long` steps. -/
theorem exists_visit_lt {x : ℕ → ℕ} {short long down up low high modulus : ℕ}
    (positive : 0 < short) (ordered : short ≤ long)
    (backDown : ∀ j, down ≤ x (j + short) → x j = x (j + short) - down)
    (backUp : ∀ j, x (j + long) + up < modulus → x j = x (j + long) + up)
    (room : low + down + up ≤ high) (inside : high ≤ modulus) {j : ℕ}
    (visited : low ≤ x j ∧ x j < high) : ∃ i < long, low ≤ x i ∧ x i < high := by
  induction j using Nat.strong_induction_on with
  | _ j inductionHypothesis =>
      by_cases early : j < long
      · exact ⟨j, early, visited⟩
      · -- Going back lands in the arc again: down if there is room below, else up.
        by_cases roomBelow : low + down ≤ x j
        · obtain ⟨i, rfl⟩ := Nat.exists_eq_add_of_le' (ordered.trans (not_lt.mp early))
          have back := backDown i (by omega)
          exact inductionHypothesis i (by omega) (by omega)
        · obtain ⟨i, rfl⟩ := Nat.exists_eq_add_of_le' (not_lt.mp early)
          have back := backUp i (by omega)
          exact inductionHypothesis i (by omega) (by omega)

end Returns

end Foundation
