import Mathlib.Algebra.BigOperators.Intervals
import Mathlib.Algebra.BigOperators.Ring.Finset
import Mathlib.Algebra.Order.Ring.Defs
import Mathlib.Tactic.Linarith
import Mathlib.Tactic.Ring

/-!
# Exponential smoothing

A running average moves a fixed fraction of the way towards every new sample.
For a sequence of marks, with samples one and zero, the average unrolls into
geometrically decaying weights of the marked positions.
-/

namespace Foundation

open Finset

section Ring

variable {R : Type} [CommRing R]

def smooth (rate average sample : R) : R := rate * sample + (1 - rate) * average

def sampleOf (mark : Bool) : R := if mark then 1 else 0

/-- What the marked positions weigh after the last one. -/
def decayed (rate : R) (marks : List Bool) : R :=
  ∑ i ∈ (range marks.length).filter fun i => marks[i]? = some true,
    rate * (1 - rate) ^ (marks.length - (i + 1))

@[simp] theorem decayed_nil (rate : R) : decayed rate [] = 0 := rfl

/-- A new position outdates all others by one step. -/
theorem decayed_concat (rate : R) (marks : List Bool) (mark : Bool) :
    decayed rate (marks ++ [mark]) = smooth rate (decayed rate marks) (sampleOf mark) := by
  have older : ∀ i ∈ range marks.length,
      (if (marks ++ [mark])[i]? = some true then
        rate * (1 - rate) ^ (marks.length + 1 - (i + 1)) else 0) =
      (1 - rate) * if marks[i]? = some true then
        rate * (1 - rate) ^ (marks.length - (i + 1)) else 0 := by
    intro i member
    have inside : i < marks.length := mem_range.mp member
    have distance : marks.length + 1 - (i + 1) = marks.length - (i + 1) + 1 := by omega
    rw [List.getElem?_append_left inside, mul_ite, mul_zero, distance, pow_succ]
    congr 1
    ring
  have newest : (if (marks ++ [mark])[marks.length]? = some true then
      rate * (1 - rate) ^ (marks.length + 1 - (marks.length + 1)) else 0) =
        rate * sampleOf mark := by
    cases mark <;> simp [sampleOf]
  rw [decayed, decayed, List.length_append, List.length_singleton, sum_filter, sum_filter,
    sum_range_succ, sum_congr rfl older, newest, ← mul_sum, smooth, add_comm]

/-- The start decays as well. -/
theorem foldl_smooth (rate start : R) (marks : List Bool) :
    marks.foldl (fun average mark => smooth rate average (sampleOf mark)) start =
      (1 - rate) ^ marks.length * start + decayed rate marks := by
  induction marks using List.reverseRecOn with
  | nil => simp
  | append_singleton marks mark inductionHypothesis =>
      rw [List.foldl_append, List.foldl_cons, List.foldl_nil, inductionHypothesis,
        decayed_concat, List.length_append, List.length_singleton, smooth, smooth]
      ring

/-- What is missing from one after more marks decays with their number. -/
theorem one_sub_decayed_append_marked (rate : R) (marks : List Bool) (count : ℕ) :
    1 - decayed rate (marks ++ List.replicate count true) =
      (1 - rate) ^ count * (1 - decayed rate marks) := by
  induction count with
  | zero => simp
  | succ count inductionHypothesis =>
      rw [List.replicate_succ', ← List.append_assoc, decayed_concat, smooth, sampleOf, if_pos rfl,
        pow_succ', mul_assoc, ← inductionHypothesis]
      ring

end Ring

section Order

variable {R : Type} [CommRing R] [LinearOrder R] [IsStrictOrderedRing R] {rate : R}

theorem smooth_le_of_le (nonneg : 0 ≤ rate) {average sample : R} (below : sample ≤ average) :
    smooth rate average sample ≤ average := by
  have step : rate * sample ≤ rate * average := mul_le_mul_of_nonneg_left below nonneg
  calc smooth rate average sample = rate * sample + (1 - rate) * average := rfl
    _ ≤ rate * average + (1 - rate) * average := add_le_add_left step _
    _ = average := by ring

theorem le_smooth_of_le (nonneg : 0 ≤ rate) {average sample : R} (above : average ≤ sample) :
    average ≤ smooth rate average sample := by
  have step : rate * average ≤ rate * sample := mul_le_mul_of_nonneg_left above nonneg
  calc average = rate * average + (1 - rate) * average := by ring
    _ ≤ rate * sample + (1 - rate) * average := add_le_add_left step _
    _ = smooth rate average sample := rfl

end Order

end Foundation
