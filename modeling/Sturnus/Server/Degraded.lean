import Sturnus.Foundation.Smoothing
import Sturnus.Server.Affinity
import Sturnus.Tracker.History

/-!
# The error rate and when it breaks a pin

The error rate of a slot, one minus its success rate, is a smoothed sequence of
its outcomes: every error weighs `alpha`, decaying with each later outcome.  A
slot is degraded while their sum exceeds the threshold.
-/

namespace Sturnus

open Foundation Foundation.Http

namespace Tracker

def Record.failed : Record → Bool
  | .success .. => false
  | .error _ => true

/-- The outcomes on `slot`, marked where they are errors. -/
def failures (slot : ℕ) (records : List Record) : List Bool :=
  (records.filter (·.slot == slot)).map Record.failed

theorem failures_append (slot : ℕ) (records later : List Record) :
    failures slot (records ++ later) = failures slot records ++ failures slot later := by
  rw [failures, List.filter_append, List.map_append]
  rfl

/-- One outcome smooths the error rate. -/
theorem Record.errorRate_onStats (alpha : ℝ) (stats : CandidateStats ℝ) (call : Record) :
    1 - (call.onStats alpha stats).successRate =
      smooth alpha (1 - stats.successRate) (sampleOf call.failed) := by
  cases call with
  | success index mode observed =>
      change 1 - (alpha * 1 +
        (1 - alpha) * (stats.updateEwma mode _ alpha).successRate) = alpha * 0 + _
      rw [CandidateStats.updateEwma_successRate]
      ring
  | error index =>
      change 1 - (alpha * 0 + (1 - alpha) * stats.successRate) = alpha * 1 + _
      ring

variable {tracker : Tracker ℝ} {slot : ℕ}

theorem isDegraded_iff :
    tracker.isDegraded slot = true ↔
      tracker.errorThreshold < 1 - (tracker.stats slot).successRate :=
  lt_real _ _

theorem isDegraded_eq_false_iff :
    tracker.isDegraded slot = false ↔
      1 - (tracker.stats slot).successRate ≤ tracker.errorThreshold := by
  rw [← not_lt, ← isDegraded_iff, Bool.not_eq_true]

theorem foldl_apply_errorThreshold (records : List Record) (tracker : Tracker ℝ) :
    (records.foldl apply tracker).errorThreshold = tracker.errorThreshold := by
  induction records generalizing tracker with
  | nil => rfl
  | cons call rest inductionHypothesis =>
      rw [List.foldl_cons, inductionHypothesis]
      cases call <;> rfl

/-- The weighted sum of the errors. -/
theorem errorRate_foldl (fresh : ∀ index, tracker.stats index = .new)
    (inBounds : tracker.InBounds slot) (records : List Record) :
    1 - ((records.foldl apply tracker).stats slot).successRate =
      decayed tracker.alpha (failures slot records) := by
  have start : 1 - (CandidateStats.new : CandidateStats ℝ).successRate = 0 := sub_self _
  have unrolled := foldl_smooth tracker.alpha 0 (failures slot records)
  rw [mul_zero, zero_add] at unrolled
  rw [← unrolled, stats_foldl_apply _ _ inBounds, fresh, ← start, failures, List.foldl_map]
  exact (List.foldl_hom (fun stats : CandidateStats ℝ => 1 - stats.successRate)
    fun stats call => (call.errorRate_onStats tracker.alpha stats).symm).symm

/-- One more success cannot degrade a slot. -/
theorem isDegraded_recordSuccess (unit : tracker.alpha ∈ Set.Icc 0 1)
    (rate : (tracker.stats slot).successRate ∈ Set.Icc 0 1) (inBounds : tracker.InBounds slot)
    (mode : LatencyMode) (observed : Duration) (healthy : tracker.isDegraded slot = false) :
    (tracker.recordSuccess slot mode observed).isDegraded slot = false := by
  have below := isDegraded_eq_false_iff.mp healthy
  have step := Record.errorRate_onStats tracker.alpha (tracker.stats slot)
    (.success slot mode observed)
  rw [isDegraded_eq_false_iff, tracker.stats_recordSuccess inBounds]
  calc 1 - (Record.onStats tracker.alpha (tracker.stats slot)
          (.success slot mode observed)).successRate
      = smooth tracker.alpha (1 - (tracker.stats slot).successRate) 0 := step
    _ ≤ 1 - (tracker.stats slot).successRate :=
        smooth_le_of_le unit.1 (sub_nonneg.mpr rate.2)
    _ ≤ tracker.errorThreshold := below

/-- One more error cannot mend it. -/
theorem isDegraded_recordError (unit : tracker.alpha ∈ Set.Icc 0 1)
    (rate : (tracker.stats slot).successRate ∈ Set.Icc 0 1) (inBounds : tracker.InBounds slot)
    (degraded : tracker.isDegraded slot = true) :
    (tracker.recordError slot).isDegraded slot = true := by
  have above := isDegraded_iff.mp degraded
  have step := Record.errorRate_onStats tracker.alpha (tracker.stats slot) (.error slot)
  rw [isDegraded_iff, tracker.stats_recordError inBounds]
  calc tracker.errorThreshold < 1 - (tracker.stats slot).successRate := above
    _ ≤ smooth tracker.alpha (1 - (tracker.stats slot).successRate) 1 :=
        le_smooth_of_le unit.1 (sub_le_self 1 rate.1)
    _ = 1 - (Record.onStats tracker.alpha (tracker.stats slot) (.error slot)).successRate :=
        step.symm

/-- Enough errors in a row degrade a slot whatever came before. -/
theorem isDegraded_of_errors (unit : tracker.alpha ∈ Set.Icc 0 1)
    (fresh : ∀ index, tracker.stats index = .new) (inBounds : tracker.InBounds slot)
    (records : List Record) {later : List Record} {m : ℕ}
    (errors : failures slot later = List.replicate m true)
    (enough : (1 - tracker.alpha) ^ m < 1 - tracker.errorThreshold) :
    ((records ++ later).foldl apply tracker).isDegraded slot = true := by
  have rate := (successRate_foldl_mem unit fresh records slot).2
  have before := errorRate_foldl fresh inBounds records
  have missing := one_sub_decayed_append_marked tracker.alpha (failures slot records) m
  have nonneg : 0 ≤ (1 - tracker.alpha) ^ m := pow_nonneg (sub_nonneg.mpr unit.2) m
  have left : (1 - tracker.alpha) ^ m * (1 - decayed tracker.alpha (failures slot records)) ≤
      (1 - tracker.alpha) ^ m := by
    apply mul_le_of_le_one_right nonneg
    rw [← before]
    linarith
  rw [isDegraded_iff, foldl_apply_errorThreshold, errorRate_foldl fresh inBounds, failures_append,
    errors]
  linarith

end Tracker

/-- A degraded slot is never the pinned one. -/
theorem pinned_statsIndex_ne {tracker : Tracker ℝ} {slot : ℕ}
    (degraded : tracker.isDegraded slot = true) {candidates : List ResolvedCandidate}
    {header : Option HeaderValue} {found : ResolvedCandidate}
    (honored : pinned tracker candidates header = some found) : found.statsIndex ≠ slot := by
  rintro rfl
  have healthy := (Option.filter_eq_some_iff.mp honored).2
  rw [degraded] at healthy
  cases healthy

open Tracker in
/-- The meaning of the success rate, and when it breaks a pin. -/
theorem degraded_iff_errors_weigh {tracker : Tracker ℝ} (unit : tracker.alpha ∈ Set.Icc 0 1)
    (fresh : ∀ index, tracker.stats index = .new) {slot : ℕ} (inBounds : tracker.InBounds slot)
    (records : List Record) :
    let after := records.foldl apply tracker
    1 - (after.stats slot).successRate = decayed tracker.alpha (failures slot records) ∧
    (after.isDegraded slot = true ↔
      tracker.errorThreshold < decayed tracker.alpha (failures slot records)) ∧
    (∀ mode observed, after.isDegraded slot = false →
      (after.recordSuccess slot mode observed).isDegraded slot = false) ∧
    (after.isDegraded slot = true → (after.recordError slot).isDegraded slot = true) ∧
    ∀ m later, failures slot later = List.replicate m true →
      (1 - tracker.alpha) ^ m < 1 - tracker.errorThreshold →
        (later.foldl apply after).isDegraded slot = true ∧
        ∀ candidates header found,
          pinned (later.foldl apply after) candidates header = some found →
            found.statsIndex ≠ slot := by
  have rate := successRate_foldl_mem unit fresh records slot
  have stillIn := (inBounds_foldl_apply records tracker slot).mpr inBounds
  have unitAfter : (records.foldl apply tracker).alpha ∈ Set.Icc 0 1 := by
    rwa [foldl_apply_alpha]
  have sum := errorRate_foldl fresh inBounds records
  refine ⟨sum, ?_, ?_, isDegraded_recordError unitAfter rate stillIn, ?_⟩
  · rw [isDegraded_iff, foldl_apply_errorThreshold, sum]
  · exact fun mode observed => isDegraded_recordSuccess unitAfter rate stillIn mode observed
  · intro m later errors enough
    have degraded := isDegraded_of_errors unit fresh inBounds records errors enough
    rw [List.foldl_append] at degraded
    exact ⟨degraded, fun _ _ _ honored => pinned_statsIndex_ne degraded honored⟩

open Tracker in
/-- Two errors at a smoothing of a half breach a threshold of a half. -/
theorem degraded_iff_errors_weigh_single :
    ([Record.error 0, .error 0].foldl apply
      ((new (1 / 2) (1 / 2) : Tracker ℝ).register.1)).isDegraded 0 = true :=
  ((degraded_iff_errors_weigh (by constructor <;> norm_num [register, new])
    (stats_register_new (1 / 2) (1 / 2)) Nat.one_pos []).2.2.2.2 2 [.error 0, .error 0] rfl
      (by norm_num [register, new])).1

end Sturnus
