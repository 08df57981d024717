import Sturnus.Router.Weights
import Sturnus.Tracker.Ewma

/-!
# Feedback moves traffic the right way

In exact arithmetic: making one candidate's statistics worse lowers its own
weight and raises, or keeps, the weight of every other candidate.  An error
makes the statistics worse, and a success that is not slower than the current
average makes them better.
-/

namespace Sturnus

open Foundation

/-- In `mode`, the first statistics are not better than the second. -/
inductive NoBetter (mode : LatencyMode) (worse better : CandidateStats ℝ) : Prop where
  | cold : effectiveLatency worse mode = none → effectiveLatency better mode = none →
      worse.successRate ≤ better.successRate → NoBetter mode worse better
  | warm {slow fast : ℝ} : effectiveLatency worse mode = some slow →
      effectiveLatency better mode = some fast → fast ≤ slow → NoBetter mode worse better

section Statistics

variable {mode : LatencyMode} {worse better : CandidateStats ℝ}

/-- Same warmth, no lower latency and no higher success rate. -/
theorem noBetter_of_le (warmth : worse.isCold mode = better.isCold mode)
    (latency : better.isCold mode = false →
      (better.ewmaMs mode).toNat ≤ (worse.ewmaMs mode).toNat)
    (rate : worse.successRate ≤ better.successRate) : NoBetter mode worse better := by
  cases isCold : better.isCold mode with
  | true =>
      exact .cold (effectiveLatency_of_cold (warmth.trans isCold))
        (effectiveLatency_of_cold isCold) rate
  | false =>
      refine .warm (effectiveLatency_of_warm (warmth.trans isCold))
        (effectiveLatency_of_warm isCold) ?_
      have slower : max (better.ewmaMs mode).toNat 1 ≤ max (worse.ewmaMs mode).toNat 1 :=
        max_le_max_right 1 (latency isCold)
      exact div_le_div₀ (Nat.cast_nonneg _) (by exact_mod_cast slower) (flooredRate_pos worse)
        (flooredRate_mono rate)

variable {alpha : ℝ} {stats : CandidateStats ℝ}

theorem isCold_recordOutcome (success : Bool) :
    (stats.recordOutcome success alpha).isCold mode = stats.isCold mode := by
  rw [CandidateStats.isCold, CandidateStats.recordOutcome_ewmaMs, CandidateStats.isCold]

theorem noBetter_error (unit : alpha ∈ Set.Icc 0 1) (rate : 0 ≤ stats.successRate) :
    NoBetter mode (stats.recordOutcome false alpha) stats := by
  apply noBetter_of_le (isCold_recordOutcome false)
  · intro _
    rw [CandidateStats.recordOutcome_ewmaMs]
  · change alpha * 0 + (1 - alpha) * stats.successRate ≤ stats.successRate
    have lost : 0 ≤ alpha * stats.successRate := mul_nonneg unit.1 rate
    linarith

theorem noBetter_success (unit : alpha ∈ Set.Icc 0 1) (rate : stats.successRate ≤ 1)
    {observedMode : LatencyMode} (warm : stats.isCold observedMode = false) {observedMs : UInt64}
    (observed : observedMs.toNat ≤ (stats.ewmaMs observedMode).toNat) :
    NoBetter mode stats
      ((stats.updateEwma observedMode observedMs alpha).recordOutcome true alpha) := by
  have gained : stats.successRate ≤ alpha * 1 + (1 - alpha) * stats.successRate := by
    have scaled := mul_le_mul_of_nonneg_left rate unit.1
    linarith
  have kept : ((stats.updateEwma observedMode observedMs alpha).recordOutcome true alpha).successRate
      = alpha * 1 + (1 - alpha) * stats.successRate := by
    simp [CandidateStats.recordOutcome]
  by_cases same : mode = observedMode
  · subst same
    have notMax : stats.ewmaMs mode ≠ u64Max := by simpa [CandidateStats.isCold] using warm
    have lower := nextEwma_le_of_le unit notMax observed le_rfl
    have stillWarm : CandidateStats.nextEwma alpha observedMs (stats.ewmaMs mode) ≠ u64Max := by
      intro isMax
      have maximum : (stats.ewmaMs mode).toNat < u64Max.toNat := by
        have fits := UInt64.toNat_lt (stats.ewmaMs mode)
        have different : (stats.ewmaMs mode).toNat ≠ u64Max.toNat := fun equal =>
          notMax (UInt64.toNat_inj.mp equal)
        rw [u64Max_toNat] at different ⊢
        omega
      rw [isMax] at lower
      omega
    apply noBetter_of_le ?_ ?_ (kept ▸ gained)
    · rw [isCold_recordOutcome, warm, CandidateStats.isCold, CandidateStats.updateEwma_ewmaMs]
      simpa using stillWarm
    · intro _
      rwa [CandidateStats.recordOutcome_ewmaMs, CandidateStats.updateEwma_ewmaMs]
  · have untouched : (stats.updateEwma observedMode observedMs alpha).ewmaMs mode =
        stats.ewmaMs mode := stats.updateEwma_ewmaMs_of_ne same observedMs alpha
    apply noBetter_of_le ?_ ?_ (kept ▸ gained)
    · rw [isCold_recordOutcome, CandidateStats.isCold, CandidateStats.isCold, untouched]
    · intro _
      rw [CandidateStats.recordOutcome_ewmaMs, untouched]

end Statistics

section Weights

variable {mode : LatencyMode} {k : ℝ} {worse better : CandidateStats ℝ}
  {front back : List (CandidateStats ℝ)}

theorem mem_with {stats changed : CandidateStats ℝ} :
    stats ∈ front ++ changed :: back ↔ stats = changed ∨ stats ∈ front ++ back := by
  simp [or_left_comm]

/-- The reference latency exists on both sides or on neither, and does not drop. -/
theorem bestOf_noBetter (front back : List (CandidateStats ℝ))
    (change : NoBetter mode worse better) :
    (bestOf mode (front ++ better :: back) = none ∧ bestOf mode (front ++ worse :: back) = none) ∨
    ∃ low high, bestOf mode (front ++ better :: back) = some low ∧
      bestOf mode (front ++ worse :: back) = some high ∧ low ≤ high := by
  cases foundHigh : bestOf mode (front ++ worse :: back) with
  | some high =>
      right
      obtain ⟨stats, member, warm⟩ := bestOf_attained foundHigh
      rcases mem_with.mp member with rfl | inOthers
      · cases change with
        | cold worseCold _ _ => simp [worseCold] at warm
        | @warm slow fast worseWarm betterWarm faster =>
            rw [worseWarm, Option.some.injEq] at warm
            obtain ⟨low, foundLow, below⟩ := bestOf_le better (mem_with.mpr (.inl rfl)) betterWarm
            exact ⟨low, high, foundLow, rfl, warm ▸ below.trans faster⟩
      · obtain ⟨low, foundLow, below⟩ := bestOf_le stats (mem_with.mpr (.inr inOthers)) warm
        exact ⟨low, high, foundLow, rfl, below⟩
  | none =>
      left
      refine ⟨?_, rfl⟩
      cases foundLow : bestOf mode (front ++ better :: back) with
      | none => rfl
      | some low =>
          obtain ⟨stats, member, warm⟩ := bestOf_attained foundLow
          have absent : ∀ (other : CandidateStats ℝ) (latency : ℝ),
              other ∈ front ++ worse :: back → effectiveLatency other mode = some latency → False := by
            intro other latency inside isWarm
            obtain ⟨_, found, -⟩ := bestOf_le other inside isWarm
            rw [foundHigh] at found
            cases found
          rcases mem_with.mp member with rfl | inOthers
          · cases change with
            | cold _ betterCold _ => simp [betterCold] at warm
            | @warm slow _ worseWarm _ _ =>
                exact (absent worse slow (mem_with.mpr (.inl rfl)) worseWarm).elim
          · exact (absent stats low (mem_with.mpr (.inr inOthers)) warm).elim

/-- Every other candidate keeps or gains weight: warm ones are measured against a
reference that is no faster, cold ones do not see the reference's value. -/
theorem rawWeight_other_le (change : NoBetter mode worse better) (nonneg : 0 ≤ k)
    {stats : CandidateStats ℝ} (_ : stats ∈ front ++ back) :
    rawWeight (bestOf mode (front ++ better :: back)) k stats mode ≤
      rawWeight (bestOf mode (front ++ worse :: back)) k stats mode := by
  rcases bestOf_noBetter front back change with
    ⟨noLow, noHigh⟩ | ⟨low, high, foundLow, foundHigh, ordered⟩
  · rw [noLow, noHigh]
  · rw [foundLow, foundHigh]
    cases warm : effectiveLatency stats mode with
    | none => rw [rawWeight_of_cold _ warm, rawWeight_of_cold _ warm, Option.isSome, Option.isSome]
    | some latency =>
        have positive := effectiveLatency_pos warm
        rw [rawWeight_of_warm warm, rawWeight_of_warm warm]
        exact Real.rpow_le_rpow (div_nonneg (bestOf_pos foundLow).le positive.le)
          (div_le_div_of_nonneg_right ordered positive.le) nonneg

/-- The candidate itself does not gain weight.  When it was the reference, its ratio
was one; otherwise the reference stays where it was. -/
theorem rawWeight_self_le (front back : List (CandidateStats ℝ))
    (change : NoBetter mode worse better) (nonneg : 0 ≤ k) :
    rawWeight (bestOf mode (front ++ worse :: back)) k worse mode ≤
      rawWeight (bestOf mode (front ++ better :: back)) k better mode := by
  cases change with
  | cold worseCold betterCold rate =>
      have powered : flooredRate worse ^ k ≤ flooredRate better ^ k :=
        Real.rpow_le_rpow (flooredRate_pos worse).le (flooredRate_mono rate) nonneg
      have same : (bestOf mode (front ++ worse :: back)).isSome =
          (bestOf mode (front ++ better :: back)).isSome := by
        rcases bestOf_noBetter front back
          (.cold worseCold betterCold rate) with ⟨noLow, noHigh⟩ | ⟨_, _, foundLow, foundHigh, -⟩
        · rw [noLow, noHigh]
        · rw [foundLow, foundHigh, Option.isSome, Option.isSome]
      rw [rawWeight_of_cold _ worseCold, rawWeight_of_cold _ betterCold, same]
      apply mul_le_mul_of_nonneg_left powered
      split <;> norm_num
  | @warm slow fast worseWarm betterWarm faster =>
      obtain ⟨high, foundHigh, highLe⟩ := bestOf_le worse
        (mem_with.mpr (.inl rfl) : worse ∈ front ++ worse :: back) worseWarm
      obtain ⟨low, foundLow, lowLe⟩ := bestOf_le better
        (mem_with.mpr (.inl rfl) : better ∈ front ++ better :: back) betterWarm
      have highPositive := bestOf_pos foundHigh
      have fastPositive := effectiveLatency_pos betterWarm
      have slowPositive := effectiveLatency_pos worseWarm
      rw [foundHigh, foundLow, rawWeight_of_warm worseWarm, rawWeight_of_warm betterWarm]
      refine Real.rpow_le_rpow (div_nonneg highPositive.le slowPositive.le) ?_ nonneg
      obtain ⟨stats, member, warm⟩ := bestOf_attained foundLow
      rcases mem_with.mp member with rfl | inOthers
      · rw [betterWarm, Option.some.injEq] at warm
        rw [warm, div_self (warm ▸ fastPositive.ne')]
        exact div_le_one_of_le₀ highLe slowPositive.le
      · obtain ⟨high', foundHigh', below⟩ := bestOf_le stats
          (mem_with.mpr (.inr inOthers) : stats ∈ front ++ worse :: back) warm
        rw [foundHigh, Option.some.injEq] at foundHigh'
        exact div_le_div₀ (bestOf_pos foundLow).le (foundHigh' ▸ below) fastPositive faster

end Weights

section Share

/-- The part of the total weight that belongs to candidate `index`. -/
noncomputable def share (candidates : List ResolvedCandidate) (tracker : Tracker ℝ) (k : ℝ)
    (mode : LatencyMode) (index : ℕ) : ℝ :=
  let weights := candidateWeights candidates tracker k mode
  (weights.getD index 0).toNat / totalWeight weights

theorem totalWeight_middle (left right : List UInt64) (weight : UInt64) :
    totalWeight (left ++ weight :: right) =
      weight.toNat + (totalWeight left + totalWeight right) := by
  simp [totalWeight, Nat.add_left_comm]

theorem totalWeight_map_le {slots : List (CandidateStats ℝ)} {low high : CandidateStats ℝ → UInt64}
    (ordered : ∀ stats ∈ slots, (low stats).toNat ≤ (high stats).toNat) :
    totalWeight (slots.map low) ≤ totalWeight (slots.map high) := by
  simp only [totalWeight, List.map_map]
  exact List.sum_le_sum ordered

/-- Losing weight while the others lose none cannot raise a share. -/
theorem share_ratio_le {own own' others others' : ℕ} (lost : own' ≤ own)
    (kept : others ≤ others') (positive : 0 < own') :
    (own' / (own' + others' : ℕ) : ℝ) ≤ own / (own + others : ℕ) := by
  rw [div_le_div_iff₀ (by positivity) (by exact_mod_cast Nat.add_pos_left (by omega) _)]
  have crossed : own' * others ≤ own * others' := Nat.mul_le_mul lost kept
  have crossedReal : (own' * others : ℝ) ≤ own * others' := by exact_mod_cast crossed
  push_cast
  linarith

variable {mode : LatencyMode} {k : ℝ} {worse better : CandidateStats ℝ}

theorem weightsOf_append_cons (front back : List (CandidateStats ℝ)) (stats : CandidateStats ℝ) :
    weightsOf k mode (front ++ stats :: back) =
      front.map (fun slot => weightOf (rawWeight (bestOf mode (front ++ stats :: back)) k slot mode)) ++
      weightOf (rawWeight (bestOf mode (front ++ stats :: back)) k stats mode) ::
      back.map fun slot => weightOf (rawWeight (bestOf mode (front ++ stats :: back)) k slot mode) := by
  simp [weightsOf, bestOf]

theorem getD_append_length (left right : List UInt64) (weight : UInt64) {index : ℕ}
    (same : left.length = index) : (left ++ weight :: right).getD index 0 = weight := by
  subst same
  simp [List.getD_eq_getElem?_getD]

/-- Worse statistics in one position never raise that position's share. -/
theorem share_noBetter (change : NoBetter mode worse better) (nonneg : 0 ≤ k)
    (front back : List (CandidateStats ℝ)) :
    (((weightsOf k mode (front ++ worse :: back)).getD front.length 0).toNat /
        totalWeight (weightsOf k mode (front ++ worse :: back)) : ℝ) ≤
      ((weightsOf k mode (front ++ better :: back)).getD front.length 0).toNat /
        totalWeight (weightsOf k mode (front ++ better :: back)) := by
  have others (part : List (CandidateStats ℝ)) (inside : part ⊆ front ++ back) :
      totalWeight (part.map fun slot =>
        weightOf (rawWeight (bestOf mode (front ++ better :: back)) k slot mode)) ≤
      totalWeight (part.map fun slot =>
        weightOf (rawWeight (bestOf mode (front ++ worse :: back)) k slot mode)) := by
    apply totalWeight_map_le
    intro stats member
    have other := inside member
    exact weightOf_mono (rawWeight_nonneg (mem_with.mpr (.inr other)) k)
      (rawWeight_other_le change nonneg other)
  have own := weightOf_mono (rawWeight_nonneg (mem_with.mpr (.inl rfl)) k)
    (rawWeight_self_le front back change nonneg)
  have floored := floor_le_weightOf (rawWeight (bestOf mode (front ++ worse :: back)) k worse mode)
  rw [weightsOf_append_cons, weightsOf_append_cons, getD_append_length _ _ _ (by simp),
    getD_append_length _ _ _ (by simp), totalWeight_middle, totalWeight_middle]
  exact share_ratio_le own (Nat.add_le_add (others front (List.subset_append_left _ _))
    (others back (List.subset_append_right _ _))) (by omega)

/-- An update of the slot of one candidate is visible at its position only. -/
theorem share_le_of_noBetter {front back : List ResolvedCandidate} {candidate : ResolvedCandidate}
    (distinct : ((front ++ candidate :: back).map ResolvedCandidate.statsIndex).Nodup)
    {earlier later : Tracker ℝ}
    (frame : ∀ slot ≠ candidate.statsIndex, later.stats slot = earlier.stats slot)
    (nonneg : 0 ≤ k) (change : NoBetter mode (later.stats candidate.statsIndex)
      (earlier.stats candidate.statsIndex)) :
    share (front ++ candidate :: back) later k mode front.length ≤
      share (front ++ candidate :: back) earlier k mode front.length := by
  let slots (tracker : Tracker ℝ) (part : List ResolvedCandidate) : List (CandidateStats ℝ) :=
    part.map fun other => tracker.stats other.statsIndex
  have others (part : List ResolvedCandidate) (inside : part ⊆ front ++ back) :
      slots later part = slots earlier part := by
    apply List.map_congr_left
    intro other member
    apply frame
    intro same
    rw [List.map_append, List.map_cons, List.nodup_middle, List.nodup_cons, ← same,
      ← List.map_append] at distinct
    exact distinct.1 (List.mem_map_of_mem (inside member))
  have computed (tracker : Tracker ℝ) :
      candidateWeights (front ++ candidate :: back) tracker k mode = weightsOf k mode
        (slots tracker front ++ tracker.stats candidate.statsIndex :: slots tracker back) := by
    simp [candidateWeights, slots]
  have bound := share_noBetter change nonneg (slots earlier front) (slots earlier back)
  rw [← others front (List.subset_append_left _ _), ← others back (List.subset_append_right _ _),
    ← computed, others front (List.subset_append_left _ _),
    others back (List.subset_append_right _ _), ← computed] at bound
  simpa [share, slots] using bound

end Share

theorem exists_split {Alpha : Type} {values : List Alpha} {index : ℕ}
    (inside : index < values.length) :
    ∃ front back, values = front ++ values[index] :: back ∧ front.length = index := by
  refine ⟨values.take index, values.drop (index + 1), ?_, by simp; omega⟩
  rw [List.getElem_cons_drop, List.take_append_drop]

/-- An error on a candidate never raises its share, and a success that is not slower
than its current average in a warm mode never lowers it, in either mode. -/
theorem feedback_moves_share {alpha errorThreshold : ℝ} (unit : alpha ∈ Set.Icc 0 1)
    {tracker : Tracker ℝ} (reachable : Tracker.Reachable alpha errorThreshold tracker)
    {candidates : List ResolvedCandidate}
    (distinct : (candidates.map ResolvedCandidate.statsIndex).Nodup)
    {k : ℝ} (nonneg : 0 ≤ k) (mode : LatencyMode) {index : ℕ}
    (inside : index < candidates.length) :
    share candidates (tracker.recordError candidates[index].statsIndex) k mode index ≤
        share candidates tracker k mode index ∧
      ∀ (observedMode : LatencyMode) (observed : Duration),
        (tracker.stats candidates[index].statsIndex).isCold observedMode = false →
        observed.asMillis ≤ ((tracker.stats candidates[index].statsIndex).ewmaMs observedMode).toNat →
        share candidates tracker k mode index ≤
          share candidates
            (tracker.recordSuccess candidates[index].statsIndex observedMode observed) k mode index := by
  obtain ⟨front, back, split, rfl⟩ := exists_split inside
  generalize candidates[front.length] = candidate at split ⊢
  subst split
  obtain ⟨rateNonneg, rateLe⟩ := reachable.successRate_mem unit candidate.statsIndex
  have unit' : tracker.alpha ∈ Set.Icc 0 1 := reachable.alpha_eq ▸ unit
  by_cases inBounds : tracker.InBounds candidate.statsIndex
  · constructor
    · apply share_le_of_noBetter distinct ?_ nonneg
      · rw [tracker.stats_recordError inBounds]
        exact noBetter_error unit' rateNonneg
      · intro slot different
        exact tracker.stats_recordError_of_ne candidate.statsIndex different
    · intro observedMode observed warm notAbove
      have frame : ∀ slot ≠ candidate.statsIndex, tracker.stats slot =
          (tracker.recordSuccess candidate.statsIndex observedMode observed).stats slot := by
        intro slot different
        exact (tracker.stats_recordSuccess_of_ne _ different observedMode observed).symm
      apply share_le_of_noBetter distinct frame nonneg
      rw [tracker.stats_recordSuccess inBounds]
      have truncated : (UInt64.ofNat observed.asMillis).toNat ≤ observed.asMillis := by
        rw [UInt64.toNat_ofNat']
        exact Nat.mod_le _ _
      exact noBetter_success unit' rateLe warm (truncated.trans notAbove)
  · -- An index past the end has no slot to update.
    constructor
    · have unchanged : tracker.recordError candidate.statsIndex = tracker :=
        tracker.stats_modify_out inBounds _
      rw [unchanged]
    · intro observedMode observed warm
      have missing : tracker.stats candidate.statsIndex = .new := by
        have past : tracker.slots.length ≤ candidate.statsIndex := not_lt.mp inBounds
        simp [Tracker.stats, List.getD_eq_getElem?_getD, past]
      rw [missing] at warm
      cases observedMode <;> simp [CandidateStats.isCold, CandidateStats.new,
        CandidateStats.ewmaMs] at warm

/-- Feedback on the first of two candidates, warm in one mode. -/
theorem feedback_moves_share_first :
    ∃ map after left right, (fromConfig (Config.single "openai".toList
        "https://api.openai.com/v1".toList "fast".toList ["gpt-4o".toList, "gpt-5".toList])
        (.new (1 / 2) (1 / 2) : Tracker ℝ) : Except (ConfigError ℝ Text) _) = .ok (map, after) ∧
      map.get "fast".toList = some [left, right] ∧
      let warm := after.recordSuccess left.statsIndex .streaming (.fromMillis 100)
      share [left, right] (warm.recordError left.statsIndex) 3 .streaming 0 ≤
          share [left, right] warm 3 .streaming 0 ∧
        share [left, right] warm 3 .nonStreaming 0 ≤
          share [left, right] (warm.recordSuccess left.statsIndex .streaming (.fromMillis 50)) 3
            .nonStreaming 0 := by
  obtain ⟨map, after, left, right, accepted, found, first, second, -, inBounds, -⟩ :=
    fromConfig_pair (1 / 2) (1 / 2)
  have reachable : Tracker.Reachable (1 / 2) (1 / 2)
      (after.recordSuccess left.statsIndex .streaming (.fromMillis 100)) :=
    .record (.success left.statsIndex .streaming (.fromMillis 100))
      (fromConfig_reachable accepted .new)
  have distinct : ([left, right].map ResolvedCandidate.statsIndex).Nodup := by
    simp [first, second]
  have ewma : ((after.recordSuccess left.statsIndex .streaming (.fromMillis 100)).stats
      left.statsIndex).ewmaMs .streaming = 100 := by
    rw [after.stats_recordSuccess (first ▸ inBounds), fromConfig_fresh accepted]
    rfl
  have feedback (mode : LatencyMode) := feedback_moves_share (by norm_num) reachable distinct
    (k := 3) (by norm_num) mode Nat.two_pos
  refine ⟨map, after, left, right, accepted, found, (feedback .streaming).1, ?_⟩
  refine (feedback .nonStreaming).2 .streaming (.fromMillis 50) ?_ ?_
  · change (_ == _) = false
    rw [List.getElem_cons_zero, ewma]
    decide
  · rw [List.getElem_cons_zero, ewma]
    decide

end Sturnus
