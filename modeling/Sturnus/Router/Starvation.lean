import Sturnus.Foundation.Equidistribution
import Sturnus.Router.Weights

/-!
# Neither of two candidates starves

In exact arithmetic every weight lies between ten and a thousand units, so each
of two candidates always owns a slice of at least a hundred-and-first of the
positions: one at the bottom, the other at the top.  Going back 89 or 144 ticks
moves the spread by little in opposite directions, so both ends are visited in
any 144 consecutive ticks, whatever the weights are at each of them.
-/

namespace Sturnus

open Foundation

/-- What happens to an alias and the statistics behind it during a run. -/
inductive RouterEvent where
  | select (k : { k : ℝ // 0 ≤ k }) (mode : LatencyMode)
  | record (call : Tracker.Record)

/-- What the selections of a run return, in order. -/
noncomputable def picks (modelAlias : Text) (candidates : List ResolvedCandidate) :
    List RouterEvent → Tracker ℝ → RoundRobinState → List (Option ℕ)
  | [], _, _ => []
  | .select k mode :: rest, tracker, rr =>
      let (pick, rr) := selectCandidate modelAlias candidates tracker rr k.val mode
      pick :: picks modelAlias candidates rest tracker rr
  | .record call :: rest, tracker, rr =>
      picks modelAlias candidates rest (tracker.apply call) rr

def RouterEvent.isSelect : RouterEvent → Bool
  | .select _ _ => true
  | .record _ => false

theorem length_picks (modelAlias : Text) (candidates : List ResolvedCandidate)
    (events : List RouterEvent) (tracker : Tracker ℝ) (rr : RoundRobinState) :
    (picks modelAlias candidates events tracker rr).length =
      events.countP RouterEvent.isSelect := by
  induction events generalizing tracker rr with
  | nil => rfl
  | cons event rest inductionHypothesis =>
      cases event with
      | select k mode =>
          rw [List.countP_cons_of_pos (by rfl), picks, List.length_cons, inductionHypothesis]
      | record call =>
          rw [List.countP_cons_of_neg Bool.false_ne_true, picks, inductionHypothesis]

/-- Weights exact arithmetic can produce. -/
def InRange (weights : List UInt64) : Prop :=
  ∀ weight ∈ weights, 10 ≤ weight.toNat ∧ weight.toNat ≤ 1000

theorem InRange.total_bounds {weights : List UInt64} (inRange : InRange weights) :
    10 * weights.length ≤ totalWeight weights ∧ totalWeight weights ≤ 1000 * weights.length := by
  induction weights with
  | nil => simp
  | cons weight rest inductionHypothesis =>
      obtain ⟨least, most⟩ := inRange weight List.mem_cons_self
      obtain ⟨below, above⟩ := inductionHypothesis
        fun other member => inRange other (List.mem_cons_of_mem _ member)
      rw [totalWeight_cons, List.length_cons]
      omega

theorem candidateWeights_inRange {alpha errorThreshold : ℝ} (unit : alpha ∈ Set.Icc 0 1)
    {tracker : Tracker ℝ} (reachable : Tracker.Reachable alpha errorThreshold tracker)
    (candidates : List ResolvedCandidate) {k : ℝ} (nonneg : 0 ≤ k) (mode : LatencyMode) :
    InRange (candidateWeights candidates tracker k mode) := by
  intro weight member
  apply weightsOf_bounds nonneg ?_ member
  intro stats inside
  obtain ⟨candidate, -, rfl⟩ := List.mem_map.mp inside
  exact (reachable.successRate_mem unit candidate.statsIndex).2

/-- The selections of a run see consecutive ticks and weights in range. -/
theorem picks_getElem {alpha errorThreshold : ℝ} (unit : alpha ∈ Set.Icc 0 1) {modelAlias : Text}
    {candidates : List ResolvedCandidate} (nonempty : candidates ≠ []) (events : List RouterEvent)
    {tracker : Tracker ℝ} (reachable : Tracker.Reachable alpha errorThreshold tracker)
    {rr : RoundRobinState} {start : UInt64}
    (registered : rr.counters.lookup modelAlias = some start) {j : ℕ}
    (inside : j < (picks modelAlias candidates events tracker rr).length) :
    ∃ weights, InRange weights ∧ weights.length = candidates.length ∧
      (picks modelAlias candidates events tracker rr)[j] =
        some (selectIndex weights (start + UInt64.ofNat j)) := by
  induction events generalizing tracker rr start j with
  | nil => simp [picks] at inside
  | cons event rest inductionHypothesis =>
      cases event with
      | record call => exact inductionHypothesis (reachable.record call) registered inside
      | select k mode =>
          let advanced : RoundRobinState := ⟨rr.counters.insert modelAlias (start + 1)⟩
          have next : advanced.counters.lookup modelAlias = some (start + 1) :=
            AList.lookup_insert _
          have unfolded : picks modelAlias candidates (.select k mode :: rest) tracker rr =
              some (selectIndex (candidateWeights candidates tracker k.val mode) start) ::
                picks modelAlias candidates rest tracker advanced := by
            rw [picks, selectCandidate_of_lookup nonempty registered]
          simp only [unfolded] at inside ⊢
          cases j with
          | zero =>
              exact ⟨_, candidateWeights_inRange unit reachable candidates k.property mode,
                length_candidateWeights .., by simp⟩
          | succ j =>
              have inRest : j < (picks modelAlias candidates rest tracker advanced).length := by
                simpa using inside
              obtain ⟨weights, inRange, length, pick⟩ := inductionHypothesis reachable next inRest
              exact ⟨weights, inRange, length, by rw [List.getElem_cons_succ, pick, tick_succ]⟩

section Window

/-- The spread of the `j`-th tick after `start`. -/
def spreadFrom (start j : ℕ) : ℕ := (start + j) * weylStep.toNat % 2 ^ 64

theorem weylStep_toNat : weylStep.toNat = 11400714819323198485 := by decide

theorem spreadFrom_lt (start j : ℕ) : spreadFrom start j < 2 ^ 64 := Nat.mod_lt _ (by norm_num)

theorem spreadFrom_add (start j n : ℕ) :
    spreadFrom start (j + n) = (spreadFrom start j + n * weylStep.toNat) % 2 ^ 64 := by
  rw [spreadFrom, spreadFrom, ← add_assoc, add_mul (start + j), Nat.mod_add_mod]

/-- The step is a unit, so some tick lands on any given position. -/
theorem exists_spread (start : ℕ) {target : ℕ} (inside : target < 2 ^ 64) :
    ∃ j, spreadFrom start j = target := by
  refine ⟨target * 17428512612931826493 + (2 ^ 64 - start % 2 ^ 64), ?_⟩
  rw [spreadFrom, weylStep_toNat]
  omega

/-- 89 ticks earlier is a little lower, 144 ticks earlier a little higher, and the two
together are less than a hundred-and-first of the circle. -/
theorem exists_spread_between (start : ℕ) {low high : ℕ} (inside : high ≤ 2 ^ 64)
    (long : low + 2 ^ 64 / 101 ≤ high) :
    ∃ j < 144, low ≤ spreadFrom start j ∧ spreadFrom start j < high := by
  obtain ⟨j, visited⟩ := exists_spread start (show low < 2 ^ 64 by omega)
  have backDown (i : ℕ) (enough : 92694865739326285 ≤ spreadFrom start (i + 89)) :
      spreadFrom start i = spreadFrom start (i + 89) - 92694865739326285 := by
    rw [spreadFrom_add, weylStep_toNat] at enough ⊢
    have bound := spreadFrom_lt start i
    omega
  have backUp (i : ℕ) (fits : spreadFrom start (i + 144) + 57288577609511984 < 2 ^ 64) :
      spreadFrom start i = spreadFrom start (i + 144) + 57288577609511984 := by
    rw [spreadFrom_add, weylStep_toNat] at fits ⊢
    have bound := spreadFrom_lt start i
    omega
  have hit : low ≤ spreadFrom start j ∧ spreadFrom start j < high := by omega
  exact exists_visit_lt (by norm_num) (by norm_num) backDown backUp (by omega) inside hit

end Window

section Slices

variable {lower upper tick : UInt64}

theorem totalWeight_pair : totalWeight [lower, upper] = lower.toNat + upper.toNat := by
  simp

theorem InRange.pair (inRange : InRange [lower, upper]) :
    (10 ≤ lower.toNat ∧ lower.toNat ≤ 1000) ∧ 10 ≤ upper.toNat ∧ upper.toNat ≤ 1000 :=
  ⟨inRange lower (by simp), inRange upper (by simp)⟩

/-- The first candidate owns the bottom hundred-and-first, whatever the weights. -/
theorem selectIndex_of_low (inRange : InRange [lower, upper])
    (low : (tick * weylStep).toNat < 2 ^ 64 / 101) : selectIndex [lower, upper] tick = 0 := by
  obtain ⟨⟨lowerMin, lowerMax⟩, upperMin, upperMax⟩ := inRange.pair
  have bounded : totalWeight [lower, upper] < 2 ^ 64 := by rw [totalWeight_pair]; omega
  have positive : 0 < totalWeight [lower, upper] := by rw [totalWeight_pair]; omega
  have spread : (tick * weylStep).toNat * 101 < 2 ^ 64 := by omega
  have below : (tick * weylStep).toNat * (lower.toNat + upper.toNat) < lower.toNat * 2 ^ 64 :=
    calc (tick * weylStep).toNat * (lower.toNat + upper.toNat)
        ≤ (tick * weylStep).toNat * (101 * lower.toNat) := Nat.mul_le_mul_left _ (by omega)
      _ = (tick * weylStep).toNat * 101 * lower.toNat := (Nat.mul_assoc _ _ _).symm
      _ < 2 ^ 64 * lower.toNat := Nat.mul_lt_mul_of_pos_right spread (by omega)
      _ = lower.toNat * 2 ^ 64 := Nat.mul_comm _ _
  rw [selectIndex_eq_iff bounded positive _ (by simp), position_toNat bounded, totalWeight_pair]
  refine ⟨Nat.zero_le _, ?_⟩
  simpa [Nat.div_lt_iff_lt_mul] using below

/-- The second candidate owns the top hundred-and-first, whatever the weights. -/
theorem selectIndex_of_high (inRange : InRange [lower, upper])
    (high : 2 ^ 64 - 2 ^ 64 / 101 ≤ (tick * weylStep).toNat) :
    selectIndex [lower, upper] tick = 1 := by
  obtain ⟨⟨lowerMin, lowerMax⟩, upperMin, upperMax⟩ := inRange.pair
  have bounded : totalWeight [lower, upper] < 2 ^ 64 := by rw [totalWeight_pair]; omega
  have positive : 0 < totalWeight [lower, upper] := by rw [totalWeight_pair]; omega
  have spread : (tick * weylStep).toNat < 2 ^ 64 := UInt64.toNat_lt _
  obtain ⟨rest, complement⟩ := Nat.exists_eq_add_of_le spread.le
  have missing : rest * (lower.toNat + upper.toNat) ≤ upper.toNat * 2 ^ 64 :=
    calc rest * (lower.toNat + upper.toNat) ≤ rest * (101 * upper.toNat) :=
          Nat.mul_le_mul_left _ (by omega)
      _ = rest * 101 * upper.toNat := (Nat.mul_assoc _ _ _).symm
      _ ≤ 2 ^ 64 * upper.toNat := Nat.mul_le_mul_right _ (by omega)
      _ = upper.toNat * 2 ^ 64 := Nat.mul_comm _ _
  have above : lower.toNat * 2 ^ 64 ≤ (tick * weylStep).toNat * (lower.toNat + upper.toNat) := by
    have whole : (tick * weylStep).toNat * (lower.toNat + upper.toNat) +
        rest * (lower.toNat + upper.toNat) =
          lower.toNat * 2 ^ 64 + upper.toNat * 2 ^ 64 := by
      rw [← Nat.add_mul, ← complement, Nat.mul_add, Nat.mul_comm, Nat.mul_comm (2 ^ 64)]
    omega
  have below := position_lt bounded positive tick
  rw [selectIndex_eq_iff bounded positive _ (by simp)]
  refine ⟨?_, by simpa [sliceStart] using below⟩
  rw [position_toNat bounded, totalWeight_pair, Nat.le_div_iff_mul_le (by norm_num)]
  simpa using above

end Slices

/-- In any run, any 144 consecutive selections return each of the two candidates. -/
theorem two_candidates_never_starve {alpha errorThreshold : ℝ} (unit : alpha ∈ Set.Icc 0 1)
    {tracker : Tracker ℝ} (reachable : Tracker.Reachable alpha errorThreshold tracker)
    {modelAlias : Text} {candidates : List ResolvedCandidate} (two : candidates.length = 2)
    {rr : RoundRobinState} {start : UInt64}
    (registered : rr.counters.lookup modelAlias = some start) (events : List RouterEvent)
    {offset : ℕ}
    (window : offset + 144 ≤ (picks modelAlias candidates events tracker rr).length) (i : Fin 2) :
    some i.val ∈ ((picks modelAlias candidates events tracker rr).drop offset).take 144 := by
  have nonempty : candidates ≠ [] := by
    rintro rfl
    simp at two
  -- A tick of the window whose spread lies in the candidate's end of the circle.
  have landing : ∃ j < 144, ∀ lower upper, InRange [lower, upper] →
      selectIndex [lower, upper] (start + UInt64.ofNat (offset + j)) = i.val := by
    have spread (j : ℕ) : ((start + UInt64.ofNat (offset + j)) * weylStep).toNat =
        spreadFrom (start.toNat + offset) j := by
      rw [spread_toNat, spreadFrom, add_assoc]
    match i with
    | 0 =>
        have bottom : 0 + 2 ^ 64 / 101 ≤ 2 ^ 64 / 101 := by omega
        obtain ⟨j, inside, -, low⟩ := exists_spread_between (start.toNat + offset) (by omega) bottom
        exact ⟨j, inside, fun lower upper inRange =>
          selectIndex_of_low inRange ((spread j).trans_lt low)⟩
    | 1 =>
        have top : 2 ^ 64 - 2 ^ 64 / 101 + 2 ^ 64 / 101 ≤ 2 ^ 64 := by omega
        obtain ⟨j, inside, high, -⟩ := exists_spread_between (start.toNat + offset) le_rfl top
        exact ⟨j, inside, fun lower upper inRange =>
          selectIndex_of_high inRange (high.trans_eq (spread j).symm)⟩
  obtain ⟨j, inside, lands⟩ := landing
  have inPicks : offset + j < (picks modelAlias candidates events tracker rr).length := by omega
  obtain ⟨weights, inRange, length, pick⟩ :=
    picks_getElem unit nonempty events reachable registered inPicks
  obtain ⟨lower, upper, rfl⟩ := List.length_eq_two.mp (length.trans two)
  rw [lands lower upper inRange] at pick
  refine List.mem_iff_getElem.mpr ⟨j, by simp; omega, ?_⟩
  rw [List.getElem_take, List.getElem_drop, pick]

/-- An error after every selection does not starve the failing candidate. -/
theorem two_candidates_never_starve_failing :
    ∃ map after candidates, (fromConfig (Config.single "openai".toList
        "https://api.openai.com/v1".toList "fast".toList ["gpt-4o".toList, "gpt-5".toList])
        (.new (1 / 2) (1 / 2) : Tracker ℝ) : Except (ConfigError ℝ Text) _) = .ok (map, after) ∧
      map.get "fast".toList = some candidates ∧
      some 0 ∈ ((picks "fast".toList candidates
        ((List.replicate 200 [.select ⟨3, by norm_num⟩ .streaming, .record (.error 0)]).flatten)
        after (RoundRobinState.new.registerAlias "fast".toList)).drop 50).take 144 := by
  obtain ⟨map, after, left, right, accepted, found, -⟩ := fromConfig_pair (1 / 2) (1 / 2)
  refine ⟨map, after, [left, right], accepted, found, ?_⟩
  refine two_candidates_never_starve (by norm_num) (fromConfig_reachable accepted .new) rfl rfl
    _ ?_ 0
  rw [length_picks, List.countP_flatten, List.map_replicate, List.sum_replicate]
  exact Nat.le_of_ble_eq_true rfl

end Sturnus
