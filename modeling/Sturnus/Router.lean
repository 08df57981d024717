import Mathlib.Data.UInt
import Sturnus.ModelMap

/-!
# Weighted candidate selection

Every candidate gets an integer weight from its effective latency.  A tick of
the alias counter, spread by a golden-ratio Weyl sequence, picks a position in
`[0, total)`, and the candidate whose slice contains it is returned.

`usize` has 64 bits and its arithmetic wraps.  A returned reference into the
slice of candidates is modelled by its index.
-/

namespace Sturnus

open Foundation

/-- One counter per alias. -/
structure RoundRobinState where
  counters : HashMap Text UInt64

namespace RoundRobinState

def new : RoundRobinState := ⟨∅⟩

/-- `entry(alias).or_insert_with(|| AtomicUsize::new(0))`. -/
def registerAlias (rr : RoundRobinState) (modelAlias : Text) : RoundRobinState :=
  match rr.counters.lookup modelAlias with
  | some _ => rr
  | none => ⟨rr.counters.insert modelAlias 0⟩

/-- `fetch_add(1)`; an alias without a counter always sees tick 0. -/
def nextTick (rr : RoundRobinState) (modelAlias : Text) : UInt64 × RoundRobinState :=
  match rr.counters.lookup modelAlias with
  | none => (0, rr)
  | some tick => (tick, ⟨rr.counters.insert modelAlias (tick + 1)⟩)

theorem nextTick_of_lookup {rr : RoundRobinState} {modelAlias : Text} {tick : UInt64}
    (registered : rr.counters.lookup modelAlias = some tick) :
    rr.nextTick modelAlias = (tick, ⟨rr.counters.insert modelAlias (tick + 1)⟩) := by
  rw [nextTick, registered]

theorem lookup_nextTick {rr : RoundRobinState} {modelAlias : Text} {tick : UInt64}
    (registered : rr.counters.lookup modelAlias = some tick) :
    (rr.nextTick modelAlias).2.counters.lookup modelAlias = some (tick + 1) := by
  rw [nextTick_of_lookup registered]
  exact AList.lookup_insert _

theorem lookup_nextTick_of_ne (rr : RoundRobinState) {modelAlias other : Text}
    (different : other ≠ modelAlias) :
    (rr.nextTick modelAlias).2.counters.lookup other = rr.counters.lookup other := by
  unfold nextTick
  cases rr.counters.lookup modelAlias with
  | none => rfl
  | some tick => exact AList.lookup_insert_ne different

theorem mem_nextTick (rr : RoundRobinState) (modelAlias other : Text) :
    other ∈ (rr.nextTick modelAlias).2.counters ↔ other ∈ rr.counters := by
  cases found : rr.counters.lookup modelAlias with
  | none => rw [nextTick, found]
  | some tick =>
      have present : modelAlias ∈ rr.counters := AList.lookup_isSome.mp (by simp [found])
      rw [nextTick_of_lookup found, AList.mem_insert]
      exact ⟨fun member => member.elim (fun same => same ▸ present) id, .inr⟩

end RoundRobinState

variable {F : Type} [Float64 F]

/-- Weight units of the fastest candidate. -/
def weightResolution : F := Float64.literal 1000

/-- Cold candidates probe at this fraction of the fastest candidate's rate. -/
def coldProbeWeight : F := Float64.literal (1 / 4)

/-- Minimum weight of any candidate, as a fraction of `weightResolution`. -/
def probeFloor : F := Float64.literal (1 / 100)

/-- Success-rate floor inside effective latency. -/
def minSuccessRate : F := Float64.literal (1 / 1000)

/-- 2^64 / φ, the step of the Weyl sequence. -/
def weylStep : UInt64 := 0x9E3779B97F4A7C15

/-- Milliseconds per successful response; `none` is cold for `mode`. -/
def effectiveLatency (stats : CandidateStats F) (mode : LatencyMode) : Option F :=
  if stats.isCold mode then none
  -- Guarded against a 0 ms EWMA.
  else some (Float64.ofU64 (max (stats.ewmaMs mode) 1) / max stats.successRate minSuccessRate)

/-- The least latency; `none` is the infinity the fold starts from. -/
def bestEffective (effective : List (Option F)) : Option F :=
  effective.foldl (fun best latency =>
    match best, latency with
    | best, none => best
    | none, some latency => some latency
    | some best, some latency => some (min best latency)) none

def rawWeight (best : Option F) (k : F) (stats : CandidateStats F) (mode : LatencyMode) : F :=
  match effectiveLatency stats mode with
  -- One warm candidate is enough for `best` to be finite.
  | some latency => Float64.powf (best.getD latency / latency) k
  | none =>
      let base : F := if best.any Float64.isFinite then coldProbeWeight else 1
      base * Float64.powf (max stats.successRate minSuccessRate) k

/-- Scale to weight units and keep the floor. -/
def weightOf (raw : F) : UInt64 :=
  Float64.toU64 (max (Float64.round (raw * weightResolution)) (weightResolution * probeFloor))

/-- The weights of `stats`, each against the best of all of them. -/
def weightsOf (k : F) (mode : LatencyMode) (stats : List (CandidateStats F)) : List UInt64 :=
  let best := bestEffective (stats.map (effectiveLatency · mode))
  stats.map fun slot => weightOf (rawWeight best k slot mode)

def candidateWeights (candidates : List ResolvedCandidate) (tracker : Tracker F) (k : F)
    (mode : LatencyMode) : List UInt64 :=
  weightsOf k mode (candidates.map fun candidate => tracker.stats candidate.statsIndex)

/-- Walk the cumulative weights up to the slice that contains `pos`. -/
def scan (pos : UInt64) : UInt64 → List UInt64 → Option ℕ
  | _, [] => none
  | acc, weight :: rest =>
      if pos < acc + weight then some 0 else (scan pos (acc + weight) rest).map (· + 1)

def position (weights : List UInt64) (tick : UInt64) : UInt64 :=
  UInt64.ofNat ((tick * weylStep).toNat * weights.sum.toNat / 2 ^ 64)

/-- The candidate a tick falls on; the last one is the fallback. -/
def selectIndex (weights : List UInt64) (tick : UInt64) : ℕ :=
  (scan (position weights tick) 0 weights).getD (weights.length - 1)

def selectCandidate (modelAlias : Text) (candidates : List ResolvedCandidate)
    (tracker : Tracker F) (rr : RoundRobinState) (k : F) (mode : LatencyMode) :
    Option ℕ × RoundRobinState :=
  if candidates.isEmpty then (none, rr)
  else
    let weights := candidateWeights candidates tracker k mode
    let (tick, rr) := rr.nextTick modelAlias
    (some (selectIndex weights tick), rr)

@[simp] theorem length_weightsOf (k : F) (mode : LatencyMode) (stats : List (CandidateStats F)) :
    (weightsOf k mode stats).length = stats.length := by
  simp [weightsOf]

@[simp] theorem length_candidateWeights (candidates : List ResolvedCandidate)
    (tracker : Tracker F) (k : F) (mode : LatencyMode) :
    (candidateWeights candidates tracker k mode).length = candidates.length := by
  simp [candidateWeights]

theorem selectCandidate_of_ne_nil {modelAlias : Text} {candidates : List ResolvedCandidate}
    (nonempty : candidates ≠ []) (tracker : Tracker F) (rr : RoundRobinState) (k : F)
    (mode : LatencyMode) :
    selectCandidate modelAlias candidates tracker rr k mode =
      (some (selectIndex (candidateWeights candidates tracker k mode) (rr.nextTick modelAlias).1),
        (rr.nextTick modelAlias).2) := by
  simp [selectCandidate, nonempty]

theorem selectCandidate_of_lookup {modelAlias : Text} {candidates : List ResolvedCandidate}
    (nonempty : candidates ≠ []) {rr : RoundRobinState} {tick : UInt64}
    (registered : rr.counters.lookup modelAlias = some tick) (tracker : Tracker F) (k : F)
    (mode : LatencyMode) :
    selectCandidate modelAlias candidates tracker rr k mode =
      (some (selectIndex (candidateWeights candidates tracker k mode) tick),
        ⟨rr.counters.insert modelAlias (tick + 1)⟩) := by
  rw [selectCandidate_of_ne_nil nonempty, RoundRobinState.nextTick_of_lookup registered]

/-- The sum of the weights, before any wrapping. -/
def totalWeight (weights : List UInt64) : ℕ := (weights.map UInt64.toNat).sum

/-- Where the slice of `[0, totalWeight)` that belongs to `index` begins. -/
def sliceStart (weights : List UInt64) (index : ℕ) : ℕ := totalWeight (weights.take index)

section Scan

@[simp] theorem totalWeight_nil : totalWeight [] = 0 := rfl

@[simp] theorem totalWeight_cons (weight : UInt64) (rest : List UInt64) :
    totalWeight (weight :: rest) = weight.toNat + totalWeight rest := rfl

@[simp] theorem sliceStart_zero (weights : List UInt64) : sliceStart weights 0 = 0 := rfl

@[simp] theorem sliceStart_cons_succ (weight : UInt64) (rest : List UInt64) (index : ℕ) :
    sliceStart (weight :: rest) (index + 1) = weight.toNat + sliceStart rest index := rfl

theorem sliceStart_succ {weights : List UInt64} {index : ℕ} (inside : index < weights.length) :
    sliceStart weights (index + 1) = sliceStart weights index + weights[index].toNat := by
  have inMap : index < (weights.map UInt64.toNat).length := by simpa using inside
  have summed := List.sum_take_succ (weights.map UInt64.toNat) index inMap
  rwa [← List.map_take, ← List.map_take, List.getElem_map] at summed

theorem sliceStart_le_totalWeight (weights : List UInt64) (index : ℕ) :
    sliceStart weights index ≤ totalWeight weights := by
  rw [sliceStart, totalWeight, totalWeight, List.map_take]
  exact (List.take_sublist _ _).sum_le_sum (by simp)

/-- Without overflow the computed total is the sum of the weights. -/
theorem sum_toNat {weights : List UInt64} (bounded : totalWeight weights < 2 ^ 64) :
    weights.sum.toNat = totalWeight weights := by
  induction weights with
  | nil => rfl
  | cons weight rest inductionHypothesis =>
      rw [totalWeight_cons] at bounded ⊢
      have tail : rest.sum.toNat = totalWeight rest := inductionHypothesis (by omega)
      rw [List.sum_cons, UInt64.toNat_add, tail, Nat.mod_eq_of_lt bounded]

/-- Without overflow `scan` finds the slice that contains `pos`, when there is one. -/
theorem scan_eq_some_iff {pos acc : UInt64} {weights : List UInt64}
    (bounded : acc.toNat + totalWeight weights < 2 ^ 64) (start : acc ≤ pos) {index : ℕ}
    (inside : index < weights.length) :
    scan pos acc weights = some index ↔
      acc.toNat + sliceStart weights index ≤ pos.toNat ∧
      pos.toNat < acc.toNat + sliceStart weights (index + 1) := by
  induction weights generalizing acc index with
  | nil => simp at inside
  | cons weight rest inductionHypothesis =>
      rw [totalWeight_cons] at bounded
      have noWrap : (acc + weight).toNat = acc.toNat + weight.toNat := by
        rw [UInt64.toNat_add, Nat.mod_eq_of_lt (by omega)]
      rw [scan]
      by_cases hit : pos < acc + weight
      · have below : pos.toNat < acc.toNat + weight.toNat := noWrap ▸ UInt64.lt_iff_toNat_lt.mp hit
        have above : acc.toNat ≤ pos.toNat := UInt64.le_iff_toNat_le.mp start
        cases index with
        | zero => simpa [hit] using ⟨above, below⟩
        | succ index =>
            simp only [hit, if_true, Option.some.injEq, sliceStart_cons_succ]
            omega
      · have past : acc + weight ≤ pos := UInt64.not_lt.mp hit
        have beyond : acc.toNat + weight.toNat ≤ pos.toNat :=
          noWrap ▸ UInt64.le_iff_toNat_le.mp past
        rw [if_neg hit, Option.map_eq_some_iff]
        cases index with
        | zero =>
            simp only [sliceStart_cons_succ, sliceStart_zero]
            omega
        | succ index =>
            have inRest : index < rest.length := by simpa using inside
            have room : (acc + weight).toNat + totalWeight rest < 2 ^ 64 := by omega
            have step := inductionHypothesis room past inRest
            simp only [Nat.add_right_cancel_iff, exists_eq_right, step, noWrap,
              sliceStart_cons_succ]
            omega

theorem scan_isSome {pos acc : UInt64} {weights : List UInt64}
    (bounded : acc.toNat + totalWeight weights < 2 ^ 64)
    (below : pos.toNat < acc.toNat + totalWeight weights) (start : acc ≤ pos) :
    ∃ index < weights.length, scan pos acc weights = some index := by
  induction weights generalizing acc with
  | nil =>
      have reached : acc.toNat ≤ pos.toNat := UInt64.le_iff_toNat_le.mp start
      rw [totalWeight_nil] at below
      omega
  | cons weight rest inductionHypothesis =>
      rw [totalWeight_cons] at bounded below
      have noWrap : (acc + weight).toNat = acc.toNat + weight.toNat := by
        rw [UInt64.toNat_add, Nat.mod_eq_of_lt (by omega)]
      rw [scan]
      by_cases hit : pos < acc + weight
      · exact ⟨0, by simp, by simp [hit]⟩
      · have room : (acc + weight).toNat + totalWeight rest < 2 ^ 64 := by omega
        obtain ⟨index, inside, found⟩ := inductionHypothesis room (by omega)
          (UInt64.not_lt.mp hit)
        exact ⟨index + 1, by simpa using inside, by simp [hit, found]⟩

theorem tick_succ (start : UInt64) (j : ℕ) :
    start + 1 + UInt64.ofNat j = start + UInt64.ofNat (j + 1) := by
  rw [UInt64.ofNat_add, UInt64.add_comm (UInt64.ofNat j), UInt64.add_assoc]
  rfl

/-- Ticks wrap, and so does their spread: only the residue of the count matters. -/
theorem spread_toNat (start : UInt64) (j : ℕ) :
    ((start + UInt64.ofNat j) * weylStep).toNat =
      (start.toNat + j) * weylStep.toNat % 2 ^ 64 := by
  rw [UInt64.toNat_mul, UInt64.toNat_add, UInt64.toNat_ofNat', Nat.add_mod_mod, Nat.mod_mul_mod]

theorem position_toNat {weights : List UInt64} (bounded : totalWeight weights < 2 ^ 64)
    (tick : UInt64) :
    (position weights tick).toNat =
      (tick * weylStep).toNat * totalWeight weights / 2 ^ 64 := by
  have spread : (tick * weylStep).toNat < 2 ^ 64 := UInt64.toNat_lt _
  have small : (tick * weylStep).toNat * totalWeight weights / 2 ^ 64 < 2 ^ 64 :=
    Nat.div_lt_of_lt_mul (Nat.mul_lt_mul'' spread bounded)
  rw [position, sum_toNat bounded, UInt64.toNat_ofNat_of_lt' small]

theorem position_lt {weights : List UInt64} (bounded : totalWeight weights < 2 ^ 64)
    (positive : 0 < totalWeight weights) (tick : UInt64) :
    (position weights tick).toNat < totalWeight weights := by
  have spread : (tick * weylStep).toNat < 2 ^ 64 := UInt64.toNat_lt _
  rw [position_toNat bounded]
  exact Nat.div_lt_of_lt_mul (Nat.mul_lt_mul_of_pos_right spread positive)

/-- A position lies below a positive total, so the fallback is never used: the pick
is the candidate whose slice contains the position. -/
theorem selectIndex_eq_iff {weights : List UInt64} (bounded : totalWeight weights < 2 ^ 64)
    (positive : 0 < totalWeight weights) (tick : UInt64) {index : ℕ}
    (inside : index < weights.length) :
    selectIndex weights tick = index ↔
      sliceStart weights index ≤ (position weights tick).toNat ∧
      (position weights tick).toNat < sliceStart weights (index + 1) := by
  have below := position_lt bounded positive tick
  have start : (0 : UInt64).toNat + totalWeight weights < 2 ^ 64 := by simpa using bounded
  have least : 0 ≤ position weights tick := UInt64.zero_le
  obtain ⟨hit, _, found⟩ := scan_isSome start (by simpa using below) least
  have slice := scan_eq_some_iff start least inside
  rw [found] at slice
  rw [selectIndex, found, Option.getD_some]
  simpa using slice

theorem selectIndex_lt {weights : List UInt64} (nonempty : weights ≠ []) (tick : UInt64) :
    selectIndex weights tick < weights.length := by
  have hitLt : ∀ {pos acc : UInt64} {weights : List UInt64} {index : ℕ},
      scan pos acc weights = some index → index < weights.length := by
    intro pos acc weights
    induction weights generalizing acc with
    | nil => simp [scan]
    | cons weight rest inductionHypothesis =>
        intro index found
        rw [scan] at found
        split at found
        · rw [← Option.some.inj found]
          simp
        · obtain ⟨earlier, inRest, rfl⟩ := Option.map_eq_some_iff.mp found
          simpa using inductionHypothesis inRest
  cases found : scan (position weights tick) 0 weights with
  | some index => simpa [selectIndex, found] using hitLt found
  | none =>
      have positive := List.length_pos_of_ne_nil nonempty
      simp only [selectIndex, found, Option.getD_none]
      omega

end Scan

end Sturnus
