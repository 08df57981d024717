import Sturnus.Foundation.Float64

/-!
# Per-candidate statistics

Two latency EWMAs and a success-rate EWMA for every (provider, model) slot.
Each `fetch_update` of the source is one function on the slot's value; the
bits of the stored `f64` are modelled by the number itself.
-/

namespace Sturnus

open Foundation

/-- Streaming TTFC and non-streaming response time are tracked separately. -/
inductive LatencyMode where
  | streaming
  | nonStreaming
  deriving DecidableEq, Repr

def LatencyMode.asStr : LatencyMode → String
  | .streaming => "streaming"
  | .nonStreaming => "nonstreaming"

/-- `std::time::Duration`. -/
structure Duration where
  secs : UInt64
  nanos : Fin 1000000000
  deriving DecidableEq

def Duration.fromMillis (ms : UInt64) : Duration :=
  ⟨ms / 1000, Fin.ofNat _ (ms.toNat % 1000 * 1000000)⟩

def Duration.asMillis (d : Duration) : ℕ := d.secs.toNat * 1000 + d.nanos.val / 1000000

structure CandidateStats (F : Type) where
  /-- `u64Max` marks a cold slot: no sample yet. -/
  streamingEwmaMs : UInt64
  nonstreamingEwmaMs : UInt64
  successRate : F

namespace CandidateStats

variable {F : Type} [Float64 F]

def new : CandidateStats F := ⟨u64Max, u64Max, 1⟩

def ewmaMs (stats : CandidateStats F) : LatencyMode → UInt64
  | .streaming => stats.streamingEwmaMs
  | .nonStreaming => stats.nonstreamingEwmaMs

def isCold (stats : CandidateStats F) (mode : LatencyMode) : Bool := stats.ewmaMs mode == u64Max

def recordOutcome (stats : CandidateStats F) (success : Bool) (alpha : F) : CandidateStats F :=
  let sample : F := if success then 1 else 0
  { stats with successRate := alpha * sample + (1 - alpha) * stats.successRate }

/-- The value `update_ewma` stores in place of `old`. -/
def nextEwma (alpha : F) (observedMs old : UInt64) : UInt64 :=
  if old = u64Max then observedMs
  else Float64.toU64 (Float64.round
    (alpha * Float64.ofU64 observedMs + (1 - alpha) * Float64.ofU64 old))

def updateEwma (stats : CandidateStats F) (mode : LatencyMode) (observedMs : UInt64) (alpha : F) :
    CandidateStats F :=
  match mode with
  | .streaming =>
      { stats with streamingEwmaMs := nextEwma alpha observedMs stats.streamingEwmaMs }
  | .nonStreaming =>
      { stats with nonstreamingEwmaMs := nextEwma alpha observedMs stats.nonstreamingEwmaMs }

@[simp] theorem recordOutcome_ewmaMs (stats : CandidateStats F) (success : Bool) (alpha : F)
    (mode : LatencyMode) : (stats.recordOutcome success alpha).ewmaMs mode = stats.ewmaMs mode := by
  cases mode <;> rfl

@[simp] theorem updateEwma_ewmaMs (stats : CandidateStats F) (mode : LatencyMode)
    (observedMs : UInt64) (alpha : F) :
    (stats.updateEwma mode observedMs alpha).ewmaMs mode =
      nextEwma alpha observedMs (stats.ewmaMs mode) := by
  cases mode <;> rfl

theorem updateEwma_ewmaMs_of_ne (stats : CandidateStats F) {mode other : LatencyMode}
    (different : other ≠ mode) (observedMs : UInt64) (alpha : F) :
    (stats.updateEwma mode observedMs alpha).ewmaMs other = stats.ewmaMs other := by
  cases mode <;> cases other <;> first | rfl | exact absurd rfl different

@[simp] theorem updateEwma_successRate (stats : CandidateStats F) (mode : LatencyMode)
    (observedMs : UInt64) (alpha : F) :
    (stats.updateEwma mode observedMs alpha).successRate = stats.successRate := by
  cases mode <;> rfl

end CandidateStats

/-- The `stats` vector of the source is `slots` here: `stats` names the accessor. -/
structure Tracker (F : Type) where
  slots : List (CandidateStats F)
  alpha : F
  errorThreshold : F

namespace Tracker

variable {F : Type} [Float64 F]

def new (alpha errorThreshold : F) : Tracker F := ⟨[], alpha, errorThreshold⟩

/-- Allocate a slot and return its index. -/
def register (tracker : Tracker F) : Tracker F × ℕ :=
  ({ tracker with slots := tracker.slots ++ [.new] }, tracker.slots.length)

/-- Indexing past the end panics in the source; `InBounds` says that it does not happen. -/
def stats (tracker : Tracker F) (index : ℕ) : CandidateStats F :=
  tracker.slots.getD index .new

def InBounds (tracker : Tracker F) (index : ℕ) : Prop := index < tracker.slots.length

instance (tracker : Tracker F) (index : ℕ) : Decidable (tracker.InBounds index) :=
  inferInstanceAs (Decidable (_ < _))

/-- One atomic update of one slot. -/
def modify (tracker : Tracker F) (index : ℕ) (f : CandidateStats F → CandidateStats F) :
    Tracker F :=
  { tracker with slots := tracker.slots.modify index f }

def updateEwma (tracker : Tracker F) (index : ℕ) (mode : LatencyMode) (observed : Duration) :
    Tracker F :=
  tracker.modify index fun stats =>
    stats.updateEwma mode (UInt64.ofNat observed.asMillis) tracker.alpha

def recordOutcome (tracker : Tracker F) (index : ℕ) (success : Bool) : Tracker F :=
  tracker.modify index fun stats => stats.recordOutcome success tracker.alpha

def recordSuccess (tracker : Tracker F) (index : ℕ) (mode : LatencyMode) (observed : Duration) :
    Tracker F :=
  (tracker.updateEwma index mode observed).recordOutcome index true

def recordError (tracker : Tracker F) (index : ℕ) : Tracker F := tracker.recordOutcome index false

def isDegraded (tracker : Tracker F) (index : ℕ) : Bool :=
  Float64.lt tracker.errorThreshold (1 - (tracker.stats index).successRate)

section Fields

variable (tracker : Tracker F) (index : ℕ)

omit [Float64 F] in
@[simp] theorem modify_alpha (f : CandidateStats F → CandidateStats F) :
    (tracker.modify index f).alpha = tracker.alpha := rfl

omit [Float64 F] in
@[simp] theorem modify_length (f : CandidateStats F → CandidateStats F) :
    (tracker.modify index f).slots.length = tracker.slots.length := by
  simp [modify]

@[simp] theorem updateEwma_alpha (mode : LatencyMode) (observed : Duration) :
    (tracker.updateEwma index mode observed).alpha = tracker.alpha := rfl

theorem stats_modify_of_ne {other : ℕ} (different : other ≠ index)
    (f : CandidateStats F → CandidateStats F) :
    (tracker.modify index f).stats other = tracker.stats other := by
  simp [stats, modify, List.getD_eq_getElem?_getD, Ne.symm different]

theorem stats_modify_self {index : ℕ} (inBounds : tracker.InBounds index)
    (f : CandidateStats F → CandidateStats F) :
    (tracker.modify index f).stats index = f (tracker.stats index) := by
  have valid : index < tracker.slots.length := inBounds
  simp [stats, modify, List.getD_eq_getElem?_getD, valid]

omit [Float64 F] in
theorem stats_modify_out {index : ℕ} (outside : ¬tracker.InBounds index)
    (f : CandidateStats F → CandidateStats F) : tracker.modify index f = tracker := by
  have past : tracker.slots.length ≤ index := not_lt.mp outside
  simp [modify, List.modify_eq_self past]

omit [Float64 F] in
/-- What an update keeps of one slot holds of all slots behind it. -/
theorem forall_modify {P : CandidateStats F → Prop} {f : CandidateStats F → CandidateStats F}
    (keeps : ∀ stats, P stats → P (f stats)) (holds : ∀ stats ∈ tracker.slots, P stats) :
    ∀ stats ∈ (tracker.modify index f).slots, P stats := by
  intro stats membership
  obtain ⟨position, inside, rfl⟩ := List.getElem_of_mem membership
  rw [modify_length] at inside
  have member : tracker.slots[position] ∈ tracker.slots := List.getElem_mem _
  simp only [modify, List.getElem_modify]
  split
  · exact keeps _ (holds _ member)
  · exact holds _ member

theorem stats_recordError_of_ne {other : ℕ} (different : other ≠ index) :
    (tracker.recordError index).stats other = tracker.stats other :=
  tracker.stats_modify_of_ne index different _

theorem stats_recordSuccess_of_ne {other : ℕ} (different : other ≠ index) (mode : LatencyMode)
    (observed : Duration) :
    (tracker.recordSuccess index mode observed).stats other = tracker.stats other :=
  ((tracker.updateEwma index mode observed).stats_modify_of_ne index different _).trans
    (tracker.stats_modify_of_ne index different _)

theorem stats_recordError {index : ℕ} (inBounds : tracker.InBounds index) :
    (tracker.recordError index).stats index =
      (tracker.stats index).recordOutcome false tracker.alpha :=
  tracker.stats_modify_self inBounds _

theorem stats_recordSuccess {index : ℕ} (inBounds : tracker.InBounds index) (mode : LatencyMode)
    (observed : Duration) :
    (tracker.recordSuccess index mode observed).stats index =
      ((tracker.stats index).updateEwma mode (UInt64.ofNat observed.asMillis)
        tracker.alpha).recordOutcome true tracker.alpha := by
  have stillIn : (tracker.updateEwma index mode observed).InBounds index := by
    simpa [InBounds, updateEwma] using inBounds
  rw [recordSuccess, recordOutcome, stats_modify_self _ stillIn, updateEwma,
    stats_modify_self _ inBounds, modify_alpha]

theorem stats_mem_or_new (index : ℕ) :
    tracker.stats index ∈ tracker.slots ∨ tracker.stats index = .new := by
  by_cases inBounds : index < tracker.slots.length
  · left
    simp [stats, List.getD_eq_getElem?_getD, inBounds]
  · right
    simp [stats, List.getD_eq_getElem?_getD, not_lt.mp inBounds]

end Fields

/-- The calls that change a tracker once the candidates are registered. -/
inductive Record where
  | success (index : ℕ) (mode : LatencyMode) (observed : Duration)
  | error (index : ℕ)
  deriving DecidableEq

def apply (tracker : Tracker F) : Record → Tracker F
  | .success index mode observed => tracker.recordSuccess index mode observed
  | .error index => tracker.recordError index

def Record.slot : Record → ℕ
  | .success index _ _ => index
  | .error index => index

/-- What a call does to the statistics of its slot. -/
def Record.onStats (alpha : F) (stats : CandidateStats F) : Record → CandidateStats F
  | .success _ mode observed =>
      (stats.updateEwma mode (UInt64.ofNat observed.asMillis) alpha).recordOutcome true alpha
  | .error _ => stats.recordOutcome false alpha

@[simp] theorem apply_alpha (tracker : Tracker F) (call : Record) :
    (tracker.apply call).alpha = tracker.alpha := by
  cases call <;> rfl

@[simp] theorem length_apply (tracker : Tracker F) (call : Record) :
    (tracker.apply call).slots.length = tracker.slots.length := by
  cases call <;>
    simp [apply, recordSuccess, recordError, updateEwma, recordOutcome]

theorem stats_apply_of_ne (tracker : Tracker F) {call : Record} {slot : ℕ}
    (different : slot ≠ call.slot) : (tracker.apply call).stats slot = tracker.stats slot := by
  cases call with
  | success index mode observed =>
      exact tracker.stats_recordSuccess_of_ne index different mode observed
  | error index => exact tracker.stats_recordError_of_ne index different

theorem stats_apply_self (tracker : Tracker F) {call : Record}
    (inBounds : tracker.InBounds call.slot) :
    (tracker.apply call).stats call.slot = call.onStats tracker.alpha (tracker.stats call.slot) := by
  cases call with
  | success index mode observed => exact tracker.stats_recordSuccess inBounds mode observed
  | error index => exact tracker.stats_recordError inBounds

theorem apply_of_out {tracker : Tracker F} {call : Record}
    (outside : ¬tracker.InBounds call.slot) : tracker.apply call = tracker := by
  cases call with
  | error index => exact tracker.stats_modify_out outside _
  | success index mode observed =>
      have unchanged : tracker.updateEwma index mode observed = tracker :=
        tracker.stats_modify_out outside _
      rw [apply, recordSuccess, unchanged]
      exact tracker.stats_modify_out outside _

/-- A call leaves a slot as it was, or it is a call on that slot. -/
theorem stats_apply_cases (tracker : Tracker F) (call : Record) (slot : ℕ) :
    (tracker.apply call).stats slot = tracker.stats slot ∨
      call.slot = slot ∧
        (tracker.apply call).stats slot = call.onStats tracker.alpha (tracker.stats slot) := by
  by_cases here : call.slot = slot
  · subst here
    by_cases inBounds : tracker.InBounds call.slot
    · exact .inr ⟨rfl, tracker.stats_apply_self inBounds⟩
    · exact .inl (by rw [apply_of_out inBounds])
  · exact .inl (tracker.stats_apply_of_ne (Ne.symm here))

section Runs

variable (records : List Record) (tracker : Tracker F)

theorem inBounds_foldl_apply (index : ℕ) :
    (records.foldl apply tracker).InBounds index ↔ tracker.InBounds index := by
  induction records generalizing tracker with
  | nil => rfl
  | cons call rest inductionHypothesis =>
      rw [List.foldl_cons, inductionHypothesis, InBounds, length_apply, InBounds]

/-- Whatever the interleaving, a slot is determined by the calls on it. -/
theorem stats_foldl_apply {slot : ℕ} (inBounds : tracker.InBounds slot) :
    (records.foldl apply tracker).stats slot =
      (records.filter (·.slot == slot)).foldl (Record.onStats tracker.alpha)
        (tracker.stats slot) := by
  induction records generalizing tracker with
  | nil => rfl
  | cons call rest inductionHypothesis =>
      have stillIn : (tracker.apply call).InBounds slot := by
        rwa [InBounds, length_apply]
      rw [List.foldl_cons, inductionHypothesis _ stillIn, apply_alpha]
      by_cases here : call.slot = slot
      · subst here
        simp only [BEq.rfl, List.filter_cons_of_pos, List.foldl_cons,
          tracker.stats_apply_self inBounds]
      · rw [tracker.stats_apply_of_ne (Ne.symm here)]
        simp [here]

end Runs

/-- Trackers a run can reach from a new one. -/
inductive Reachable (alpha errorThreshold : F) : Tracker F → Prop where
  | new : Reachable alpha errorThreshold (new alpha errorThreshold)
  | register {tracker} : Reachable alpha errorThreshold tracker →
      Reachable alpha errorThreshold tracker.register.1
  | record {tracker} (call : Record) : Reachable alpha errorThreshold tracker →
      Reachable alpha errorThreshold (tracker.apply call)

theorem Reachable.alpha_eq {alpha errorThreshold : F} {tracker : Tracker F}
    (reachable : Reachable alpha errorThreshold tracker) : tracker.alpha = alpha := by
  induction reachable with
  | new => rfl
  | register _ inductionHypothesis => exact inductionHypothesis
  | record call _ inductionHypothesis => cases call <;> exact inductionHypothesis

theorem Reachable.replicate {alpha errorThreshold : F} {tracker : Tracker F}
    (reachable : Reachable alpha errorThreshold tracker) (count : ℕ) :
    Reachable alpha errorThreshold
      { tracker with slots := tracker.slots ++ List.replicate count .new } := by
  induction count with
  | zero => simpa using reachable
  | succ count inductionHypothesis =>
      rw [List.replicate_succ', ← List.append_assoc]
      exact .register inductionHypothesis

theorem Reachable.foldl {alpha errorThreshold : F} {tracker : Tracker F}
    (reachable : Reachable alpha errorThreshold tracker) (records : List Record) :
    Reachable alpha errorThreshold (records.foldl apply tracker) := by
  induction records generalizing tracker with
  | nil => exact reachable
  | cons call rest inductionHypothesis => exact inductionHypothesis (reachable.record call)

/-- A property of every slot that new slots have and both updates keep holds in
every reachable tracker. -/
theorem Reachable.forall_slots {alpha errorThreshold : F} {P : CandidateStats F → Prop}
    (fresh : P .new)
    (ewma : ∀ stats mode observedMs, P stats → P (stats.updateEwma mode observedMs alpha))
    (outcome : ∀ stats success, P stats → P (stats.recordOutcome success alpha))
    {tracker : Tracker F} (reachable : Reachable alpha errorThreshold tracker) :
    ∀ stats ∈ tracker.slots, P stats := by
  induction reachable with
  | new => simp [Tracker.new]
  | register _ inductionHypothesis =>
      intro stats membership
      rcases List.mem_append.mp membership with old | added
      · exact inductionHypothesis stats old
      · rw [List.mem_singleton.mp added]
        exact fresh
  | @record tracker call reached inductionHypothesis =>
      have same := reached.alpha_eq
      cases call with
      | success index mode observed =>
          apply forall_modify
          · intro stats holds
            simpa only [updateEwma_alpha, same] using outcome stats true holds
          · apply forall_modify _ index _ inductionHypothesis
            intro stats holds
            simpa only [same] using ewma stats mode _ holds
      | error index =>
          apply forall_modify _ index _ inductionHypothesis
          intro stats holds
          simpa only [same] using outcome stats false holds

theorem Reachable.stats {alpha errorThreshold : F} {P : CandidateStats F → Prop} (fresh : P .new)
    (ewma : ∀ stats mode observedMs, P stats → P (stats.updateEwma mode observedMs alpha))
    (outcome : ∀ stats success, P stats → P (stats.recordOutcome success alpha))
    {tracker : Tracker F} (reachable : Reachable alpha errorThreshold tracker) (index : ℕ) :
    P (tracker.stats index) := by
  rcases tracker.stats_mem_or_new index with member | isNew
  · exact reachable.forall_slots fresh ewma outcome _ member
  · rw [isNew]
    exact fresh

end Tracker

section Exact

/-- With exact arithmetic the success rate never leaves `[0, 1]`. -/
theorem CandidateStats.recordOutcome_successRate_mem {alpha : ℝ} (unit : alpha ∈ Set.Icc 0 1)
    {stats : CandidateStats ℝ} (rate : stats.successRate ∈ Set.Icc 0 1) (success : Bool) :
    (stats.recordOutcome success alpha).successRate ∈ Set.Icc 0 1 := by
  obtain ⟨alphaNonneg, alphaLe⟩ := unit
  obtain ⟨rateNonneg, rateLe⟩ := rate
  have kept : 0 ≤ (1 - alpha) * stats.successRate := mul_nonneg (by linarith) rateNonneg
  have keptLe : (1 - alpha) * stats.successRate ≤ 1 - alpha :=
    mul_le_of_le_one_right (by linarith) rateLe
  cases success with
  | false =>
      change alpha * 0 + (1 - alpha) * stats.successRate ∈ Set.Icc 0 1
      constructor <;> linarith
  | true =>
      change alpha * 1 + (1 - alpha) * stats.successRate ∈ Set.Icc 0 1
      constructor <;> linarith

theorem Tracker.Reachable.successRate_mem {alpha errorThreshold : ℝ} (unit : alpha ∈ Set.Icc 0 1)
    {tracker : Tracker ℝ} (reachable : Tracker.Reachable alpha errorThreshold tracker) (index : ℕ) :
    (tracker.stats index).successRate ∈ Set.Icc 0 1 := by
  refine reachable.stats (P := fun stats => stats.successRate ∈ Set.Icc 0 1) ?_ ?_ ?_ index
  · change (1 : ℝ) ∈ Set.Icc 0 1
    simp
  · intro stats mode observedMs rate
    simpa using rate
  · intro stats success rate
    exact CandidateStats.recordOutcome_successRate_mem unit rate success

end Exact

end Sturnus
