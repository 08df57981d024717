import Sturnus.Tracker.Ewma

/-!
# What a slot remembers of its history

A slot is cold for a mode while it has no latency of that mode.  From the first
one on, its EWMA stays between the least and the greatest latency recorded, and
no other call touches it.
-/

namespace Sturnus

open Foundation CandidateStats

namespace Tracker

/-- The latency a call records on `slot` in `mode`. -/
def Record.latency (slot : ℕ) (mode : LatencyMode) : Record → Option ℕ
  | .success index recorded observed =>
      if index = slot ∧ recorded = mode then some observed.asMillis else none
  | .error _ => none

/-- All of them, in order. -/
def latencies (slot : ℕ) (mode : LatencyMode) (records : List Record) : List ℕ :=
  records.filterMap (Record.latency slot mode)

/-- The milliseconds of a success are whole and exact as an `f64`. -/
def Record.Short (call : Record) : Prop :=
  ∀ index mode observed, call = .success index mode observed → observed.asMillis < 2 ^ 53

section Latencies

variable {slot : ℕ} {mode : LatencyMode}

@[simp] theorem latencies_nil : latencies slot mode [] = [] := rfl

theorem latencies_append (records later : List Record) :
    latencies slot mode (records ++ later) =
      latencies slot mode records ++ latencies slot mode later :=
  List.filterMap_append

theorem latencies_singleton (call : Record) :
    latencies slot mode [call] = (call.latency slot mode).toList := by
  rw [latencies, List.filterMap_cons]
  cases call.latency slot mode <;> rfl

theorem Record.latency_success (observed : Duration) :
    (Record.success slot mode observed).latency slot mode = some observed.asMillis :=
  if_pos ⟨rfl, rfl⟩

/-- Only a success of the slot in the mode records a latency. -/
theorem Record.latency_eq_some {call : Record} {ms : ℕ}
    (recorded : call.latency slot mode = some ms) :
    ∃ observed : Duration, call = .success slot mode observed ∧ observed.asMillis = ms := by
  cases call with
  | error index => cases recorded
  | success index other observed =>
      rw [Record.latency, Option.ite_none_right_eq_some] at recorded
      obtain ⟨⟨rfl, rfl⟩, same⟩ := recorded
      exact ⟨observed, rfl, Option.some.inj same⟩

theorem latencies_lt {records : List Record} (short : ∀ call ∈ records, call.Short) :
    ∀ ms ∈ latencies slot mode records, ms < 2 ^ 53 := by
  intro ms member
  obtain ⟨call, called, recorded⟩ := List.mem_filterMap.mp member
  obtain ⟨observed, same, rfl⟩ := Record.latency_eq_some recorded
  exact short call called _ _ _ same

end Latencies

section Frame

variable {F : Type} [Float64 F]

/-- Errors, successes in the other mode and calls on other slots leave an EWMA alone. -/
theorem ewmaMs_apply_of_ne (tracker : Tracker F) {call : Record} {slot : ℕ} {mode : LatencyMode}
    (other : ∀ observed, call ≠ .success slot mode observed) :
    ((tracker.apply call).stats slot).ewmaMs mode = (tracker.stats slot).ewmaMs mode := by
  rcases tracker.stats_apply_cases call slot with same | ⟨rfl, updated⟩
  · rw [same]
  · rw [updated]
    cases call with
    | error index => exact recordOutcome_ewmaMs _ _ _ _
    | success index recorded observed =>
        have different : mode ≠ recorded := by
          rintro rfl
          exact other observed rfl
        exact (recordOutcome_ewmaMs _ _ _ _).trans (updateEwma_ewmaMs_of_ne _ different _ _)

theorem ewmaMs_apply_success (tracker : Tracker F) {slot : ℕ} (inBounds : tracker.InBounds slot)
    (mode : LatencyMode) (observed : Duration) :
    ((tracker.apply (.success slot mode observed)).stats slot).ewmaMs mode =
      nextEwma tracker.alpha (UInt64.ofNat observed.asMillis)
        ((tracker.stats slot).ewmaMs mode) := by
  have self : (tracker.apply (.success slot mode observed)).stats slot =
      Record.onStats tracker.alpha (tracker.stats slot) (.success slot mode observed) :=
    stats_apply_self tracker inBounds
  rw [self, Record.onStats, recordOutcome_ewmaMs, updateEwma_ewmaMs]

theorem foldl_apply_alpha (records : List Record) (tracker : Tracker F) :
    (records.foldl apply tracker).alpha = tracker.alpha :=
  List.foldlRecOn (motive := fun reached => reached.alpha = tracker.alpha) records apply rfl
    fun reached same call _ => (reached.apply_alpha call).trans same

end Frame

end Tracker

/-- The sentinel before the first latency, then a value that no bound on all the
latencies excludes. -/
structure Summarises (seen : List ℕ) (ewma : UInt64) : Prop where
  cold : seen = [] → ewma = u64Max
  atMost : seen ≠ [] → ∀ bound, (∀ ms ∈ seen, ms ≤ bound) → ewma.toNat ≤ bound
  atLeast : seen ≠ [] → ∀ bound, (∀ ms ∈ seen, bound ≤ ms) → bound ≤ ewma.toNat

namespace Summarises

variable {seen : List ℕ} {ewma : UInt64}

theorem nil : Summarises [] u64Max :=
  ⟨fun _ => rfl, fun nonempty => absurd rfl nonempty, fun nonempty => absurd rfl nonempty⟩

/-- Latencies stay clear of the sentinel, and so does what lies below one of them. -/
theorem cold_iff (summary : Summarises seen ewma) (short : ∀ ms ∈ seen, ms < 2 ^ 53) :
    ewma = u64Max ↔ seen = [] := by
  constructor
  · intro sentinel
    by_contra nonempty
    have small := summary.atMost nonempty (2 ^ 53) fun ms member => (short ms member).le
    rw [sentinel, u64Max_toNat] at small
    omega
  · exact summary.cold

/-- One more latency. -/
theorem next {alpha : ℝ} (unit : alpha ∈ Set.Icc 0 1) (summary : Summarises seen ewma)
    (short : ∀ ms ∈ seen, ms < 2 ^ 53) {ms : ℕ} (shortNext : ms < 2 ^ 53) :
    Summarises (seen ++ [ms]) (nextEwma alpha (UInt64.ofNat ms) ewma) := by
  have value : (UInt64.ofNat ms).toNat = ms :=
    UInt64.toNat_ofNat_of_lt' (shortNext.trans (by decide))
  have nonempty : seen ++ [ms] ≠ [] := by simp
  by_cases first : seen = []
  · rw [summary.cold first, nextEwma_of_cold]
    refine ⟨fun empty => absurd empty nonempty, ?_, ?_⟩
    · intro _ bound below
      exact value.trans_le (below ms (by simp))
    · intro _ bound above
      exact (above ms (by simp)).trans_eq value.symm
  · have warm : ewma ≠ u64Max := fun sentinel => first ((summary.cold_iff short).mp sentinel)
    refine ⟨fun empty => absurd empty nonempty, ?_, ?_⟩
    · intro _ bound below
      apply nextEwma_le_of_le unit warm
      · exact value.trans_le (below ms (by simp))
      · exact summary.atMost first bound fun old member => below old (by simp [member])
    · intro _ bound above
      apply le_nextEwma_of_le unit warm
      · exact (above ms (by simp)).trans_eq value.symm
      · exact summary.atLeast first bound fun old member => above old (by simp [member])

theorem min_le_max (summary : Summarises seen ewma) {low high : ℕ} (least : seen.min? = some low)
    (greatest : seen.max? = some high) : low ≤ ewma.toNat ∧ ewma.toNat ≤ high := by
  have nonempty : seen ≠ [] := by
    rintro rfl
    cases least
  constructor
  · exact summary.atLeast nonempty low (List.min?_eq_some_iff.mp least).2
  · exact summary.atMost nonempty high (List.max?_eq_some_iff.mp greatest).2

end Summarises

namespace Tracker

variable {tracker : Tracker ℝ} {slot : ℕ}

/-- The invariant, kept by every call. -/
theorem summarises_foldl (unit : tracker.alpha ∈ Set.Icc 0 1)
    (fresh : ∀ index, tracker.stats index = .new) (inBounds : tracker.InBounds slot)
    (mode : LatencyMode) (records : List Record) (short : ∀ call ∈ records, call.Short) :
    Summarises (latencies slot mode records)
      (((records.foldl apply tracker).stats slot).ewmaMs mode) := by
  induction records using List.reverseRecOn with
  | nil =>
      rw [List.foldl_nil, fresh]
      cases mode <;> exact .nil
  | append_singleton records call inductionHypothesis =>
      have shortBefore : ∀ earlier ∈ records, earlier.Short :=
        fun earlier member => short earlier (List.mem_append_left _ member)
      have summary := inductionHypothesis shortBefore
      have shortCall : call.Short := short call (by simp)
      rw [List.foldl_append, List.foldl_cons, List.foldl_nil, latencies_append,
        latencies_singleton]
      cases recorded : call.latency slot mode with
      | none =>
          have other : ∀ observed, call ≠ .success slot mode observed := by
            rintro observed rfl
            cases recorded.symm.trans (Record.latency_success observed)
          rw [ewmaMs_apply_of_ne _ other, Option.toList_none, List.append_nil]
          exact summary
      | some ms =>
          obtain ⟨observed, rfl, rfl⟩ := Record.latency_eq_some recorded
          have stillIn := (inBounds_foldl_apply records tracker slot).mpr inBounds
          rw [ewmaMs_apply_success _ stillIn, foldl_apply_alpha]
          exact summary.next unit (latencies_lt shortBefore) (shortCall _ _ _ rfl)

theorem successRate_foldl_mem (unit : tracker.alpha ∈ Set.Icc 0 1)
    (fresh : ∀ index, tracker.stats index = .new) (records : List Record) (slot : ℕ) :
    ((records.foldl apply tracker).stats slot).successRate ∈ Set.Icc 0 1 := by
  induction records using List.reverseRecOn with
  | nil =>
      rw [List.foldl_nil, fresh]
      exact ⟨zero_le_one, le_rfl⟩
  | append_singleton records call inductionHypothesis =>
      rw [List.foldl_append, List.foldl_cons, List.foldl_nil]
      rcases stats_apply_cases (records.foldl apply tracker) call slot with same | ⟨rfl, updated⟩
      · rwa [same]
      · rw [updated, foldl_apply_alpha]
        cases call with
        | error index => exact recordOutcome_successRate_mem unit inductionHypothesis false
        | success index mode observed =>
            apply recordOutcome_successRate_mem unit _ true
            rwa [updateEwma_successRate]

theorem isCold_foldl_iff (unit : tracker.alpha ∈ Set.Icc 0 1)
    (fresh : ∀ index, tracker.stats index = .new) (inBounds : tracker.InBounds slot)
    (mode : LatencyMode) {records : List Record} (short : ∀ call ∈ records, call.Short) :
    ((records.foldl apply tracker).stats slot).isCold mode = true ↔
      latencies slot mode records = [] := by
  have summary := summarises_foldl unit fresh inBounds mode records short
  rw [isCold, beq_iff_eq]
  exact summary.cold_iff (latencies_lt short)

/-- What every history of calls on fresh slots leaves behind. -/
theorem history_invariant (unit : tracker.alpha ∈ Set.Icc 0 1)
    (fresh : ∀ index, tracker.stats index = .new) (records : List Record)
    (short : ∀ call ∈ records, call.Short) (inBounds : tracker.InBounds slot)
    (mode : LatencyMode) :
    let after := records.foldl apply tracker
    ((after.stats slot).isCold mode = true ↔ latencies slot mode records = []) ∧
    (∀ later : List Record, (∀ call ∈ later, call.Short) →
      (after.stats slot).isCold mode = false →
        ((later.foldl apply after).stats slot).isCold mode = false) ∧
    (∀ low high, (latencies slot mode records).min? = some low →
      (latencies slot mode records).max? = some high →
        low ≤ ((after.stats slot).ewmaMs mode).toNat ∧
          ((after.stats slot).ewmaMs mode).toNat ≤ high) ∧
    (∀ call : Record, (∀ observed, call ≠ .success slot mode observed) →
      ((after.apply call).stats slot).ewmaMs mode = (after.stats slot).ewmaMs mode) ∧
    (after.stats slot).successRate ∈ Set.Icc 0 1 := by
  refine ⟨isCold_foldl_iff unit fresh inBounds mode short, ?_, ?_, ?_,
    successRate_foldl_mem unit fresh records slot⟩
  · intro later shortLater warm
    have shortAll : ∀ call ∈ records ++ later, call.Short := fun call member =>
      (List.mem_append.mp member).elim (short call) (shortLater call)
    have before := isCold_foldl_iff unit fresh inBounds mode short
    have afterwards := isCold_foldl_iff unit fresh inBounds mode shortAll
    rw [warm] at before
    rw [List.foldl_append, latencies_append, List.append_eq_nil_iff] at afterwards
    apply Bool.eq_false_iff.mpr
    intro cold
    cases before.mpr (afterwards.mp cold).1
  · intro low high
    exact (summarises_foldl unit fresh inBounds mode records short).min_le_max
  · intro call other
    exact ewmaMs_apply_of_ne _ other

theorem stats_register_new (alpha errorThreshold : ℝ) (index : ℕ) :
    ((new alpha errorThreshold : Tracker ℝ).register.1).stats index = .new := by
  rcases ((new alpha errorThreshold : Tracker ℝ).register.1).stats_mem_or_new index with
    member | isNew
  · exact List.mem_singleton.mp member
  · exact isNew

/-- An error, two streamed answers and one in a piece, on the only slot. -/
def mixed : List Record :=
  [.error 0, .success 0 .streaming (.fromMillis 900), .success 0 .nonStreaming (.fromMillis 40),
    .success 0 .streaming (.fromMillis 100)]

/-- The estimates of either mode are averages of its own latencies. -/
theorem history_invariant_mixed :
    let after := mixed.foldl apply ((new (3 / 10) (1 / 2) : Tracker ℝ).register.1)
    (100 ≤ ((after.stats 0).ewmaMs .streaming).toNat ∧
      ((after.stats 0).ewmaMs .streaming).toNat ≤ 900) ∧
    (40 ≤ ((after.stats 0).ewmaMs .nonStreaming).toNat ∧
      ((after.stats 0).ewmaMs .nonStreaming).toNat ≤ 40) ∧
    (after.stats 0).isCold .nonStreaming ≠ true ∧
    (after.stats 0).successRate ∈ Set.Icc 0 1 := by
  have short : ∀ call ∈ mixed, call.Short := by
    intro call member index mode observed same
    subst same
    simp only [mixed, List.mem_cons, List.not_mem_nil, or_false, reduceCtorEq, false_or,
      Record.success.injEq] at member
    rcases member with ⟨-, -, rfl⟩ | ⟨-, -, rfl⟩ | ⟨-, -, rfl⟩ <;> decide
  have invariant := history_invariant (by constructor <;> norm_num [register, new])
    (stats_register_new (3 / 10) (1 / 2)) mixed short Nat.one_pos
  obtain ⟨-, -, streamed, -, rate⟩ := invariant .streaming
  obtain ⟨cold, -, whole, -⟩ := invariant .nonStreaming
  refine ⟨streamed 100 900 (by decide) (by decide), whole 40 40 (by decide) (by decide), ?_, rate⟩
  rw [ne_eq, cold]
  decide

end Tracker

end Sturnus
