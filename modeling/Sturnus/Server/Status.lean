import Sturnus.ModelMap

/-!
# The status page

`/status` lists the statistics of every slot once, whichever aliases share it.
A JSON object of the response is the structure of its fields.
-/

namespace Sturnus

open Foundation

inductive SlotStatus where
  | cold
  | degraded
  | warm
  deriving DecidableEq, Repr

def SlotStatus.asStr : SlotStatus → String
  | .cold => "cold"
  | .degraded => "degraded"
  | .warm => "warm"

structure CandidateStatus (F : Type) where
  provider : Text
  model : Text
  status : SlotStatus
  streamingEwmaMs : Option UInt64
  nonstreamingEwmaMs : Option UInt64
  errorRate : F

def CandidateStatus.pair {F : Type} (entry : CandidateStatus F) : Text × Text :=
  (entry.provider, entry.model)

variable {F : Type} [Float64 F]

/-- `(ewma != u64::MAX).then_some(ewma)`. -/
def warmMs (ewma : UInt64) : Option UInt64 := if ewma = u64Max then none else some ewma

def candidateStatus (tracker : Tracker F) (candidate : ResolvedCandidate) : CandidateStatus F :=
  let stats := tracker.stats candidate.statsIndex
  let streamingEwma := stats.ewmaMs .streaming
  let nonstreamingEwma := stats.ewmaMs .nonStreaming
  let anyWarm := streamingEwma ≠ u64Max ∨ nonstreamingEwma ≠ u64Max
  { provider := candidate.providerName
    model := candidate.model
    status :=
      if ¬anyWarm then .cold
      else if tracker.isDegraded candidate.statsIndex then .degraded
      else .warm
    streamingEwmaMs := warmMs streamingEwma
    nonstreamingEwmaMs := warmMs nonstreamingEwma
    errorRate := 1 - stats.successRate }

/-- The loop of `build_status_response` over the entries of the model map. -/
def statusEntries (tracker : Tracker F) :
    Finset ℕ → List (Text × ResolvedCandidate) → List (CandidateStatus F)
  | _, [] => []
  | seen, (_, candidate) :: rest =>
      if candidate.statsIndex ∈ seen then statusEntries tracker seen rest
      else candidateStatus tracker candidate ::
        statusEntries tracker (insert candidate.statsIndex seen) rest

def buildStatusResponse (tracker : Tracker F) (entries : List (Text × ResolvedCandidate)) :
    List (CandidateStatus F) :=
  statusEntries tracker ∅ entries

/-- Slots name pairs: candidates share a slot exactly when they are the same pair. -/
def SlotsNamePairs (candidates : List ResolvedCandidate) : Prop :=
  ∀ left ∈ candidates, ∀ right ∈ candidates,
    left.statsIndex = right.statsIndex ↔ left.pair = right.pair

section Entries

variable {tracker : Tracker F}

/-- The pairs listed are those of the slots not seen before. -/
theorem mem_statusEntries {entries : List (Text × ResolvedCandidate)}
    (named : SlotsNamePairs (entries.map Prod.snd)) (seen : Finset ℕ) (pair : Text × Text) :
    pair ∈ (statusEntries tracker seen entries).map CandidateStatus.pair ↔
      ∃ candidate ∈ entries.map Prod.snd, candidate.statsIndex ∉ seen ∧ candidate.pair = pair := by
  induction entries generalizing seen with
  | nil => simp [statusEntries]
  | cons entry rest inductionHypothesis =>
      have namedRest : SlotsNamePairs (rest.map Prod.snd) := fun left inLeft right inRight =>
        named left (List.mem_cons_of_mem _ inLeft) right (List.mem_cons_of_mem _ inRight)
      rw [statusEntries, List.map_cons]
      split
      next known =>
          rw [inductionHypothesis namedRest]
          simp [known]
      next fresh =>
          rw [List.map_cons, List.mem_cons, inductionHypothesis namedRest]
          constructor
          · rintro (rfl | ⟨candidate, member, unseen, same⟩)
            · exact ⟨entry.2, List.mem_cons_self, fresh, rfl⟩
            · exact ⟨candidate, List.mem_cons_of_mem _ member,
                fun old => unseen (Finset.mem_insert_of_mem old), same⟩
          · rintro ⟨candidate, member, unseen, same⟩
            rcases List.mem_cons.mp member with rfl | inRest
            · exact .inl same.symm
            · by_cases sameSlot : candidate.statsIndex = entry.2.statsIndex
              · have samePair := (named candidate member entry.2 List.mem_cons_self).mp sameSlot
                exact .inl (same.symm.trans samePair)
              · exact .inr ⟨candidate, inRest, by simp [sameSlot, unseen], same⟩

theorem nodup_statusEntries {entries : List (Text × ResolvedCandidate)}
    (named : SlotsNamePairs (entries.map Prod.snd)) (seen : Finset ℕ) :
    ((statusEntries tracker seen entries).map CandidateStatus.pair).Nodup := by
  induction entries generalizing seen with
  | nil => exact List.nodup_nil
  | cons entry rest inductionHypothesis =>
      have namedRest : SlotsNamePairs (rest.map Prod.snd) := fun left inLeft right inRight =>
        named left (List.mem_cons_of_mem _ inLeft) right (List.mem_cons_of_mem _ inRight)
      rw [statusEntries]
      split
      · exact inductionHypothesis namedRest seen
      · apply List.nodup_cons.mpr
        refine ⟨?_, inductionHypothesis namedRest _⟩
        intro again
        obtain ⟨candidate, member, unseen, same⟩ := (mem_statusEntries namedRest _ _).mp again
        have sameSlot := (named candidate (List.mem_cons_of_mem _ member) entry.2
          List.mem_cons_self).mpr same
        exact unseen (sameSlot ▸ Finset.mem_insert_self _ _)

theorem exists_of_mem_statusEntries {entries : List (Text × ResolvedCandidate)} {seen : Finset ℕ}
    {status : CandidateStatus F} (listed : status ∈ statusEntries tracker seen entries) :
    ∃ candidate ∈ entries.map Prod.snd, candidateStatus tracker candidate = status := by
  induction entries generalizing seen with
  | nil => cases listed
  | cons entry rest inductionHypothesis =>
      have later : ∀ seen, status ∈ statusEntries tracker seen rest →
          ∃ candidate ∈ (entry :: rest).map Prod.snd,
            candidateStatus tracker candidate = status := by
        intro seen listed
        obtain ⟨candidate, member, same⟩ := inductionHypothesis listed
        exact ⟨candidate, List.mem_cons_of_mem _ member, same⟩
      unfold statusEntries at listed
      split at listed
      next known => exact later _ listed
      next fresh =>
          rcases List.mem_cons.mp listed with same | listed
          · exact ⟨entry.2, List.mem_cons_self, same.symm⟩
          · exact later _ listed

/-- The statistics listed are those of the candidates, whatever the order of the entries. -/
theorem mem_buildStatusResponse {entries : List (Text × ResolvedCandidate)}
    (named : SlotsNamePairs (entries.map Prod.snd)) {status : CandidateStatus F} :
    status ∈ buildStatusResponse tracker entries ↔
      ∃ candidate ∈ entries.map Prod.snd, candidateStatus tracker candidate = status := by
  constructor
  · exact exists_of_mem_statusEntries
  · rintro ⟨candidate, member, rfl⟩
    have known : candidate.pair ∈
        (buildStatusResponse tracker entries).map CandidateStatus.pair :=
      (mem_statusEntries named ∅ candidate.pair).mpr
        ⟨candidate, member, Finset.notMem_empty _, rfl⟩
    obtain ⟨status, listed, pair⟩ := List.mem_map.mp known
    obtain ⟨other, inside, rfl⟩ := exists_of_mem_statusEntries listed
    -- The listed candidate has the same names, hence the same slot.
    have samePair : other.pair = candidate.pair := pair
    have sameSlot := (named other inside candidate member).mpr samePair
    have same : candidateStatus tracker other = candidateStatus tracker candidate := by
      obtain ⟨provider, model⟩ := Prod.mk.inj samePair
      rw [candidateStatus, candidateStatus, provider, model, sameSlot]
    exact same ▸ listed

end Entries

end Sturnus
