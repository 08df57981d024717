import Sturnus.Router
import Sturnus.Server.Status

/-!
# Slots and counters are wired correctly

What the tracker, the router and the status page may rely on after
`fromConfig`: a slot for every pair, one pair for every slot, indices that stay
valid, and a counter for every alias.
-/

namespace Sturnus

open Foundation

variable {F Addr : Type} [Float64 F]

/-- `main` registers a counter for every configured alias. -/
def RoundRobinState.ofAliases (aliases : List Text) : RoundRobinState :=
  aliases.foldl RoundRobinState.registerAlias .new

section Counters

theorem RoundRobinState.mem_registerAlias (rr : RoundRobinState) (modelAlias other : Text) :
    other ∈ (rr.registerAlias modelAlias).counters ↔ other = modelAlias ∨ other ∈ rr.counters := by
  cases found : rr.counters.lookup modelAlias with
  | none => simp [registerAlias, found]
  | some tick =>
      have present : modelAlias ∈ rr.counters := AList.lookup_isSome.mp (by simp [found])
      rw [registerAlias, found]
      exact ⟨.inr, fun member => member.elim (fun same => same ▸ present) id⟩

theorem RoundRobinState.mem_ofAliases (aliases : List Text) (modelAlias : Text) :
    modelAlias ∈ (ofAliases aliases).counters ↔ modelAlias ∈ aliases := by
  have folded (rr : RoundRobinState) :
      modelAlias ∈ (aliases.foldl registerAlias rr).counters ↔
        modelAlias ∈ aliases ∨ modelAlias ∈ rr.counters := by
    induction aliases generalizing rr with
    | nil => simp
    | cons first rest inductionHypothesis =>
        rw [List.foldl_cons, inductionHypothesis, mem_registerAlias, List.mem_cons]
        tauto
  rw [ofAliases, folded]
  simp [RoundRobinState.new]

/-- Every counter starts at zero. -/
theorem RoundRobinState.lookup_ofAliases {aliases : List Text} {modelAlias : Text}
    (member : modelAlias ∈ aliases) : (ofAliases aliases).counters.lookup modelAlias = some 0 := by
  have zeros : ∀ rr : RoundRobinState,
      (∀ other tick, rr.counters.lookup other = some tick → tick = 0) →
        ∀ other tick, (aliases.foldl registerAlias rr).counters.lookup other = some tick →
          tick = 0 := by
    clear member
    induction aliases with
    | nil => exact fun _ zero => zero
    | cons first rest inductionHypothesis =>
        intro rr zero
        apply inductionHypothesis
        intro other tick found
        cases known : rr.counters.lookup first with
        | some _ =>
            rw [registerAlias, known] at found
            exact zero other tick found
        | none =>
            rw [registerAlias, known] at found
            by_cases same : other = first
            · subst same
              rw [AList.lookup_insert, Option.some.injEq] at found
              exact found.symm
            · rw [AList.lookup_insert_ne same] at found
              exact zero other tick found
  have present : modelAlias ∈ (ofAliases aliases).counters := (mem_ofAliases _ _).mpr member
  obtain ⟨tick, found⟩ := Option.isSome_iff_exists.mp (AList.lookup_isSome.mpr present)
  rw [found, zeros .new (by simp [new]) modelAlias tick found]

/-- Drawing ticks keeps every counter. -/
theorem RoundRobinState.mem_foldl_nextTick (draws : List Text) (rr : RoundRobinState)
    (modelAlias : Text) :
    modelAlias ∈ (draws.foldl (fun rr drawn => (rr.nextTick drawn).2) rr).counters ↔
      modelAlias ∈ rr.counters := by
  induction draws generalizing rr with
  | nil => rfl
  | cons drawn rest inductionHypothesis =>
      rw [List.foldl_cons, inductionHypothesis, mem_nextTick]

end Counters

section Slots

variable {config : Config F} {base tracker : Tracker F} {map : ModelMap}
  {dedup : HashMap (Text × Text) ℕ}

/-- The table is injective both ways, so slots and pairs name each other. -/
theorem ModelMap.Registered.slotsNamePairs
    (registered : map.Registered config base ⟨dedup, tracker⟩) :
    SlotsNamePairs map.candidates := by
  intro left inLeft right inRight
  have leftSlot := registered.recorded left inLeft
  have rightSlot := registered.recorded right inRight
  constructor
  · intro same
    rw [same] at leftSlot
    exact registered.wired.injective _ _ _ leftSlot rightSlot
  · intro same
    rw [same] at leftSlot
    exact Option.some.inj (leftSlot.symm.trans rightSlot)

/-- One new slot for each distinct pair. -/
theorem ModelMap.Registered.length_slots
    (registered : map.Registered config base ⟨dedup, tracker⟩) :
    tracker.slots.length =
      base.slots.length + (map.candidates.map ResolvedCandidate.pair).toFinset.card := by
  have pairs : dedup.keys.toFinset = (map.candidates.map ResolvedCandidate.pair).toFinset := by
    ext pair
    simp only [List.mem_toFinset, List.mem_map]
    constructor
    · exact fun known => registered.sources pair (AList.mem_keys.mpr known)
    · rintro ⟨candidate, member, rfl⟩
      have found := registered.recorded candidate member
      exact AList.lookup_isSome.mp (by simp [found])
  have appended := registered.wired.appended
  simp only at appended
  rw [appended, ← pairs, List.toFinset_card_of_nodup dedup.keys_nodup, AList.keys, List.keys]
  simp

end Slots

/-- After `fromConfig`, for any later records and ticks: slots name pairs, every index is
valid, the tracker grew by the number of distinct pairs, the status page lists every
pair once in whatever order the map is traversed, and every alias has a counter. -/
theorem fromConfig_wired {config : Config F} {tracker after : Tracker F} {map : ModelMap}
    (accepted : (fromConfig config tracker : Except (ConfigError F Addr) _) = .ok (map, after)) :
    (∀ left ∈ map.candidates, ∀ right ∈ map.candidates,
      left.statsIndex = right.statsIndex ↔ left.pair = right.pair) ∧
    (∀ modelAlias found, map.get modelAlias = some found → ∀ candidate ∈ found,
      ∀ records : List Tracker.Record,
        (records.foldl Tracker.apply after).InBounds candidate.statsIndex) ∧
    after.slots.length =
      tracker.slots.length + (map.candidates.map ResolvedCandidate.pair).toFinset.card ∧
    (∀ (records : List Tracker.Record) (traversal : List (Text × ResolvedCandidate)),
      traversal.Perm map.iter →
        let listed := (buildStatusResponse (records.foldl Tracker.apply after) traversal).map
          CandidateStatus.pair
        listed.Nodup ∧ ∀ pair, pair ∈ listed ↔ ∃ candidate ∈ map.candidates, candidate.pair = pair) ∧
    ∀ modelAlias found, map.get modelAlias = some found → ∀ draws : List Text,
      ∃ tick, (draws.foldl (fun rr drawn => (rr.nextTick drawn).2)
        (RoundRobinState.ofAliases config.model.keys)).counters.lookup modelAlias = some tick := by
  obtain ⟨⟨dedup, registered⟩, aliases⟩ := fromConfig_registered accepted
  have named := registered.slotsNamePairs
  refine ⟨named, ?_, registered.length_slots, ?_, ?_⟩
  · intro modelAlias found lookup candidate member records
    have slot := registered.recorded candidate (ModelMap.mem_candidates_of_get lookup member)
    exact (Tracker.inBounds_foldl_apply records after _).mpr
      (registered.wired.inBounds _ _ slot)
  · intro records traversal reordered
    have sameCandidates : (traversal.map Prod.snd).Perm map.candidates :=
      map.iter_snd ▸ reordered.map Prod.snd
    have namedTraversal : SlotsNamePairs (traversal.map Prod.snd) := fun left inLeft right inRight =>
      named left (sameCandidates.mem_iff.mp inLeft) right (sameCandidates.mem_iff.mp inRight)
    refine ⟨nodup_statusEntries namedTraversal ∅, ?_⟩
    intro pair
    rw [buildStatusResponse, mem_statusEntries namedTraversal]
    simp [sameCandidates.mem_iff]
  · intro modelAlias found lookup draws
    have inMap : modelAlias ∈ map.aliases :=
      AList.lookup_isSome.mp (by rw [← ModelMap.get, lookup]; rfl)
    have counted : modelAlias ∈ (RoundRobinState.ofAliases config.model.keys).counters :=
      (RoundRobinState.mem_ofAliases _ _).mpr (AList.mem_keys.mp ((aliases modelAlias).mp inMap))
    exact Option.isSome_iff_exists.mp (AList.lookup_isSome.mpr
      ((RoundRobinState.mem_foldl_nextTick draws _ modelAlias).mpr counted))

/-- Two aliases, three candidates, two distinct pairs. -/
noncomputable def sharedConfig : Config ℝ where
  provider := AList.singleton "openai".toList { baseUrl := some "https://api.openai.com/v1".toList }
  model := AList.insert "smart".toList
    [⟨"openai".toList, "gpt-4o".toList⟩, ⟨"openai".toList, "gpt-5".toList⟩]
    (AList.singleton "fast".toList [⟨"openai".toList, "gpt-4o".toList⟩])
  routing := .default

theorem fromConfig_wired_shared :
    ∃ map after, (fromConfig sharedConfig (.new 0 0) : Except (ConfigError ℝ Text) _) =
        .ok (map, after) ∧
      map.candidates.length = 3 ∧ after.slots.length = 2 := by
  have accepted : ∃ map after, (fromConfig sharedConfig (.new 0 0) :
      Except (ConfigError ℝ Text) _) = .ok (map, after) ∧ map.candidates.length = 3 ∧
      (map.candidates.map ResolvedCandidate.pair).toFinset.card = 2 := ⟨_, _, rfl, rfl, by decide⟩
  obtain ⟨map, after, accepted, three, two⟩ := accepted
  obtain ⟨-, -, grown, -⟩ := fromConfig_wired accepted
  exact ⟨map, after, accepted, three, grown.trans (by rw [two]; rfl)⟩

end Sturnus
