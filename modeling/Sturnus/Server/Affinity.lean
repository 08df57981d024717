import Sturnus.ModelMap.Wiring

/-!
# Session affinity

Every response names its candidate as `{provider}/{model}`; a client that sends
the name back is pinned to that candidate while its slot is not degraded.
-/

namespace Sturnus

open Foundation Foundation.Http

variable {F Addr : Type} [Float64 F]

/-- `to_str` and `split_once('/')` on the header of a request. -/
def parseAffinity (header : Option HeaderValue) : Option (Text × Text) :=
  (header.bind HeaderValue.toStr).bind (Text.splitOnce '/')

/-- The first candidate with the name in the header. -/
def affinityCandidate (candidates : List ResolvedCandidate) (header : Option HeaderValue) :
    Option ResolvedCandidate :=
  (parseAffinity header).bind fun (provider, model) =>
    candidates.find? fun c => c.providerName = provider ∧ c.model = model

/-- A pin is honored until the pinned slot is degraded. -/
def pinned (tracker : Tracker F) (candidates : List ResolvedCandidate)
    (header : Option HeaderValue) : Option ResolvedCandidate :=
  (affinityCandidate candidates header).filter fun found => !tracker.isDegraded found.statsIndex

theorem affinityCandidate_mem {candidates : List ResolvedCandidate} {header : Option HeaderValue}
    {found : ResolvedCandidate} (resolved : affinityCandidate candidates header = some found) :
    found ∈ candidates := by
  obtain ⟨_, -, hit⟩ := Option.bind_eq_some_iff.mp resolved
  exact List.mem_of_find?_eq_some hit

theorem pinned_mem {tracker : Tracker F} {candidates : List ResolvedCandidate}
    {header : Option HeaderValue} {found : ResolvedCandidate}
    (honored : pinned tracker candidates header = some found) : found ∈ candidates :=
  affinityCandidate_mem (Option.filter_eq_some_iff.mp honored).1

/-- The names of a candidate that its header value carries through: nothing outside visible
ASCII and tab, and no slash in the provider.  A client that gets the value over HTTP gets it
without the spaces and tabs at its ends. -/
def SurvivesHeader (candidate : ResolvedCandidate) : Prop :=
  candidate.providerName.all isVisibleChar = true ∧ candidate.model.all isVisibleChar = true ∧
    '/' ∉ candidate.providerName

section Parse

variable {candidate : ResolvedCandidate}

theorem all_visible_affinityText (provider model : Text) :
    (affinityText provider model).all isVisibleChar =
      (provider.all isVisibleChar && model.all isVisibleChar) := by
  have slash : isVisibleChar '/' = true := by decide
  simp [affinityText, List.all_append, slash]

/-- The name is read back only in visible ASCII, and is then cut at its first slash. -/
theorem parseAffinity_affinityHeader
    (emitted : HeaderValue.tryFrom (affinityText candidate.providerName candidate.model) =
      some candidate.affinityHeader) :
    parseAffinity (some candidate.affinityHeader) =
      if candidate.providerName.all isVisibleChar && candidate.model.all isVisibleChar then
        Text.splitOnce '/' (affinityText candidate.providerName candidate.model)
      else none := by
  unfold parseAffinity
  rw [Option.bind_some, toStr_tryFrom emitted, all_visible_affinityText]
  split <;> rfl

theorem parseAffinity_eq_pair_iff
    (emitted : HeaderValue.tryFrom (affinityText candidate.providerName candidate.model) =
      some candidate.affinityHeader) :
    parseAffinity (some candidate.affinityHeader) = some candidate.pair ↔
      SurvivesHeader candidate := by
  rw [parseAffinity_affinityHeader emitted]
  constructor
  · intro parsed
    split at parsed
    next visible =>
      obtain ⟨provider, model⟩ := Bool.and_eq_true_iff.mp visible
      exact ⟨provider, model, (Text.splitOnce_eq_some parsed).2⟩
    next => cases parsed
  · rintro ⟨provider, model, noSlash⟩
    rw [if_pos (Bool.and_eq_true_iff.mpr ⟨provider, model⟩)]
    exact Text.splitOnce_append_of_not_mem noSlash candidate.model

end Parse

theorem pair_of_find {candidates : List ResolvedCandidate} {name : Text × Text}
    {found : ResolvedCandidate}
    (hit : (candidates.find? fun c => c.providerName = name.1 ∧ c.model = name.2) = some found) :
    found.pair = name := by
  have named : found.providerName = name.1 ∧ found.model = name.2 := by
    simpa using List.find?_some hit
  exact Prod.ext named.1 named.2

/-- A header resolves to a candidate of a given pair exactly when it spells that pair. -/
theorem affinityCandidate_pair_iff {candidates : List ResolvedCandidate}
    {candidate : ResolvedCandidate} (member : candidate ∈ candidates)
    (header : Option HeaderValue) :
    (∃ found, affinityCandidate candidates header = some found ∧ found.pair = candidate.pair) ↔
      parseAffinity header = some candidate.pair := by
  constructor
  · rintro ⟨found, resolved, same⟩
    obtain ⟨name, parsed, hit⟩ := Option.bind_eq_some_iff.mp resolved
    rw [parsed, ← same, pair_of_find hit]
  · intro parsed
    unfold affinityCandidate
    rw [parsed, Option.bind_some]
    have present : (candidates.find? fun c =>
        c.providerName = candidate.pair.1 ∧ c.model = candidate.pair.2).isSome = true := by
      apply List.find?_isSome.mpr
      exact ⟨candidate, member, decide_eq_true ⟨rfl, rfl⟩⟩
    obtain ⟨found, hit⟩ := Option.isSome_iff_exists.mp present
    exact ⟨found, hit, pair_of_find hit⟩

/-- The header emitted for a candidate leads back to its provider and model, and pins a
follow-up request while the slot is not degraded, exactly when it carries the
names through. -/
theorem affinityHeader_pins_iff {config : Config F} {base after : Tracker F} {map : ModelMap}
    (accepted : (fromConfig config base : Except (ConfigError F Addr) _) = .ok (map, after))
    {modelAlias : Text} {candidates : List ResolvedCandidate}
    (lookup : map.get modelAlias = some candidates) {candidate : ResolvedCandidate}
    (member : candidate ∈ candidates) :
    ((∃ found, affinityCandidate candidates (some candidate.affinityHeader) = some found ∧
        found.pair = candidate.pair) ∧
      ∀ tracker : Tracker F, tracker.isDegraded candidate.statsIndex = false →
        ∃ found, pinned tracker candidates (some candidate.affinityHeader) = some found ∧
          found.pair = candidate.pair) ↔
      SurvivesHeader candidate := by
  obtain ⟨⟨dedup, registered⟩, -⟩ := fromConfig_registered accepted
  have inMap : candidate ∈ map.candidates := ModelMap.mem_candidates_of_get lookup member
  have emitted := (registered.faithful candidate inMap).affinityHeader
  have resolves := affinityCandidate_pair_iff member (some candidate.affinityHeader)
  rw [parseAffinity_eq_pair_iff emitted] at resolves
  constructor
  · exact fun both => resolves.mp both.1
  · intro survives
    refine ⟨resolves.mpr survives, ?_⟩
    intro tracker healthy
    obtain ⟨found, resolved, same⟩ := resolves.mpr survives
    have foundInMap : found ∈ map.candidates :=
      ModelMap.mem_candidates_of_get lookup (affinityCandidate_mem resolved)
    have sameSlot : found.statsIndex = candidate.statsIndex :=
      (registered.slotsNamePairs found foundInMap candidate inMap).mpr same
    refine ⟨found, Option.filter_eq_some_iff.mpr ⟨resolved, ?_⟩, same⟩
    rw [sameSlot, healthy]
    rfl

theorem affinityHeader_pins_plain :
    ∃ map after candidate, (fromConfig (Config.single "openai".toList
        "https://api.openai.com/v1".toList "fast".toList ["gpt-4o".toList])
        (.new 0 0 : Tracker ℝ) : Except (ConfigError ℝ Text) _) = .ok (map, after) ∧
      map.get "fast".toList = some [candidate] ∧
      ∃ found, affinityCandidate [candidate] (some candidate.affinityHeader) = some found ∧
        found.pair = candidate.pair := by
  have survives : ∃ map after candidate, (fromConfig (Config.single "openai".toList
      "https://api.openai.com/v1".toList "fast".toList ["gpt-4o".toList])
      (.new 0 0 : Tracker ℝ) : Except (ConfigError ℝ Text) _) = .ok (map, after) ∧
      map.get "fast".toList = some [candidate] ∧ SurvivesHeader candidate :=
    ⟨_, _, _, rfl, rfl, by decide, by decide, by decide⟩
  obtain ⟨map, after, candidate, accepted, lookup, survives⟩ := survives
  have pins := (affinityHeader_pins_iff accepted lookup (List.mem_singleton_self _)).mpr survives
  exact ⟨map, after, candidate, accepted, lookup, pins.1⟩

/-- A provider name with a slash is accepted, and its header resolves to nothing. -/
theorem affinityHeader_slash_unresolved :
    (Config.single "eu/openai".toList "https://api.openai.com/v1".toList "fast".toList
      ["gpt-4o".toList] : Config ℝ).validate some = .ok () ∧
    ∃ map after candidate, (fromConfig (Config.single "eu/openai".toList
        "https://api.openai.com/v1".toList "fast".toList ["gpt-4o".toList])
        (.new 0 0 : Tracker ℝ) : Except (ConfigError ℝ Text) _) = .ok (map, after) ∧
      map.get "fast".toList = some [candidate] ∧
      affinityCandidate [candidate] (some candidate.affinityHeader) = none :=
  ⟨Config.single_validate _ _ _ (by decide), _, _, _, rfl, rfl, by decide⟩

end Sturnus
