import Sturnus.ModelMap.Wiring

/-!
# Maps that iterate in another order

The order in which `from_config` meets the candidates numbers the slots.  Two
configurations with the same entries resolve to the same candidates, but for
their slots.
-/

namespace Sturnus

open Foundation

variable {F Addr : Type} [Float64 F]

/-- A candidate without its slot. -/
def ResolvedCandidate.unslotted (candidate : ResolvedCandidate) : ResolvedCandidate :=
  { candidate with statsIndex := 0 }

@[simp] theorem ResolvedCandidate.unslotted_pair (candidate : ResolvedCandidate) :
    candidate.unslotted.pair = candidate.pair := rfl

/-- The same configuration, as its hash maps iterate in another process. -/
structure Config.Reorders (left right : Config F) : Prop where
  listen : left.listen = right.listen
  metricsListen : left.metricsListen = right.metricsListen
  provider : left.provider.entries.Perm right.provider.entries
  model : left.model.entries.Perm right.model.entries
  routing : left.routing = right.routing
  attribution : left.attribution = right.attribution

/-- Validation accepts the one when it accepts the other. -/
theorem Config.Reorders.validate [DecidableEq Addr] {left right : Config F}
    (reorders : left.Reorders right) {parseAddr : Text → Option Addr}
    (valid : left.validate parseAddr = .ok ()) : right.validate parseAddr = .ok () := by
  have addrs : left.listenAddrs parseAddr =
      (right.listenAddrs parseAddr : Except (ConfigError F Addr) _) := by
    rw [listenAddrs, listenAddrs, reorders.listen, reorders.metricsListen]
  simp only [Config.validate, bind_eq_ok, require_eq_ok, checkAll_eq_ok] at valid ⊢
  obtain ⟨listens, parsed, _, alpha, _, k, _, threshold, _, providers, _, headers, _, models,
    attribution⟩ := valid
  obtain ⟨sent, resolved⟩ : ∃ sent, right.resolvedHeaders =
      (.ok sent : Except (ConfigError F Addr) _) := by
    obtain ⟨sent, each⟩ := exists_forall₂ fun entry member =>
      exists_of_mapM_eq_ok headers (reorders.provider.mem_iff.mpr member)
    exact ⟨sent, mapM_eq_ok.mpr (each.imp fun _ _ both => both.2)⟩
  rw [addrs] at parsed
  rw [reorders.routing] at alpha k threshold
  rw [reorders.attribution, reorders.provider.any_eq] at attribution
  refine ⟨listens, parsed, (), alpha, (), k, (), threshold, (), ?_, sent, resolved, (), ?_,
    attribution⟩
  · intro entry member
    exact providers entry (reorders.provider.mem_iff.mpr member)
  · intro entry member candidate inside
    have passed := models entry (reorders.model.mem_iff.mpr member) candidate inside
    rw [validateCandidate, AList.perm_lookup reorders.provider] at passed
    exact passed

section Resolution

variable {left right : Config F} {modelAlias : Text}

/-- Whether a candidate can be resolved does not depend on the table of slots. -/
theorem exists_resolveCandidate (reorders : left.Reorders right) {candidate : ModelCandidate}
    {before : Registration F} {result : ResolvedCandidate × Registration F}
    (resolved : (resolveCandidate left modelAlias candidate before :
      Except (ConfigError F Addr) _) = .ok result) (beforeRight : Registration F) :
    ∃ other, (resolveCandidate right modelAlias candidate beforeRight :
      Except (ConfigError F Addr) _) = .ok other := by
  have providers := AList.perm_lookup (a := candidate.provider) reorders.provider
  simp only [resolveCandidate, bind_eq_ok, okOr_eq_ok] at resolved ⊢
  obtain ⟨provider, found, baseUrl, url, providerHeader, legalProvider, affinityHeader,
    legalAffinity, extraHeaders, headers, -⟩ := resolved
  exact ⟨_, provider, providers.symm.trans found, baseUrl, url, providerHeader, legalProvider,
    affinityHeader, legalAffinity, extraHeaders, headers, rfl⟩

theorem exists_resolveCandidates (reorders : left.Reorders right)
    {candidates : List ModelCandidate} {before : Registration F}
    {result : List ResolvedCandidate × Registration F}
    (resolved : (resolveCandidates left modelAlias candidates before :
      Except (ConfigError F Addr) _) = .ok result) (beforeRight : Registration F) :
    ∃ other, (resolveCandidates right modelAlias candidates beforeRight :
      Except (ConfigError F Addr) _) = .ok other := by
  induction candidates generalizing before beforeRight result with
  | nil => exact ⟨_, rfl⟩
  | cons candidate rest inductionHypothesis =>
      obtain ⟨first, head, resolved⟩ := bind_eq_ok.mp resolved
      obtain ⟨others, tail, -⟩ := bind_eq_ok.mp resolved
      obtain ⟨firstRight, headRight⟩ := exists_resolveCandidate reorders head beforeRight
      obtain ⟨othersRight, tailRight⟩ := inductionHypothesis tail firstRight.2
      exact ⟨_, bind_eq_ok.mpr ⟨firstRight, headRight,
        bind_eq_ok.mpr ⟨othersRight, tailRight, rfl⟩⟩⟩

theorem exists_resolveAliases {config : Config F} {entries : List (Σ _ : Text, List ModelCandidate)}
    (each : ∀ entry ∈ entries, ∀ registration, ∃ result,
      (resolveCandidates config entry.1 entry.2 registration :
        Except (ConfigError F Addr) _) = .ok result) (map : ModelMap)
    (registration : Registration F) :
    ∃ result, (resolveAliases config entries map registration :
      Except (ConfigError F Addr) _) = .ok result := by
  induction entries generalizing map registration with
  | nil => exact ⟨_, rfl⟩
  | cons entry rest inductionHypothesis =>
      obtain ⟨first, later⟩ := List.forall_mem_cons.mp each
      obtain ⟨resolved, found⟩ := first registration
      obtain ⟨result, remaining⟩ := inductionHypothesis later
        ⟨map.aliases.insert entry.1 resolved.1⟩ resolved.2
      exact ⟨result, bind_eq_ok.mpr ⟨resolved, found, remaining⟩⟩

/-- What a candidate is resolved to depends on the table of slots only in its slot. -/
theorem resolveCandidate_unslotted (reorders : left.Reorders right) {candidate : ModelCandidate}
    {before after beforeRight afterRight : Registration F} {resolved other : ResolvedCandidate}
    (resolvedLeft : (resolveCandidate left modelAlias candidate before :
      Except (ConfigError F Addr) _) = .ok (resolved, after))
    (resolvedRight : (resolveCandidate right modelAlias candidate beforeRight :
      Except (ConfigError F Addr) _) = .ok (other, afterRight)) :
    resolved.unslotted = other.unslotted := by
  have providers := AList.perm_lookup (a := candidate.provider) reorders.provider
  simp only [resolveCandidate, bind_eq_ok, okOr_eq_ok, mapError_eq_ok] at resolvedLeft resolvedRight
  obtain ⟨provider, found, baseUrl, url, providerHeader, legalProvider, affinityHeader,
    legalAffinity, extraHeaders, headers, result⟩ := resolvedLeft
  obtain ⟨providerRight, foundRight, baseUrlRight, urlRight, providerHeaderRight,
    legalProviderRight, affinityHeaderRight, legalAffinityRight, extraHeadersRight, headersRight,
    resultRight⟩ := resolvedRight
  rw [providers, foundRight] at found
  cases found
  rw [urlRight] at url
  cases url
  rw [legalProviderRight] at legalProvider
  cases legalProvider
  rw [legalAffinityRight] at legalAffinity
  cases legalAffinity
  rw [headersRight] at headers
  cases headers
  cases result
  cases resultRight
  simp only [ResolvedCandidate.unslotted, reorders.attribution]

theorem resolveCandidates_unslotted (reorders : left.Reorders right)
    {candidates : List ModelCandidate} {before after beforeRight afterRight : Registration F}
    {resolved others : List ResolvedCandidate}
    (resolvedLeft : (resolveCandidates left modelAlias candidates before :
      Except (ConfigError F Addr) _) = .ok (resolved, after))
    (resolvedRight : (resolveCandidates right modelAlias candidates beforeRight :
      Except (ConfigError F Addr) _) = .ok (others, afterRight)) :
    resolved.map ResolvedCandidate.unslotted = others.map ResolvedCandidate.unslotted := by
  induction candidates generalizing before beforeRight resolved others with
  | nil =>
      cases resolvedLeft
      cases resolvedRight
      rfl
  | cons candidate rest inductionHypothesis =>
      obtain ⟨⟨first, middle⟩, headLeft, resolvedLeft⟩ := bind_eq_ok.mp resolvedLeft
      obtain ⟨⟨tail, last⟩, tailLeft, result⟩ := bind_eq_ok.mp resolvedLeft
      cases result
      obtain ⟨⟨first', middle'⟩, headRight, resolvedRight⟩ := bind_eq_ok.mp resolvedRight
      obtain ⟨⟨tail', last'⟩, tailRight, result⟩ := bind_eq_ok.mp resolvedRight
      cases result
      rw [List.map_cons, List.map_cons, resolveCandidate_unslotted reorders headLeft headRight,
        inductionHypothesis tailLeft tailRight]

/-- Every alias has the candidates that its own entry was resolved to. -/
theorem resolveAliases_lookup {config : Config F}
    {entries : List (Σ _ : Text, List ModelCandidate)} {map final : ModelMap}
    {before after : Registration F} (distinct : (entries.map Sigma.fst).Nodup)
    (succeeded : (resolveAliases config entries map before :
      Except (ConfigError F Addr) _) = .ok (final, after)) :
    (∀ modelAlias, modelAlias ∉ entries.map Sigma.fst →
      final.get modelAlias = map.get modelAlias) ∧
    ∀ entry ∈ entries, ∃ start finish resolved, (resolveCandidates config entry.1 entry.2 start :
      Except (ConfigError F Addr) _) = .ok (resolved, finish) ∧
        final.get entry.1 = some resolved := by
  induction entries generalizing map before with
  | nil =>
      cases succeeded
      exact ⟨fun _ _ => rfl, List.forall_mem_nil _⟩
  | cons entry rest inductionHypothesis =>
      obtain ⟨⟨resolved, middle⟩, first, remaining⟩ := bind_eq_ok.mp succeeded
      obtain ⟨notLater, restDistinct⟩ := List.nodup_cons.mp distinct
      obtain ⟨others, later⟩ := inductionHypothesis restDistinct remaining
      have own : final.get entry.1 = some resolved :=
        (others entry.1 notLater).trans (AList.lookup_insert _)
      refine ⟨?_, List.forall_mem_cons.mpr ⟨⟨before, middle, resolved, first, own⟩, later⟩⟩
      intro modelAlias absent
      rw [List.map_cons, List.mem_cons, not_or] at absent
      exact (others modelAlias absent.2).trans (AList.lookup_insert_ne absent.1)

end Resolution

/-- The same candidates for every alias; in either map, slots name pairs. -/
structure ModelMap.Twins (left right : ModelMap) : Prop where
  same : ∀ modelAlias, (left.get modelAlias).map (List.map ResolvedCandidate.unslotted) =
    (right.get modelAlias).map (List.map ResolvedCandidate.unslotted)
  named : SlotsNamePairs left.candidates
  namedRight : SlotsNamePairs right.candidates

/-- Either order of the entries is accepted when the other is, and resolves to a twin. -/
theorem exists_fromConfig_twins {left right : Config F} {tracker after : Tracker F}
    {map : ModelMap} (reorders : left.Reorders right)
    (accepted : (fromConfig left tracker : Except (ConfigError F Addr) _) = .ok (map, after)) :
    ∃ mapRight afterRight, (fromConfig right tracker : Except (ConfigError F Addr) _) =
      .ok (mapRight, afterRight) ∧ map.Twins mapRight := by
  obtain ⟨⟨dedup, registered⟩, -⟩ := fromConfig_registered accepted
  obtain ⟨⟨final, registration⟩, resolved, result⟩ := bind_eq_ok.mp accepted
  cases result
  obtain ⟨absent, present⟩ := resolveAliases_lookup left.model.nodupKeys resolved
  have each : ∀ entry ∈ right.model.entries, ∀ start, ∃ result,
      (resolveCandidates right entry.1 entry.2 start :
        Except (ConfigError F Addr) _) = .ok result := by
    intro entry member start
    obtain ⟨before, finish, candidates, found, -⟩ :=
      present entry (reorders.model.mem_iff.mpr member)
    exact exists_resolveCandidates reorders found start
  obtain ⟨⟨finalRight, registrationRight⟩, resolvedRight⟩ :=
    exists_resolveAliases each ⟨∅⟩ ⟨∅, tracker⟩
  obtain ⟨absentRight, presentRight⟩ := resolveAliases_lookup right.model.nodupKeys resolvedRight
  have acceptedRight : (fromConfig right tracker : Except (ConfigError F Addr) _) =
      .ok (finalRight, registrationRight.tracker) :=
    bind_eq_ok.mpr ⟨_, resolvedRight, rfl⟩
  obtain ⟨⟨dedupRight, registeredRight⟩, -⟩ := fromConfig_registered acceptedRight
  refine ⟨finalRight, registrationRight.tracker, acceptedRight, ?_,
    registered.slotsNamePairs, registeredRight.slotsNamePairs⟩
  intro modelAlias
  by_cases known : modelAlias ∈ left.model.entries.map Sigma.fst
  · obtain ⟨entry, member, rfl⟩ := List.mem_map.mp known
    obtain ⟨start, finish, candidates, found, lookup⟩ := present entry member
    obtain ⟨startRight, finishRight, candidatesRight, foundRight, lookupRight⟩ :=
      presentRight entry (reorders.model.mem_iff.mp member)
    rw [lookup, lookupRight, Option.map_some, Option.map_some,
      resolveCandidates_unslotted reorders found foundRight]
  · have knownRight : modelAlias ∉ right.model.entries.map Sigma.fst := fun member =>
      known ((reorders.model.map Sigma.fst).mem_iff.mpr member)
    rw [absent modelAlias known, absentRight modelAlias knownRight]

end Sturnus
