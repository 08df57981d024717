import Sturnus.ModelMap

/-!
# What an alias stands for

Every alias has the candidates that the configuration lists for it, in that order, each with the
settings of its provider.
-/

namespace Sturnus

open Foundation Foundation.Http

variable {F Addr : Type} [Float64 F]

/-- A candidate is what the configuration lists, with the settings of its provider. -/
structure Resolves (config : Config F) (listed : ModelCandidate) (candidate : ResolvedCandidate) :
    Prop where
  pair : candidate.pair = (listed.provider, listed.model)
  settings : ∃ provider, config.provider.lookup listed.provider = some provider ∧
    provider.resolvedBaseUrl = some candidate.baseUrl ∧ candidate.apiKey = provider.apiKey ∧
    candidate.kind = provider.resolvedKind ∧
    candidate.attributionLabels = (if provider.attributes then some config.attribution else none) ∧
    provider.resolvedHeaders = .ok candidate.extraHeaders

section Resolution

variable {config : Config F} {before after : Registration F}

theorem resolveCandidate_resolves {modelAlias : Text} {listed : ModelCandidate}
    {candidate : ResolvedCandidate}
    (resolved : (resolveCandidate config modelAlias listed before :
      Except (ConfigError F Addr) _) = .ok (candidate, after)) :
    Resolves config listed candidate := by
  simp only [resolveCandidate, bind_eq_ok, okOr_eq_ok, mapError_eq_ok] at resolved
  obtain ⟨provider, found, baseUrl, url, _, -, _, -, extraHeaders, headers, result⟩ := resolved
  cases result
  exact ⟨rfl, provider, found, url, rfl, rfl, rfl, headers⟩

theorem resolveCandidates_resolves {modelAlias : Text} {listed : List ModelCandidate}
    {candidates : List ResolvedCandidate}
    (resolved : (resolveCandidates config modelAlias listed before :
      Except (ConfigError F Addr) _) = .ok (candidates, after)) :
    List.Forall₂ (Resolves config) listed candidates := by
  induction listed generalizing before candidates with
  | nil =>
      cases resolved
      exact .nil
  | cons first rest inductionHypothesis =>
      obtain ⟨⟨candidate, middle⟩, resolvedFirst, remaining⟩ := bind_eq_ok.mp resolved
      obtain ⟨⟨others, last⟩, resolvedOthers, result⟩ := bind_eq_ok.mp remaining
      cases result
      exact .cons (resolveCandidate_resolves resolvedFirst) (inductionHypothesis resolvedOthers)

theorem resolveAliases_resolves {entries : List (Σ _ : Text, List ModelCandidate)}
    {map final : ModelMap}
    (resolved : (resolveAliases config entries map before :
      Except (ConfigError F Addr) _) = .ok (final, after))
    {modelAlias : Text} {candidates : List ResolvedCandidate}
    (lookup : final.get modelAlias = some candidates) :
    map.get modelAlias = some candidates ∨
      ∃ listed, ⟨modelAlias, listed⟩ ∈ entries ∧
        List.Forall₂ (Resolves config) listed candidates := by
  induction entries generalizing map before with
  | nil =>
      cases resolved
      exact .inl lookup
  | cons entry rest inductionHypothesis =>
      obtain ⟨⟨first, middle⟩, resolvedFirst, remaining⟩ := bind_eq_ok.mp resolved
      rcases inductionHypothesis remaining with inserted | ⟨listed, member, related⟩
      · by_cases here : modelAlias = entry.1
        · subst here
          obtain rfl : first = candidates :=
            Option.some.inj ((AList.lookup_insert map.aliases).symm.trans inserted)
          exact .inr ⟨entry.2, List.mem_cons_self, resolveCandidates_resolves resolvedFirst⟩
        · exact .inl ((AList.lookup_insert_ne here).symm.trans inserted)
      · exact .inr ⟨listed, List.mem_cons_of_mem _ member, related⟩

/-- The candidates of an alias are those the configuration lists, in the same order. -/
theorem fromConfig_resolves {tracker final : Tracker F} {map : ModelMap}
    (accepted : (fromConfig config tracker : Except (ConfigError F Addr) _) = .ok (map, final))
    {modelAlias : Text} {candidates : List ResolvedCandidate}
    (lookup : map.get modelAlias = some candidates) :
    ∃ listed, config.model.lookup modelAlias = some listed ∧
      List.Forall₂ (Resolves config) listed candidates := by
  obtain ⟨⟨_, registration⟩, resolved, result⟩ := bind_eq_ok.mp accepted
  cases result
  rcases resolveAliases_resolves resolved lookup with none | ⟨listed, member, related⟩
  · cases none
  · exact ⟨listed, AList.mem_lookup_iff.mpr member, related⟩

omit [Float64 F] in
/-- What a listed candidate is resolved to differs in its slot at most. -/
theorem Resolves.same {listed : ModelCandidate} {left right : ResolvedCandidate}
    (first : Resolves config listed left) (second : Resolves config listed right) :
    left.kind = right.kind ∧ left.apiKey = right.apiKey ∧ left.baseUrl = right.baseUrl ∧
      left.model = right.model := by
  obtain ⟨provider, found, url, key, kind, -⟩ := first.settings
  obtain ⟨other, foundOther, urlOther, keyOther, kindOther, -⟩ := second.settings
  rw [found, Option.some.injEq] at foundOther
  subst foundOther
  rw [url, Option.some.injEq] at urlOther
  have pairs := first.pair.trans second.pair.symm
  exact ⟨kind.trans kindOther.symm, key.trans keyOther.symm, urlOther, congrArg Prod.snd pairs⟩

end Resolution

end Sturnus
