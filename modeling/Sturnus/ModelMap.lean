import Sturnus.Config
import Sturnus.Tracker

/-!
# From the configuration to the candidates of each alias

`fromConfig` resolves every configured candidate and registers each distinct
(provider, model) pair with the tracker once, through a table shared by all
aliases.
-/

namespace Sturnus

open Foundation Foundation.Http

structure ResolvedCandidate where
  providerName : Text
  model : Text
  baseUrl : Text
  apiKey : Option Text
  kind : ProviderKind
  /-- Index into the tracker's slots, shared by equal pairs across aliases. -/
  statsIndex : ℕ
  providerHeader : HeaderValue
  affinityHeader : HeaderValue
  /-- Labels to merge into the outbound body; `none` unless the provider opted in. -/
  attributionLabels : Option (HashMap Text Text)
  extraHeaders : HeaderMap

def ResolvedCandidate.pair (candidate : ResolvedCandidate) : Text × Text :=
  (candidate.providerName, candidate.model)

/-- `{provider}/{model}`. -/
def affinityText (provider model : Text) : Text := provider ++ '/' :: model

structure ModelMap where
  aliases : HashMap Text (List ResolvedCandidate)

namespace ModelMap

def get (map : ModelMap) (modelAlias : Text) : Option (List ResolvedCandidate) :=
  map.aliases.lookup modelAlias

def aliasNames (map : ModelMap) : List Text := map.aliases.keys

/-- Every (alias, candidate) pair. -/
def iter (map : ModelMap) : List (Text × ResolvedCandidate) :=
  map.aliases.entries.flatMap fun entry => entry.2.map fun candidate => (entry.1, candidate)

def candidates (map : ModelMap) : List ResolvedCandidate :=
  map.aliases.entries.flatMap fun entry => entry.2

theorem iter_snd (map : ModelMap) : map.iter.map Prod.snd = map.candidates := by
  simp [iter, candidates, List.map_flatMap, Function.comp_def]

theorem mem_candidates_of_get {map : ModelMap} {modelAlias : Text}
    {found : List ResolvedCandidate} (lookup : map.get modelAlias = some found)
    {candidate : ResolvedCandidate} (member : candidate ∈ found) :
    candidate ∈ map.candidates :=
  List.mem_flatMap.mpr ⟨⟨modelAlias, found⟩, AList.mem_lookup_iff.mp lookup, member⟩

end ModelMap

/-- The tracker being filled and the slots already given to pairs. -/
structure Registration (F : Type) where
  dedup : HashMap (Text × Text) ℕ
  tracker : Tracker F

variable {F Addr : Type} [Float64 F]

/-- `dedup.entry(pair).or_insert_with(|| tracker.register())`. -/
def Registration.slotOf (registration : Registration F) (pair : Text × Text) :
    ℕ × Registration F :=
  match registration.dedup.lookup pair with
  | some index => (index, registration)
  | none =>
      let (tracker, index) := registration.tracker.register
      (index, ⟨registration.dedup.insert pair index, tracker⟩)

def resolveCandidate (config : Config F) (modelAlias : Text) (candidate : ModelCandidate)
    (registration : Registration F) :
    Except (ConfigError F Addr) (ResolvedCandidate × Registration F) := do
  let provider ← okOr (config.provider.lookup candidate.provider)
    (.undefinedProvider modelAlias candidate.provider)
  let baseUrl ← okOr provider.resolvedBaseUrl (.unresolvedBaseUrl candidate.provider)
  let providerHeader ← okOr (HeaderValue.tryFrom candidate.provider)
    (.invalidProviderName candidate.provider)
  let affinityHeader ← okOr
    (HeaderValue.tryFrom (affinityText candidate.provider candidate.model))
    (.invalidModelName candidate.model candidate.provider)
  let (statsIndex, registration) := registration.slotOf (candidate.provider, candidate.model)
  let extraHeaders ← provider.resolvedHeaders.mapError (.headers candidate.provider)
  return ({
    providerName := candidate.provider
    model := candidate.model
    baseUrl := baseUrl
    apiKey := provider.apiKey
    kind := provider.resolvedKind
    statsIndex := statsIndex
    providerHeader := providerHeader
    affinityHeader := affinityHeader
    attributionLabels := if provider.attributes then some config.attribution else none
    extraHeaders := extraHeaders }, registration)

def resolveCandidates (config : Config F) (modelAlias : Text) :
    List ModelCandidate → Registration F →
      Except (ConfigError F Addr) (List ResolvedCandidate × Registration F)
  | [], registration => .ok ([], registration)
  | candidate :: rest, registration => do
      let (resolved, registration) ← resolveCandidate config modelAlias candidate registration
      let (others, registration) ← resolveCandidates config modelAlias rest registration
      return (resolved :: others, registration)

def resolveAliases (config : Config F) :
    List (Σ _ : Text, List ModelCandidate) → ModelMap → Registration F →
      Except (ConfigError F Addr) (ModelMap × Registration F)
  | [], map, registration => .ok (map, registration)
  | entry :: rest, map, registration => do
      let (resolved, registration) ← resolveCandidates config entry.1 entry.2 registration
      resolveAliases config rest ⟨map.aliases.insert entry.1 resolved⟩ registration

/-- `ModelMap::from_config`; the tracker it grows is returned next to the map. -/
def fromConfig (config : Config F) (tracker : Tracker F) :
    Except (ConfigError F Addr) (ModelMap × Tracker F) := do
  let (map, registration) ← resolveAliases config config.model.entries ⟨∅⟩ ⟨∅, tracker⟩
  return (map, registration.tracker)

/-- A candidate carries what its provider's configuration says. -/
structure ResolvedFrom (config : Config F) (candidate : ResolvedCandidate) : Prop where
  provider : ∃ provider, config.provider.lookup candidate.providerName = some provider ∧
    provider.resolvedBaseUrl = some candidate.baseUrl ∧ candidate.apiKey = provider.apiKey ∧
    candidate.kind = provider.resolvedKind ∧
    provider.resolvedHeaders = .ok candidate.extraHeaders
  providerHeader : HeaderValue.tryFrom candidate.providerName = some candidate.providerHeader
  affinityHeader : HeaderValue.tryFrom (affinityText candidate.providerName candidate.model) =
    some candidate.affinityHeader

/-- The table hands out the slots appended to the base tracker, each to one pair. -/
structure Registration.Wired (base : Tracker F) (registration : Registration F) : Prop where
  appended : registration.tracker =
    { base with slots := base.slots ++ List.replicate registration.dedup.entries.length .new }
  inBounds : ∀ pair index, registration.dedup.lookup pair = some index →
    registration.tracker.InBounds index
  injective : ∀ left right index, registration.dedup.lookup left = some index →
    registration.dedup.lookup right = some index → left = right

/-- What a part of the traversal that resolved `resolved` did to the table. -/
structure Registers (config : Config F) (before after : Registration F)
    (resolved : List ResolvedCandidate) : Prop where
  wired : ∀ base, before.Wired base → after.Wired base
  kept : ∀ pair index, before.dedup.lookup pair = some index →
    after.dedup.lookup pair = some index
  recorded : ∀ candidate ∈ resolved,
    after.dedup.lookup candidate.pair = some candidate.statsIndex
  sources : ∀ pair, pair ∈ after.dedup →
    pair ∈ before.dedup ∨ ∃ candidate ∈ resolved, candidate.pair = pair
  faithful : ∀ candidate ∈ resolved, ResolvedFrom config candidate

theorem Registers.refl (config : Config F) (registration : Registration F) :
    Registers config registration registration [] where
  wired _ wired := wired
  kept _ _ found := found
  recorded := by simp
  sources _ member := .inl member
  faithful := by simp

theorem Registers.trans {config : Config F} {first second third : Registration F}
    {left right : List ResolvedCandidate} (before : Registers config first second left)
    (after : Registers config second third right) :
    Registers config first third (left ++ right) where
  wired base wired := after.wired base (before.wired base wired)
  kept pair index found := after.kept pair index (before.kept pair index found)
  recorded candidate member := by
    rcases List.mem_append.mp member with inLeft | inRight
    · exact after.kept _ _ (before.recorded candidate inLeft)
    · exact after.recorded candidate inRight
  sources pair member := by
    rcases after.sources pair member with inSecond | ⟨candidate, inside, same⟩
    · rcases before.sources pair inSecond with inFirst | ⟨candidate, inside, same⟩
      · exact .inl inFirst
      · exact .inr ⟨candidate, List.mem_append_left _ inside, same⟩
    · exact .inr ⟨candidate, List.mem_append_right _ inside, same⟩
  faithful candidate member := by
    rcases List.mem_append.mp member with inLeft | inRight
    · exact before.faithful candidate inLeft
    · exact after.faithful candidate inRight

theorem Registration.Wired.fresh {base : Tracker F} {registration : Registration F}
    (wired : registration.Wired base) {pair : Text × Text} (absent : pair ∉ registration.dedup) :
    Wired base ⟨registration.dedup.insert pair registration.tracker.slots.length,
      registration.tracker.register.1⟩ where
  appended := by
    rw [AList.entries_insert_of_notMem absent, wired.appended]
    simp [Tracker.register, List.replicate_succ', List.append_assoc]
  inBounds other index found := by
    rw [Tracker.InBounds, Tracker.register, List.length_append, List.length_singleton]
    by_cases same : other = pair
    · subst same
      rw [AList.lookup_insert, Option.some.injEq] at found
      omega
    · rw [AList.lookup_insert_ne same] at found
      have bound : index < registration.tracker.slots.length := wired.inBounds other index found
      omega
  injective left right index foundLeft foundRight := by
    have old : ∀ other, other ≠ pair → (registration.dedup.insert pair
        registration.tracker.slots.length).lookup other = some index →
          index < registration.tracker.slots.length := by
      intro other different found
      rw [AList.lookup_insert_ne different] at found
      exact wired.inBounds other index found
    by_cases leftNew : left = pair
    · subst leftNew
      rw [AList.lookup_insert, Option.some.injEq] at foundLeft
      by_contra different
      have bound := old right (Ne.symm different) foundRight
      omega
    · by_cases rightNew : right = pair
      · subst rightNew
        rw [AList.lookup_insert, Option.some.injEq] at foundRight
        have bound := old left leftNew foundLeft
        omega
      · rw [AList.lookup_insert_ne leftNew] at foundLeft
        rw [AList.lookup_insert_ne rightNew] at foundRight
        exact wired.injective left right index foundLeft foundRight

/-- Looking a candidate's pair up in the table, or registering it. -/
theorem Registration.slotOf_registers {config : Config F} (registration : Registration F)
    {candidate : ResolvedCandidate} (faithful : ResolvedFrom config candidate)
    (slot : candidate.statsIndex = (registration.slotOf candidate.pair).1) :
    Registers config registration (registration.slotOf candidate.pair).2 [candidate] := by
  cases found : registration.dedup.lookup candidate.pair with
  | some index =>
      simp only [Registration.slotOf, found] at slot ⊢
      exact {
        wired := fun _ wired => wired
        kept := fun _ _ old => old
        recorded := by simpa [slot] using found
        sources := fun _ member => .inl member
        faithful := by simpa using faithful }
  | none =>
      have absent : candidate.pair ∉ registration.dedup := AList.lookup_eq_none.mp found
      simp only [Registration.slotOf, found] at slot ⊢
      exact {
        wired := fun _ wired => wired.fresh absent
        kept := fun other index old => by
          have different : other ≠ candidate.pair := by
            rintro rfl
            rw [found] at old
            cases old
          rwa [AList.lookup_insert_ne different]
        recorded := by
          simp only [List.mem_singleton, forall_eq, slot]
          exact AList.lookup_insert _
        sources := fun other member => by
          rcases (AList.mem_insert _).mp member with rfl | old
          · exact .inr ⟨candidate, List.mem_singleton_self _, rfl⟩
          · exact .inl old
        faithful := by simpa using faithful }

theorem resolveCandidate_registers {config : Config F} {modelAlias : Text}
    {candidate : ModelCandidate} {before after : Registration F} {resolved : ResolvedCandidate}
    (succeeded : (resolveCandidate config modelAlias candidate before :
      Except (ConfigError F Addr) _) = .ok (resolved, after)) :
    Registers config before after [resolved] := by
  simp only [resolveCandidate, bind_eq_ok, okOr_eq_ok] at succeeded
  obtain ⟨provider, found, baseUrl, url, providerHeader, legalProvider, affinityHeader,
    legalAffinity, extraHeaders, headers, result⟩ := succeeded
  have parsed : provider.resolvedHeaders = .ok extraHeaders := by
    cases outcome : provider.resolvedHeaders with
    | ok parsed => simpa [outcome, Except.mapError] using headers
    | error error => simp [outcome, Except.mapError] at headers
  simp only [pure, Except.pure, Except.ok.injEq, Prod.mk.injEq] at result
  obtain ⟨same, rfl⟩ := result
  have pair : resolved.pair = (candidate.provider, candidate.model) := by rw [← same]; rfl
  have faithful : ResolvedFrom config resolved := by
    rw [← same]
    exact {
      provider := ⟨provider, found, url, rfl, rfl, parsed⟩
      providerHeader := legalProvider
      affinityHeader := legalAffinity }
  rw [← pair]
  exact before.slotOf_registers faithful (by rw [← same]; rfl)

theorem resolveCandidates_registers {config : Config F} {modelAlias : Text}
    {candidates : List ModelCandidate} {before after : Registration F}
    {resolved : List ResolvedCandidate}
    (succeeded : (resolveCandidates config modelAlias candidates before :
      Except (ConfigError F Addr) _) = .ok (resolved, after)) :
    Registers config before after resolved := by
  induction candidates generalizing before resolved with
  | nil =>
      cases succeeded
      exact .refl config _
  | cons candidate rest inductionHypothesis =>
      obtain ⟨⟨first, middle⟩, resolvedFirst, remaining⟩ := bind_eq_ok.mp succeeded
      obtain ⟨⟨others, last⟩, resolvedOthers, result⟩ := bind_eq_ok.mp remaining
      cases result
      exact (resolveCandidate_registers resolvedFirst).trans (inductionHypothesis resolvedOthers)

/-- The table knows exactly the pairs of the candidates collected so far. -/
structure ModelMap.Registered (config : Config F) (base : Tracker F) (map : ModelMap)
    (registration : Registration F) : Prop where
  wired : registration.Wired base
  recorded : ∀ candidate ∈ map.candidates,
    registration.dedup.lookup candidate.pair = some candidate.statsIndex
  sources : ∀ pair ∈ registration.dedup, ∃ candidate ∈ map.candidates, candidate.pair = pair
  faithful : ∀ candidate ∈ map.candidates, ResolvedFrom config candidate

theorem ModelMap.Registered.insert {config : Config F} {base : Tracker F} {map : ModelMap}
    {before after : Registration F} (registered : map.Registered config base before)
    {modelAlias : Text} (fresh : modelAlias ∉ map.aliases) {resolved : List ResolvedCandidate}
    (step : Registers config before after resolved) :
    Registered config base ⟨map.aliases.insert modelAlias resolved⟩ after := by
  have extended : ModelMap.candidates ⟨map.aliases.insert modelAlias resolved⟩ =
      resolved ++ map.candidates := by
    rw [ModelMap.candidates, AList.entries_insert_of_notMem fresh]
    rfl
  refine ⟨step.wired base registered.wired, ?_, ?_, ?_⟩
  · intro candidate member
    rw [extended] at member
    rcases List.mem_append.mp member with added | old
    · exact step.recorded candidate added
    · exact step.kept _ _ (registered.recorded candidate old)
  · intro pair member
    rw [extended]
    rcases step.sources pair member with old | ⟨candidate, added, same⟩
    · obtain ⟨candidate, inside, same⟩ := registered.sources pair old
      exact ⟨candidate, List.mem_append_right _ inside, same⟩
    · exact ⟨candidate, List.mem_append_left _ added, same⟩
  · intro candidate member
    rw [extended] at member
    rcases List.mem_append.mp member with added | old
    · exact step.faithful candidate added
    · exact registered.faithful candidate old

theorem resolveAliases_registered {config : Config F} {base : Tracker F}
    {entries : List (Σ _ : Text, List ModelCandidate)} {map final : ModelMap}
    {before after : Registration F} (registered : map.Registered config base before)
    (distinct : (entries.map Sigma.fst).Nodup)
    (disjoint : ∀ entry ∈ entries, entry.1 ∉ map.aliases)
    (succeeded : (resolveAliases config entries map before :
      Except (ConfigError F Addr) _) = .ok (final, after)) :
    final.Registered config base after ∧
      ∀ modelAlias, modelAlias ∈ final.aliases ↔
        modelAlias ∈ map.aliases ∨ modelAlias ∈ entries.map Sigma.fst := by
  induction entries generalizing map before with
  | nil =>
      cases succeeded
      exact ⟨registered, by simp⟩
  | cons entry rest inductionHypothesis =>
      obtain ⟨⟨resolved, middle⟩, first, remaining⟩ := bind_eq_ok.mp succeeded
      obtain ⟨notLater, restDistinct⟩ := List.nodup_cons.mp distinct
      have step := resolveCandidates_registers first
      have fresh : entry.1 ∉ map.aliases := disjoint entry List.mem_cons_self
      have stillDisjoint : ∀ other ∈ rest,
          other.1 ∉ (⟨map.aliases.insert entry.1 resolved⟩ : ModelMap).aliases := by
        intro other member inside
        rcases (AList.mem_insert _).mp inside with same | old
        · exact notLater (same ▸ List.mem_map_of_mem member)
        · exact disjoint other (List.mem_cons_of_mem _ member) old
      obtain ⟨finished, names⟩ := inductionHypothesis (registered.insert fresh step) restDistinct
        stillDisjoint remaining
      refine ⟨finished, ?_⟩
      intro modelAlias
      rw [names, AList.mem_insert, List.map_cons, List.mem_cons]
      tauto

/-- The result of `fromConfig`: every alias of the configuration, every candidate
registered, and the tracker extended by one new slot for each distinct pair. -/
theorem fromConfig_registered {config : Config F} {tracker after : Tracker F} {map : ModelMap}
    (accepted : (fromConfig config tracker : Except (ConfigError F Addr) _) = .ok (map, after)) :
    (∃ dedup, map.Registered config tracker ⟨dedup, after⟩) ∧
      ∀ modelAlias, modelAlias ∈ map.aliases ↔ modelAlias ∈ config.model := by
  obtain ⟨⟨final, registration⟩, resolved, result⟩ := bind_eq_ok.mp accepted
  cases result
  have start : ModelMap.Registered config tracker ⟨∅⟩ ⟨∅, tracker⟩ := {
    wired := {
      appended := by simp
      inBounds := by simp
      injective := by simp }
    recorded := by simp [ModelMap.candidates]
    sources := by simp
    faithful := by simp [ModelMap.candidates] }
  obtain ⟨registered, names⟩ := resolveAliases_registered start config.model.nodupKeys
    (by simp) resolved
  refine ⟨⟨registration.dedup, registered⟩, ?_⟩
  intro modelAlias
  rw [names]
  simp [AList.mem_keys, AList.keys, List.keys]

/-- The tracker `fromConfig` returns: the given one and a new slot for each pair. -/
theorem fromConfig_slots {config : Config F} {tracker after : Tracker F} {map : ModelMap}
    (accepted : (fromConfig config tracker : Except (ConfigError F Addr) _) = .ok (map, after)) :
    ∃ count, after = { tracker with slots := tracker.slots ++ List.replicate count .new } := by
  obtain ⟨⟨dedup, registered⟩, -⟩ := fromConfig_registered accepted
  exact ⟨_, registered.wired.appended⟩

theorem fromConfig_reachable {config : Config F} {tracker after : Tracker F} {map : ModelMap}
    (accepted : (fromConfig config tracker : Except (ConfigError F Addr) _) = .ok (map, after))
    {alpha errorThreshold : F} (reachable : Tracker.Reachable alpha errorThreshold tracker) :
    Tracker.Reachable alpha errorThreshold after := by
  obtain ⟨count, rfl⟩ := fromConfig_slots accepted
  exact reachable.replicate count

/-- Starting from an empty tracker, no slot has seen an outcome. -/
theorem fromConfig_fresh {config : Config F} {alpha errorThreshold : F} {after : Tracker F}
    {map : ModelMap}
    (accepted : (fromConfig config (.new alpha errorThreshold) :
      Except (ConfigError F Addr) _) = .ok (map, after)) (index : ℕ) :
    after.stats index = .new := by
  obtain ⟨count, appended⟩ := fromConfig_slots accepted
  have slots : after.slots = List.replicate count .new := by rw [appended]; rfl
  rcases after.stats_mem_or_new index with member | isNew
  · rw [slots] at member
    exact List.eq_of_mem_replicate member
  · exact isNew

/-- One provider with two models behind one alias, on a new tracker. -/
theorem fromConfig_pair (alpha errorThreshold : ℝ) :
    ∃ map after left right, (fromConfig (Config.single "openai".toList
        "https://api.openai.com/v1".toList "fast".toList ["gpt-4o".toList, "gpt-5".toList])
        (.new alpha errorThreshold : Tracker ℝ) :
          Except (ConfigError ℝ Text) _) = .ok (map, after) ∧
      map.get "fast".toList = some [left, right] ∧ left.statsIndex = 0 ∧ right.statsIndex = 1 ∧
      after.alpha = alpha ∧ after.InBounds 0 ∧ after.InBounds 1 :=
  ⟨_, _, _, _, rfl, rfl, rfl, rfl, rfl, Nat.two_pos, Nat.one_lt_two⟩

end Sturnus
