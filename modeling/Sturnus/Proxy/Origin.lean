import Sturnus.Foundation.Url
import Sturnus.ModelMap

/-!
# Where a request is sent

`buildUpstreamUrl` concatenates texts, so the request path can reach into the
authority of the base URL when nothing separates the two.  The URL keeps the
origin of the base URL except in exactly one shape.
-/

namespace Sturnus

open Foundation

def buildUpstreamUrl (candidate : ResolvedCandidate) (path : Text) : Text :=
  let base := Text.trimEndMatches '/' candidate.baseUrl
  -- The cut is textual: it does not have to end at a segment.
  let effectivePath := (Text.stripPrefix "/v1".toList path).getD path
  match candidate.kind with
  | .azureOpenAi apiVersion =>
      base ++ "/deployments/".toList ++ candidate.model ++ effectivePath ++
        "?api-version=".toList ++ apiVersion
  | _ => base ++ effectivePath

/-- A path as `uri().path()` yields it. -/
structure RequestPath (path : Text) : Prop where
  absolute : path.head? = some '/'
  bare : ∀ c ∈ path, c ≠ '?' ∧ c ≠ '#'

/-- Nothing but slashes follows the authority. -/
def BareOrigin (baseUrl : Text) : Prop := ∀ c ∈ Url.afterAuthority baseUrl, c = '/'

/-- The path goes on after `/v1` inside the same segment. -/
def CutsSegment (path : Text) : Prop := ∃ c rest, path = "/v1".toList ++ c :: rest ∧ c ≠ '/'

def ProviderKind.IsAzure (kind : ProviderKind) : Prop := ∃ version, kind = .azureOpenAi version

section Base

/-- The scheme of an accepted base URL is found before whatever follows it. -/
theorem exists_scheme {baseUrl : Text} (http : Config.hasHttpScheme baseUrl = true) :
    ∃ scheme rest, baseUrl = scheme ++ Url.separator ++ rest ∧
      ∀ after, Url.splitScheme (scheme ++ Url.separator ++ after) = some (scheme, after) := by
  rcases Bool.or_eq_true_iff.mp http with plain | secure
  · obtain ⟨rest, rfl⟩ := List.isPrefixOf_iff_prefix.mp plain
    exact ⟨"http".toList, rest, rfl, fun after => Url.splitScheme_append
      (show Url.splitScheme "http://".toList = some ("http".toList, []) by decide) after⟩
  · obtain ⟨rest, rfl⟩ := List.isPrefixOf_iff_prefix.mp secure
    exact ⟨"https".toList, rest, rfl, fun after => Url.splitScheme_append
      (show Url.splitScheme "https://".toList = some ("https".toList, []) by decide) after⟩

/-- What trimming leaves behind the authority is empty or starts as it did before. -/
theorem delimited_trim_append {tail : Text} (delimited : Url.Delimited tail)
    (notBare : ¬∀ c ∈ tail, c = '/') (suffix : Text) :
    Url.Delimited (Text.trimEndMatches '/' tail ++ suffix) := by
  have kept : Text.trimEndMatches '/' tail ≠ [] := by
    intro empty
    exact notBare (by simpa [Text.trimEndMatches, List.rdropWhile_eq_nil_iff] using empty)
  obtain ⟨c, rest, trimmed⟩ := List.exists_cons_of_ne_nil kept
  obtain ⟨dropped, whole⟩ : Text.trimEndMatches '/' tail <+: tail := List.rdropWhile_prefix _ _
  rw [trimmed] at whole ⊢
  rw [← whole] at delimited
  exact Url.delimited_cons.mpr (Url.delimited_cons.mp delimited)

theorem trim_of_bare {tail : Text} (bare : ∀ c ∈ tail, c = '/') :
    Text.trimEndMatches '/' tail = [] := by
  simpa [Text.trimEndMatches, List.rdropWhile_eq_nil_iff] using bare

/-- Appending to a trimmed base URL keeps its origin exactly when the appended text
does not run into the authority. -/
theorem sameOrigin_append_iff {baseUrl : Text} (http : Config.hasHttpScheme baseUrl = true)
    (host : Url.authority baseUrl ≠ []) (suffix : Text) :
    Url.SameOrigin (Text.trimEndMatches '/' baseUrl ++ suffix) baseUrl ↔
      ¬(BareOrigin baseUrl ∧ ¬Url.Delimited suffix) := by
  obtain ⟨scheme, rest, whole, split⟩ := exists_scheme http
  have parts : rest = Url.authority baseUrl ++ Url.afterAuthority baseUrl :=
    Url.split_authority (whole ▸ split rest)
  have plain : ∀ c ∈ Url.authority baseUrl, Url.endsAuthority c = false :=
    fun c => Url.authority_stops
  have trimmed : Text.trimEndMatches '/' baseUrl = scheme ++ Url.separator ++
      Url.authority baseUrl ++ Text.trimEndMatches '/' (Url.afterAuthority baseUrl) := by
    have front : scheme ++ Url.separator ++ Url.authority baseUrl ≠ [] := by simp [host]
    have last : (scheme ++ Url.separator ++ Url.authority baseUrl).getLast front ≠ '/' := by
      rw [List.getLast_append_of_ne_nil front host]
      intro slash
      have stops := plain _ (List.getLast_mem host)
      rw [slash] at stops
      simp [Url.endsAuthority] at stops
    have joined : baseUrl = scheme ++ Url.separator ++ Url.authority baseUrl ++
        Url.afterAuthority baseUrl := by
      rw [List.append_assoc _ (Url.authority baseUrl), ← parts, ← whole]
    conv_lhs => rw [joined]
    exact Text.trimEndMatches_append front last _
  have splitUrl : Url.splitScheme (Text.trimEndMatches '/' baseUrl ++ suffix) = some (scheme,
      Url.authority baseUrl ++ (Text.trimEndMatches '/' (Url.afterAuthority baseUrl) ++ suffix)) := by
    rw [trimmed, List.append_assoc, List.append_assoc]
    exact split _
  have splitBase : Url.splitScheme baseUrl = some (scheme, rest) := by
    conv_lhs => rw [whole]
    exact split rest
  have sameScheme : Url.scheme (Text.trimEndMatches '/' baseUrl ++ suffix) = Url.scheme baseUrl := by
    rw [Url.scheme, Url.scheme, splitUrl, splitBase]
    rfl
  have authority : Url.authority (Text.trimEndMatches '/' baseUrl ++ suffix) =
      Url.authority baseUrl ↔
        Url.Delimited (Text.trimEndMatches '/' (Url.afterAuthority baseUrl) ++ suffix) := by
    rw [← Url.takeWhile_eq_iff_delimited plain]
    conv_lhs => rw [Url.authority, splitUrl]
  rw [Url.SameOrigin, authority, and_iff_right sameScheme]
  by_cases bare : BareOrigin baseUrl
  · simp [trim_of_bare bare, bare]
  · simp [delimited_trim_append (Url.delimited_afterAuthority baseUrl) bare suffix, bare]

end Base

section Path

variable {path : Text}

/-- The path after the cut runs into what precedes it only when the cut is inside a
segment. -/
theorem delimited_effectivePath (request : RequestPath path) :
    Url.Delimited ((Text.stripPrefix "/v1".toList path).getD path) ↔ ¬CutsSegment path := by
  cases stripped : Text.stripPrefix "/v1".toList path with
  | none =>
      have noCut : ¬CutsSegment path := by
        rintro ⟨c, rest, rfl, -⟩
        rw [Text.stripPrefix_append] at stripped
        cases stripped
      obtain ⟨rest, rfl⟩ := List.head?_eq_some_iff.mp request.absolute
      simp [noCut, Url.delimited_cons, Url.endsAuthority]
  | some rest =>
      obtain rfl := Text.stripPrefix_eq_some stripped
      cases rest with
      | nil =>
          have noCut : ¬CutsSegment ("/v1".toList ++ []) := by
            rintro ⟨c, rest, same, -⟩
            simp at same
          exact iff_of_true Url.delimited_nil noCut
      | cons c rest =>
          have plain := request.bare c (by simp)
          have ends : Url.endsAuthority c = true ↔ c = '/' := by
            simp [Url.endsAuthority, plain]
          have cuts : CutsSegment ("/v1".toList ++ c :: rest) ↔ c ≠ '/' := by
            constructor
            · rintro ⟨d, other, same, notSlash⟩
              simp only [List.append_cancel_left_eq, List.cons.injEq] at same
              exact same.1 ▸ notSlash
            · exact fun notSlash => ⟨c, rest, rfl, notSlash⟩
          rw [Option.getD_some, Url.delimited_cons, ends, cuts, not_not]

end Path

variable {F Addr : Type} [Float64 F] [DecidableEq Addr]

/-- For every accepted configuration, kind, model name and request path, the URL keeps
the origin of the base URL except when the base URL is a bare origin, the kind
appends the path directly and the path goes on after `/v1` without a slash. -/
theorem buildUpstreamUrl_sameOrigin_iff {parseAddr : Text → Option Addr} {config : Config F}
    (accepted : config.validate parseAddr = .ok ()) {name baseUrl : Text}
    {provider : ProviderConfig} (configured : config.provider.lookup name = some provider)
    (resolved : provider.resolvedBaseUrl = some baseUrl) (host : Url.authority baseUrl ≠ [])
    {candidate : ResolvedCandidate} (carries : candidate.baseUrl = baseUrl) {path : Text}
    (request : RequestPath path) :
    Url.SameOrigin (buildUpstreamUrl candidate path) baseUrl ↔
      ¬(BareOrigin baseUrl ∧ ¬candidate.kind.IsAzure ∧ CutsSegment path) := by
  obtain ⟨found, sameUrl, http⟩ :=
    (Config.valid_of_validate accepted).baseUrl _ (AList.mem_lookup_iff.mp configured)
  obtain rfl : baseUrl = found := Option.some.inj (resolved.symm.trans sameUrl)
  cases kind : candidate.kind with
  | azureOpenAi version =>
      have azure : ProviderKind.IsAzure (.azureOpenAi version) := ⟨version, rfl⟩
      rw [buildUpstreamUrl, kind, carries]
      simp only [List.append_assoc]
      rw [sameOrigin_append_iff http host]
      simp [azure, Url.delimited_cons, Url.endsAuthority]
  | apiKey | gcpAdc | anthropic version =>
      rw [buildUpstreamUrl, kind, carries]
      simp only
      rw [sameOrigin_append_iff http host, delimited_effectivePath request]
      simp [ProviderKind.IsAzure]

/-- A versioned path under a bare origin stays on its host. -/
theorem buildUpstreamUrl_sameOrigin_chat :
    ∃ map after, (fromConfig (Config.single "openai".toList "https://api.example.com".toList
        "fast".toList ["gpt-4o".toList]) (.new 0 0 : Tracker ℝ) : Except (ConfigError ℝ Text) _) =
          .ok (map, after) ∧
      ∃ candidate ∈ map.candidates, Url.SameOrigin
        (buildUpstreamUrl candidate "/v1/chat/completions".toList)
        "https://api.example.com".toList := by
  have request : RequestPath "/v1/chat/completions".toList := ⟨rfl, by simp⟩
  have noCut : ¬CutsSegment "/v1/chat/completions".toList := by
    rintro ⟨c, rest, same, notSlash⟩
    simp at same
    exact notSlash same.1.symm
  refine ⟨_, _, rfl, _, List.mem_singleton_self _, ?_⟩
  exact (buildUpstreamUrl_sameOrigin_iff (Config.single_validate "openai".toList "fast".toList
    ["gpt-4o".toList] (by decide)) (List.dlookup_cons_eq [] _ _) rfl (by decide) rfl request).mpr
    fun bad => noCut bad.2.2

/-- A client can move the configured host into the userinfo of another one. -/
theorem buildUpstreamUrl_leaves_origin :
    (Config.single "openai".toList "https://api.example.com".toList "fast".toList
      ["gpt-4o".toList] : Config ℝ).validate some = .ok () ∧
    ∃ map after, (fromConfig (Config.single "openai".toList "https://api.example.com".toList
        "fast".toList ["gpt-4o".toList]) (.new 0 0 : Tracker ℝ) : Except (ConfigError ℝ Text) _) =
          .ok (map, after) ∧
      ∃ candidate ∈ map.candidates, Url.authority candidate.baseUrl ≠ [] ∧
        RequestPath "/v1@evil.test/x".toList ∧
        ¬Url.SameOrigin (buildUpstreamUrl candidate "/v1@evil.test/x".toList) candidate.baseUrl ∧
        Url.hostAndPort (buildUpstreamUrl candidate "/v1@evil.test/x".toList) =
          "evil.test".toList := by
  refine ⟨Config.single_validate _ _ _ (by decide), _, _, rfl, _, List.mem_singleton_self _,
    by decide, ⟨rfl, by simp⟩, ?_, by decide⟩
  rintro ⟨-, authority⟩
  exact absurd authority (by decide)

end Sturnus
