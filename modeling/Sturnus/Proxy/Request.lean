import Sturnus.Proxy.ExtraHeaders
import Sturnus.Proxy.Forward
import Sturnus.Proxy.Origin

/-!
# The headers of an upstream request

`forward_request` appends its own headers, one by one and depending on the
kind of the provider, and then the configured ones.  They follow whatever the
HTTP client makes of the URL: userinfo in it becomes a header of its own.
-/

namespace Sturnus

open Foundation Foundation.Http

/-- The headers so far, or an error: the URL or a value was not legal. -/
structure RequestBuilder where
  headers : Option (List (HeaderName × HeaderValue))

/-- The username and the password in a URL, percent-decoded. -/
structure Userinfo where
  username : Text
  password : Option Text
  deriving DecidableEq

/-- The URLs and the builders of the HTTP client. -/
structure Reqwest where
  /-- The userinfo of a URL, empty if there is none; `none` is not a URL. -/
  userinfo : Text → Option Userinfo
  post : Text → RequestBuilder

/-- The client takes this text as a URL, and finds no userinfo in it. -/
def Reqwest.Bare (reqwest : Reqwest) (url : Text) : Prop := reqwest.userinfo url = some ⟨[], none⟩

/-- What reqwest documents of a new builder: an error if the URL is none, and otherwise without
headers, except that userinfo is taken out of the URL and sent as Basic credentials. -/
structure Reqwest.Lawful (reqwest : Reqwest) : Prop where
  invalid : ∀ url, reqwest.userinfo url = none → reqwest.post url = ⟨none⟩
  bare : ∀ url, reqwest.Bare url → reqwest.post url = ⟨some []⟩
  basic : ∀ url userinfo, reqwest.userinfo url = some userinfo → userinfo ≠ ⟨[], none⟩ →
    ∃ credentials, reqwest.post url = ⟨some [(authorizationHeader, credentials)]⟩

namespace RequestBuilder

/-- Appends, never replaces. -/
def header (req : RequestBuilder) (name : HeaderName) (value : Option HeaderValue) :
    RequestBuilder :=
  match req.headers, value with
  | some headers, some value => ⟨some (headers ++ [(name, value)])⟩
  | _, _ => ⟨none⟩

def text (req : RequestBuilder) (name : HeaderName) (content : Text) : RequestBuilder :=
  req.header name (HeaderValue.tryFrom content)

/-- `if let Some(content) = …`. -/
def optional (req : RequestBuilder) (name : HeaderName) (content : Option Text) : RequestBuilder :=
  match content with
  | some content => req.text name content
  | none => req

/-- Append header after header. -/
def headersOf (req : RequestBuilder) (extra : List (HeaderName × HeaderValue)) : RequestBuilder :=
  extra.foldl (fun req header => req.header header.1 (some header.2)) req

end RequestBuilder

def bearer (credential : Text) : Text := "Bearer ".toList ++ credential

/-- The `match candidate.kind` of `forward_request`. -/
def addCredentials (candidate : ResolvedCandidate) (provider : Option GcpTokenProvider)
    (token : Except Text Text) (req : RequestBuilder) : Except ForwardError RequestBuilder :=
  match candidate.kind with
  | .apiKey => .ok (req.optional authorizationHeader (candidate.apiKey.map bearer))
  | .gcpAdc => do
      let _ ← okOr provider .noTokenProvider
      let token ← token.mapError .token
      return req.text authorizationHeader (bearer token)
  | .azureOpenAi _ => .ok (req.optional apiKeyHeader candidate.apiKey)
  | .anthropic version =>
      .ok ((req.optional xApiKeyHeader candidate.apiKey).text anthropicVersionHeader version)

/-- The request of `forward_request`, up to its body. -/
def assembleRequest (client : Reqwest) (candidate : ResolvedCandidate) (path : Text)
    (provider : Option GcpTokenProvider) (token : Except Text Text) :
    Except ForwardError RequestBuilder := do
  let url := buildUpstreamUrl candidate path
  let req := (client.post url).text contentTypeHeader "application/json".toList
  let req ← addCredentials candidate provider token req
  return req.headersOf candidate.extraHeaders.iter

/-- The headers sturnus sets itself, with the texts of their values. -/
def sturnusHeaders (candidate : ResolvedCandidate) (token : Text) : List (HeaderName × Text) :=
  (contentTypeHeader, "application/json".toList) :: match candidate.kind with
    | .apiKey => (candidate.apiKey.map fun key => (authorizationHeader, bearer key)).toList
    | .gcpAdc => [(authorizationHeader, bearer token)]
    | .azureOpenAi _ => (candidate.apiKey.map fun key => (apiKeyHeader, key)).toList
    | .anthropic version =>
        (candidate.apiKey.map fun key => (xApiKeyHeader, key)).toList ++
          [(anthropicVersionHeader, version)]

/-- `authorize` is what the credentials may fail with before the request is built. -/
theorem authorize_eq_map (client : Reqwest) (candidate : ResolvedCandidate) (path : Text)
    (provider : Option GcpTokenProvider) (exchange : Exchange) :
    authorize candidate.kind provider exchange =
      (assembleRequest client candidate path provider exchange.token).map fun _ => () := by
  unfold assembleRequest authorize addCredentials
  cases candidate.kind with
  | gcpAdc => cases provider <;> cases exchange.token <;> rfl
  | apiKey => rfl
  | azureOpenAi apiVersion => rfl
  | anthropic version => rfl

section Builder

/-- A header as it is sent. -/
structure SentAs (own : HeaderName × Text) (sent : HeaderName × HeaderValue) : Prop where
  name : own.1 = sent.1
  value : HeaderValue.tryFrom own.2 = some sent.2

variable {before after : List (HeaderName × HeaderValue)}

@[simp] theorem header_some (name : HeaderName) (value : HeaderValue) :
    RequestBuilder.header ⟨some before⟩ name (some value) =
      ⟨some (before ++ [(name, value)])⟩ := rfl

@[simp] theorem header_illegal (req : RequestBuilder) (name : HeaderName) :
    req.header name none = ⟨none⟩ := by
  cases req with
  | mk headers => cases headers <;> rfl

/-- The headers sturnus sets, appended in order. -/
def appendOwn (req : RequestBuilder) (own : List (HeaderName × Text)) : RequestBuilder :=
  own.foldl (fun req header => req.text header.1 header.2) req

theorem appendOwn_none (own : List (HeaderName × Text)) : appendOwn ⟨none⟩ own = ⟨none⟩ := by
  induction own with
  | nil => rfl
  | cons first rest inductionHypothesis => exact inductionHypothesis

/-- All of them are sent, or the builder is an error. -/
theorem appendOwn_eq_some {own : List (HeaderName × Text)} :
    appendOwn ⟨some before⟩ own = ⟨some after⟩ ↔
      ∃ sent, List.Forall₂ SentAs own sent ∧ after = before ++ sent := by
  induction own generalizing before with
  | nil => simp [appendOwn, eq_comm]
  | cons first rest inductionHypothesis =>
      have unfolded : appendOwn ⟨some before⟩ (first :: rest) =
          appendOwn (RequestBuilder.header ⟨some before⟩ first.1 (HeaderValue.tryFrom first.2))
            rest := rfl
      rw [unfolded]
      cases parsed : HeaderValue.tryFrom first.2 with
      | none =>
          simp only [header_illegal, appendOwn_none, RequestBuilder.mk.injEq, reduceCtorEq,
            false_iff, not_exists, not_and]
          rintro _ (_ | ⟨same, -⟩)
          rw [same.value] at parsed
          cases parsed
      | some value =>
          rw [header_some, inductionHypothesis]
          constructor
          · rintro ⟨sent, related, rfl⟩
            have head : SentAs first (first.1, value) := ⟨rfl, parsed⟩
            exact ⟨_, .cons head related, by simp⟩
          · rintro ⟨_, _ | ⟨same, related⟩, rfl⟩
            rw [same.value, Option.some.injEq] at parsed
            refine ⟨_, related, ?_⟩
            rw [← parsed, same.name]
            simp

theorem headersOf_none (extra : List (HeaderName × HeaderValue)) :
    RequestBuilder.headersOf ⟨none⟩ extra = ⟨none⟩ := by
  induction extra with
  | nil => rfl
  | cons first rest inductionHypothesis => exact inductionHypothesis

theorem headersOf_some (extra : List (HeaderName × HeaderValue)) :
    RequestBuilder.headersOf ⟨some before⟩ extra = ⟨some (before ++ extra)⟩ := by
  induction extra generalizing before with
  | nil => simp [RequestBuilder.headersOf]
  | cons first rest inductionHypothesis =>
      have unfolded : RequestBuilder.headersOf ⟨some before⟩ (first :: rest) =
          RequestBuilder.headersOf ⟨some (before ++ [first])⟩ rest := rfl
      rw [unfolded, inductionHypothesis]
      simp

variable {client : Reqwest} {candidate : ResolvedCandidate} {path : Text}
  {provider : Option GcpTokenProvider} {token : Except Text Text}

/-- The credentials are the part of the table after the content type. -/
theorem assembleRequest_eq_ok {req : RequestBuilder}
    (assembled : assembleRequest client candidate path provider token = .ok req) :
    ∃ issued, (candidate.kind = .gcpAdc → token = .ok issued) ∧
      req = (appendOwn (client.post (buildUpstreamUrl candidate path))
        (sturnusHeaders candidate issued)).headersOf candidate.extraHeaders.iter := by
  obtain ⟨authorized, added, result⟩ := bind_eq_ok.mp assembled
  cases result
  cases kind : candidate.kind with
  | gcpAdc =>
      simp only [addCredentials, kind, bind_eq_ok, okOr_eq_ok] at added
      obtain ⟨_, -, issued, fetched, result⟩ := added
      cases result
      refine ⟨issued, ?_, ?_⟩
      · intro _
        cases token with
        | error message => cases fetched
        | ok value => simpa [Except.mapError] using fetched
      · simp only [sturnusHeaders, kind]
        rfl
  | apiKey =>
      simp only [addCredentials, kind, Except.ok.injEq] at added
      subst added
      refine ⟨[], ?_, ?_⟩
      · intro other
        cases other
      · simp only [sturnusHeaders, kind]
        cases candidate.apiKey <;> rfl
  | azureOpenAi apiVersion =>
      simp only [addCredentials, kind, Except.ok.injEq] at added
      subst added
      refine ⟨[], ?_, ?_⟩
      · intro other
        cases other
      · simp only [sturnusHeaders, kind]
        cases candidate.apiKey <;> rfl
  | anthropic version =>
      simp only [addCredentials, kind, Except.ok.injEq] at added
      subst added
      refine ⟨[], ?_, ?_⟩
      · intro other
        cases other
      · simp only [sturnusHeaders, kind]
        cases candidate.apiKey <;> rfl

/-- What is sent are the headers that the client made of the URL, sturnus's own and the
configured ones. -/
theorem assembleRequest_sends {headers : List (HeaderName × HeaderValue)}
    (assembled : assembleRequest client candidate path provider token = .ok ⟨some headers⟩) :
    ∃ issued before sent, (candidate.kind = .gcpAdc → token = .ok issued) ∧
      client.post (buildUpstreamUrl candidate path) = ⟨some before⟩ ∧
      List.Forall₂ SentAs (sturnusHeaders candidate issued) sent ∧
      headers = before ++ sent ++ candidate.extraHeaders.iter := by
  obtain ⟨issued, fetched, built⟩ := assembleRequest_eq_ok assembled
  cases posted : client.post (buildUpstreamUrl candidate path) with
  | mk before =>
      rw [posted] at built
      cases before with
      | none =>
          rw [appendOwn_none, headersOf_none] at built
          cases built
      | some before =>
          cases own : appendOwn ⟨some before⟩ (sturnusHeaders candidate issued) with
          | mk result =>
              rw [own] at built
              cases result with
              | none =>
                  rw [headersOf_none] at built
                  cases built
              | some after =>
                  rw [headersOf_some] at built
                  cases built
                  obtain ⟨sent, related, rfl⟩ := appendOwn_eq_some.mp own
                  exact ⟨issued, before, sent, fetched, rfl, related, rfl⟩

end Builder

section Unambiguous

/-- The names whose values are sturnus's own. -/
def sturnusNames : List HeaderName :=
  [contentTypeHeader, authorizationHeader, apiKeyHeader, xApiKeyHeader, anthropicVersionHeader]

theorem sturnusNames_reserved : ∀ name ∈ sturnusNames, isReservedRequestHeader name = true := by
  decide

theorem sturnusHeaders_names (candidate : ResolvedCandidate) (token : Text) :
    (∀ own ∈ sturnusHeaders candidate token, own.1 ∈ sturnusNames) ∧
      ((sturnusHeaders candidate token).map Prod.fst).Nodup := by
  unfold sturnusHeaders
  cases candidate.kind <;> cases candidate.apiKey <;>
    simp [sturnusNames] <;> decide

/-- No name twice, and each of sturnus's names absent or with the value sturnus set. -/
structure Unambiguous (own : List (HeaderName × Text)) (headers : List (HeaderName × HeaderValue)) :
    Prop where
  once : (headers.map Prod.fst).Nodup
  set : ∀ name ∈ sturnusNames, ∀ value, (name, value) ∈ headers →
    ∃ text, (name, text) ∈ own ∧ HeaderValue.tryFrom text = some value

theorem map_fst_iter {map : HeaderMap}
    (single : ∀ entry ∈ map.entries, ∃ value, entry.2 = [value]) :
    map.iter.map Prod.fst = map.keys := by
  have named : ∀ entries : List (Σ _ : HeaderName, List HeaderValue),
      (∀ entry ∈ entries, ∃ value, entry.2 = [value]) →
        (entries.flatMap fun entry => entry.2.map fun value => (entry.1, value)).map Prod.fst =
          entries.map Sigma.fst := by
    intro entries each
    induction entries with
    | nil => rfl
    | cons entry rest inductionHypothesis =>
        obtain ⟨value, only⟩ := each entry List.mem_cons_self
        rw [List.flatMap_cons, List.map_append, only,
          inductionHypothesis fun other member => each other (List.mem_cons_of_mem _ member)]
        rfl
  exact named map.entries single

theorem map_fst_sent {own : List (HeaderName × Text)} {sent : List (HeaderName × HeaderValue)}
    (related : List.Forall₂ SentAs own sent) : sent.map Prod.fst = own.map Prod.fst := by
  induction related with
  | nil => rfl
  | cons first _ inductionHypothesis =>
      rw [List.map_cons, List.map_cons, inductionHypothesis, first.name]

theorem unambiguous_of_resolved {source : ProviderConfig} (candidate : ResolvedCandidate)
    (resolved : source.resolvedHeaders = .ok candidate.extraHeaders) {issued : Text}
    {sent : List (HeaderName × HeaderValue)}
    (related : List.Forall₂ SentAs (sturnusHeaders candidate issued) sent) :
    Unambiguous (sturnusHeaders candidate issued) (sent ++ candidate.extraHeaders.iter) := by
  obtain ⟨ownNames, ownOnce⟩ := sturnusHeaders_names candidate issued
  have extra := ProviderConfig.mem_resolvedHeaders resolved
  have unreserved : ∀ header ∈ candidate.extraHeaders.iter,
      isReservedRequestHeader header.1 = false := by
    intro header member
    obtain ⟨entry, inside, value⟩ := List.mem_flatMap.mp member
    obtain ⟨_, -, rfl⟩ := List.mem_map.mp value
    exact (extra entry inside).1
  refine ⟨?_, ?_⟩
  · rw [List.map_append, map_fst_sent related,
      map_fst_iter fun entry member => (extra entry member).2]
    refine ownOnce.append candidate.extraHeaders.keys_nodup ?_
    intro name inOwn inExtra
    obtain ⟨own, member, rfl⟩ := List.mem_map.mp inOwn
    obtain ⟨entry, inside, same⟩ := List.mem_map.mp inExtra
    have reserved := sturnusNames_reserved _ (ownNames own member)
    rw [← same, (extra entry inside).1] at reserved
    cases reserved
  · intro name special value member
    rcases List.mem_append.mp member with inOwn | inExtra
    · obtain ⟨own, inside, sentAs⟩ := exists_related related.flip inOwn
      have same : own.1 = name := sentAs.name
      exact ⟨own.2, by rw [← same]; exact inside, sentAs.value⟩
    · have free := unreserved _ inExtra
      rw [sturnusNames_reserved name special] at free
      cases free

theorem map_fst_sturnusHeaders (candidate : ResolvedCandidate) (first second : Text) :
    (sturnusHeaders candidate first).map Prod.fst =
      (sturnusHeaders candidate second).map Prod.fst := by
  unfold sturnusHeaders
  cases candidate.kind <;> rfl

/-- Basic credentials are a second `authorization` next to sturnus's own, or one that sturnus
never set. -/
theorem not_unambiguous_of_basic {candidate : ResolvedCandidate} {issued other : Text}
    {credentials : HeaderValue} {sent rest : List (HeaderName × HeaderValue)}
    (related : List.Forall₂ SentAs (sturnusHeaders candidate issued) sent) :
    ¬Unambiguous (sturnusHeaders candidate other)
      ((authorizationHeader, credentials) :: sent ++ rest) := by
  intro unambiguous
  obtain ⟨text, own, -⟩ := unambiguous.set authorizationHeader (by decide) credentials
    List.mem_cons_self
  have repeated : authorizationHeader ∈ sent.map Prod.fst := by
    rw [map_fst_sent related, map_fst_sturnusHeaders candidate issued other]
    exact List.mem_map_of_mem own
  have once := unambiguous.once
  rw [List.cons_append, List.map_cons, List.map_append, List.nodup_cons] at once
  exact once.1 (List.mem_append_left _ repeated)

/-- How many names a `HeaderMap` holds; it panics at the next one. -/
def maxHeaderNames : ℕ := 24576

/-- Resolving a table succeeds exactly if the table is legal; whether it succeeds and the map it
gives do not depend on the order of the entries.  A request that is built repeats no header name,
and has no value of its own names that sturnus did not set, exactly if there is no userinfo in
its URL, whatever the kind and the key of the candidate are. -/
theorem outbound_headers_unambiguous_iff {F Addr : Type} [Float64 F] {config : Config F}
    {tracker after : Tracker F} {map : ModelMap}
    (resolved : (fromConfig config tracker : Except (ConfigError F Addr) _) = .ok (map, after))
    {client : Reqwest} (lawful : client.Lawful) :
    (∀ provider : ProviderConfig, provider.headers.entries.length ≤ maxHeaderNames →
      ((∃ headers, provider.resolvedHeaders = .ok headers) ↔ HeadersLegal provider.headers) ∧
      ∀ reordered : ProviderConfig, reordered.headers.entries.Perm provider.headers.entries →
        ∀ headers, provider.resolvedHeaders = .ok headers →
          ∃ same : HeaderMap, reordered.resolvedHeaders = .ok same ∧
            same.entries.Perm headers.entries) ∧
    ∀ candidate ∈ map.candidates, ∀ kind apiKey path provider token headers,
      assembleRequest client { candidate with kind := kind, apiKey := apiKey } path provider token =
          .ok ⟨some headers⟩ →
        ((∃ issued, (kind = .gcpAdc → token = .ok issued) ∧
            Unambiguous (sturnusHeaders { candidate with kind := kind, apiKey := apiKey } issued)
              headers) ↔
          client.Bare
            (buildUpstreamUrl { candidate with kind := kind, apiKey := apiKey } path)) := by
  constructor
  · intro provider _
    exact ⟨provider.resolvedHeaders_ok_iff, fun reordered perm headers found =>
      ProviderConfig.resolvedHeaders_perm perm found⟩
  · intro candidate member kind apiKey path provider token headers assembled
    obtain ⟨⟨_, registered⟩, -⟩ := fromConfig_registered resolved
    obtain ⟨source, -, -, -, -, extra⟩ := (registered.faithful candidate member).provider
    obtain ⟨issued, before, sent, fetched, posted, related, rfl⟩ := assembleRequest_sends assembled
    constructor
    · rintro ⟨other, -, unambiguous⟩
      cases parsed : client.userinfo
          (buildUpstreamUrl { candidate with kind := kind, apiKey := apiKey } path) with
      | none =>
          rw [lawful.invalid _ parsed] at posted
          cases posted
      | some userinfo =>
          by_cases empty : userinfo = ⟨[], none⟩
          · exact parsed.trans (congrArg some empty)
          · obtain ⟨credentials, basic⟩ := lawful.basic _ userinfo parsed empty
            rw [basic] at posted
            cases posted
            exact absurd unambiguous (not_unambiguous_of_basic related)
    · intro bare
      rw [lawful.bare _ bare] at posted
      cases posted
      exact ⟨issued, fetched, unambiguous_of_resolved
        { candidate with kind := kind, apiKey := apiKey } extra related⟩

/-- A client that knows one userinfo, `user:pw`, and takes an authority with a space for none. -/
def Reqwest.sample : Reqwest where
  userinfo url :=
    if ' ' ∈ Url.authority url then none
    else some (if '@' ∈ Url.authority url then ⟨"user".toList, some "pw".toList⟩ else ⟨[], none⟩)
  post url :=
    if ' ' ∈ Url.authority url then ⟨none⟩
    else if '@' ∈ Url.authority url then
      ⟨some [(authorizationHeader, staticValue "Basic dXNlcjpwdw==")]⟩
    else ⟨some []⟩

theorem Reqwest.sample_lawful : Reqwest.sample.Lawful where
  invalid url invalid := by
    by_cases space : ' ' ∈ Url.authority url
    · simp only [sample, if_pos space]
    · simp [sample, space] at invalid
  bare url bare := by
    by_cases space : ' ' ∈ Url.authority url <;> by_cases at' : '@' ∈ Url.authority url <;>
      simp [sample, Bare, space, at'] at bare ⊢
  basic url userinfo found other := by
    by_cases space : ' ' ∈ Url.authority url <;> by_cases at' : '@' ∈ Url.authority url <;>
      simp [sample, space, at'] at found ⊢
    exact absurd found.symm other

/-- A provider with a key and one header of its own. -/
def keyedProvider (baseUrl key : Text) : ProviderConfig where
  baseUrl := some baseUrl
  apiKey := some key
  headers := AList.singleton "X-Request-Type".toList "dedicated".toList

noncomputable def keyedConfig (baseUrl key : Text) : Config ℝ :=
  .ofProvider "p".toList (keyedProvider baseUrl key) "test".toList ["m".toList]

/-- The candidate of such a provider. -/
structure Keyed (baseUrl key : Text) (candidate : ResolvedCandidate) : Prop where
  kind : candidate.kind = .apiKey
  apiKey : candidate.apiKey = some key
  baseUrl : candidate.baseUrl = baseUrl
  extra : candidate.extraHeaders.iter = [(staticName "x-request-type", staticValue "dedicated")]

theorem keyedConfig_validate {baseUrl : Text} (key : Text)
    (scheme : Config.hasHttpScheme baseUrl = true) :
    (keyedConfig baseUrl key).validate some = (.ok () : Except (ConfigError ℝ Text) Unit) := by
  have accepted : Config.validateProvider "p".toList (keyedProvider baseUrl key) =
      (.ok () : Except (ConfigError ℝ Text) Unit) := by
    simp [Config.validateProvider, ProviderConfig.resolvedBaseUrl, ProviderConfig.shorthandCount,
      keyedProvider, scheme, okOr, require, bind, Except.bind]
  exact Config.ofProvider_validate _ _ _ accepted rfl rfl

theorem exists_keyed (baseUrl key : Text) (alpha errorThreshold : ℝ) :
    ∃ map after candidate, (fromConfig (keyedConfig baseUrl key)
        (.new alpha errorThreshold : Tracker ℝ) : Except (ConfigError ℝ Text) _) =
          .ok (map, after) ∧
      map.candidates = [candidate] ∧ Keyed baseUrl key candidate :=
  ⟨_, _, _, rfl, rfl, rfl, rfl, rfl, rfl⟩

theorem outbound_headers_unambiguous_iff_keyed :
    ∃ map after candidate headers,
      (fromConfig (keyedConfig "https://example.com/v1".toList "sk-1".toList)
        (.new 0 0 : Tracker ℝ) : Except (ConfigError ℝ Text) _) = .ok (map, after) ∧
      map.candidates = [candidate] ∧
      assembleRequest .sample candidate "/v1/chat/completions".toList none (.ok []) =
        .ok ⟨some headers⟩ ∧
      headers.length = 3 ∧ ∃ issued, Unambiguous (sturnusHeaders candidate issued) headers := by
  obtain ⟨map, after, candidate, resolved, only, kind, key, baseUrl, extra⟩ :=
    exists_keyed "https://example.com/v1".toList "sk-1".toList 0 0
  have assembled : assembleRequest .sample candidate "/v1/chat/completions".toList none (.ok []) =
      .ok ⟨some [(contentTypeHeader, staticValue "application/json"),
        (authorizationHeader, staticValue "Bearer sk-1"),
        (staticName "x-request-type", staticValue "dedicated")]⟩ := by
    simp only [assembleRequest, addCredentials, buildUpstreamUrl, kind, key, baseUrl, extra]
    rfl
  have bare : Reqwest.sample.Bare
      (buildUpstreamUrl candidate "/v1/chat/completions".toList) := by
    simp only [buildUpstreamUrl, kind, baseUrl]
    rfl
  obtain ⟨-, iff⟩ := outbound_headers_unambiguous_iff resolved Reqwest.sample_lawful
  obtain ⟨issued, -, unambiguous⟩ := (iff candidate (only ▸ List.mem_singleton_self _)
    candidate.kind candidate.apiKey _ none (.ok []) _ assembled).mpr bare
  exact ⟨map, after, candidate, _, resolved, only, assembled, rfl, issued, unambiguous⟩

/-- With userinfo in its base URL an accepted provider with a key is sent two credentials. -/
theorem outbound_headers_userinfo_repeats :
    Reqwest.sample.Lawful ∧
    (keyedConfig "https://user:pw@example.com/v1".toList "sk-1".toList).validate some =
      (.ok () : Except (ConfigError ℝ Text) Unit) ∧
    ∃ map after candidate headers,
      (fromConfig (keyedConfig "https://user:pw@example.com/v1".toList "sk-1".toList)
        (.new 0 0 : Tracker ℝ) : Except (ConfigError ℝ Text) _) = .ok (map, after) ∧
      map.candidates = [candidate] ∧
      assembleRequest .sample candidate "/v1/chat/completions".toList none (.ok []) =
        .ok ⟨some headers⟩ ∧
      headers = [(authorizationHeader, staticValue "Basic dXNlcjpwdw=="),
        (contentTypeHeader, staticValue "application/json"),
        (authorizationHeader, staticValue "Bearer sk-1"),
        (staticName "x-request-type", staticValue "dedicated")] ∧
      ¬∃ issued, Unambiguous (sturnusHeaders candidate issued) headers := by
  obtain ⟨map, after, candidate, resolved, only, kind, key, baseUrl, extra⟩ :=
    exists_keyed "https://user:pw@example.com/v1".toList "sk-1".toList 0 0
  refine ⟨Reqwest.sample_lawful, keyedConfig_validate _ (by decide), map, after, candidate, _,
    resolved, only, ?_, rfl, ?_⟩
  · simp only [assembleRequest, addCredentials, buildUpstreamUrl, kind, key, baseUrl, extra]
    rfl
  · rintro ⟨issued, unambiguous⟩
    exact absurd unambiguous.once (by decide)

end Unambiguous

end Sturnus
