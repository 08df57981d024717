import Sturnus.Foundation.Float64
import Sturnus.Foundation.Result
import Sturnus.Proxy.Headers

/-!
# Configuration

The deserialized configuration and the checks it must pass at startup.  Maps
are listed in their iteration order, which is arbitrary.  Parsing a socket
address is a parameter.
-/

namespace Sturnus

open Foundation Foundation.Http

structure VertexAiConfig where
  projectId : Text
  location : Text
  /-- Merge top-level `[attribution]` into the request as Vertex `labels`. -/
  attribution : Bool := false

structure AzureOpenAiConfig where
  resourceName : Text
  apiVersion : Text

structure GoogleAiConfig where
  apiVersion : Text := "v1beta".toList

structure AnthropicConfig where
  version : Text := "2023-06-01".toList

structure ProviderConfig where
  baseUrl : Option Text := none
  apiKey : Option Text := none
  vertexAi : Option VertexAiConfig := none
  azureOpenai : Option AzureOpenAiConfig := none
  googleAi : Option GoogleAiConfig := none
  anthropic : Option AnthropicConfig := none
  headers : HashMap Text Text := ∅

structure ModelCandidate where
  provider : Text
  model : Text

structure RoutingConfig (F : Type) where
  ewmaAlpha : F
  exploitK : F
  errorThreshold : F
  maxBodyBytes : UInt64
  maxBufferedBytes : Option UInt64

/-- `router::EXPLOIT_K`. -/
def exploitK {F : Type} [Float64 F] : F := Float64.literal 3

/-- The defaults of the `[routing]` table. -/
def RoutingConfig.default {F : Type} [Float64 F] : RoutingConfig F where
  ewmaAlpha := Float64.literal (3 / 10)
  exploitK := Sturnus.exploitK
  errorThreshold := Float64.literal (1 / 2)
  maxBodyBytes := 32 * 1024 * 1024
  maxBufferedBytes := none

/-- `max_body_bytes.saturating_mul(4)`. -/
def saturatingMul4 (bytes : UInt64) : UInt64 := UInt64.ofNat (min (bytes.toNat * 4) (2 ^ 64 - 1))

/-- The aggregate buffer budget in bytes, and where it came from. -/
def RoutingConfig.bufferBudgetBytes {F : Type} (routing : RoutingConfig F)
    (cgroupMemoryLimit : Option UInt64) : UInt64 × String :=
  match routing.maxBufferedBytes, cgroupMemoryLimit with
  | some bytes, _ => (bytes, "max_buffered_bytes")
  | none, some limit => (limit / 2, "cgroup")
  | none, none => (saturatingMul4 routing.maxBodyBytes, "4x max_body_bytes")

structure Config (F : Type) where
  listen : Text := "127.0.0.1:4000".toList
  metricsListen : Option Text := none
  provider : HashMap Text ProviderConfig
  model : HashMap Text (List ModelCandidate)
  routing : RoutingConfig F
  attribution : HashMap Text Text := ∅

inductive ProviderKind where
  | apiKey
  | gcpAdc
  | azureOpenAi (apiVersion : Text)
  | anthropic (version : Text)
  deriving DecidableEq

/-- Why a provider's `headers` cannot be sent. -/
inductive HeaderError where
  | invalidName (name : Text)
  | reserved (name : HeaderName)
  | invalidValue (name : HeaderName)
  | setTwice (name : HeaderName)
  deriving DecidableEq

def HeaderError.message : HeaderError → Text
  | .invalidName name => "invalid header name '".toList ++ name ++ "'".toList
  | .reserved name =>
      "header '".toList ++ name.text ++ "' is reserved by sturnus and cannot be set".toList
  | .invalidValue name => "invalid value for header '".toList ++ name.text ++ "'".toList
  | .setTwice name => "header '".toList ++ name.text ++ "' is set more than once".toList

/-- Why a configuration is refused. -/
inductive ConfigError (F Addr : Type) where
  | invalidListen (listen : Text)
  | invalidMetricsListen (listen : Text)
  | metricsListenEqual (metrics main : Addr)
  | ewmaAlpha (got : F)
  | exploitK (got : F)
  | errorThreshold (got : F)
  | multipleShorthands (provider : Text)
  | noBaseUrl (provider : Text)
  | invalidBaseUrl (provider baseUrl : Text)
  | headers (provider : Text) (error : HeaderError)
  | unknownProvider (modelAlias provider : Text)
  | emptyAttribution
  | undefinedProvider (modelAlias provider : Text)
  | unresolvedBaseUrl (provider : Text)
  | invalidProviderName (provider : Text)
  | invalidModelName (model provider : Text)

/-- The text of an error; how numbers and addresses are printed is left open. -/
def ConfigError.message {F Addr : Type} (number : F → Text) (address : Addr → Text) :
    ConfigError F Addr → Text
  | .invalidListen listen =>
      "invalid listen address '".toList ++ listen ++ "': invalid socket address syntax".toList
  | .invalidMetricsListen listen =>
      "invalid metrics_listen address '".toList ++ listen ++
        "': invalid socket address syntax".toList
  | .metricsListenEqual metrics main =>
      "metrics_listen (".toList ++ address metrics ++ ") must differ from listen (".toList ++
        address main ++ ")".toList
  | .ewmaAlpha got => "ewma_alpha must be between 0.0 and 1.0, got ".toList ++ number got
  | .exploitK got => "exploit_k must be a finite value >= 0.0, got ".toList ++ number got
  | .errorThreshold got => "error_threshold must be between 0.0 and 1.0, got ".toList ++ number got
  | .multipleShorthands provider =>
      "provider '".toList ++ provider ++ ("' has multiple provider shorthands; use only one of " ++
        "vertex_ai, azure_openai, google_ai, or anthropic").toList
  | .noBaseUrl provider =>
      "provider '".toList ++ provider ++
        "' must have base_url or a provider shorthand configured".toList
  | .invalidBaseUrl provider baseUrl =>
      "provider '".toList ++ provider ++
        "' has invalid base_url (must start with http:// or https://): ".toList ++ baseUrl
  | .headers provider error => "provider '".toList ++ provider ++ "': ".toList ++ error.message
  | .unknownProvider modelAlias provider =>
      "model alias '".toList ++ modelAlias ++ "' references unknown provider '".toList ++ provider ++
        "'".toList
  | .emptyAttribution =>
      ("at least one provider has vertex_ai.attribution = true but the top-level " ++
        "[attribution] map is empty").toList
  | .undefinedProvider modelAlias provider =>
      "alias '".toList ++ modelAlias ++ "' references undefined provider '".toList ++ provider ++
        "'".toList
  | .unresolvedBaseUrl provider =>
      "provider '".toList ++ provider ++ "' has no base_url configured".toList
  | .invalidProviderName provider => "invalid provider name '".toList ++ provider ++ "'".toList
  | .invalidModelName model provider =>
      "invalid model name '".toList ++ model ++ "' for provider '".toList ++ provider ++ "'".toList

namespace ProviderConfig

/-- Add one configured header to the map. -/
def addHeader (map : HeaderMap) (name value : Text) : Except HeaderError HeaderMap := do
  let name ← okOr (HeaderName.tryFrom name) (.invalidName name)
  require (!isReservedRequestHeader name) (.reserved name)
  let value ← okOr (HeaderValue.tryFrom value) (.invalidValue name)
  let (map, replaced) := map.insert name value
  -- Case-distinct config keys are the same header.
  require (!replaced) (.setTwice name)
  return map

def resolvedHeaders (provider : ProviderConfig) : Except HeaderError HeaderMap :=
  provider.headers.entries.foldlM (fun map entry => addHeader map entry.1 entry.2) ∅

def vertexHost (location : Text) : Text :=
  -- `global` has no regional prefix; multi-regions use representative hosts.
  if location = "global".toList then "aiplatform.googleapis.com".toList
  else if location = "us".toList ∨ location = "eu".toList then
    "aiplatform.".toList ++ location ++ ".rep.googleapis.com".toList
  else location ++ "-aiplatform.googleapis.com".toList

def resolvedBaseUrl (provider : ProviderConfig) : Option Text :=
  match provider.baseUrl, provider.vertexAi, provider.azureOpenai, provider.googleAi,
      provider.anthropic with
  | some baseUrl, _, _, _, _ => some baseUrl
  | none, some vertex, _, _, _ =>
      some ("https://".toList ++ vertexHost vertex.location ++ "/v1beta1/projects/".toList ++
        vertex.projectId ++ "/locations/".toList ++ vertex.location ++
        "/endpoints/openapi".toList)
  | none, none, some azure, _, _ =>
      some ("https://".toList ++ azure.resourceName ++ ".openai.azure.com/openai".toList)
  | none, none, none, some google, _ =>
      some ("https://generativelanguage.googleapis.com/".toList ++ google.apiVersion ++
        "/openai".toList)
  | none, none, none, none, some _ => some "https://api.anthropic.com/v1".toList
  | none, none, none, none, none => none

def resolvedKind (provider : ProviderConfig) : ProviderKind :=
  match provider.vertexAi, provider.azureOpenai, provider.googleAi, provider.anthropic with
  | some _, _, _, _ => if provider.apiKey.isSome then .apiKey else .gcpAdc
  | none, some azure, _, _ => .azureOpenAi azure.apiVersion
  | none, none, some _, _ => .apiKey
  | none, none, none, some anthropic => .anthropic anthropic.version
  | none, none, none, none => .apiKey

def shorthandCount (provider : ProviderConfig) : ℕ :=
  [provider.vertexAi.isSome, provider.azureOpenai.isSome, provider.googleAi.isSome,
    provider.anthropic.isSome].count true

def attributes (provider : ProviderConfig) : Bool :=
  (provider.vertexAi.map VertexAiConfig.attribution).getD false

end ProviderConfig

namespace Config

variable {F Addr : Type} [Float64 F] [DecidableEq Addr]

/-- `metrics_listen` must differ from `listen`: equal would re-expose the proxy. -/
def listenAddrs (parseAddr : Text → Option Addr) (config : Config F) :
    Except (ConfigError F Addr) (Addr × Option Addr) := do
  let main ← okOr (parseAddr config.listen) (.invalidListen config.listen)
  match config.metricsListen with
  | none => return (main, none)
  | some listen =>
      let metrics ← okOr (parseAddr listen) (.invalidMetricsListen listen)
      require (metrics ≠ main) (.metricsListenEqual metrics main)
      return (main, some metrics)

/-- Parsed `headers` of every provider. -/
def resolvedHeaders (config : Config F) :
    Except (ConfigError F Addr) (List (Text × HeaderMap)) :=
  config.provider.entries.mapM fun entry =>
    match entry.2.resolvedHeaders with
    | .ok headers => .ok (entry.1, headers)
    | .error error => .error (.headers entry.1 error)

def inUnit (value : F) : Bool := Float64.le 0 value && Float64.le value 1

def hasHttpScheme (baseUrl : Text) : Bool :=
  "http://".toList.isPrefixOf baseUrl || "https://".toList.isPrefixOf baseUrl

def validateProvider (name : Text) (provider : ProviderConfig) :
    Except (ConfigError F Addr) Unit := do
  require (provider.shorthandCount ≤ 1) (.multipleShorthands name)
  let baseUrl ← okOr provider.resolvedBaseUrl (.noBaseUrl name)
  require (hasHttpScheme baseUrl) (.invalidBaseUrl name baseUrl)

def validateCandidate (config : Config F) (modelAlias : Text) (candidate : ModelCandidate) :
    Except (ConfigError F Addr) Unit :=
  require (config.provider.lookup candidate.provider).isSome
    (.unknownProvider modelAlias candidate.provider)

def validate (parseAddr : Text → Option Addr) (config : Config F) :
    Except (ConfigError F Addr) Unit := do
  let _ ← config.listenAddrs parseAddr
  require (inUnit config.routing.ewmaAlpha) (.ewmaAlpha config.routing.ewmaAlpha)
  require (Float64.isFinite config.routing.exploitK && !Float64.lt config.routing.exploitK 0)
    (.exploitK config.routing.exploitK)
  require (inUnit config.routing.errorThreshold) (.errorThreshold config.routing.errorThreshold)
  checkAll (fun entry => validateProvider entry.1 entry.2) config.provider.entries
  let _ ← config.resolvedHeaders
  checkAll (fun entry => checkAll (config.validateCandidate entry.1) entry.2) config.model.entries
  require (!(config.provider.entries.any fun entry => entry.2.attributes) ||
    !config.attribution.entries.isEmpty) .emptyAttribution

/-- What a successful validation establishes. -/
structure Valid (config : Config F) : Prop where
  ewmaAlpha : inUnit config.routing.ewmaAlpha = true
  exploitKFinite : Float64.isFinite config.routing.exploitK = true
  exploitK : Float64.lt config.routing.exploitK 0 = false
  errorThreshold : inUnit config.routing.errorThreshold = true
  shorthands : ∀ entry ∈ config.provider.entries, entry.2.shorthandCount ≤ 1
  baseUrl : ∀ entry ∈ config.provider.entries,
    ∃ baseUrl, entry.2.resolvedBaseUrl = some baseUrl ∧ hasHttpScheme baseUrl = true
  headers : ∀ entry ∈ config.provider.entries, ∃ headers, entry.2.resolvedHeaders = .ok headers
  providers : ∀ entry ∈ config.model.entries, ∀ candidate ∈ entry.2,
    (config.provider.lookup candidate.provider).isSome = true

omit [Float64 F] [DecidableEq Addr] in
theorem resolvedHeaders_ok {config : Config F} {all : List (Text × HeaderMap)}
    (resolved : config.resolvedHeaders = (.ok all : Except (ConfigError F Addr) _)) :
    ∀ entry ∈ config.provider.entries, ∃ headers, entry.2.resolvedHeaders = .ok headers := by
  intro entry member
  obtain ⟨result, -, found⟩ := exists_of_mapM_eq_ok resolved member
  cases parsed : entry.2.resolvedHeaders with
  | ok headers => exact ⟨headers, rfl⟩
  | error error => simp [parsed] at found

theorem valid_of_validate {parseAddr : Text → Option Addr} {config : Config F}
    (accepted : config.validate parseAddr = .ok ()) : config.Valid := by
  simp only [validate, bind_eq_ok, require_eq_ok, checkAll_eq_ok] at accepted
  obtain ⟨_, -, _, alpha, _, k, _, threshold, _, providers, _, headers, _, candidates, -⟩ := accepted
  have checked : ∀ entry ∈ config.provider.entries, entry.2.shorthandCount ≤ 1 ∧
      ∃ baseUrl, entry.2.resolvedBaseUrl = some baseUrl ∧ hasHttpScheme baseUrl = true := by
    intro entry member
    have passed := providers entry member
    simp only [validateProvider, bind_eq_ok, require_eq_ok, okOr_eq_ok] at passed
    obtain ⟨_, count, baseUrl, found, scheme⟩ := passed
    exact ⟨of_decide_eq_true count, baseUrl, found, scheme⟩
  exact {
    ewmaAlpha := alpha
    exploitKFinite := (Bool.and_eq_true_iff.mp k).1
    exploitK := by simpa using (Bool.and_eq_true_iff.mp k).2
    errorThreshold := threshold
    shorthands := fun entry member => (checked entry member).1
    baseUrl := fun entry member => (checked entry member).2
    headers := resolvedHeaders_ok headers
    providers := fun entry member candidate inside => by
      simpa [validateCandidate] using candidates entry member candidate inside }

/-- One provider and one alias with some of its models; the rest is default. -/
def ofProvider (name : Text) (provider : ProviderConfig) (modelAlias : Text)
    (models : List Text) (attribution : HashMap Text Text := ∅) : Config F where
  provider := AList.singleton name provider
  model := AList.singleton modelAlias (models.map (ModelCandidate.mk name))
  attribution := attribution
  routing := .default

/-- One provider at `baseUrl` and one alias with some of its models; the rest is default. -/
def single (name baseUrl modelAlias : Text) (models : List Text) : Config F where
  provider := AList.singleton name { baseUrl := some baseUrl }
  model := AList.singleton modelAlias (models.map (ModelCandidate.mk name))
  routing := .default

end Config

section Exact

open Config

/-- The defaults pass their own checks. -/
theorem RoutingConfig.default_valid :
    inUnit (RoutingConfig.default : RoutingConfig ℝ).ewmaAlpha = true ∧
    (Float64.isFinite (RoutingConfig.default : RoutingConfig ℝ).exploitK &&
      !Float64.lt (RoutingConfig.default : RoutingConfig ℝ).exploitK 0) = true ∧
    inUnit (RoutingConfig.default : RoutingConfig ℝ).errorThreshold = true := by
  refine ⟨?_, ?_, ?_⟩
  · simp only [inUnit, Bool.and_eq_true, le_real, RoutingConfig.default, literal_real]
    norm_num
  · have nonneg : Float64.lt (RoutingConfig.default : RoutingConfig ℝ).exploitK 0 = false := by
      rw [← Bool.not_eq_true, lt_real]
      norm_num [RoutingConfig.default, Sturnus.exploitK]
    rw [nonneg]
    rfl
  · simp only [inUnit, Bool.and_eq_true, le_real, RoutingConfig.default, literal_real]
    norm_num

/-- Such a configuration is accepted if its provider is. -/
theorem Config.ofProvider_validate (name modelAlias : Text) (models : List Text)
    {provider : ProviderConfig} {attribution : HashMap Text Text}
    (accepted : validateProvider name provider = (.ok () : Except (ConfigError ℝ Text) Unit))
    {headers : HeaderMap} (parsed : provider.resolvedHeaders = .ok headers)
    (attributed : (!provider.attributes || !attribution.entries.isEmpty) = true) :
    (ofProvider name provider modelAlias models attribution : Config ℝ).validate some =
      .ok () := by
  obtain ⟨alpha, k, threshold⟩ := RoutingConfig.default_valid
  have providers :
      (ofProvider name provider modelAlias models attribution : Config ℝ).provider.entries =
        [⟨name, provider⟩] := rfl
  have aliases :
      (ofProvider name provider modelAlias models attribution : Config ℝ).model.entries =
        [⟨modelAlias, models.map (ModelCandidate.mk name)⟩] := rfl
  have given :
      (ofProvider name provider modelAlias models attribution : Config ℝ).attribution =
        attribution := rfl
  have found :
      (ofProvider name provider modelAlias models attribution : Config ℝ).provider.lookup name =
        some provider := List.dlookup_cons_eq [] name _
  simp only [validate, bind_eq_ok, require_eq_ok, checkAll_eq_ok]
  refine ⟨_, rfl, (), alpha, (), k, (), threshold, (), ?_, [(name, headers)], ?_, (), ?_, ?_⟩
  · simpa only [providers, List.forall_mem_singleton] using accepted
  · rw [resolvedHeaders, providers]
    simp only [List.mapM_cons, List.mapM_nil, parsed]
    rfl
  · rw [aliases, List.forall_mem_singleton]
    intro candidate member
    obtain ⟨model, -, rfl⟩ := List.mem_map.mp member
    rw [validateCandidate, found]
    rfl
  · rw [providers, given]
    simpa using attributed

theorem Config.single_validate (name modelAlias : Text) (models : List Text) {baseUrl : Text}
    (scheme : hasHttpScheme baseUrl = true) :
    (Config.single name baseUrl modelAlias models : Config ℝ).validate some = .ok () := by
  have accepted : validateProvider name { baseUrl := some baseUrl } =
      (.ok () : Except (ConfigError ℝ Text) Unit) := by
    simp [validateProvider, ProviderConfig.resolvedBaseUrl, ProviderConfig.shorthandCount, scheme,
      okOr, require, bind, Except.bind]
  exact Config.ofProvider_validate name modelAlias models accepted rfl rfl

end Exact

end Sturnus
