import Sturnus.Config
import Sturnus.Foundation.Toml.Fields

/-!
# Deserializing the configuration

What the derived deserializers make of the value a configuration file holds.
Two values of one shape give two configurations of one shape.
-/

namespace Sturnus

open Foundation Foundation.Toml

/-- The scalars of a document as the numbers and truth values the fields need. -/
structure Scalars (Scalar F : Type) where
  f64 : Scalar → Option F
  u64 : Scalar → Option UInt64
  bool : Scalar → Option Bool

section Deserialize

variable {Scalar F : Type} (scalars : Scalars Scalar F)

def VertexAiConfig.deserialize (value : Value Scalar Text) : Option VertexAiConfig := do
  let fields ← fields ["project_id", "location", "attribution"] value
  let projectId ← fields.required "project_id" text
  let location ← fields.required "location" text
  let attribution ← fields.getD "attribution" false (scalar scalars.bool)
  return { projectId, location, attribution }

def AzureOpenAiConfig.deserialize (value : Value Scalar Text) : Option AzureOpenAiConfig := do
  let fields ← fields ["resource_name", "api_version"] value
  let resourceName ← fields.required "resource_name" text
  let apiVersion ← fields.required "api_version" text
  return { resourceName, apiVersion }

def GoogleAiConfig.deserialize (value : Value Scalar Text) : Option GoogleAiConfig := do
  let fields ← fields ["api_version"] value
  let apiVersion ← fields.getD "api_version" "v1beta".toList text
  return { apiVersion }

def AnthropicConfig.deserialize (value : Value Scalar Text) : Option AnthropicConfig := do
  let fields ← fields ["version"] value
  let version ← fields.getD "version" "2023-06-01".toList text
  return { version }

def ProviderConfig.deserialize (value : Value Scalar Text) : Option ProviderConfig := do
  let fields ← fields ["base_url", "api_key", "vertex_ai", "azure_openai", "google_ai",
    "anthropic", "headers"] value
  let baseUrl ← fields.optional "base_url" text
  let apiKey ← fields.optional "api_key" text
  let vertexAi ← fields.optional "vertex_ai" (VertexAiConfig.deserialize scalars)
  let azureOpenai ← fields.optional "azure_openai" AzureOpenAiConfig.deserialize
  let googleAi ← fields.optional "google_ai" GoogleAiConfig.deserialize
  let anthropic ← fields.optional "anthropic" AnthropicConfig.deserialize
  let headers ← fields.getD "headers" ∅ (hashMap text)
  return { baseUrl, apiKey, vertexAi, azureOpenai, googleAi, anthropic, headers }

def ModelCandidate.deserialize (value : Value Scalar Text) : Option ModelCandidate := do
  let fields ← fields ["provider", "model"] value
  let provider ← fields.required "provider" text
  let model ← fields.required "model" text
  return { provider, model }

/-- The timeouts must be numbers too. -/
def RoutingConfig.deserialize [Float64 F] (value : Value Scalar Text) :
    Option (RoutingConfig F) := do
  let default : RoutingConfig F := .default
  let fields ← fields ["ewma_alpha", "exploit_k", "error_threshold", "connect_timeout_secs",
    "read_timeout_secs", "max_body_bytes", "max_buffered_bytes", "shutdown_timeout_secs"] value
  let ewmaAlpha ← fields.getD "ewma_alpha" default.ewmaAlpha (scalar scalars.f64)
  let exploitK ← fields.getD "exploit_k" default.exploitK (scalar scalars.f64)
  let errorThreshold ← fields.getD "error_threshold" default.errorThreshold (scalar scalars.f64)
  let _ ← fields.getD "connect_timeout_secs" 10 (scalar scalars.u64)
  let _ ← fields.getD "read_timeout_secs" 60 (scalar scalars.u64)
  let maxBodyBytes ← fields.getD "max_body_bytes" default.maxBodyBytes (scalar scalars.u64)
  let maxBufferedBytes ← fields.getD "max_buffered_bytes" default.maxBufferedBytes
    (scalar fun value => (scalars.u64 value).map some)
  let _ ← fields.getD "shutdown_timeout_secs" 30 (scalar scalars.u64)
  return { ewmaAlpha, exploitK, errorThreshold, maxBodyBytes, maxBufferedBytes }

def Config.deserialize [Float64 F] (value : Value Scalar Text) : Option (Config F) := do
  let fields ← fields ["listen", "metrics_listen", "provider", "model", "routing", "attribution"]
    value
  let listen ← fields.getD "listen" "127.0.0.1:4000".toList text
  let metricsListen ← fields.getD "metrics_listen" none fun value => (text value).map some
  let provider ← fields.required "provider" (hashMap (ProviderConfig.deserialize scalars))
  let model ← fields.required "model" (hashMap (list ModelCandidate.deserialize))
  let routing ← fields.getD "routing" .default (RoutingConfig.deserialize scalars)
  let attribution ← fields.getD "attribution" ∅ (hashMap text)
  return { listen, metricsListen, provider, model, routing, attribution }

end Deserialize

section Varies

variable (Relates : Text → Text → Prop)

structure VertexAiConfig.Varies (left right : VertexAiConfig) : Prop where
  projectId : Relates left.projectId right.projectId
  location : Relates left.location right.location
  attribution : left.attribution = right.attribution

structure AzureOpenAiConfig.Varies (left right : AzureOpenAiConfig) : Prop where
  resourceName : Relates left.resourceName right.resourceName
  apiVersion : Relates left.apiVersion right.apiVersion

structure GoogleAiConfig.Varies (left right : GoogleAiConfig) : Prop where
  apiVersion : Relates left.apiVersion right.apiVersion

structure AnthropicConfig.Varies (left right : AnthropicConfig) : Prop where
  version : Relates left.version right.version

structure ProviderConfig.Varies (left right : ProviderConfig) : Prop where
  baseUrl : Option.Rel Relates left.baseUrl right.baseUrl
  apiKey : Option.Rel Relates left.apiKey right.apiKey
  vertexAi : Option.Rel (VertexAiConfig.Varies Relates) left.vertexAi right.vertexAi
  azureOpenai : Option.Rel (AzureOpenAiConfig.Varies Relates) left.azureOpenai right.azureOpenai
  googleAi : Option.Rel (GoogleAiConfig.Varies Relates) left.googleAi right.googleAi
  anthropic : Option.Rel (AnthropicConfig.Varies Relates) left.anthropic right.anthropic
  headers : MapVaries Relates left.headers right.headers

structure ModelCandidate.Varies (left right : ModelCandidate) : Prop where
  provider : Relates left.provider right.provider
  model : Relates left.model right.model

/-- The same fields, keys and numbers, with related strings. -/
structure Config.Varies {F : Type} (left right : Config F) : Prop where
  listen : Relates left.listen right.listen
  metricsListen : Option.Rel Relates left.metricsListen right.metricsListen
  provider : MapVaries (ProviderConfig.Varies Relates) left.provider right.provider
  model : MapVaries (List.Forall₂ (ModelCandidate.Varies Relates)) left.model right.model
  routing : left.routing = right.routing
  attribution : MapVaries Relates left.attribution right.attribution

end Varies

section Respects

variable {Scalar F : Type} (scalars : Scalars Scalar F) {Relates : Text → Text → Prop}

theorem VertexAiConfig.deserialize_respects :
    Respects Relates (VertexAiConfig.deserialize scalars) (VertexAiConfig.Varies Relates) := by
  intro left right varies
  apply rel_bind (fields_varies _ varies)
  intro fields others both
  apply rel_bind (both.required respects_text "project_id")
  intro projectId _ projectIds
  apply rel_bind (both.required respects_text "location")
  intro location _ locations
  apply rel_bind (both.getD (respects_scalar scalars.bool) "attribution" rfl)
  intro attribution _ attributions
  exact .some ⟨projectIds, locations, attributions⟩

theorem AzureOpenAiConfig.deserialize_respects :
    Respects Relates (AzureOpenAiConfig.deserialize : Value Scalar Text → _)
      (AzureOpenAiConfig.Varies Relates) := by
  intro left right varies
  apply rel_bind (fields_varies _ varies)
  intro fields others both
  apply rel_bind (both.required respects_text "resource_name")
  intro resourceName _ resourceNames
  apply rel_bind (both.required respects_text "api_version")
  intro apiVersion _ apiVersions
  exact .some ⟨resourceNames, apiVersions⟩

theorem ModelCandidate.deserialize_respects :
    Respects Relates (ModelCandidate.deserialize : Value Scalar Text → _)
      (ModelCandidate.Varies Relates) := by
  intro left right varies
  apply rel_bind (fields_varies _ varies)
  intro fields others both
  apply rel_bind (both.required respects_text "provider")
  intro provider _ providers
  apply rel_bind (both.required respects_text "model")
  intro model _ models
  exact .some ⟨providers, models⟩

/-- No string reaches the routing table. -/
theorem RoutingConfig.deserialize_respects [Float64 F] :
    Respects Relates (RoutingConfig.deserialize scalars : _ → Option (RoutingConfig F)) Eq := by
  intro left right varies
  apply rel_bind (fields_varies _ varies)
  intro fields others both
  apply rel_bind (both.getD (respects_scalar scalars.f64) "ewma_alpha" rfl)
  rintro ewmaAlpha _ rfl
  apply rel_bind (both.getD (respects_scalar scalars.f64) "exploit_k" rfl)
  rintro exploitK _ rfl
  apply rel_bind (both.getD (respects_scalar scalars.f64) "error_threshold" rfl)
  rintro errorThreshold _ rfl
  apply rel_bind (both.getD (respects_scalar scalars.u64) "connect_timeout_secs" rfl)
  rintro connectTimeout _ rfl
  apply rel_bind (both.getD (respects_scalar scalars.u64) "read_timeout_secs" rfl)
  rintro readTimeout _ rfl
  apply rel_bind (both.getD (respects_scalar scalars.u64) "max_body_bytes" rfl)
  rintro maxBodyBytes _ rfl
  apply rel_bind (both.getD (respects_scalar _) "max_buffered_bytes" rfl)
  rintro maxBufferedBytes _ rfl
  apply rel_bind (both.getD (respects_scalar scalars.u64) "shutdown_timeout_secs" rfl)
  rintro shutdownTimeout _ rfl
  exact .some rfl

section Defaults

-- The default strings refer to no variable.
variable (plain : ∀ text : Text, '$' ∉ text → Relates text text)
include plain

theorem GoogleAiConfig.deserialize_respects :
    Respects Relates (GoogleAiConfig.deserialize : Value Scalar Text → _)
      (GoogleAiConfig.Varies Relates) := by
  intro left right varies
  apply rel_bind (fields_varies _ varies)
  intro fields others both
  apply rel_bind (both.getD respects_text "api_version" (plain _ (by decide)))
  intro apiVersion _ apiVersions
  exact .some ⟨apiVersions⟩

theorem AnthropicConfig.deserialize_respects :
    Respects Relates (AnthropicConfig.deserialize : Value Scalar Text → _)
      (AnthropicConfig.Varies Relates) := by
  intro left right varies
  apply rel_bind (fields_varies _ varies)
  intro fields others both
  apply rel_bind (both.getD respects_text "version" (plain _ (by decide)))
  intro version _ versions
  exact .some ⟨versions⟩

theorem ProviderConfig.deserialize_respects :
    Respects Relates (ProviderConfig.deserialize scalars) (ProviderConfig.Varies Relates) := by
  intro left right varies
  apply rel_bind (fields_varies _ varies)
  intro fields others both
  apply rel_bind (both.optional respects_text "base_url")
  intro baseUrl _ baseUrls
  apply rel_bind (both.optional respects_text "api_key")
  intro apiKey _ apiKeys
  apply rel_bind (both.optional (VertexAiConfig.deserialize_respects scalars) "vertex_ai")
  intro vertexAi _ vertexAis
  apply rel_bind (both.optional AzureOpenAiConfig.deserialize_respects "azure_openai")
  intro azureOpenai _ azureOpenais
  apply rel_bind (both.optional (GoogleAiConfig.deserialize_respects plain) "google_ai")
  intro googleAi _ googleAis
  apply rel_bind (both.optional (AnthropicConfig.deserialize_respects plain) "anthropic")
  intro anthropic _ anthropics
  apply rel_bind (both.getD respects_text.hashMap "headers" mapVaries_empty)
  intro headers _ allHeaders
  exact .some ⟨baseUrls, apiKeys, vertexAis, azureOpenais, googleAis, anthropics, allHeaders⟩

/-- Strings pass through the deserializer, and nothing is decided by what they say. -/
theorem Config.deserialize_respects [Float64 F] :
    Respects Relates (Config.deserialize scalars : _ → Option (Config F))
      (Config.Varies Relates) := by
  intro left right varies
  apply rel_bind (fields_varies _ varies)
  intro fields others both
  apply rel_bind (both.getD respects_text "listen" (plain _ (by decide)))
  intro listen _ listens
  apply rel_bind (both.getD respects_text.some "metrics_listen" .none)
  intro metricsListen _ metricsListens
  apply rel_bind
    (both.required (ProviderConfig.deserialize_respects scalars plain).hashMap "provider")
  intro provider _ providers
  apply rel_bind (both.required ModelCandidate.deserialize_respects.list.hashMap "model")
  intro model _ models
  apply rel_bind (both.getD (RoutingConfig.deserialize_respects scalars) "routing" rfl)
  intro routing _ routings
  apply rel_bind (both.getD respects_text.hashMap "attribution" mapVaries_empty)
  intro attribution _ attributions
  exact .some ⟨listens, metricsListens, providers, models, routings, attributions⟩

end Defaults

end Respects

end Sturnus
