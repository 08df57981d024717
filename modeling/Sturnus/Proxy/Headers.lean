import Sturnus.Foundation.Http

/-!
# Which headers may not be configured
-/

namespace Sturnus

open Foundation Foundation.Http

/-- `HeaderName::from_static`. -/
def staticName (name : String)
    (legal : (!name.toList.isEmpty && name.toList.length ≤ maxNameLength &&
      name.toList.all isNameChar) = true := by decide) : HeaderName :=
  ⟨name.toList, legal⟩

/-- `HeaderValue::from_static`. -/
def staticValue (value : String)
    (legal : (Text.bytes value.toList).all isValueByte = true := by decide) : HeaderValue :=
  ⟨Text.bytes value.toList, legal⟩

/-- Hop-by-hop headers with a constant in the http crate. -/
def hopByHop : List HeaderName :=
  [staticName "connection", staticName "proxy-authorization", staticName "te",
    staticName "trailer", staticName "transfer-encoding", staticName "upgrade"]

def isHopByHop (name : HeaderName) : Bool :=
  hopByHop.contains name || name == staticName "keep-alive"

def apiKeyHeader : HeaderName := staticName "api-key"

def xApiKeyHeader : HeaderName := staticName "x-api-key"

def anthropicVersionHeader : HeaderName := staticName "anthropic-version"

def contentTypeHeader : HeaderName := staticName "content-type"

def authorizationHeader : HeaderName := staticName "authorization"

/-- Headers `forwardRequest` sets, plus those framing or routing the request. -/
def setBySturnus : List HeaderName :=
  [contentTypeHeader, authorizationHeader, staticName "content-encoding",
    staticName "content-length", staticName "host"]

def isReservedRequestHeader (name : HeaderName) : Bool :=
  isHopByHop name || setBySturnus.contains name ||
    [apiKeyHeader, xApiKeyHeader, anthropicVersionHeader].contains name

end Sturnus
