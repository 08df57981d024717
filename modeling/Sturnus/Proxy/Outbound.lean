import Sturnus.Body
import Sturnus.Foundation.Semaphore

/-!
# The outbound body

The client's body with the model alias replaced by the model of the chosen
candidate, serialized into one buffer that carries its buffer permit.
-/

namespace Sturnus

open Foundation

/-- The serialized body, taken once, and the permit for the memory it occupies. -/
structure OutboundBody where
  data : Option (List UInt8)
  permit : Option Permit

namespace OutboundBody

/-- Yield the whole buffer as a single frame; the stream then ends. -/
def pollFrame (body : OutboundBody) : Option (List UInt8) × OutboundBody :=
  (body.data, { body with data := none })

def isEndStream (body : OutboundBody) : Bool := body.data.isNone

def sizeHint (body : OutboundBody) : ℕ := (body.data.map List.length).getD 0

end OutboundBody

variable {Map : Type}

def modelKey : Text := "model".toList

def labelsKey : Text := "labels".toList

/-- The labels of the client with the attribution labels merged in, which win. -/
def mergeLabels (json : SerdeJson Map) (body : RawBody) (labels : HashMap Text Text) : Map :=
  -- Wrong-shape client labels (non-object) are overwritten.
  let merged := (body.getAs json.parseMap labelsKey).getD json.emptyMap
  labels.entries.foldl (fun merged label => json.insertString merged label.1 label.2) merged

def prepareBody (json : SerdeJson Map) (body : RawBody) (realModel : Text)
    (attributionLabels : Option (HashMap Text Text)) : Except Text RawBody := do
  let rawModel ← json.rawString realModel
  let body := body.set modelKey rawModel
  match attributionLabels with
  | none => return body
  | some labels =>
      let rawLabels ← json.rawMap (mergeLabels json body labels)
      return body.set labelsKey rawLabels

def prepareOutbound (json : SerdeJson Map) (body : RawBody) (realModel : Text)
    (attributionLabels : Option (HashMap Text Text)) (permit : Option Permit) :
    Except Text OutboundBody := do
  let body ← prepareBody json body realModel attributionLabels
  let data ← body.serialize json
  return { data := some data, permit := permit }

end Sturnus
