import Sturnus.Foundation.Json.Size
import Sturnus.Proxy.Labels
import Sturnus.Server.Budget

/-!
# The size of a rewritten body

Permits are reserved for the bytes a client declares, and the buffer that
carries them is the rewritten body.  Its size is the declared one, plus what the
new model and the merged labels take, minus what rewriting frees: whitespace,
escapes, repeated fields and the values that are replaced.
-/

namespace Sturnus

open Foundation

variable {Map : Type} {IsValue : Text → Prop}

def treeFields (entries : List (Text × Json.Tree Text)) : List (Text × Text) :=
  entries.map (Prod.map id Json.Tree.text)

section Sizes

variable (keep : Json.Number → Option Json.Number) (limit : ℕ) (layout : Json.Layout IsValue)
  (realModel : Text) (labels : Option (HashMap Text Text))

/-- The labels of the client that the library loads, and the attribution labels. -/
def mergedFields (labels : HashMap Text Text) : List (Text × Text) :=
  treeFields (loadedLabels keep limit (.ofMembers layout.fields) ++ labelEntries labels)

/-- The bytes of the field that is replaced under a key. -/
def replacedBytes (key : Text) : ℕ :=
  ((last key layout.fields).map fun old => Json.fieldSize (key, old)).getD 0

/-- The new model and, for a provider that opted in, the labels. -/
def addedBytes : ℕ :=
  Json.fieldSize (modelKey, Json.quote realModel) +
    match labels with
    | none => 0
    | some labels =>
        Json.fieldSize (labelsKey, []) + Json.fieldsSize (mergedFields keep limit layout labels) +
          if mergedFields keep limit layout labels = [] then 2 else 1

/-- Whitespace and escapes, repeated fields, the replaced model and, for a provider that
opted in, the replaced labels and the client labels that are overwritten. -/
def freedBytes : ℕ :=
  layout.surplus + Json.fieldsSize (superseded layout.fields) + replacedBytes layout modelKey +
    match labels with
    | none => 0
    | some labels =>
        replacedBytes layout labelsKey +
          Json.fieldsSize (superseded (mergedFields keep limit layout labels))

/-- What is added fits into what is freed and what the last kilobyte has left. -/
def Fits (declared : UInt64) : Prop :=
  layout.text.size + addedBytes keep limit layout realModel labels ≤
    1024 * (BufferBudget.wanted declared).toNat + freedBytes keep limit layout labels

end Sizes

section Rewritten

variable {json : SerdeJson Map} {keep : Json.Number → Option Json.Number} {limit : ℕ}
  {content : Map → List (Text × Json.Tree Text)} {layout : Json.Layout IsValue}

theorem size_mergeLabels (maps : json.KeepsMaps keep limit content) {body : RawBody}
    (same : body.get labelsKey = (RawBody.ofMembers layout.fields).get labelsKey)
    (labels : HashMap Text Text) :
    (Json.Tree.text (.object (content (mergeLabels json body labels)))).size +
        Json.fieldsSize (superseded (mergedFields keep limit layout labels)) =
      Json.fieldsSize (mergedFields keep limit layout labels) +
        if mergedFields keep limit layout labels = [] then 2 else 1 := by
  have loaded : loadedLabels keep limit body =
      loadedLabels keep limit (.ofMembers layout.fields) := by
    rw [loadedLabels, loadedLabels, same]
  have perm := (maps.content_mergeLabels body labels).map (Prod.map id Json.Tree.text)
  rw [map_collapse Function.injective_id, loaded] at perm
  change (treeFields _).Perm (collapse (mergedFields keep limit layout labels)) at perm
  have text : Json.Tree.text (.object (content (mergeLabels json body labels))) =
      Json.compact (treeFields (content (mergeLabels json body labels))) := by
    rw [Json.Tree.text]
    rfl
  have empty : treeFields (content (mergeLabels json body labels)) = [] ↔
      mergedFields keep limit layout labels = [] := by
    constructor
    · intro empty
      rw [empty] at perm
      exact collapse_eq_nil.mp perm.nil_eq.symm
    · intro empty
      rw [collapse_eq_nil.mpr empty] at perm
      exact perm.eq_nil
  have freed := Json.fieldsSize_collapse (mergedFields keep limit layout labels)
  rw [text, Json.size_compact, Json.fieldsSize_perm perm]
  simp only [empty]
  omega

/-- What replacing the model takes and frees. -/
theorem fieldsSize_rewritten (layout : Json.Layout IsValue) (realModel : Text) :
    Json.fieldsSize (rewritten realModel layout.fields) + replacedBytes layout modelKey +
        Json.fieldsSize (superseded layout.fields) =
      Json.fieldsSize layout.fields + Json.fieldSize (modelKey, Json.quote realModel) := by
  have collapsed := Json.fieldsSize_collapse layout.fields
  have model := Json.fieldsSize_upsert modelKey (Json.quote realModel) (collapse layout.fields)
  rw [lookup_collapse] at model
  change Json.fieldsSize (rewritten realModel layout.fields) + replacedBytes layout modelKey =
    _ at model
  omega

/-- What replacing the labels takes and frees. -/
theorem fieldsSize_labelled (layout : Json.Layout IsValue) (realModel rawLabels : Text) :
    Json.fieldsSize (upsert labelsKey rawLabels (rewritten realModel layout.fields)) +
        replacedBytes layout labelsKey =
      Json.fieldsSize (rewritten realModel layout.fields) + Json.fieldSize (labelsKey, []) +
        rawLabels.size := by
  have merged := Json.fieldsSize_upsert labelsKey rawLabels (rewritten realModel layout.fields)
  have field : Json.fieldSize (labelsKey, rawLabels) =
      Json.fieldSize (labelsKey, []) + rawLabels.size := by
    simp only [Json.fieldSize, Json.size_nil]
    omega
  rw [lookup_rewritten realModel _ labelsKey_ne_modelKey, field] at merged
  change _ + replacedBytes layout labelsKey = _ at merged
  omega

/-- What rewriting writes, byte for byte of what it reads. -/
theorem size_prepareOutbound (maps : json.KeepsMaps keep limit content)
    (verbatim : ∀ fields, json.writeObject fields = .ok (Json.compact fields).bytes)
    (realModel : Text) (labels : Option (HashMap Text Text)) (permit : Option Permit) :
    ∃ data, prepareOutbound json (.ofMembers layout.fields) realModel labels permit =
        .ok ⟨some data, permit⟩ ∧
      data.length + freedBytes keep limit layout labels =
        layout.text.size + addedBytes keep limit layout realModel labels := by
  have written (fields : List (Text × Text)) (nonempty : fields ≠ []) :
      (Json.compact fields).bytes.length = Json.fieldsSize fields + 1 := by
    have size := Json.size_compact fields
    rwa [if_neg nonempty] at size
  have model := fieldsSize_rewritten layout realModel
  have whole := layout.size_text
  cases labels with
  | none =>
      refine ⟨(Json.compact (rewritten realModel layout.fields)).bytes, ?_, ?_⟩
      · simp only [prepareOutbound, prepareBody, maps.rawString, bind, Except.bind, pure,
          Except.pure, RawBody.serialize, verbatim]
        rfl
      · rw [written (rewritten realModel layout.fields) (upsert_ne_nil _ _ _)]
        simp only [freedBytes, addedBytes]
        omega
  | some labels =>
      have same : ((RawBody.ofMembers layout.fields).set modelKey (Json.quote realModel)).get
          labelsKey = (RawBody.ofMembers layout.fields).get labelsKey :=
        RawBody.get_set_of_ne _ labelsKey_ne_modelKey _
      have prepared := maps.prepareBody_eq (.ofMembers layout.fields) realModel labels
      have text := size_mergeLabels maps same labels
      generalize Json.Tree.text (.object (content (mergeLabels json _ labels))) = rawLabels
        at prepared text
      have merged := fieldsSize_labelled layout realModel rawLabels
      refine ⟨(Json.compact (upsert labelsKey rawLabels
        (rewritten realModel layout.fields))).bytes, ?_, ?_⟩
      · unfold prepareOutbound
        rw [prepared]
        simp only [bind, Except.bind, pure, Except.pure, RawBody.serialize, verbatim]
        rfl
      · rw [written _ (upsert_ne_nil _ _ _)]
        simp only [freedBytes, addedBytes]
        omega

end Rewritten

section Shrinking

variable {json : SerdeJson Map} {members : List (Text × Text)}

/-- The replaced model is the last one. -/
theorem size_rewritten_le (layout : Json.Layout IsValue) {raw : Text}
    (named : last modelKey layout.fields = some raw) (realModel : Text) :
    (Json.compact (rewritten realModel layout.fields)).size + raw.size ≤
      layout.text.size + (Json.quote realModel).size := by
  have model := fieldsSize_rewritten layout realModel
  have replaced : replacedBytes layout modelKey = Json.fieldSize (modelKey, raw) := by
    rw [replacedBytes, named, Option.map_some, Option.getD_some]
  have swapped : Json.fieldSize (modelKey, Json.quote realModel) + raw.size =
      Json.fieldSize (modelKey, raw) + (Json.quote realModel).size := by
    simp only [Json.fieldSize]
    omega
  have whole := layout.size_text
  have nonempty : rewritten realModel layout.fields ≠ [] := upsert_ne_nil _ _ _
  rw [Json.size_compact, if_neg nonempty]
  omega

/-- Without labels only the model can make a body longer. -/
theorem prepareOutbound_shrinks (lawful : json.Lawful IsValue) {input : List UInt8}
    {body : RawBody} (parsed : RawBody.deserialize json input = .ok body) {modelAlias : Text}
    (named : body.getAs json.parseString modelKey = some modelAlias) (realModel : Text)
    (permit : Option Permit) :
    ∃ members raw data, json.readObject input = .ok members ∧
      members.reverse.lookup modelKey = some raw ∧
      prepareOutbound json body realModel none permit = .ok ⟨some data, permit⟩ ∧
      data.length + raw.size ≤ input.length + (Json.quote realModel).size := by
  obtain ⟨members, read, rfl⟩ := RawBody.deserialize_eq_ok parsed
  obtain ⟨raw, found, -⟩ := Option.bind_eq_some_iff.mp named
  rw [RawBody.get_ofMembers] at found
  obtain ⟨text, rfl, object⟩ := (lawful.readObject input members).mp read
  have nonempty : members ≠ [] := by
    rintro rfl
    cases found
  obtain ⟨layout, rfl, rfl⟩ := Json.exists_layout object nonempty
  exact ⟨_, raw, _, read, found,
    lawful.prepareOutbound_ofMembers (lawful.values read) realModel permit,
    size_rewritten_le layout found realModel⟩

/-- Of two models the last one is replaced. -/
theorem prepareOutbound_shrinks_repeated :
    ∃ body data, RawBody.deserialize SerdeJson.flat repeatedBody.bytes = .ok body ∧
      prepareOutbound SerdeJson.flat body "gpt-5".toList none none = .ok ⟨some data, none⟩ ∧
      data.length + Text.size "\"x\"".toList ≤
        repeatedBody.bytes.length + (Json.quote "gpt-5".toList).size := by
  obtain ⟨read, parsed⟩ := deserialize_repeatedBody
  have named : (RawBody.ofMembers repeatedMembers).getAs SerdeJson.flat.parseString modelKey =
      some "x".toList := by decide +kernel
  obtain ⟨members, raw, data, again, found, prepared, size⟩ :=
    prepareOutbound_shrinks SerdeJson.flat_lawful parsed named "gpt-5".toList none
  obtain rfl := Except.ok.inj (read.symm.trans again)
  obtain rfl := Option.some.inj found
  exact ⟨_, data, parsed, prepared, size⟩

end Shrinking

end Sturnus
