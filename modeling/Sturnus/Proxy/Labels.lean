import Sturnus.Foundation.Json.Document
import Sturnus.Proxy.Rewrite

/-!
# The labels of a rewritten body

The labels of the client are the one value that is not passed on as it was
written: it is parsed into a map of the JSON library, the attribution labels
are inserted, and the map is written again.
-/

namespace Sturnus

open Foundation

variable {Map : Type}

/-- What is assumed of the maps of the JSON library: `content` are the entries of a map,
`keep` is what it makes of a number, and `limit` how many arrays and objects it enters. -/
structure SerdeJson.KeepsMaps (json : SerdeJson Map)
    (keep : Json.Number → Option Json.Number) (limit : ℕ)
    (content : Map → List (Text × Json.Tree Text)) : Prop where
  distinct : ∀ map, ((content map).map Prod.fst).Nodup
  parseMap : ∀ raw, Option.Rel (fun map entries => (content map).Perm entries)
    (json.parseMap raw) ((Json.document raw).bind (Json.Tree.loadMap keep limit))
  emptyMap : content json.emptyMap = []
  insertString : ∀ map key text,
    (content (json.insertString map key text)).Perm (upsert key (.string text) (content map))
  rawMap : ∀ map, json.rawMap map = .ok (Json.Tree.text (.object (content map)))
  rawString : ∀ text, json.rawString text = .ok (Json.quote text)

/-- The attribution labels as entries of a JSON object. -/
def labelEntries (labels : HashMap Text Text) : List (Text × Json.Tree Text) :=
  labels.entries.map fun label => (label.1, .string label.2)

/-- What a library loads of the labels of a client. -/
def loadedLabels (keep : Json.Number → Option Json.Number) (limit : ℕ) (body : RawBody) :
    List (Text × Json.Tree Text) :=
  ((body.get labelsKey).bind fun raw =>
    (Json.document raw).bind (Json.Tree.loadMap keep limit)).getD []

theorem loadedLabels_distinct (keep : Json.Number → Option Json.Number) (limit : ℕ)
    (body : RawBody) : ((loadedLabels keep limit body).map Prod.fst).Nodup := by
  unfold loadedLabels
  cases found : (body.get labelsKey).bind fun raw =>
      (Json.document raw).bind (Json.Tree.loadMap keep limit) with
  | none => exact List.nodup_nil
  | some entries =>
      obtain ⟨raw, -, loaded⟩ := Option.bind_eq_some_iff.mp found
      obtain ⟨tree, -, loaded⟩ := Option.bind_eq_some_iff.mp loaded
      exact Json.Tree.loadMap_distinct loaded

section Merge

variable {json : SerdeJson Map} {keep : Json.Number → Option Json.Number} {limit : ℕ}
  {content : Map → List (Text × Json.Tree Text)}

theorem SerdeJson.KeepsMaps.content_insertAll (maps : json.KeepsMaps keep limit content) {map : Map}
    {entries : List (Text × Json.Tree Text)} (perm : (content map).Perm entries)
    (distinct : (entries.map Prod.fst).Nodup) (labels : List (Σ _ : Text, Text)) :
    (content (labels.foldl (fun merged label => json.insertString merged label.1 label.2) map)).Perm
      (collapse (entries ++ labels.map fun label => (label.1, .string label.2))) := by
  rw [collapse_append distinct, List.foldl_map]
  induction labels generalizing map entries with
  | nil => exact perm
  | cons label rest inductionHypothesis =>
      apply inductionHypothesis
      · exact (maps.insertString map label.1 label.2).trans (perm_upsert perm distinct _ _)
      · exact nodup_upsert distinct _ _

/-- The merged map holds what was loaded, overwritten by the attribution labels. -/
theorem SerdeJson.KeepsMaps.content_mergeLabels (maps : json.KeepsMaps keep limit content)
    (body : RawBody) (labels : HashMap Text Text) :
    (content (mergeLabels json body labels)).Perm
      (collapse (loadedLabels keep limit body ++ labelEntries labels)) := by
  obtain ⟨merged, same, perm⟩ : ∃ merged, mergeLabels json body labels =
      labels.entries.foldl (fun merged label => json.insertString merged label.1 label.2) merged ∧
      (content merged).Perm (loadedLabels keep limit body) := by
    unfold mergeLabels loadedLabels RawBody.getAs
    refine ⟨_, rfl, ?_⟩
    cases body.get labelsKey with
    | none => exact List.Perm.of_eq maps.emptyMap
    | some raw =>
        have related := maps.parseMap raw
        simp only [Option.bind_some]
        generalize json.parseMap raw = parsed,
          (Json.document raw).bind (Json.Tree.loadMap keep limit) = loaded at related ⊢
        cases related with
        | none => exact List.Perm.of_eq maps.emptyMap
        | some both => exact both
  rw [same]
  exact maps.content_insertAll perm (loadedLabels_distinct keep limit body) labels.entries

theorem labelsKey_ne_modelKey : labelsKey ≠ modelKey := by decide

theorem SerdeJson.KeepsMaps.prepareBody_eq (maps : json.KeepsMaps keep limit content)
    (body : RawBody) (realModel : Text) (labels : HashMap Text Text) :
    prepareBody json body realModel (some labels) = .ok
      ((body.set modelKey (Json.quote realModel)).set labelsKey (Json.Tree.text (.object
        (content (mergeLabels json (body.set modelKey (Json.quote realModel)) labels))))) := by
  unfold prepareBody
  rw [maps.rawString]
  simp only [bind, Except.bind, maps.rawMap]
  rfl

/-- What the outbound object holds under a key: the attribution label, or what was loaded. -/
theorem SerdeJson.KeepsMaps.last_content (maps : json.KeepsMaps keep limit content)
    (body : RawBody) (labels : HashMap Text Text) (key : Json.Points) :
    last key ((content (mergeLabels json body labels)).map
        (Prod.map Json.points (Json.Tree.map Json.points))) =
      (last key ((labelEntries labels).map (Prod.map Json.points (Json.Tree.map Json.points)))).or
        (last key ((loadedLabels keep limit body).map
          (Prod.map Json.points (Json.Tree.map Json.points)))) := by
  have perm := maps.content_mergeLabels body labels
  have renamed := map_collapse Json.points_injective (Json.Tree.map Json.points)
    (loadedLabels keep limit body ++ labelEntries labels)
  have distinct := nodup_collapse ((loadedLabels keep limit body ++ labelEntries labels).map
    (Prod.map Json.points (Json.Tree.map Json.points)))
  rw [last_of_perm (perm.map _) (by rw [renamed]; exact distinct), renamed, last_collapse,
    List.map_append, last_append]

end Merge

section Kept

variable (client : List (Json.Points × Json.Tree Json.Points)) (labels : HashMap Text Text)

/-- The key is not one of the attribution labels. -/
def Unattributed (key : Json.Points) : Prop :=
  ∀ label ∈ labels.entries, Json.points label.1 ≠ key

/-- The outbound object has the attribution labels as strings, what the client sent under
every other key, and no other keys. -/
structure LabelsKept (out : List (Json.Points × Json.Tree Json.Points)) : Prop where
  attributed : ∀ label ∈ labels.entries, ∃ value, last (Json.points label.1) out = some value ∧
    value.Same (.string (Json.points label.2))
  client : ∀ key, Unattributed labels key →
    Option.Rel Json.Tree.Same (last key out) (last key client)

/-- The client sent no key of its own. -/
def NothingOwn : Prop := ∀ entry ∈ client, ¬Unattributed labels entry.1

/-- The library takes the object and keeps the numbers below the keys of the client. -/
structure Keepable (keep : Json.Number → Option Json.Number) (limit : ℕ) : Prop where
  loads : (Json.Tree.load keep limit (.object client)).isSome = true
  numbers : ∀ key value, Unattributed labels key → last key client = some value →
    value.NumbersKept keep

end Kept

section Theorem

variable {json : SerdeJson Map} {keep : Json.Number → Option Json.Number} {limit : ℕ}
  {content : Map → List (Text × Json.Tree Text)}
  {client : List (Json.Points × Json.Tree Json.Points)} {labels : HashMap Text Text} {body : RawBody}

theorem labelEntries_points (labels : HashMap Text Text) :
    (labelEntries labels).map (Prod.map Json.points (Json.Tree.map Json.points)) =
      labels.entries.map fun label => (Json.points label.1, .string (Json.points label.2)) := by
  rw [labelEntries, List.map_map]
  apply List.map_congr_left
  intro label _
  simp [Json.Tree.map]

theorem last_labelEntries_of_mem {label : Σ _ : Text, Text} (member : label ∈ labels.entries) :
    last (Json.points label.1) ((labelEntries labels).map
      (Prod.map Json.points (Json.Tree.map Json.points))) =
        some (.string (Json.points label.2)) := by
  have keys : ((labelEntries labels).map
      (Prod.map Json.points (Json.Tree.map Json.points))).map Prod.fst =
        labels.keys.map Json.points := by
    rw [labelEntries_points, AList.keys, List.keys, List.map_map, List.map_map]
    rfl
  have distinct := labels.keys_nodup.map Json.points_injective
  rw [← keys] at distinct
  rw [last_of_nodup distinct, lookup_eq_some_iff distinct, labelEntries_points]
  exact List.mem_map.mpr ⟨label, member, rfl⟩

theorem last_labelEntries_of_unattributed {key : Json.Points} (other : Unattributed labels key) :
    last key ((labelEntries labels).map (Prod.map Json.points (Json.Tree.map Json.points))) =
      none := by
  rw [last, List.lookup_eq_none_iff, labelEntries_points]
  intro entry member
  obtain ⟨label, inside, rfl⟩ := List.mem_map.mp (List.mem_reverse.mp member)
  simpa using (other label inside).symm

theorem last_content_attributed (maps : json.KeepsMaps keep limit content)
    {label : Σ _ : Text, Text} (member : label ∈ labels.entries) :
    last (Json.points label.1) ((content (mergeLabels json body labels)).map
      (Prod.map Json.points (Json.Tree.map Json.points))) =
        some (.string (Json.points label.2)) := by
  rw [maps.last_content, last_labelEntries_of_mem member, Option.some_or]

theorem last_content_unattributed (maps : json.KeepsMaps keep limit content) {key : Json.Points}
    (other : Unattributed labels key) :
    last key ((content (mergeLabels json body labels)).map
        (Prod.map Json.points (Json.Tree.map Json.points))) =
      last key ((loadedLabels keep limit body).map
        (Prod.map Json.points (Json.Tree.map Json.points))) := by
  rw [maps.last_content, last_labelEntries_of_unattributed other, Option.none_or]

/-- The attribution labels are always there; the client's labels are what is at stake. -/
theorem labelsKept_iff_client (maps : json.KeepsMaps keep limit content) :
    LabelsKept client labels ((content (mergeLabels json body labels)).map
        (Prod.map Json.points (Json.Tree.map Json.points))) ↔
      ∀ key, Unattributed labels key → Option.Rel Json.Tree.Same
        (last key ((loadedLabels keep limit body).map
          (Prod.map Json.points (Json.Tree.map Json.points)))) (last key client) := by
  constructor
  · intro kept key other
    have theirs := kept.client key other
    rwa [last_content_unattributed maps other] at theirs
  · intro theirs
    constructor
    · intro label member
      exact ⟨_, last_content_attributed maps member, fun _ => rfl⟩
    · intro key other
      rw [last_content_unattributed maps other]
      exact theirs key other

theorem nothingOwn_iff :
    NothingOwn client labels ↔ ∀ key, Unattributed labels key → last key client = none := by
  constructor
  · intro nothing key other
    cases sent : last key client with
    | none => rfl
    | some value => exact absurd other (nothing _ (mem_of_last sent))
  · intro absent entry member other
    exact last_ne_none member (absent entry.1 other)

/-- A label that was loaded is the same exactly if its numbers were kept. -/
theorem loaded_same_iff {entries : List (Text × Json.Tree Text)}
    (loaded : (Json.Tree.object client).loadMap keep limit = some entries) (key : Json.Points) :
    Option.Rel Json.Tree.Same
        (last key (entries.map (Prod.map Json.points (Json.Tree.map Json.points))))
        (last key client) ↔
      ∀ value, last key client = some value → value.NumbersKept keep := by
  have related := Json.Tree.last_loadMap loaded key
  generalize last key client = sent, last key (entries.map
    (Prod.map Json.points (Json.Tree.map Json.points))) = stored at related ⊢
  cases related with
  | none => exact iff_of_true .none (by simp)
  | some both =>
      obtain ⟨depth, value, inside, rfl⟩ := both
      rw [Option.rel_some_some, Json.Tree.same_load_iff inside]
      simp only [Option.some.injEq, forall_eq']

/-- The labels are as they should be exactly if the client had none of its own or the
library kept them. -/
theorem labelsKept_iff (maps : json.KeepsMaps keep limit content) {raw : Text}
    (found : body.get labelsKey = some raw)
    (object : Json.document raw = some (.object client)) :
    LabelsKept client labels ((content (mergeLabels json body labels)).map
        (Prod.map Json.points (Json.Tree.map Json.points))) ↔
      NothingOwn client labels ∨ Keepable client labels keep limit := by
  have loadedLabels_eq : loadedLabels keep limit body =
      ((Json.Tree.object client).loadMap keep limit).getD [] := by
    rw [loadedLabels, found, Option.bind_some, object, Option.bind_some]
  rw [labelsKept_iff_client maps, loadedLabels_eq]
  have loads := Json.Tree.isSome_loadMap keep limit client
  cases loaded : (Json.Tree.object client).loadMap keep limit with
  | none =>
      have unkeepable : ¬Keepable client labels keep limit := by
        intro keepable
        rw [loaded, keepable.loads] at loads
        cases loads
      rw [or_iff_left unkeepable, nothingOwn_iff]
      simp only [Option.getD_none, List.map_nil, last_nil, rel_none_left]
  | some entries =>
      rw [loaded] at loads
      simp only [Option.getD_some, loaded_same_iff loaded]
      constructor
      · intro numbers
        exact .inr ⟨loads.symm, fun key value other => numbers key other value⟩
      · rintro (nothing | keepable) key other value sent
        · rw [nothingOwn_iff.mp nothing key other] at sent
          cases sent
        · exact keepable.numbers key value other sent

/-- Whatever object the client sent: every other field keeps its text and its place, and the
labels are the attribution labels and the client's own exactly if the client had none of
its own or the library kept them. -/
theorem labels_preserved_iff (maps : json.KeepsMaps keep limit content) {raw : Text}
    (found : body.get labelsKey = some raw)
    (object : Json.document raw = some (.object client)) (realModel : Text)
    (labels : HashMap Text Text) :
    ∃ prepared text out,
      prepareBody json body realModel (some labels) = .ok prepared ∧
      prepared.get labelsKey = some text ∧ Json.document text = some (.object out) ∧
      prepared.fields.map Prod.fst = body.fields.map Prod.fst ++
        (if modelKey ∈ body.fields.map Prod.fst then [] else [modelKey]) ∧
      (∀ key, key ≠ modelKey → key ≠ labelsKey → prepared.get key = body.get key) ∧
      (LabelsKept client labels out ↔
        NothingOwn client labels ∨ Keepable client labels keep limit) := by
  have foundBehind : (body.set modelKey (Json.quote realModel)).get labelsKey = some raw := by
    rw [RawBody.get_set_of_ne _ labelsKey_ne_modelKey, found]
  refine ⟨_, _, _, maps.prepareBody_eq body realModel labels, RawBody.get_set _ _ _,
    Json.Tree.document_object _, ?_, ?_, labelsKept_iff maps foundBehind object⟩
  · have known : labelsKey ∈ (body.set modelKey (Json.quote realModel)).fields.map Prod.fst :=
      List.mem_map.mpr ⟨_, mem_of_last (by
        rw [last_of_nodup (body.set modelKey _).distinct]
        exact foundBehind), rfl⟩
    change (upsert labelsKey _ (body.set modelKey (Json.quote realModel)).fields).map Prod.fst = _
    rw [keys_upsert, if_pos known]
    change (upsert modelKey _ body.fields).map Prod.fst = _
    rw [keys_upsert]
    split
    next => exact (List.append_nil _).symm
    next => rfl
  · intro key notModel notLabels
    rw [RawBody.get_set_of_ne _ notLabels, RawBody.get_set_of_ne _ notModel]

end Theorem

section Trees

/-- Entries with distinct keys. -/
structure LabelMap where
  entries : List (Text × Json.Tree Text)
  distinct : (entries.map Prod.fst).Nodup

/-- A library that keeps trees, and reads bodies whose values are flat. -/
def SerdeJson.trees (keep : Json.Number → Option Json.Number) (limit : ℕ) :
    SerdeJson LabelMap where
  readObject := SerdeJson.flat.readObject
  parseString := SerdeJson.flat.parseString
  parseBool := SerdeJson.flat.parseBool
  parseMap raw := ((Json.document raw).bind (Json.Tree.loadMap keep limit)).map fun entries =>
    ⟨collapse entries, nodup_collapse entries⟩
  emptyMap := ⟨[], List.nodup_nil⟩
  insertString map key text :=
    ⟨upsert key (.string text) map.entries, nodup_upsert map.distinct _ _⟩
  rawString := SerdeJson.flat.rawString
  rawMap map := .ok (Json.Tree.text (.object map.entries))
  writeObject := SerdeJson.flat.writeObject

theorem SerdeJson.trees_keepsMaps (keep : Json.Number → Option Json.Number) (limit : ℕ) :
    (SerdeJson.trees keep limit).KeepsMaps keep limit LabelMap.entries where
  distinct map := map.distinct
  parseMap raw := by
    have parsed : (trees keep limit).parseMap raw =
        ((Json.document raw).bind (Json.Tree.loadMap keep limit)).map fun entries =>
          ⟨collapse entries, nodup_collapse entries⟩ := rfl
    rw [parsed]
    cases loaded : (Json.document raw).bind (Json.Tree.loadMap keep limit) with
    | none => exact .none
    | some entries =>
        obtain ⟨tree, -, found⟩ := Option.bind_eq_some_iff.mp loaded
        have kept := collapse_of_nodup (Json.Tree.loadMap_distinct found)
        exact .some (List.Perm.of_eq kept)
  emptyMap := rfl
  insertString _ _ _ := List.Perm.refl _
  rawMap _ := rfl
  rawString _ := rfl

/-- Numbers are kept as they are written if a double has such an exponent. -/
def keepSmall (literal : Json.Number) : Option Json.Number :=
  if ((Json.readDecimal literal.text).all fun decimal => decimal.exponent ≤ 308) = true then
    some literal
  else none

def three : Json.Number := ⟨['3'], by decide, by decide⟩

def beyondDouble : Json.Number := ⟨['1', 'e', '9', '9', '9'], by decide, by decide⟩

/-- The client's labels: a text and a number. -/
def ownLabels (literal : Json.Number) : Json.Tree Text :=
  .object [("env".toList, .string "prod".toList), ("n".toList, .number literal)]

def ownPoints (literal : Json.Number) : List (Json.Points × Json.Tree Json.Points) :=
  [(Json.points "env".toList, .string (Json.points "prod".toList)),
    (Json.points "n".toList, .number literal)]

def labelledBody (literal : Json.Number) : RawBody :=
  .ofMembers [(modelKey, Json.quote "fast".toList), (labelsKey, (ownLabels literal).text)]

def teamLabel : HashMap Text Text := AList.singleton "team".toList "ml".toList

theorem document_ownLabels (literal : Json.Number) :
    Json.document (ownLabels literal).text = some (.object (ownPoints literal)) := by
  rw [Json.Tree.document_text]
  simp [ownLabels, ownPoints, Json.Tree.map]

theorem labelledBody_labels (literal : Json.Number) :
    (labelledBody literal).get labelsKey = some (ownLabels literal).text := rfl

theorem unattributed_env : Unattributed teamLabel (Json.points "env".toList) := by
  intro label member
  rw [List.mem_singleton.mp member]
  decide

theorem labels_preserved_small :
    ∃ prepared text out value,
      prepareBody (SerdeJson.trees keepSmall 127) (labelledBody three) "gpt-5".toList
        (some teamLabel) = .ok prepared ∧
      prepared.get labelsKey = some text ∧ Json.document text = some (.object out) ∧
      last (Json.points "env".toList) out = some value ∧
      value.Same (.string (Json.points "prod".toList)) := by
  obtain ⟨prepared, text, out, done, found, read, -, -, kept⟩ :=
    labels_preserved_iff (SerdeJson.trees_keepsMaps keepSmall 127) (labelledBody_labels three)
      (document_ownLabels three) "gpt-5".toList teamLabel
  have keepable : Keepable (ownPoints three) teamLabel keepSmall 127 := by
    refine ⟨by rfl, ?_⟩
    intro key value _ sent
    have member := mem_of_last sent
    simp only [ownPoints, List.mem_cons, Prod.mk.injEq, List.not_mem_nil, or_false] at member
    rcases member with ⟨-, rfl⟩ | ⟨-, rfl⟩
    · exact Json.Tree.numbersKept_string _
    · exact Json.Tree.numbersKept_number rfl rfl
  have related := (kept.mpr (.inr keepable)).client _ unattributed_env
  have sent : last (Json.points "env".toList) (ownPoints three) =
      some (.string (Json.points "prod".toList)) := rfl
  rw [sent] at related
  generalize stored : last (Json.points "env".toList) out = result at related
  cases related with
  | some same => exact ⟨prepared, text, out, _, done, found, read, stored, same⟩

/-- One number beyond the range of a double, and the client's other label is gone. -/
theorem labels_dropped :
    ∃ prepared text out,
      Json.document (ownLabels beyondDouble).text = some (.object (ownPoints beyondDouble)) ∧
      last (Json.points "env".toList) (ownPoints beyondDouble) =
        some (.string (Json.points "prod".toList)) ∧
      Unattributed teamLabel (Json.points "env".toList) ∧
      (labelledBody beyondDouble).get labelsKey = some (ownLabels beyondDouble).text ∧
      prepareBody (SerdeJson.trees keepSmall 127) (labelledBody beyondDouble) "gpt-5".toList
        (some teamLabel) = .ok prepared ∧
      prepared.get labelsKey = some text ∧ Json.document text = some (.object out) ∧
      last (Json.points "env".toList) out = none := by
  have maps := SerdeJson.trees_keepsMaps keepSmall 127
  have refused : (Json.Tree.object (ownPoints beyondDouble)).loadMap keepSmall 127 = none := by
    rfl
  have found : ((labelledBody beyondDouble).set modelKey (Json.quote "gpt-5".toList)).get labelsKey =
      some (ownLabels beyondDouble).text :=
    RawBody.get_set_of_ne _ labelsKey_ne_modelKey _
  have nothing : loadedLabels keepSmall 127
      ((labelledBody beyondDouble).set modelKey (Json.quote "gpt-5".toList)) = [] := by
    rw [loadedLabels, found, Option.bind_some, document_ownLabels, Option.bind_some, refused]
    rfl
  refine ⟨_, _, _, document_ownLabels beyondDouble, rfl, unattributed_env,
    labelledBody_labels beyondDouble, maps.prepareBody_eq _ _ _, RawBody.get_set _ _ _,
    Json.Tree.document_object _, ?_⟩
  rw [last_content_unattributed maps unattributed_env, nothing]
  rfl

end Trees

end Sturnus
