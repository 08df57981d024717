import Sturnus.Foundation.Json.Reader
import Sturnus.Proxy.Outbound

/-!
# What the rewritten body says

Reading the bytes of `prepareOutbound` back gives the members of the client's
body, each key once with its last value, and the model of the candidate.
-/

namespace Sturnus

open Foundation

variable {Map : Type}

/-- What is assumed of the JSON library, for its own notion of a value. -/
structure SerdeJson.Lawful (json : SerdeJson Map) (IsValue : Text → Prop) : Prop where
  readObject : ∀ bytes members, json.readObject bytes = .ok members ↔
    ∃ text : Text, bytes = text.bytes ∧ Json.ObjectText IsValue text members
  writeObject : ∀ fields, (∀ field ∈ fields, IsValue field.2) →
    json.writeObject fields = .ok (Json.compact fields).bytes
  rawString : ∀ text, json.rawString text = .ok (Json.quote text)
  parseString : ∀ token text, Json.Token token text → json.parseString token = some text
  isValue : ∀ token text, Json.Token token text → IsValue token

/-- The fields of a body read from `members` after the model was replaced. -/
def rewritten (realModel : Text) (members : List (Text × Text)) : List (Text × Text) :=
  upsert modelKey (Json.quote realModel) (collapse members)

section Rewritten

variable (realModel : Text) (members : List (Text × Text))

theorem keys_rewritten :
    (rewritten realModel members).map Prod.fst = (members.map Prod.fst).eraseDups ++
      if modelKey ∈ members.map Prod.fst then [] else [modelKey] := by
  have known : modelKey ∈ (members.map Prod.fst).eraseDups ↔ modelKey ∈ members.map Prod.fst :=
    List.mem_eraseDups
  unfold rewritten
  rw [keys_upsert, keys_collapse]
  simp only [known]
  split
  · exact (List.append_nil _).symm
  · rfl

theorem nodup_rewritten : ((rewritten realModel members).map Prod.fst).Nodup :=
  nodup_upsert (nodup_collapse members) _ _

theorem lookup_rewritten_model :
    (rewritten realModel members).lookup modelKey = some (Json.quote realModel) :=
  RawBody.get_set (RawBody.ofMembers members) modelKey _

theorem lookup_rewritten {key : Text} (other : key ≠ modelKey) :
    (rewritten realModel members).lookup key = members.reverse.lookup key :=
  (RawBody.get_set_of_ne (RawBody.ofMembers members) other _).trans
    (RawBody.get_ofMembers members key)

/-- Rewriting what was rewritten changes nothing. -/
theorem rewritten_rewritten :
    rewritten realModel (rewritten realModel members) = rewritten realModel members := by
  have kept : collapse (rewritten realModel members) = rewritten realModel members :=
    collapse_of_nodup (nodup_rewritten realModel members)
  change upsert modelKey (Json.quote realModel) (collapse (rewritten realModel members)) = _
  rw [kept]
  exact upsert_eq_self (lookup_rewritten_model realModel members)

end Rewritten

section Lawful

variable {json : SerdeJson Map} {IsValue : Text → Prop} {members : List (Text × Text)}

theorem SerdeJson.Lawful.values (lawful : json.Lawful IsValue) {bytes : List UInt8}
    (read : json.readObject bytes = .ok members) : ∀ member ∈ members, IsValue member.2 := by
  obtain ⟨text, -, layout⟩ := (lawful.readObject bytes members).mp read
  exact layout.isValue

theorem SerdeJson.Lawful.values_rewritten (lawful : json.Lawful IsValue)
    (values : ∀ member ∈ members, IsValue member.2) (realModel : Text) :
    ∀ field ∈ rewritten realModel members, IsValue field.2 := by
  apply forall_upsert
  · exact lawful.isValue _ _ (Json.token_quote realModel)
  · exact forall_collapse values

theorem SerdeJson.Lawful.prepareOutbound_ofMembers (lawful : json.Lawful IsValue)
    (values : ∀ member ∈ members, IsValue member.2) (realModel : Text) (permit : Option Permit) :
    prepareOutbound json (.ofMembers members) realModel none permit =
      .ok ⟨some (Json.compact (rewritten realModel members)).bytes, permit⟩ := by
  have written := lawful.writeObject _ (lawful.values_rewritten values realModel)
  unfold prepareOutbound prepareBody
  simp only [lawful.rawString, bind, Except.bind, pure, Except.pure, RawBody.serialize]
  have fields : ((RawBody.ofMembers members).set modelKey (Json.quote realModel)).fields =
      rewritten realModel members := rfl
  rw [fields, written]

/-- Reading back what was written. -/
theorem SerdeJson.Lawful.readObject_compact (lawful : json.Lawful IsValue)
    (values : ∀ member ∈ members, IsValue member.2) :
    json.readObject (Json.compact members).bytes = .ok members :=
  (lawful.readObject _ _).mpr ⟨_, rfl, Json.objectText_compact values⟩

end Lawful

/-- Reading the outbound bytes back: every key once, in the order of first occurrence and
the model key last when it is new; the model decodes to the candidate's; every other
value is the last one of its key; and rewriting again gives the same bytes. -/
theorem prepareOutbound_rewrites {json : SerdeJson Map} {IsValue : Text → Prop}
    (lawful : json.Lawful IsValue) {input : List UInt8} {body : RawBody}
    (parsed : RawBody.deserialize json input = .ok body) (realModel : Text)
    (permit : Option Permit) :
    ∃ members bytes output,
      json.readObject input = .ok members ∧
      prepareOutbound json body realModel none permit = .ok ⟨some bytes, permit⟩ ∧
      json.readObject bytes = .ok output ∧
      (output.map Prod.fst).Nodup ∧
      output.map Prod.fst = (members.map Prod.fst).eraseDups ++
        (if modelKey ∈ members.map Prod.fst then [] else [modelKey]) ∧
      (∃ raw, output.lookup modelKey = some raw ∧ json.parseString raw = some realModel) ∧
      (∀ key, key ≠ modelKey → output.lookup key = members.reverse.lookup key) ∧
      ∃ again, RawBody.deserialize json bytes = .ok again ∧
        prepareOutbound json again realModel none permit = .ok ⟨some bytes, permit⟩ := by
  obtain ⟨members, read, rfl⟩ := RawBody.deserialize_eq_ok parsed
  have values := lawful.values read
  have outputValues := lawful.values_rewritten values realModel
  have readAgain := lawful.readObject_compact outputValues
  refine ⟨members, _, rewritten realModel members, read,
    lawful.prepareOutbound_ofMembers values realModel permit, readAgain,
    nodup_rewritten realModel members, keys_rewritten realModel members, ?_, ?_, ?_⟩
  · exact ⟨_, lookup_rewritten_model realModel members,
      lawful.parseString _ _ (Json.token_quote realModel)⟩
  · intro key other
    exact lookup_rewritten realModel members other
  · refine ⟨.ofMembers (rewritten realModel members), ?_, ?_⟩
    · unfold RawBody.deserialize
      rw [readAgain]
      rfl
    · rw [lawful.prepareOutbound_ofMembers outputValues, rewritten_rewritten]

section Flat

/-- A library for objects whose values are strings, numbers and names. -/
def SerdeJson.flat : SerdeJson (List (Text × Text)) where
  readObject bytes := okOr ((Text.ofBytes bytes).bind Json.readObject) (.other [])
  parseString token := (Json.scanToken token).bind fun result =>
    if result.2 = [] then some result.1 else none
  parseBool token :=
    if token = "true".toList then some true
    else if token = "false".toList then some false
    else none
  parseMap := Json.readObject
  emptyMap := []
  insertString map key value := upsert key (Json.quote value) map
  rawString text := .ok (Json.quote text)
  rawMap map := .ok (Json.compact map)
  writeObject fields := .ok (Json.compact fields).bytes

theorem SerdeJson.flat_lawful : SerdeJson.flat.Lawful Json.FlatValue where
  readObject bytes members := by
    simp only [flat, okOr_eq_ok, Option.bind_eq_some_iff, Text.ofBytes_eq_some,
      Json.readObject_iff]
  writeObject _ _ := rfl
  rawString _ := rfl
  parseString token text decodes := by
    have scanned : Json.scanToken token = some (text, []) := decodes
    simp [flat, scanned]
  isValue _ _ decodes := .inl ⟨_, decodes⟩

/-- The model key is spelled in two ways, and both keys occur twice. -/
def repeatedBody : Text :=
  "\x7b\"mod\\u0065l\": \"fast\", \"n\":1, \"model\":\"x\" , \"n\" : 2\x7d".toList

/-- Its members, in the order and with the repetitions of the text. -/
def repeatedMembers : List (Text × Text) :=
  [("model".toList, "\"fast\"".toList), ("n".toList, "1".toList),
    ("model".toList, "\"x\"".toList), ("n".toList, "2".toList)]

theorem deserialize_repeatedBody :
    SerdeJson.flat.readObject repeatedBody.bytes = .ok repeatedMembers ∧
      RawBody.deserialize SerdeJson.flat repeatedBody.bytes =
        .ok (.ofMembers repeatedMembers) := by
  have read : SerdeJson.flat.readObject repeatedBody.bytes = .ok repeatedMembers := by
    apply (SerdeJson.flat_lawful.readObject _ _).mpr
    refine ⟨repeatedBody, rfl, (Json.readObject_iff _ _).mp ?_⟩
    decide +kernel
  refine ⟨read, ?_⟩
  rw [RawBody.deserialize, read]
  rfl

theorem prepareOutbound_rewrites_repeated :
    ∃ body bytes output, RawBody.deserialize SerdeJson.flat repeatedBody.bytes = .ok body ∧
      prepareOutbound SerdeJson.flat body "gpt-5".toList none none = .ok ⟨some bytes, none⟩ ∧
      SerdeJson.flat.readObject bytes = .ok output ∧
      output.map Prod.fst = ["model".toList, "n".toList] ∧
      output.lookup "n".toList = some "2".toList := by
  obtain ⟨read, parsed⟩ := deserialize_repeatedBody
  obtain ⟨members, bytes, output, readAgain, prepared, readBack, -, keys, -, values, -⟩ :=
    prepareOutbound_rewrites SerdeJson.flat_lawful parsed "gpt-5".toList none
  obtain rfl := Except.ok.inj (read.symm.trans readAgain)
  refine ⟨_, bytes, output, parsed, prepared, readBack, ?_, ?_⟩
  · rw [keys]
    decide +kernel
  · rw [values _ (by decide)]
    rfl

end Flat

end Sturnus
