import Sturnus.Foundation.Http
import Sturnus.Foundation.Result
import Sturnus.Foundation.Upsert

/-!
# The request body

Only the top-level keys of a request body are materialized; its values stay the
slices of the input they were.  The JSON library is a parameter.
-/

namespace Sturnus

open Foundation

/-- Why a body is not read: it is not an object (category `Data`), or not valid JSON. -/
inductive ReadError where
  | data
  | other (message : Text)
  deriving DecidableEq

/-- The part of the JSON library used on bodies.  `Map` is its type of objects. -/
structure SerdeJson (Map : Type) where
  /-- The members of a top-level object: decoded keys and the slices of their values. -/
  readObject : List UInt8 → Except ReadError (List (Text × Text))
  /-- `from_str::<String>` and its siblings on the slice of a value. -/
  parseString : Text → Option Text
  parseBool : Text → Option Bool
  parseMap : Text → Option Map
  emptyMap : Map
  /-- `Map::insert` with a `Value::String`. -/
  insertString : Map → Text → Text → Map
  /-- `to_raw_value` of a string and of a map. -/
  rawString : Text → Except Text Text
  rawMap : Map → Except Text Text
  /-- `to_vec` of an object given by its keys and raw values. -/
  writeObject : List (Text × Text) → Except Text (List UInt8)

/-- The fields of a body, each key once. -/
structure RawBody where
  fields : List (Text × Text)
  distinct : (fields.map Prod.fst).Nodup

namespace RawBody

variable {Map : Type}

def get (body : RawBody) (key : Text) : Option Text := body.fields.lookup key

/-- Parse one field (none if absent or mismatched). -/
def getAs {Alpha : Type} (parse : Text → Option Alpha) (body : RawBody) (key : Text) :
    Option Alpha :=
  (body.get key).bind parse

/-- Insert or replace a field, keeping its original position. -/
def set (body : RawBody) (key value : Text) : RawBody where
  fields := upsert key value body.fields
  distinct := nodup_upsert body.distinct key value

/-- The loop of `visit_map`: a repeated key overwrites in place. -/
def ofMembers (members : List (Text × Text)) : RawBody where
  fields := collapse members
  distinct := nodup_collapse members

def deserialize (json : SerdeJson Map) (bytes : List UInt8) : Except ReadError RawBody :=
  (json.readObject bytes).map ofMembers

def serialize (json : SerdeJson Map) (body : RawBody) : Except Text (List UInt8) :=
  json.writeObject body.fields

theorem deserialize_eq_ok {json : SerdeJson Map} {bytes : List UInt8} {body : RawBody}
    (parsed : deserialize json bytes = .ok body) :
    ∃ members, json.readObject bytes = .ok members ∧ body = ofMembers members := by
  obtain ⟨members, read, same⟩ := exists_of_map_eq_ok parsed
  exact ⟨members, read, same.symm⟩

theorem get_set (body : RawBody) (key value : Text) :
    (body.set key value).get key = some value := by
  have written := lookup_upsert key key value body.fields
  rwa [if_pos (beq_self_eq_true key)] at written

theorem get_set_of_ne (body : RawBody) {key other : Text} (different : other ≠ key)
    (value : Text) : (body.set key value).get other = body.get other := by
  have kept := lookup_upsert key other value body.fields
  rwa [if_neg (by simpa using different)] at kept

/-- A field of a body read from `members` is the last member of that key. -/
theorem get_ofMembers (members : List (Text × Text)) (key : Text) :
    (ofMembers members).get key = members.reverse.lookup key :=
  lookup_collapse members key

end RawBody

end Sturnus
