import Sturnus.Foundation.Http
import Sturnus.Foundation.Result
import Sturnus.Foundation.Toml.Document
import Sturnus.Foundation.Upsert

/-!
# Deserializing values

How derived deserializers read strings, scalars, lists, maps and structs off a
value.  A reader respects strings when values that differ in their strings only
give it results that differ in these strings only.
-/

namespace Foundation.Toml

variable {Scalar Alpha : Type}

namespace Value

mutual

/-- The same shape, keys and scalars, with related strings. -/
inductive Varies (Relates : Text → Text → Prop) : Value Scalar Text → Value Scalar Text → Prop where
  | string {left right : Text} : Relates left right → Varies Relates (.string left) (.string right)
  | scalar (value : Scalar) : Varies Relates (.scalar value) (.scalar value)
  | array {left right : List (Value Scalar Text)} :
      List.Forall₂ (Varies Relates) left right → Varies Relates (.array left) (.array right)
  | table {left right : List (Text × Value Scalar Text)} :
      List.Forall₂ (EntryVaries Relates) left right → Varies Relates (.table left) (.table right)

inductive EntryVaries (Relates : Text → Text → Prop) :
    Text × Value Scalar Text → Text × Value Scalar Text → Prop where
  | mk (key : Text) {left right : Value Scalar Text} :
      Varies Relates left right → EntryVaries Relates (key, left) (key, right)

end

section Maps

variable {Str : Type} {Relates : Text → Text → Prop} {f g : Str → Text}

mutual

theorem varies_map (related : ∀ string, Relates (f string) (g string)) :
    ∀ value : Value Scalar Str, Varies Relates (value.map f) (value.map g)
  | .string value => .string (related value)
  | .scalar value => .scalar value
  | .array items => .array (varies_mapItems related items)
  | .table entries => .table (varies_mapEntries related entries)

theorem varies_mapItems (related : ∀ string, Relates (f string) (g string)) :
    ∀ items : List (Value Scalar Str),
      List.Forall₂ (Varies Relates) (mapItems f items) (mapItems g items)
  | [] => .nil
  | item :: rest => .cons (varies_map related item) (varies_mapItems related rest)

theorem varies_mapEntries (related : ∀ string, Relates (f string) (g string)) :
    ∀ entries : List (Text × Value Scalar Str),
      List.Forall₂ (EntryVaries Relates) (mapEntries f entries) (mapEntries g entries)
  | [] => .nil
  | (key, value) :: rest =>
      .cons (.mk key (varies_map related value)) (varies_mapEntries related rest)

end

end Maps

end Value

section Readers

def text : Value Scalar Text → Option Text
  | .string value => some value
  | _ => none

def scalar (read : Scalar → Option Alpha) : Value Scalar Text → Option Alpha
  | .scalar value => read value
  | _ => none

def list (read : Value Scalar Text → Option Alpha) : Value Scalar Text → Option (List Alpha)
  | .array items => items.mapM read
  | _ => none

def insertEntry (read : Value Scalar Text → Option Alpha) (map : HashMap Text Alpha)
    (entry : Text × Value Scalar Text) : Option (HashMap Text Alpha) :=
  (read entry.2).map fun value => map.insert entry.1 value

def hashMap (read : Value Scalar Text → Option Alpha) :
    Value Scalar Text → Option (HashMap Text Alpha)
  | .table entries => entries.foldlM (insertEntry read) ∅
  | _ => none

/-- A struct is a table with its fields, or an array with them in order. -/
structure Fields (Scalar : Type) where
  find : String → Option (Value Scalar Text)
  named : Bool

def fields (names : List String) : Value Scalar Text → Option (Fields Scalar)
  | .table entries => some ⟨fun name => entries.lookup name.toList, true⟩
  | .array items => some ⟨fun name => items[names.idxOf name]?, false⟩
  | _ => none

def Fields.required (fields : Fields Scalar) (name : String)
    (read : Value Scalar Text → Option Alpha) : Option Alpha :=
  (fields.find name).bind read

/-- A field with a default. -/
def Fields.getD (fields : Fields Scalar) (name : String) (default : Alpha)
    (read : Value Scalar Text → Option Alpha) : Option Alpha :=
  match fields.find name with
  | some value => read value
  | none => some default

/-- An optional field without a default: only a table can leave it out. -/
def Fields.optional (fields : Fields Scalar) (name : String)
    (read : Value Scalar Text → Option Alpha) : Option (Option Alpha) :=
  match fields.find name with
  | some value => (read value).map some
  | none => if fields.named then some none else none

end Readers

section Respects

variable {Relates : Text → Text → Prop} {left right : Value Scalar Text}

/-- The same key with related values. -/
def KeyVaries (Result : Alpha → Alpha → Prop) (entry other : Sigma fun _ : Text => Alpha) :
    Prop :=
  entry.1 = other.1 ∧ Result entry.2 other.2

/-- The same keys in the same order, with related values. -/
def MapVaries (Result : Alpha → Alpha → Prop) (left right : HashMap Text Alpha) : Prop :=
  List.Forall₂ (KeyVaries Result) left.entries right.entries

def Respects (Relates : Text → Text → Prop) (read : Value Scalar Text → Option Alpha)
    (Result : Alpha → Alpha → Prop) : Prop :=
  ∀ left right, Value.Varies Relates left right → Option.Rel Result (read left) (read right)

theorem respects_text : Respects Relates (text : Value Scalar Text → Option Text) Relates := by
  intro left right varies
  cases varies with
  | string related => exact .some related
  | _ => exact .none

theorem respects_scalar (read : Scalar → Option Alpha) : Respects Relates (scalar read) Eq := by
  intro left right varies
  cases varies with
  | scalar value =>
      simp only [scalar]
      cases read value with
      | none => exact .none
      | some result => exact .some rfl
  | _ => exact .none

variable {read : Value Scalar Text → Option Alpha} {Result : Alpha → Alpha → Prop}

theorem Respects.some (respects : Respects Relates read Result) :
    Respects Relates (fun value => (read value).map Option.some) (Option.Rel Result) :=
  fun left right varies => rel_map (respects left right varies) fun _ _ => Option.Rel.some

theorem Respects.list (respects : Respects Relates read Result) :
    Respects Relates (list read) (List.Forall₂ Result) := by
  intro left right varies
  cases varies with
  | array items =>
      simp only [Toml.list]
      induction items with
      | nil => exact .some .nil
      | cons item _ inductionHypothesis =>
          simp only [List.mapM_cons]
          apply rel_bind (respects _ _ item)
          intro value other first
          apply rel_bind inductionHypothesis
          intro values others rest
          exact .some (.cons first rest)
  | _ => exact .none

theorem mapVaries_empty : MapVaries Result ∅ ∅ := .nil

theorem forall₂_kerase {entries others : List (Sigma fun _ : Text => Alpha)}
    (varies : List.Forall₂ (KeyVaries Result) entries others) (key : Text) :
    List.Forall₂ (KeyVaries Result) (entries.kerase key) (others.kerase key) := by
  induction varies with
  | nil => exact .nil
  | @cons entry other rest images both tail inductionHypothesis =>
      by_cases here : key = entry.1
      · simpa only [List.kerase_cons_eq here, List.kerase_cons_eq (here.trans both.1)] using tail
      · have there : key ≠ other.1 := fun same => here (same.trans both.1.symm)
        simpa only [List.kerase_cons_ne here, List.kerase_cons_ne there] using
          List.Forall₂.cons both inductionHypothesis

theorem mapVaries_insert {map other : HashMap Text Alpha} (varies : MapVaries Result map other)
    (key : Text) {value image : Alpha} (related : Result value image) :
    MapVaries Result (map.insert key value) (other.insert key image) :=
  .cons ⟨rfl, related⟩ (forall₂_kerase varies key)

theorem Respects.hashMap (respects : Respects Relates read Result) :
    Respects Relates (hashMap read) (MapVaries Result) := by
  intro left right varies
  cases varies with
  | @table entries images related =>
      simp only [Toml.hashMap]
      suffices inserted : ∀ map other, MapVaries Result map other →
          Option.Rel (MapVaries Result) (entries.foldlM (insertEntry read) map)
            (images.foldlM (insertEntry read) other) from inserted ∅ ∅ mapVaries_empty
      induction related with
      | nil => exact fun map other varies => .some varies
      | cons both _ inductionHypothesis =>
          cases both with
          | mk key varies =>
              intro map other maps
              simp only [List.foldlM_cons]
              refine rel_bind (rel_map (respects _ _ varies) ?_) inductionHypothesis
              exact fun value image related => mapVaries_insert maps key related
  | _ => exact .none

def Fields.Varies (Relates : Text → Text → Prop) (left right : Fields Scalar) : Prop :=
  left.named = right.named ∧
    ∀ name, Option.Rel (Value.Varies Relates) (left.find name) (right.find name)

theorem fields_varies (names : List String) (varies : Value.Varies Relates left right) :
    Option.Rel (Fields.Varies Relates) (fields names left) (fields names right) := by
  cases varies with
  | array items => exact .some ⟨rfl, fun name => rel_getElem? items _⟩
  | table entries =>
      refine .some ⟨rfl, fun name => rel_lookup (entries.imp ?_) name.toList⟩
      rintro _ _ ⟨key, varies⟩
      exact ⟨rfl, varies⟩
  | _ => exact .none

namespace Fields.Varies

variable {fields others : Fields Scalar}

theorem required (varies : Fields.Varies Relates fields others)
    (respects : Respects Relates read Result) (name : String) :
    Option.Rel Result (fields.required name read) (others.required name read) :=
  rel_bind (varies.2 name) respects

theorem getD (varies : Fields.Varies Relates fields others)
    (respects : Respects Relates read Result) (name : String) {default : Alpha}
    (itself : Result default default) :
    Option.Rel Result (fields.getD name default read) (others.getD name default read) := by
  have found := varies.2 name
  unfold Fields.getD
  generalize fields.find name = value, others.find name = other at found
  cases found with
  | none => exact .some itself
  | some both => exact respects _ _ both

theorem optional (varies : Fields.Varies Relates fields others)
    (respects : Respects Relates read Result) (name : String) :
    Option.Rel (Option.Rel Result) (fields.optional name read) (others.optional name read) := by
  have found := varies.2 name
  unfold Fields.optional
  generalize fields.find name = value, others.find name = other at found
  cases found with
  | none =>
      simp only [varies.1]
      split
      · exact .some .none
      · exact .none
  | some both => exact respects.some _ _ both

end Fields.Varies

end Respects

end Foundation.Toml
