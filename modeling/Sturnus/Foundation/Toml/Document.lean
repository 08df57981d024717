import Sturnus.Foundation.Toml.Lexer

/-!
# TOML documents

Values over any kind of strings, and what it means for a reader of documents to
follow the grammar of basic strings: a string that stands for a value is what it
spells, and nothing else of the document depends on it.
-/

namespace Foundation.Toml

/-- Scalars are whatever else a document can hold. -/
inductive Value (Scalar Str : Type) where
  | string (value : Str)
  | scalar (value : Scalar)
  | array (items : List (Value Scalar Str))
  | table (entries : List (Text × Value Scalar Str))

namespace Value

variable {Scalar Str Middle Result : Type}

mutual

def map (f : Str → Result) : Value Scalar Str → Value Scalar Result
  | .string value => .string (f value)
  | .scalar value => .scalar value
  | .array items => .array (mapItems f items)
  | .table entries => .table (mapEntries f entries)

def mapItems (f : Str → Result) : List (Value Scalar Str) → List (Value Scalar Result)
  | [] => []
  | item :: rest => map f item :: mapItems f rest

def mapEntries (f : Str → Result) :
    List (Text × Value Scalar Str) → List (Text × Value Scalar Result)
  | [] => []
  | (key, value) :: rest => (key, map f value) :: mapEntries f rest

end

mutual

theorem map_map (f : Str → Middle) (g : Middle → Result) :
    ∀ value : Value Scalar Str, (value.map f).map g = value.map fun string => g (f string)
  | .string _ => rfl
  | .scalar _ => rfl
  | .array items => congrArg Value.array (mapItems_mapItems f g items)
  | .table entries => congrArg Value.table (mapEntries_mapEntries f g entries)

theorem mapItems_mapItems (f : Str → Middle) (g : Middle → Result) :
    ∀ items : List (Value Scalar Str),
      mapItems g (mapItems f items) = mapItems (fun string => g (f string)) items
  | [] => rfl
  | item :: rest => congrArg₂ List.cons (map_map f g item) (mapItems_mapItems f g rest)

theorem mapEntries_mapEntries (f : Str → Middle) (g : Middle → Result) :
    ∀ entries : List (Text × Value Scalar Str),
      mapEntries g (mapEntries f entries) = mapEntries (fun string => g (f string)) entries
  | [] => rfl
  | (key, value) :: rest =>
      congrArg₂ List.cons (congrArg (key, ·) (map_map f g value)) (mapEntries_mapEntries f g rest)

end

end Value

section Tokens

variable {Hole Str Result : Type}

/-- A text has no holes. -/
def lexText (text : Text) : Option (List (Token Text)) :=
  (lex (Template.ofText text : Template Empty)).map
    (List.map (Token.map (Template.fill Empty.elim)))

/-- The document without what its strings say. -/
def skeleton (tokens : List (Token Str)) : List (Token Unit) :=
  tokens.map (Token.map fun _ => ())

def Token.string? : Token Str → Option Str
  | .char _ => none
  | .string value => some value

def strings (tokens : List (Token Str)) : List Str := tokens.filterMap Token.string?

/-- A quoted key is copied, its value is decoded, and the comment is dropped. -/
example : lexText "\"k\"=\"\\u0041b\" # \"".toList =
    some [.char '"', .char 'k', .char '"', .char '=', .string "Ab".toList, .char ' '] := by
  decide +kernel

end Tokens

/-- A string that is copied from the document, or the basic string with this number. -/
inductive Slot where
  | given (text : Text)
  | nth (i : ℕ)

def Slot.text (strings : List Text) : Slot → Text
  | .given text => text
  | .nth i => strings.getD i []

def Slot.template {Hole : Type} (strings : List (Template Hole)) : Slot → Template Hole
  | .given text => .ofText text
  | .nth i => strings.getD i []

section Readers

variable {Hole Scalar Error : Type}

/-- A document with a lexing says what its skeleton says, with each basic string in its slot. -/
def Compositional (read : Text → Except Error (Value Scalar Text)) : Prop :=
  ∃ document : List (Token Unit) → Option (Value Scalar Slot), ∀ text tokens,
    lexText text = some tokens →
    (read text).toOption = (document (skeleton tokens)).map (Value.map (Slot.text (strings tokens)))

end Readers

end Foundation.Toml
