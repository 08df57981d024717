import Sturnus.Foundation.Json.String

/-!
# Layouts of JSON objects

`ObjectText` relates the text of a top-level object to its members: the decoded
keys and the exact slices of the values, in order, whatever whitespace stands
between the parts.  Which texts are values is a parameter.  `compact` writes an
object without whitespace, and its text is a layout of the same members.
-/

namespace Foundation.Json

def isBlank (c : Char) : Bool := c == ' ' || c == '\n' || c == '\t' || c == '\r'

def Blank (text : Text) : Prop := ∀ c ∈ text, isBlank c = true

/-- A member with the whitespace around its parts. -/
structure Member (IsValue : Text → Prop) where
  beforeKey : Text
  token : Text
  key : Text
  afterKey : Text
  beforeValue : Text
  value : Text
  afterValue : Text
  decodes : Token token key
  isValue : IsValue value
  blankBeforeKey : Blank beforeKey
  blankAfterKey : Blank afterKey
  blankBeforeValue : Blank beforeValue
  blankAfterValue : Blank afterValue

namespace Member

variable {IsValue : Text → Prop}

def text (member : Member IsValue) : Text :=
  member.beforeKey ++ (member.token ++ (member.afterKey ++
    ':' :: (member.beforeValue ++ (member.value ++ member.afterValue))))

def field (member : Member IsValue) : Text × Text := (member.key, member.value)

end Member

/-- Further members, the closing brace and what follows it. -/
def tailText {IsValue : Text → Prop} (trail : Text) : List (Member IsValue) → Text
  | [] => '}' :: trail
  | member :: rest => ',' :: (member.text ++ tailText trail rest)

inductive ObjectText (IsValue : Text → Prop) : Text → List (Text × Text) → Prop where
  | empty {lead inner trail : Text} : Blank lead → Blank inner → Blank trail →
      ObjectText IsValue (lead ++ '{' :: (inner ++ '}' :: trail)) []
  | members {lead trail : Text} (first : Member IsValue) (others : List (Member IsValue)) :
      Blank lead → Blank trail →
      ObjectText IsValue (lead ++ '{' :: (first.text ++ tailText trail others))
        (first.field :: others.map Member.field)

theorem ObjectText.isValue {IsValue : Text → Prop} {text : Text} {fields : List (Text × Text)}
    (layout : ObjectText IsValue text fields) : ∀ field ∈ fields, IsValue field.2 := by
  cases layout with
  | empty => simp
  | members first others _ _ =>
      intro field inside
      rw [← List.map_cons, List.mem_map] at inside
      obtain ⟨member, -, rfl⟩ := inside
      exact member.isValue

section Compact

def compactMember (field : Text × Text) : Text := quote field.1 ++ ':' :: field.2

def compactTail : List (Text × Text) → Text
  | [] => ['}']
  | field :: rest => ',' :: (compactMember field ++ compactTail rest)

/-- An object without whitespace: escaped keys, and the values as they are. -/
def compact : List (Text × Text) → Text
  | [] => ['{', '}']
  | field :: rest => '{' :: (compactMember field ++ compactTail rest)

variable {IsValue : Text → Prop}

theorem blank_nil : Blank [] := by simp [Blank]

def Member.ofField (field : Text × Text) (isValue : IsValue field.2) : Member IsValue where
  beforeKey := []
  token := quote field.1
  key := field.1
  afterKey := []
  beforeValue := []
  value := field.2
  afterValue := []
  decodes := token_quote field.1
  isValue := isValue
  blankBeforeKey := blank_nil
  blankAfterKey := blank_nil
  blankBeforeValue := blank_nil
  blankAfterValue := blank_nil

theorem Member.text_ofField (field : Text × Text) (isValue : IsValue field.2) :
    (Member.ofField field isValue).text = compactMember field := by
  simp [Member.text, Member.ofField, compactMember]

theorem exists_tail {fields : List (Text × Text)} (values : ∀ field ∈ fields, IsValue field.2) :
    ∃ others : List (Member IsValue),
      others.map Member.field = fields ∧ tailText [] others = compactTail fields := by
  induction fields with
  | nil => exact ⟨[], rfl, rfl⟩
  | cons field rest inductionHypothesis =>
      obtain ⟨isValue, restValues⟩ := List.forall_mem_cons.mp values
      obtain ⟨others, same, text⟩ := inductionHypothesis restValues
      refine ⟨.ofField field isValue :: others, ?_, ?_⟩
      · simp only [List.map_cons, same]
        rfl
      · simp only [tailText, compactTail, Member.text_ofField, text]

/-- Reading back what `compact` wrote gives the same members. -/
theorem objectText_compact {fields : List (Text × Text)}
    (values : ∀ field ∈ fields, IsValue field.2) : ObjectText IsValue (compact fields) fields := by
  cases fields with
  | nil => exact .empty blank_nil blank_nil blank_nil
  | cons field rest =>
      obtain ⟨isValue, restValues⟩ := List.forall_mem_cons.mp values
      obtain ⟨others, same, text⟩ := exists_tail restValues
      have layout := ObjectText.members (.ofField field isValue) others blank_nil blank_nil
      rw [Member.text_ofField, text, same] at layout
      exact layout

end Compact

end Foundation.Json
