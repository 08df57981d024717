import Mathlib.Data.List.Infix
import Sturnus.Foundation.Text

/-!
# Interpolation

A template is a text with holes.  `scan` finds the references to variables in a
text, `spell` writes a template down, and filling puts a text into each hole,
once and as it is.
-/

namespace Foundation

/-- A character, or a hole for a text. -/
inductive Symbol (Hole : Type) where
  | char (c : Char)
  | ref (hole : Hole)
  deriving DecidableEq

abbrev Template (Hole : Type) := List (Symbol Hole)

namespace Template

variable {Hole Other : Type}

def ofText (text : Text) : Template Hole := text.map .char

/-- The text that stands for one symbol. -/
def fillSymbol (value : Hole → Text) : Symbol Hole → Text
  | .char c => [c]
  | .ref hole => value hole

def fill (value : Hole → Text) (template : Template Hole) : Text :=
  template.flatMap (fillSymbol value)

def hole? : Symbol Hole → Option Hole
  | .char _ => none
  | .ref hole => some hole

def holes (template : Template Hole) : List Hole := template.filterMap hole?

@[simp] theorem fill_append (value : Hole → Text) (left right : Template Hole) :
    fill value (left ++ right) = fill value left ++ fill value right := List.flatMap_append

theorem fill_congr {value other : Hole → Text} {template : Template Hole}
    (same : ∀ hole ∈ template.holes, value hole = other hole) :
    fill value template = fill other template := by
  apply List.flatMap_congr
  intro symbol member
  cases symbol with
  | char c => rfl
  | ref hole => exact same hole (List.mem_filterMap.mpr ⟨_, member, rfl⟩)

@[simp] theorem ofText_append (left right : Text) :
    (ofText (left ++ right) : Template Hole) = ofText left ++ ofText right := List.map_append

end Template

/-- A name that can stand between braces: `:-` would start a default value. -/
structure VarName where
  text : Text
  nonempty : text ≠ []
  closed : '}' ∉ text
  bare : ¬ ":-".toList <:+: text
  deriving DecidableEq

namespace VarName

def tryFrom (text : Text) : Option VarName :=
  if legal : text ≠ [] ∧ '}' ∉ text ∧ ¬ ":-".toList <:+: text then
    some ⟨text, legal.1, legal.2.1, legal.2.2⟩
  else none

@[simp] theorem tryFrom_text (name : VarName) : tryFrom name.text = some name :=
  dif_pos ⟨name.nonempty, name.closed, name.bare⟩

end VarName

namespace Interpolation

/-- Where a scan stands in the text. -/
inductive Reading where
  | plain
  | dollar
  | braced (name : Text)
  | named (name : Text)

def isIdentifier (c : Char) : Bool := c.isAlphanum || c == '_'

/-- What is left of the template, given where the scan stands. -/
def scanFrom : Reading → Text → Option (Template VarName)
  | .plain, [] => some []
  | .plain, c :: rest =>
      if c = '$' then scanFrom .dollar rest else (scanFrom .plain rest).map (.char c :: ·)
  | .dollar, [] => some [.char '$']
  | .dollar, c :: rest =>
      -- A doubled `$` is one that refers to nothing.
      if c = '$' then (scanFrom .plain rest).map (.char '$' :: ·)
      else if c = '{' then scanFrom (.braced []) rest
      else if isIdentifier c then scanFrom (.named [c]) rest
      else if c.toNat < 128 then (scanFrom .plain rest).map (.char '$' :: .char c :: ·)
      else none
  | .braced _, [] => none
  | .braced name, c :: rest =>
      if c = '}' then
        (VarName.tryFrom name).bind fun found => (scanFrom .plain rest).map (.ref found :: ·)
      else scanFrom (.braced (name ++ [c])) rest
  | .named name, [] => (VarName.tryFrom name).map ([.ref ·])
  | .named name, c :: rest =>
      if isIdentifier c then scanFrom (.named (name ++ [c])) rest
      else if 128 ≤ c.toNat then none
      else
        (VarName.tryFrom name).bind fun found =>
          if c = '$' then (scanFrom .dollar rest).map (.ref found :: ·)
          else (scanFrom .plain rest).map (.ref found :: .char c :: ·)

/-- The template that a text writes with `$NAME` and `${NAME}`. -/
def scan (text : Text) : Option (Template VarName) := scanFrom .plain text

/-- The variables of a process. -/
abbrev Environment := Text → Option Text

def Environment.value (environment : Environment) (name : VarName) : Text :=
  (environment name.text).getD []

/-- An expander puts the values of variables that are set into a text, once and as they are. -/
def Substitutes (expand : Environment → Text → Except Text Text) : Prop :=
  ∀ (environment : Environment) (raw : Text) (template : Template VarName),
    scan raw = some template →
    (∀ name ∈ template.holes, (environment name.text).isSome = true) →
    expand environment raw = .ok (template.fill environment.value)

/-- Only the variables that a text refers to have a say in what it expands to. -/
theorem Substitutes.congr {expand : Environment → Text → Except Text Text}
    (substitutes : Substitutes expand) {raw : Text} {template : Template VarName}
    (scanned : scan raw = some template) {environment other : Environment}
    (same : ∀ name ∈ template.holes, ∃ value, environment name.text = some value ∧
      other name.text = some value) :
    expand environment raw = expand other raw := by
  have allSet : ∀ name ∈ template.holes, (environment name.text).isSome = true := by
    intro name member
    obtain ⟨value, found, -⟩ := same name member
    exact Option.isSome_of_eq_some found
  have allSetOther : ∀ name ∈ template.holes, (other name.text).isSome = true := by
    intro name member
    obtain ⟨value, -, found⟩ := same name member
    exact Option.isSome_of_eq_some found
  have filled : template.fill environment.value = template.fill other.value := by
    apply Template.fill_congr
    intro name member
    obtain ⟨value, found, foundOther⟩ := same name member
    rw [Environment.value, Environment.value, found, foundOther]
  rw [substitutes environment raw template scanned allSet,
    substitutes other raw template scanned allSetOther, filled]

/-- Expansion of the texts that `scan` reads. -/
def expand (environment : Environment) (raw : Text) : Except Text Text :=
  match scan raw with
  | none => .error "unsupported reference".toList
  | some template =>
      if ∀ name ∈ template.holes, (environment name.text).isSome = true then
        .ok (template.fill environment.value)
      else .error "environment variable not found".toList

theorem substitutes_expand : Substitutes expand := by
  intro environment raw template scanned allSet
  simp only [expand, scanned, if_pos allSet]

end Interpolation

end Foundation
