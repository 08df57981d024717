import Mathlib.Algebra.Order.Field.Rat
import Mathlib.Data.List.Sort
import Sturnus.Foundation.Json.Reader
import Sturnus.Foundation.Result
import Sturnus.Foundation.Upsert

/-!
# JSON values

A tree keeps everything a document says: numbers as they are written, strings
as code points, among which there may be surrogates without a partner, and the
entries of objects in order.  Two trees say the same if they show the same at
every path, where numbers are compared by value and the last entry of a key
counts.

`load` is what a library keeps that has texts for strings, sorted maps for
objects, numbers of its own and a limit to the nesting.
-/

namespace Foundation.Json

section Numbers

/-- A number as it is written. -/
structure Decimal where
  negative : Bool
  whole : Text
  fraction : Text
  exponent : ℤ

def natOf (digits : Text) : ℕ := digits.foldl (fun n c => n * 10 + (c.toNat - 48)) 0

def Decimal.value (decimal : Decimal) : ℚ :=
  (if decimal.negative then -1 else 1) * natOf (decimal.whole ++ decimal.fraction) *
    10 ^ (decimal.exponent - decimal.fraction.length)

def readDigits (text : Text) : Option ℕ :=
  if text ≠ [] ∧ text.all Char.isDigit = true then some (natOf text) else none

def readExponent : Text → Option ℤ
  | [] => some 0
  | c :: rest =>
      if c = 'e' ∨ c = 'E' then
        match rest with
        | '-' :: digits => (readDigits digits).map fun n => -n
        | '+' :: digits => (readDigits digits).map fun n => n
        | digits => (readDigits digits).map fun n => n
      else none

/-- What follows the sign. -/
def readUnsigned (negative : Bool) (text : Text) : Option Decimal :=
  let whole := text.takeWhile Char.isDigit
  -- No zero leads a longer number.
  if whole = [] ∨ (whole.head? = some '0' ∧ whole.length ≠ 1) then none
  else
    match text.dropWhile Char.isDigit with
    | '.' :: rest =>
        let fraction := rest.takeWhile Char.isDigit
        if fraction = [] then none
        else (readExponent (rest.dropWhile Char.isDigit)).map (Decimal.mk negative whole fraction)
    | rest => (readExponent rest).map (Decimal.mk negative whole [])

def readDecimal : Text → Option Decimal
  | '-' :: rest => readUnsigned true rest
  | text => readUnsigned false text

/-- A number literal. -/
structure Number where
  text : Text
  scalar : text.all isScalarChar = true
  legal : (readDecimal text).isSome = true

def Number.value (number : Number) : ℚ := ((readDecimal number.text).get number.legal).value

end Numbers

section Points

/-- Code points, among which there may be lone surrogates. -/
abbrev Points := List ℕ

def points (text : Text) : Points := text.map Char.toNat

def ofPoints (points : Points) : Option Text :=
  if Json.points (points.map Char.ofNat) = points then some (points.map Char.ofNat) else none

theorem ofNat_points (text : Text) : (points text).map Char.ofNat = text := by
  simp [points, Function.comp_def]

theorem points_injective : Function.Injective points :=
  Function.LeftInverse.injective ofNat_points

theorem ofPoints_eq_some {codes : Points} {text : Text} :
    ofPoints codes = some text ↔ codes = points text := by
  constructor
  · intro decoded
    unfold ofPoints at decoded
    split at decoded
    next same =>
      cases decoded
      exact same.symm
    next => cases decoded
  · rintro rfl
    rw [ofPoints, ofNat_points, if_pos rfl]

end Points

/-- The strings of a tree may be points or texts. -/
inductive Tree (Str : Type) where
  | null
  | bool (value : Bool)
  | number (value : Number)
  | string (value : Str)
  | array (items : List (Tree Str))
  | object (entries : List (Str × Tree Str))

/-- Into an array or into an object. -/
inductive Step (Str : Type) where
  | index (i : ℕ)
  | key (key : Str)

/-- What is at one place of a tree. -/
inductive Shape (Str : Type) where
  | null
  | bool (value : Bool)
  | number (value : ℚ)
  | string (value : Str)
  | array (length : ℕ)
  | object

namespace Tree

variable {Str Other : Type}

section Recursion

theorem sizeOf_entry [SizeOf Str] {entry : Str × Tree Str} {entries : List (Str × Tree Str)}
    (member : entry ∈ entries) : sizeOf entry.2 < sizeOf (Tree.object entries) := by
  have inside := List.sizeOf_lt_of_mem member
  have pair : sizeOf entry = 1 + sizeOf entry.1 + sizeOf entry.2 := by
    cases entry
    rfl
  have whole := object.sizeOf_spec entries
  omega

theorem sizeOf_item [SizeOf Str] {item : Tree Str} {items : List (Tree Str)}
    (member : item ∈ items) : sizeOf item < sizeOf (Tree.array items) := by
  have inside := List.sizeOf_lt_of_mem member
  have whole := array.sizeOf_spec items
  omega

theorem induct {P : Tree Str → Prop} (null : P .null) (bool : ∀ value, P (.bool value))
    (number : ∀ value, P (.number value)) (string : ∀ value, P (.string value))
    (array : ∀ items, (∀ item ∈ items, P item) → P (.array items))
    (object : ∀ entries, (∀ entry ∈ entries, P entry.2) → P (.object entries)) :
    ∀ tree, P tree
  | .null => null
  | .bool value => bool value
  | .number value => number value
  | .string value => string value
  | .array items => array items fun item _ => induct null bool number string array object item
  | .object entries =>
      object entries fun entry _ => induct null bool number string array object entry.2
termination_by tree => sizeOf tree
decreasing_by
  · exact sizeOf_item ‹_ ∈ _›
  · exact sizeOf_entry ‹_ ∈ _›

def map (f : Str → Other) : Tree Str → Tree Other
  | .null => .null
  | .bool value => .bool value
  | .number value => .number value
  | .string value => .string (f value)
  | .array items => .array (items.map (map f))
  | .object entries => .object (entries.map fun entry => (f entry.1, map f entry.2))
termination_by tree => sizeOf tree
decreasing_by
  · exact sizeOf_item ‹_ ∈ _›
  · exact sizeOf_entry ‹_ ∈ _›

end Recursion

section Paths

variable [BEq Str]

/-- The tree at a path. -/
def get? : Tree Str → List (Step Str) → Option (Tree Str)
  | tree, [] => some tree
  | .array items, .index i :: rest => items[i]?.bind fun item => get? item rest
  | .object entries, .key key :: rest => (last key entries).bind fun value => get? value rest
  | _, _ :: _ => none

def shape : Tree Str → Shape Str
  | .null => .null
  | .bool value => .bool value
  | .number literal => .number literal.value
  | .string value => .string value
  | .array items => .array items.length
  | .object _ => .object

/-- Both say the same everywhere. -/
def Same (left right : Tree Str) : Prop :=
  ∀ path, (left.get? path).map shape = (right.get? path).map shape

end Paths

section Load

/-- Texts compare character by character. -/
def textLe : Text → Text → Bool
  | [], _ => true
  | _ :: _, [] => false
  | c :: rest, d :: others =>
      decide (c.toNat < d.toNat) || (decide (c.toNat = d.toNat) && textLe rest others)

/-- In the order of the keys. -/
def sortKeys (entries : List (Text × Tree Text)) : List (Text × Tree Text) :=
  entries.insertionSort fun entry other => textLe entry.1 other.1 = true

/-- The tree a library keeps, given what it keeps of a number and how many arrays and
objects it enters. -/
def load (keep : Number → Option Number) : ℕ → Tree Points → Option (Tree Text)
  | _, .null => some .null
  | _, .bool value => some (.bool value)
  | _, .number literal => (keep literal).map .number
  | _, .string codes => (ofPoints codes).map .string
  | 0, .array _ => none
  | depth + 1, .array items => (items.mapM (load keep depth)).map .array
  | 0, .object _ => none
  | depth + 1, .object entries =>
      (entries.mapM fun entry =>
        (ofPoints entry.1).bind fun key => (load keep depth entry.2).map fun value =>
          (key, value)).map fun entries => .object (sortKeys (collapse entries))

variable {keep : Number → Option Number} {depth : ℕ} {value : Tree Text}

/-- The ways to load a tree. -/
inductive Loads (keep : Number → Option Number) : ℕ → Tree Points → Tree Text → Prop where
  | null {depth : ℕ} : Loads keep depth .null .null
  | bool {depth : ℕ} (value : Bool) : Loads keep depth (.bool value) (.bool value)
  | number {depth : ℕ} {literal kept : Number} (found : keep literal = some kept) :
      Loads keep depth (.number literal) (.number kept)
  | string {depth : ℕ} {codes : Points} {text : Text} (decoded : ofPoints codes = some text) :
      Loads keep depth (.string codes) (.string text)
  | array {depth : ℕ} {items : List (Tree Points)} {kept : List (Tree Text)}
      (each : items.mapM (load keep depth) = some kept) :
      Loads keep (depth + 1) (.array items) (.array kept)
  | object {depth : ℕ} {entries : List (Points × Tree Points)} {kept : List (Text × Tree Text)}
      (each : (entries.mapM fun entry => (ofPoints entry.1).bind fun key =>
        (load keep depth entry.2).map fun value => (key, value)) = some kept) :
      Loads keep (depth + 1) (.object entries) (.object (sortKeys (collapse kept)))

theorem loads_of_load {tree : Tree Points} (loaded : load keep depth tree = some value) :
    Loads keep depth tree value := by
  cases tree with
  | null =>
      simp only [load, Option.some.injEq] at loaded
      subst loaded
      exact .null
  | bool flag =>
      simp only [load, Option.some.injEq] at loaded
      subst loaded
      exact .bool flag
  | number literal =>
      simp only [load, Option.map_eq_some_iff] at loaded
      obtain ⟨kept, found, rfl⟩ := loaded
      exact .number found
  | string codes =>
      simp only [load, Option.map_eq_some_iff] at loaded
      obtain ⟨text, decoded, rfl⟩ := loaded
      exact .string decoded
  | array items =>
      cases depth with
      | zero => cases loaded
      | succ depth =>
          obtain ⟨kept, each, rfl⟩ := Option.map_eq_some_iff.mp loaded
          exact .array each
  | object entries =>
      cases depth with
      | zero => cases loaded
      | succ depth =>
          obtain ⟨kept, each, rfl⟩ := Option.map_eq_some_iff.mp loaded
          exact .object each

/-- A loaded entry has the same key and the loaded value. -/
theorem loaded_entries {entries : List (Points × Tree Points)} {loaded : List (Text × Tree Text)}
    (kept : (entries.mapM fun entry => (ofPoints entry.1).bind fun key =>
      (load keep depth entry.2).map fun value => (key, value)) = some loaded) :
    List.Forall₂ (fun entry other => entry.1 = other.1 ∧
        ∃ depth value, load keep depth entry.2 = some value ∧ other.2 = value.map points)
      entries (loaded.map (Prod.map points (map points))) := by
  rw [List.forall₂_map_right_iff]
  apply (mapM_eq_some.mp kept).imp
  intro entry other found
  obtain ⟨key, decoded, remaining⟩ := Option.bind_eq_some_iff.mp found
  obtain ⟨value, inside, rfl⟩ := Option.map_eq_some_iff.mp remaining
  exact ⟨ofPoints_eq_some.mp decoded, depth, value, inside, rfl⟩

theorem last_sortKeys (loaded : List (Text × Tree Text)) (key : Points) :
    last key ((sortKeys (collapse loaded)).map (Prod.map points (map points))) =
      last key (loaded.map (Prod.map points (map points))) := by
  have perm : (sortKeys (collapse loaded)).Perm (collapse loaded) := List.perm_insertionSort _ _
  have renamed := map_collapse points_injective (map points) loaded
  rw [← last_collapse (loaded.map _), ← renamed]
  apply last_of_perm (perm.map _)
  rw [renamed]
  exact nodup_collapse _

/-- At every path there is what was loaded of the tree at that path. -/
theorem get?_load {tree : Tree Points} (loaded : load keep depth tree = some value)
    (path : List (Step Points)) :
    Option.Rel (fun sub stored => ∃ depth value, load keep depth sub = some value ∧
      stored = value.map points) (tree.get? path) ((value.map points).get? path) := by
  induction path generalizing depth tree value with
  | nil => exact .some ⟨depth, value, loaded, rfl⟩
  | cons step rest inductionHypothesis =>
      have continues : ∀ sub stored : Tree Points,
          (∃ depth value, load keep depth sub = some value ∧ stored = value.map points) →
          Option.Rel (fun sub stored => ∃ depth value, load keep depth sub = some value ∧
            stored = value.map points) (sub.get? rest) (stored.get? rest) := by
        rintro sub stored ⟨depth, value, inside, rfl⟩
        exact inductionHypothesis inside
      cases loads_of_load loaded with
      | null | bool | number | string =>
          rw [map]
          cases step <;> exact .none
      | @array depth items kept each =>
          rw [map]
          cases step with
          | key _ => exact .none
          | index i =>
              refine rel_bind (rel_getElem? ?_ i) continues
              rw [List.forall₂_map_right_iff]
              exact (mapM_eq_some.mp each).imp fun item value inside => ⟨depth, value, inside, rfl⟩
      | object each =>
          rw [map]
          cases step with
          | index _ => exact .none
          | key key =>
              refine rel_bind ?_ continues
              rw [show (fun entry : Text × Tree Text => (points entry.1, map points entry.2)) =
                Prod.map points (map points) from rfl, last_sortKeys]
              apply rel_lookup
              exact List.forall₂_reverse_iff.mpr (loaded_entries each)

/-- Only a number may be loaded as something else. -/
theorem shape_load {tree : Tree Points} (loaded : load keep depth tree = some value) :
    (value.map points).shape = tree.shape ↔ ∀ literal, tree = .number literal →
      ∃ kept, keep literal = some kept ∧ kept.value = literal.value := by
  cases loads_of_load loaded with
  | null | bool | object => simp [map, shape]
  | number found => simp [map, shape, found]
  | string decoded => simp [map, shape, ofPoints_eq_some.mp decoded]
  | array each => simp [map, shape, (mapM_eq_some.mp each).length_eq]

/-- The numbers at every path are kept with their values. -/
def NumbersKept (keep : Number → Option Number) (tree : Tree Points) : Prop :=
  ∀ path literal, tree.get? path = some (.number literal) →
    ∃ kept, keep literal = some kept ∧ kept.value = literal.value

theorem numbersKept_string (codes : Points) : (string codes).NumbersKept keep := by
  intro path literal found
  cases path with
  | nil => cases found
  | cons step rest => cases step <;> cases found

theorem numbersKept_number {literal kept : Number} (found : keep literal = some kept)
    (exact : kept.value = literal.value) : (number literal).NumbersKept keep := by
  intro path other here
  cases path with
  | nil =>
      cases here
      exact ⟨kept, found, exact⟩
  | cons step rest => cases step <;> cases here

/-- What is loaded says the same exactly if its numbers were kept. -/
theorem same_load_iff {tree : Tree Points} (loaded : load keep depth tree = some value) :
    (value.map points).Same tree ↔ tree.NumbersKept keep := by
  apply forall_congr'
  intro path
  have related := get?_load loaded path
  generalize (value.map points).get? path = stored, tree.get? path = found at related ⊢
  cases related with
  | none => simp
  | some both =>
      obtain ⟨depth, inner, inside, rfl⟩ := both
      rw [Option.map_some, Option.map_some, Option.some.injEq, shape_load inside]
      simp only [Option.some.injEq]

/-- The entries of a tree that is loaded as a map. -/
def loadMap (keep : Number → Option Number) (depth : ℕ) (tree : Tree Points) :
    Option (List (Text × Tree Text)) :=
  match tree.load keep depth with
  | some (.object entries) => some entries
  | _ => none

theorem loadMap_eq_some {tree : Tree Points} {entries : List (Text × Tree Text)} :
    tree.loadMap keep depth = some entries ↔ tree.load keep depth = some (.object entries) := by
  unfold loadMap
  split
  next loaded found => simp [found]
  next other =>
    refine iff_of_false (by simp) ?_
    exact fun found => other _ found

/-- An object is loaded as a map if it is loaded at all. -/
theorem isSome_loadMap (keep : Number → Option Number) (depth : ℕ)
    (members : List (Points × Tree Points)) :
    ((object members).loadMap keep depth).isSome = ((object members).load keep depth).isSome := by
  cases loaded : (object members).load keep depth with
  | none => simp only [loadMap, loaded, Option.isSome_none]
  | some value =>
      cases loads_of_load loaded
      simp only [loadMap, loaded, Option.isSome_some]

theorem loadMap_distinct {tree : Tree Points} {entries : List (Text × Tree Text)}
    (loaded : tree.loadMap keep depth = some entries) : (entries.map Prod.fst).Nodup := by
  cases loads_of_load (loadMap_eq_some.mp loaded) with
  | @object depth members kept each =>
      apply ((List.perm_insertionSort _ _).map Prod.fst).nodup_iff.mpr
      exact nodup_collapse kept

/-- A loaded object holds what was loaded of the last value of each key. -/
theorem last_loadMap {members : List (Points × Tree Points)} {entries : List (Text × Tree Text)}
    (loaded : (Tree.object members).loadMap keep depth = some entries) (key : Points) :
    Option.Rel (fun sub stored => ∃ depth value, load keep depth sub = some value ∧
      stored = value.map points) (last key members)
      (last key (entries.map (Prod.map points (map points)))) := by
  have related := get?_load (loadMap_eq_some.mp loaded) [.key key]
  rw [map] at related
  have single (entries : List (Points × Tree Points)) :
      (Tree.object entries).get? [.key key] = last key entries := by
    exact Option.bind_fun_some _
  rw [single, single] at related
  exact related

end Load

end Tree

end Foundation.Json
