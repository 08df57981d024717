import Sturnus.Foundation.Http

/-!
# Copying header maps

A map is copied into another value by value, which keeps the values the other
has, or by its owning iterator, which replaces them.  The iterator names a
header at its first value only; values without a name belong to the last one.
-/

namespace Foundation.Http

variable {name other : HeaderName}

/-- The values a list of entries holds for a name. -/
def valuesOf (entries : List (Sigma fun _ : HeaderName => List HeaderValue))
    (name : HeaderName) : List HeaderValue :=
  (entries.dlookup name).getD []

theorem valuesOf_cons (entry : Sigma fun _ : HeaderName => List HeaderValue)
    (rest : List (Sigma fun _ : HeaderName => List HeaderValue)) (name : HeaderName) :
    valuesOf (entry :: rest) name = if name = entry.1 then entry.2 else valuesOf rest name := by
  split
  next same =>
      subst same
      rw [valuesOf, List.dlookup_cons_eq]
      rfl
  next different => rw [valuesOf, List.dlookup_cons_ne _ _ different, valuesOf]

theorem valuesOf_of_notMem {entries : List (Sigma fun _ : HeaderName => List HeaderValue)}
    (absent : name ∉ entries.keys) : valuesOf entries name = [] := by
  rw [valuesOf, List.dlookup_eq_none.mpr absent, Option.getD_none]

namespace HeaderMap

@[simp] theorem getAll_empty (name : HeaderName) : getAll ∅ name = [] := rfl

theorem getAll_insert (map : HeaderMap) (name : HeaderName) (value : HeaderValue)
    (other : HeaderName) :
    (map.insert name value).1.getAll other =
      if other = name then [value] else map.getAll other := by
  split
  next same =>
      subst same
      rw [getAll, insert, AList.lookup_insert, Option.getD_some]
  next different => rw [getAll, insert, AList.lookup_insert_ne different, getAll]

theorem getAll_append (map : HeaderMap) (name : HeaderName) (value : HeaderValue)
    (other : HeaderName) :
    (map.append name value).getAll other =
      if other = name then map.getAll name ++ [value] else map.getAll other := by
  split
  next same =>
      subst same
      rw [getAll, append, AList.lookup_insert, Option.getD_some]
  next different => rw [getAll, append, AList.lookup_insert_ne different, getAll]

theorem getAll_foldl_append (map : HeaderMap) (name : HeaderName) (values : List HeaderValue)
    (other : HeaderName) :
    (values.foldl (fun headers value => headers.append name value) map).getAll other =
      if other = name then map.getAll name ++ values else map.getAll other := by
  induction values generalizing map with
  | nil => split <;> simp [*]
  | cons value rest inductionHypothesis =>
      rw [List.foldl_cons, inductionHypothesis, getAll_append, getAll_append, if_pos rfl,
        List.append_assoc]
      split <;> rfl

section Filter

variable (drops : HeaderName → Bool)

/-- Append every value whose name is not dropped. -/
def appendKept (map : HeaderMap)
    (entries : List (Sigma fun _ : HeaderName => List HeaderValue)) : HeaderMap :=
  entries.foldl (fun headers entry =>
    if drops entry.1 then headers
    else entry.2.foldl (fun headers value => headers.append entry.1 value) headers) map

theorem getAll_appendKept (map : HeaderMap)
    {entries : List (Sigma fun _ : HeaderName => List HeaderValue)} (nodup : entries.NodupKeys)
    (name : HeaderName) :
    (appendKept drops map entries).getAll name =
      map.getAll name ++ if drops name then [] else valuesOf entries name := by
  induction entries generalizing map with
  | nil => simp [appendKept, valuesOf]
  | cons entry rest inductionHypothesis =>
      obtain ⟨absent, nodupRest⟩ := List.nodupKeys_cons.mp nodup
      rw [appendKept, List.foldl_cons, ← appendKept, inductionHypothesis _ nodupRest,
        valuesOf_cons]
      by_cases here : name = entry.1
      · subst here
        by_cases dropped : drops entry.1 = true
        · simp only [dropped, if_true]
        · simp only [dropped, Bool.false_eq_true, if_false, getAll_foldl_append, if_true,
            valuesOf_of_notMem absent, List.append_nil]
      · rw [if_neg here]
        congr 1
        split
        next => rfl
        next => rw [getAll_foldl_append, if_neg here]

end Filter

section Extend

/-- The values of one entry, the name with the first of them. -/
def namedFirst : (Sigma fun _ : HeaderName => List HeaderValue) →
    List (Option HeaderName × HeaderValue)
  | ⟨_, []⟩ => []
  | ⟨name, value :: rest⟩ => (some name, value) :: rest.map fun value => (none, value)

/-- The owning iterator. -/
def intoIter (map : HeaderMap) : List (Option HeaderName × HeaderValue) :=
  map.entries.flatMap namedFirst

/-- A named value replaces those of its name, an unnamed one is added to the last name.
An iterator that begins without a name panics in the source. -/
def extend (map : HeaderMap) :
    Option HeaderName → List (Option HeaderName × HeaderValue) → HeaderMap
  | _, [] => map
  | _, (some name, value) :: rest => extend (map.insert name value).1 (some name) rest
  | some name, (none, value) :: rest => extend (map.append name value) (some name) rest
  | none, (none, _) :: _ => map

theorem extend_unnamed (map : HeaderMap) (name : HeaderName) (values : List HeaderValue)
    (rest : List (Option HeaderName × HeaderValue)) :
    map.extend (some name) ((values.map fun value => (none, value)) ++ rest) =
      (values.foldl (fun headers value => headers.append name value) map).extend
        (some name) rest := by
  induction values generalizing map with
  | nil => rfl
  | cons value values inductionHypothesis =>
      rw [List.map_cons, List.cons_append, extend, inductionHypothesis, List.foldl_cons]

/-- Extending replaces the values of every name the iterator lists. -/
theorem getAll_extend (map : HeaderMap) (last : Option HeaderName)
    {entries : List (Sigma fun _ : HeaderName => List HeaderValue)} (nodup : entries.NodupKeys)
    (name : HeaderName) :
    (map.extend last (entries.flatMap namedFirst)).getAll name =
      if valuesOf entries name = [] then map.getAll name else valuesOf entries name := by
  induction entries generalizing map last with
  | nil =>
      have none : valuesOf [] name = [] := rfl
      rw [if_pos none]
      cases last <;> rfl
  | cons entry rest inductionHypothesis =>
      obtain ⟨absent, nodupRest⟩ := List.nodupKeys_cons.mp nodup
      obtain ⟨key, values⟩ := entry
      rw [List.flatMap_cons, valuesOf_cons]
      cases values with
      | nil =>
          rw [namedFirst, List.nil_append, inductionHypothesis _ _ nodupRest]
          by_cases here : name = key
          · subst here
            simp only [valuesOf_of_notMem absent, if_true]
          · rw [if_neg here]
      | cons value values =>
          rw [namedFirst, List.cons_append, extend, extend_unnamed,
            inductionHypothesis _ _ nodupRest, getAll_foldl_append, getAll_insert, getAll_insert]
          by_cases here : name = key
          · subst here
            simp [valuesOf_of_notMem absent]
          · simp only [if_neg here]

theorem getAll_extend_empty (map : HeaderMap) (name : HeaderName) :
    (extend ∅ none map.intoIter).getAll name = map.getAll name := by
  rw [intoIter, getAll_extend ∅ none map.nodupKeys]
  split
  next none => exact none.symm
  next => rfl

end Extend

/-- Every name has a value, as in every map that was built up by insertion. -/
def Filled (map : HeaderMap) : Prop := ∀ entry ∈ map.entries, entry.2 ≠ []

theorem filled_append {map : HeaderMap} (filled : map.Filled) (name : HeaderName)
    (value : HeaderValue) : (map.append name value).Filled := by
  intro entry member
  rcases List.mem_cons.mp member with rfl | old
  · exact List.append_ne_nil_of_right_ne_nil _ (List.cons_ne_nil _ _)
  · exact filled entry ((List.kerase_sublist _ _).mem old)

theorem filled_appendKept (drops : HeaderName → Bool)
    {entries : List (Sigma fun _ : HeaderName => List HeaderValue)} :
    (appendKept drops ∅ entries).Filled := by
  refine List.foldlRecOn (motive := Filled) entries _ ?_ ?_
  · intro entry member
    cases member
  · intro headers filled entry _
    split
    next => exact filled
    next => exact List.foldlRecOn (motive := Filled) entry.2 _ filled fun _ held value _ =>
        filled_append held entry.1 value

/-- Two maps with the same values list the same entries, in some order. -/
theorem perm_of_getAll {left right : HeaderMap} (leftFilled : left.Filled)
    (rightFilled : right.Filled) (same : ∀ name, left.getAll name = right.getAll name) :
    left.entries.Perm right.entries := by
  have found : ∀ {map : HeaderMap}, map.Filled → ∀ name values,
      values ∈ map.entries.dlookup name ↔ values ≠ [] ∧ map.getAll name = values := by
    intro map filled name values
    rw [getAll, AList.lookup]
    constructor
    · intro listed
      exact ⟨filled _ (List.of_mem_dlookup listed), by rw [Option.mem_def.mp listed]; rfl⟩
    · rintro ⟨nonempty, held⟩
      cases lookup : map.entries.dlookup name with
      | none =>
          rw [lookup] at held
          exact absurd held.symm nonempty
      | some listed =>
          rw [lookup] at held
          exact congrArg some held
  apply List.lookup_ext left.nodupKeys right.nodupKeys
  intro name values
  rw [found leftFilled, found rightFilled, same]

end HeaderMap

end Foundation.Http
