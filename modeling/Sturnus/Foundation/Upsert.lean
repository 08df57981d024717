import Mathlib.Data.List.Induction
import Mathlib.Data.List.Nodup
import Mathlib.Tactic.Common

/-!
# Writing entries into an association list

`upsert` overwrites the first entry of a key in place, or appends one.  Writing
the entries of a list one after the other keeps each key at its first place with
its last value.
-/

namespace Foundation

variable {Key Value : Type} [BEq Key]

def upsert (key : Key) (value : Value) : List (Key × Value) → List (Key × Value)
  | [] => [(key, value)]
  | entry :: rest =>
      if entry.1 == key then (entry.1, value) :: rest else entry :: upsert key value rest

/-- Write every entry in turn, starting from none. -/
def collapse (entries : List (Key × Value)) : List (Key × Value) :=
  entries.foldl (fun fields entry => upsert entry.1 entry.2 fields) []

theorem collapse_concat (entries : List (Key × Value)) (entry : Key × Value) :
    collapse (entries ++ [entry]) = upsert entry.1 entry.2 (collapse entries) := by
  unfold collapse
  rw [List.foldl_append]
  rfl

theorem upsert_ne_nil (key : Key) (value : Value) (fields : List (Key × Value)) :
    upsert key value fields ≠ [] := by
  cases fields with
  | nil => simp [upsert]
  | cons entry rest =>
      unfold upsert
      split <;> simp

theorem collapse_eq_nil {entries : List (Key × Value)} : collapse entries = [] ↔ entries = [] := by
  rcases List.eq_nil_or_concat entries with rfl | ⟨front, entry, rfl⟩
  · exact iff_of_true rfl rfl
  · rw [List.concat_eq_append, collapse_concat]
    exact iff_of_false (upsert_ne_nil _ _ _) (by simp)

theorem forall_upsert {P : Value → Prop} {key : Key} {value : Value} {fields : List (Key × Value)}
    (new : P value) (old : ∀ field ∈ fields, P field.2) :
    ∀ field ∈ upsert key value fields, P field.2 := by
  induction fields with
  | nil => simpa [upsert] using new
  | cons entry rest inductionHypothesis =>
      obtain ⟨first, others⟩ := List.forall_mem_cons.mp old
      unfold upsert
      split
      · exact List.forall_mem_cons.mpr ⟨new, others⟩
      · exact List.forall_mem_cons.mpr ⟨first, inductionHypothesis others⟩

theorem forall_collapse {P : Value → Prop} {entries : List (Key × Value)}
    (values : ∀ entry ∈ entries, P entry.2) : ∀ field ∈ collapse entries, P field.2 := by
  induction entries using List.reverseRecOn with
  | nil => simp [collapse]
  | append_singleton entries entry inductionHypothesis =>
      rw [collapse_concat]
      apply forall_upsert
      · exact values entry (by simp)
      · apply inductionHypothesis
        intro other member
        exact values other (List.mem_append_left _ member)

variable [LawfulBEq Key]

section Upsert

theorem keys_upsert (key : Key) (value : Value) (fields : List (Key × Value)) :
    (upsert key value fields).map Prod.fst =
      if key ∈ fields.map Prod.fst then fields.map Prod.fst
      else fields.map Prod.fst ++ [key] := by
  induction fields with
  | nil => rfl
  | cons entry rest inductionHypothesis =>
      unfold upsert
      by_cases here : entry.1 = key
      · simp [here]
      · rw [if_neg (by simpa using here), List.map_cons, inductionHypothesis]
        by_cases later : key ∈ rest.map Prod.fst
        · simp [later]
        · simp [later, Ne.symm here]

theorem nodup_upsert {fields : List (Key × Value)} (distinct : (fields.map Prod.fst).Nodup)
    (key : Key) (value : Value) : ((upsert key value fields).map Prod.fst).Nodup := by
  rw [keys_upsert]
  split
  next => exact distinct
  next absent =>
    apply List.Nodup.append distinct (List.nodup_singleton key)
    simpa using absent

theorem lookup_cons_of_ne {key first : Key} (different : key ≠ first) (value : Value)
    (rest : List (Key × Value)) : ((first, value) :: rest).lookup key = rest.lookup key := by
  rw [List.lookup_cons, beq_false_of_ne different]

theorem lookup_upsert (key other : Key) (value : Value) (fields : List (Key × Value)) :
    (upsert key value fields).lookup other =
      if other == key then some value else fields.lookup other := by
  induction fields with
  | nil =>
      by_cases same : other = key
      · simp [upsert, same]
      · rw [if_neg (by simpa using same)]
        exact lookup_cons_of_ne same value []
  | cons entry rest inductionHypothesis =>
      obtain ⟨first, old⟩ := entry
      unfold upsert
      by_cases here : first = key
      · subst here
        by_cases same : other = first
        · simp [same]
        · rw [if_pos (by simp), if_neg (by simpa using same), lookup_cons_of_ne same,
            lookup_cons_of_ne same]
      · rw [if_neg (by simpa using here)]
        by_cases same : other = first
        · subst same
          simp [here]
        · rw [lookup_cons_of_ne same, lookup_cons_of_ne same, inductionHypothesis]

/-- Writing the value that is already there changes nothing. -/
theorem upsert_eq_self {key : Key} {value : Value} {fields : List (Key × Value)}
    (found : fields.lookup key = some value) : upsert key value fields = fields := by
  induction fields with
  | nil => simp at found
  | cons entry rest inductionHypothesis =>
      obtain ⟨first, old⟩ := entry
      unfold upsert
      by_cases here : first = key
      · subst here
        simp only [List.lookup_cons_self, Option.some.injEq] at found
        simp [found]
      · rw [lookup_cons_of_ne (Ne.symm here)] at found
        rw [if_neg (by simpa using here), inductionHypothesis found]

/-- A new key is appended. -/
theorem upsert_of_not_mem {key : Key} {fields : List (Key × Value)}
    (absent : key ∉ fields.map Prod.fst) (value : Value) :
    upsert key value fields = fields ++ [(key, value)] := by
  induction fields with
  | nil => rfl
  | cons entry rest inductionHypothesis =>
      simp only [List.map_cons, List.mem_cons, not_or] at absent
      unfold upsert
      rw [if_neg (by simpa using Ne.symm absent.1), inductionHypothesis absent.2]
      rfl

end Upsert

section Collapse

/-- The keys of a collapsed list, in the order of their first occurrences. -/
theorem keys_collapse (entries : List (Key × Value)) :
    (collapse entries).map Prod.fst = (entries.map Prod.fst).eraseDups := by
  induction entries using List.reverseRecOn with
  | nil => rfl
  | append_singleton entries entry inductionHypothesis =>
      have known : entry.1 ∈ (entries.map Prod.fst).eraseDups ↔ entry.1 ∈ entries.map Prod.fst :=
        List.mem_eraseDups
      rw [collapse_concat, keys_upsert, inductionHypothesis, List.map_append, List.eraseDups_append]
      by_cases again : entry.1 ∈ entries.map Prod.fst
      · rw [if_pos (known.mpr again)]
        simp [List.removeAll, again]
      · rw [if_neg (mt known.mp again)]
        simp [List.removeAll, again, List.eraseDups_cons]

theorem nodup_collapse (entries : List (Key × Value)) :
    ((collapse entries).map Prod.fst).Nodup := by
  induction entries using List.reverseRecOn with
  | nil => exact List.nodup_nil
  | append_singleton entries entry inductionHypothesis =>
      rw [collapse_concat]
      exact nodup_upsert inductionHypothesis _ _

/-- The last value written under a key is the one that stays. -/
theorem lookup_collapse (entries : List (Key × Value)) (key : Key) :
    (collapse entries).lookup key = entries.reverse.lookup key := by
  induction entries using List.reverseRecOn with
  | nil => rfl
  | append_singleton entries entry inductionHypothesis =>
      obtain ⟨first, value⟩ := entry
      rw [collapse_concat, lookup_upsert, inductionHypothesis, List.reverse_concat]
      by_cases same : key = first
      · subst same
        rw [if_pos (by simp), List.lookup_cons_self]
      · rw [if_neg (by simpa using same), lookup_cons_of_ne same]

/-- Entries with distinct keys are kept as they are. -/
theorem collapse_of_nodup {entries : List (Key × Value)}
    (distinct : (entries.map Prod.fst).Nodup) : collapse entries = entries := by
  induction entries using List.reverseRecOn with
  | nil => rfl
  | append_singleton entries entry inductionHypothesis =>
      rw [List.map_append, List.nodup_append] at distinct
      obtain ⟨distinctInit, -, disjoint⟩ := distinct
      have absent : entry.1 ∉ entries.map Prod.fst := fun member =>
        disjoint _ member _ (by simp) rfl
      rw [collapse_concat, inductionHypothesis distinctInit, upsert_of_not_mem absent]

end Collapse

section Lookup

/-- The value of the last entry with a key. -/
def last (key : Key) (entries : List (Key × Value)) : Option Value := entries.reverse.lookup key

omit [LawfulBEq Key] in
@[simp] theorem last_nil (key : Key) : last key ([] : List (Key × Value)) = none := rfl

theorem mem_of_last {key : Key} {value : Value} {entries : List (Key × Value)}
    (found : last key entries = some value) : (key, value) ∈ entries := by
  obtain ⟨front, back, split, -⟩ := List.lookup_eq_some_iff.mp found
  rw [← List.mem_reverse, split]
  simp

theorem last_ne_none {entries : List (Key × Value)} {entry : Key × Value}
    (member : entry ∈ entries) : last entry.1 entries ≠ none := by
  intro absent
  have missing := List.lookup_eq_none_iff.mp absent entry (List.mem_reverse.mpr member)
  simp at missing

theorem last_of_nodup {entries : List (Key × Value)} (distinct : (entries.map Prod.fst).Nodup)
    (key : Key) : last key entries = entries.lookup key := by
  rw [last, ← lookup_collapse, collapse_of_nodup distinct]

theorem lookup_eq_some_iff {entries : List (Key × Value)}
    (distinct : (entries.map Prod.fst).Nodup) {key : Key} {value : Value} :
    entries.lookup key = some value ↔ (key, value) ∈ entries := by
  induction entries with
  | nil => simp
  | cons entry rest inductionHypothesis =>
      obtain ⟨first, old⟩ := entry
      obtain ⟨absent, others⟩ := List.nodup_cons.mp distinct
      by_cases here : key = first
      · subst here
        have notInside : (key, value) ∉ rest := fun inside =>
          absent (List.mem_map.mpr ⟨_, inside, rfl⟩)
        rw [List.lookup_cons_self, List.mem_cons, or_iff_left notInside, Option.some.injEq,
          Prod.mk.injEq]
        exact ⟨fun same => ⟨rfl, same.symm⟩, fun same => same.2.symm⟩
      · rw [lookup_cons_of_ne here, inductionHypothesis others, List.mem_cons, Prod.mk.injEq,
          or_iff_right fun same => here same.1]

/-- With distinct keys the order of the entries does not matter. -/
theorem last_of_perm {entries others : List (Key × Value)} (perm : entries.Perm others)
    (distinct : (others.map Prod.fst).Nodup) (key : Key) : last key entries = last key others := by
  have distinctToo : (entries.map Prod.fst).Nodup := (perm.map Prod.fst).nodup_iff.mpr distinct
  rw [last_of_nodup distinct, last_of_nodup distinctToo]
  apply Option.ext
  intro value
  rw [lookup_eq_some_iff distinct, lookup_eq_some_iff distinctToo, perm.mem_iff]

theorem last_collapse (entries : List (Key × Value)) (key : Key) :
    last key (collapse entries) = last key entries := by
  rw [last_of_nodup (nodup_collapse entries), lookup_collapse]
  rfl

theorem perm_of_lookup {entries others : List (Key × Value)}
    (distinct : (entries.map Prod.fst).Nodup) (distinctToo : (others.map Prod.fst).Nodup)
    (same : ∀ key, entries.lookup key = others.lookup key) : entries.Perm others := by
  apply (List.perm_ext_iff_of_nodup distinct.of_map distinctToo.of_map).mpr
  intro entry
  rw [← lookup_eq_some_iff distinct, ← lookup_eq_some_iff distinctToo, same]

theorem perm_upsert {entries others : List (Key × Value)} (perm : entries.Perm others)
    (distinct : (others.map Prod.fst).Nodup) (key : Key) (value : Value) :
    (upsert key value entries).Perm (upsert key value others) := by
  have distinctToo : (entries.map Prod.fst).Nodup := (perm.map Prod.fst).nodup_iff.mpr distinct
  apply perm_of_lookup (nodup_upsert distinctToo key value) (nodup_upsert distinct key value)
  intro other
  rw [lookup_upsert, lookup_upsert, ← last_of_nodup distinct, ← last_of_nodup distinctToo,
    last_of_perm perm distinct]

/-- Entries written behind distinct ones. -/
theorem collapse_append {entries : List (Key × Value)} (distinct : (entries.map Prod.fst).Nodup)
    (others : List (Key × Value)) :
    collapse (entries ++ others) =
      others.foldl (fun fields entry => upsert entry.1 entry.2 fields) entries := by
  have kept := collapse_of_nodup distinct
  unfold collapse at kept ⊢
  rw [List.foldl_append, kept]

omit [LawfulBEq Key] in
theorem last_append (key : Key) (entries others : List (Key × Value)) :
    last key (entries ++ others) = (last key others).or (last key entries) := by
  rw [last, List.reverse_append, List.lookup_append]
  rfl

theorem last_cons (key : Key) (entry : Key × Value) (rest : List (Key × Value)) :
    last key (entry :: rest) =
      (last key rest).or (if key == entry.1 then some entry.2 else none) := by
  rw [← List.singleton_append, last_append]
  obtain ⟨first, value⟩ := entry
  by_cases here : key = first
  · rw [here, if_pos (beq_self_eq_true first)]
    exact congrArg _ List.lookup_cons_self
  · rw [if_neg (by simpa using here)]
    exact congrArg _ (lookup_cons_of_ne here value [])

/-- The entries that a later one with the same key overwrites. -/
def superseded : List (Key × Value) → List (Key × Value)
  | [] => []
  | entry :: rest =>
      if (last entry.1 rest).isSome then entry :: superseded rest else superseded rest

theorem collapse_cons_perm (entry : Key × Value) (rest : List (Key × Value)) :
    (collapse (entry :: rest)).Perm
      (if (last entry.1 rest).isSome then collapse rest else entry :: collapse rest) := by
  have distinct := nodup_collapse rest
  have found (key : Key) : (collapse rest).lookup key = last key rest := by
    rw [← last_of_nodup distinct, last_collapse]
  obtain ⟨first, value⟩ := entry
  split
  next again =>
    apply perm_of_lookup (nodup_collapse _) distinct
    intro key
    rw [← last_of_nodup (nodup_collapse _), last_collapse, found, last_cons]
    by_cases here : key = first
    · obtain ⟨later, same⟩ := Option.isSome_iff_exists.mp again
      rw [here, same, Option.some_or]
    · rw [if_neg (by simpa using here), Option.or_none]
  next fresh =>
    have absent : last first rest = none := Option.not_isSome_iff_eq_none.mp fresh
    have distinctToo : (((first, value) :: collapse rest).map Prod.fst).Nodup := by
      rw [List.map_cons, List.nodup_cons]
      refine ⟨fun inside => ?_, distinct⟩
      obtain ⟨entry, member, same⟩ := List.mem_map.mp inside
      apply last_ne_none member
      rw [same, last_of_nodup distinct, found, absent]
    apply perm_of_lookup (nodup_collapse _) distinctToo
    intro key
    rw [← last_of_nodup (nodup_collapse _), last_collapse, last_cons]
    by_cases here : key = first
    · rw [here, absent, Option.none_or, if_pos (beq_self_eq_true first), List.lookup_cons_self]
    · rw [if_neg (by simpa using here), Option.or_none, lookup_cons_of_ne here, found]

/-- Collapsing drops the superseded entries and nothing else. -/
theorem collapse_append_superseded_perm (entries : List (Key × Value)) :
    (collapse entries ++ superseded entries).Perm entries := by
  induction entries with
  | nil => exact List.Perm.refl _
  | cons entry rest inductionHypothesis =>
      have step := collapse_cons_perm entry rest
      unfold superseded
      split
      next again =>
        rw [if_pos again] at step
        exact ((step.append_right _).trans List.perm_middle).trans (inductionHypothesis.cons entry)
      next fresh =>
        rw [if_neg fresh] at step
        exact (step.append_right _).trans (inductionHypothesis.cons entry)

variable {Other Result : Type} [BEq Other] [LawfulBEq Other]

/-- Renaming keys one to one commutes with writing. -/
theorem map_upsert {f : Key → Other} (injective : Function.Injective f) (g : Value → Result)
    (key : Key) (value : Value) (fields : List (Key × Value)) :
    (upsert key value fields).map (Prod.map f g) =
      upsert (f key) (g value) (fields.map (Prod.map f g)) := by
  induction fields with
  | nil => rfl
  | cons entry rest inductionHypothesis =>
      by_cases here : entry.1 = key
      · simp [upsert, here]
      · have different : f entry.1 ≠ f key := fun same => here (injective same)
        simp [upsert, here, different, inductionHypothesis]

theorem map_collapse {f : Key → Other} (injective : Function.Injective f) (g : Value → Result)
    (entries : List (Key × Value)) :
    (collapse entries).map (Prod.map f g) = collapse (entries.map (Prod.map f g)) := by
  induction entries using List.reverseRecOn with
  | nil => rfl
  | append_singleton entries entry inductionHypothesis =>
      rw [collapse_concat, map_upsert injective, inductionHypothesis, List.map_append,
        List.map_singleton, collapse_concat]
      rfl

omit [LawfulBEq Key] in
theorem rel_lookup {Relates : Value → Result → Prop} {entries : List (Key × Value)}
    {others : List (Key × Result)}
    (related : List.Forall₂ (fun entry other => entry.1 = other.1 ∧ Relates entry.2 other.2)
      entries others) (key : Key) :
    Option.Rel Relates (entries.lookup key) (others.lookup key) := by
  induction related with
  | nil => exact .none
  | @cons entry other rest _ first _ inductionHypothesis =>
      rw [List.lookup_cons, List.lookup_cons, first.1]
      split
      next => exact .some first.2
      next => exact inductionHypothesis

end Lookup

end Foundation
