import Mathlib.Data.List.Perm.Basic
import Mathlib.Logic.Function.Basic
import Sturnus.Foundation.Result

/-!
# Entries over a map

Entries are visited one after the other; a visit fails, or sets a key, or does
nothing.  Where no two entries set the same key, their order does not matter.
-/

namespace Foundation.Overlay

variable {Key Value Entry Error : Type} [DecidableEq Key]

def put (map : Key → Option Value) : Option (Key × Value) → Key → Option Value
  | none => map
  | some (key, value) => Function.update map key (some value)

def load (visit : Entry → Except Error (Option (Key × Value))) (map : Key → Option Value)
    (entries : List Entry) : Except Error (Key → Option Value) :=
  entries.foldlM (fun map entry => (visit entry).map (put map)) map

/-- The two entries do not set the same key. -/
def Apart (visit : Entry → Except Error (Option (Key × Value))) (left right : Entry) : Prop :=
  ∀ key first second, visit left = .ok (some (key, first)) → visit right ≠ .ok (some (key, second))

variable {visit : Entry → Except Error (Option (Key × Value))} {map after : Key → Option Value}
  {entry : Entry} {entries others : List Entry}

omit [DecidableEq Key] in
theorem Apart.symm {left right : Entry} (apart : Apart visit left right) :
    Apart visit right left :=
  fun key first second visited other => apart key second first other visited

theorem load_cons : load visit map (entry :: entries) = .ok after ↔
    ∃ setting, visit entry = .ok setting ∧ load visit (put map setting) entries = .ok after := by
  unfold load
  rw [List.foldlM_cons, bind_eq_ok]
  constructor
  · intro loaded
    obtain ⟨next, mapped, rest⟩ := loaded
    obtain ⟨setting, visited, rfl⟩ := exists_of_map_eq_ok mapped
    exact ⟨setting, visited, rest⟩
  · intro loaded
    obtain ⟨setting, visited, rest⟩ := loaded
    refine ⟨put map setting, ?_, rest⟩
    rw [visited]
    rfl

/-- Loading succeeds when every visit does. -/
theorem exists_load : (∃ after, load visit map entries = .ok after) ↔
    ∀ entry ∈ entries, ∃ setting, visit entry = .ok setting := by
  induction entries generalizing map with
  | nil => exact iff_of_true ⟨map, rfl⟩ (List.forall_mem_nil _)
  | cons entry rest inductionHypothesis =>
      rw [List.forall_mem_cons]
      constructor
      · intro loads
        obtain ⟨after, loaded⟩ := loads
        obtain ⟨setting, visited, others⟩ := load_cons.mp loaded
        exact ⟨⟨setting, visited⟩, inductionHypothesis.mp ⟨after, others⟩⟩
      · intro visits
        obtain ⟨⟨setting, visited⟩, others⟩ := visits
        obtain ⟨after, loaded⟩ := inductionHypothesis.mpr others
        exact ⟨after, load_cons.mpr ⟨setting, visited, loaded⟩⟩

/-- A key that no entry sets keeps what it had. -/
theorem load_unset (loaded : load visit map entries = .ok after) {key : Key}
    (unset : ∀ entry ∈ entries, ∀ value, visit entry ≠ .ok (some (key, value))) :
    after key = map key := by
  induction entries generalizing map with
  | nil =>
      cases loaded
      rfl
  | cons entry rest inductionHypothesis =>
      obtain ⟨here, later⟩ := List.forall_mem_cons.mp unset
      obtain ⟨setting, visited, others⟩ := load_cons.mp loaded
      rw [inductionHypothesis others later]
      cases setting with
      | none => rfl
      | some pair =>
          have other : key ≠ pair.1 := by
            intro same
            exact here pair.2 (same ▸ visited)
          exact Function.update_of_ne other _ _

/-- A key that an entry sets has the value that it sets. -/
theorem load_set (apart : entries.Pairwise (Apart visit))
    (loaded : load visit map entries = .ok after) (member : entry ∈ entries) {key : Key}
    {value : Value} (visited : visit entry = .ok (some (key, value))) :
    after key = some value := by
  induction entries generalizing map with
  | nil => cases member
  | cons head rest inductionHypothesis =>
      obtain ⟨first, others⟩ := List.pairwise_cons.mp apart
      obtain ⟨setting, found, later⟩ := load_cons.mp loaded
      rcases List.mem_cons.mp member with rfl | inside
      · rw [visited] at found
        cases found
        have unset := load_unset later fun other member second =>
          first other member key value second visited
        exact unset.trans (Function.update_self _ _ _)
      · exact inductionHypothesis others later inside

/-- Entries that set no key twice may be visited in any order. -/
theorem load_perm (apart : entries.Pairwise (Apart visit)) (perm : entries.Perm others)
    (loaded : load visit map entries = .ok after) : load visit map others = .ok after := by
  have visits := exists_load.mp ⟨after, loaded⟩
  obtain ⟨result, reordered⟩ := exists_load.mpr fun entry member =>
    visits entry (perm.mem_iff.mpr member)
  have separate : others.Pairwise (Apart visit) := (perm.pairwise_iff Apart.symm).mp apart
  have same : result = after := by
    funext key
    by_cases set : ∃ entry ∈ entries, ∃ value, visit entry = .ok (some (key, value))
    · obtain ⟨entry, member, value, visited⟩ := set
      rw [load_set apart loaded member visited,
        load_set separate reordered (perm.mem_iff.mp member) visited]
    · have unset : ∀ entry ∈ entries, ∀ value, visit entry ≠ .ok (some (key, value)) :=
        fun entry member value visited => set ⟨entry, member, value, visited⟩
      rw [load_unset loaded unset, load_unset reordered fun entry member =>
        unset entry (perm.mem_iff.mpr member)]
  rw [reordered, same]

end Foundation.Overlay
