import Mathlib.Data.List.Forall2

/-!
# Fallible computations over lists

What success of a chain, of a check on every element and of a traversal says.
-/

namespace Foundation

variable {Error Alpha Beta : Type}

theorem bind_eq_ok {result : Except Error Alpha} {next : Alpha → Except Error Beta} {value : Beta} :
    (result >>= next) = .ok value ↔ ∃ first, result = .ok first ∧ next first = .ok value := by
  cases result with
  | error e => simp [bind, Except.bind]
  | ok first => simp [bind, Except.bind]

theorem exists_of_map_eq_ok {result : Except Error Alpha} {f : Alpha → Beta} {value : Beta}
    (mapped : result.map f = .ok value) : ∃ first, result = .ok first ∧ f first = value := by
  cases result with
  | error e => cases mapped
  | ok first =>
      cases mapped
      exact ⟨first, rfl, rfl⟩

/-- Run a check on every element and stop at the first failure. -/
def checkAll (check : Alpha → Except Error Unit) : List Alpha → Except Error Unit
  | [] => .ok ()
  | value :: rest => do
      check value
      checkAll check rest

theorem checkAll_eq_ok {check : Alpha → Except Error Unit} {values : List Alpha} {done : Unit} :
    checkAll check values = .ok done ↔ ∀ value ∈ values, check value = .ok () := by
  induction values with
  | nil => simp [checkAll]
  | cons value rest inductionHypothesis =>
      rw [checkAll, bind_eq_ok, List.forall_mem_cons]
      exact ⟨fun ⟨(), passed, others⟩ => ⟨passed, inductionHypothesis.mp others⟩,
        fun ⟨passed, others⟩ => ⟨(), passed, inductionHypothesis.mpr others⟩⟩

/-- `require condition error` is the guard `if !condition { bail!(error) }`. -/
def require (condition : Bool) (error : Error) : Except Error Unit :=
  if condition then .ok () else .error error

@[simp] theorem require_eq_ok {condition : Bool} {error : Error} {done : Unit} :
    require condition error = .ok done ↔ condition = true := by
  cases condition <;> simp [require]

/-- `ok_or` on an optional value. -/
def okOr (value : Option Alpha) (error : Error) : Except Error Alpha :=
  match value with
  | some found => .ok found
  | none => .error error

theorem mapError_eq_ok {Other : Type} {result : Except Error Alpha} {f : Error → Other}
    {value : Alpha} : result.mapError f = .ok value ↔ result = .ok value := by
  cases result <;> simp [Except.mapError]

@[simp] theorem okOr_eq_ok {value : Option Alpha} {error : Error} {found : Alpha} :
    okOr value error = .ok found ↔ value = some found := by
  cases value <;> simp [okOr]

theorem mapM_eq_ok {f : Alpha → Except Error Beta} {values : List Alpha} {results : List Beta} :
    values.mapM f = .ok results ↔
      List.Forall₂ (fun value result => f value = .ok result) values results := by
  induction values generalizing results with
  | nil => simp [pure, Except.pure, eq_comm]
  | cons value rest inductionHypothesis =>
      rw [List.mapM_cons, bind_eq_ok]
      constructor
      · rintro ⟨result, first, chained⟩
        obtain ⟨tail, collected, final⟩ := bind_eq_ok.mp chained
        cases final
        exact .cons first (inductionHypothesis.mp collected)
      · rintro (_ | ⟨first, collected⟩)
        exact ⟨_, first, bind_eq_ok.mpr ⟨_, inductionHypothesis.mpr collected, rfl⟩⟩

theorem mapM_eq_some {f : Alpha → Option Beta} {values : List Alpha} {results : List Beta} :
    values.mapM f = some results ↔
      List.Forall₂ (fun value result => f value = some result) values results := by
  induction values generalizing results with
  | nil => simp [eq_comm]
  | cons value rest inductionHypothesis =>
      rw [List.mapM_cons, Option.bind_eq_bind, Option.bind_eq_some_iff]
      constructor
      · rintro ⟨result, first, chained⟩
        obtain ⟨tail, collected, final⟩ := Option.bind_eq_some_iff.mp chained
        cases final
        exact .cons first (inductionHypothesis.mp collected)
      · rintro (_ | ⟨first, collected⟩)
        exact ⟨_, first, Option.bind_eq_some_iff.mpr ⟨_, inductionHypothesis.mpr collected, rfl⟩⟩

section Related

variable {Gamma : Type}

theorem rel_none_left {Relates : Alpha → Beta → Prop} {value : Option Beta} :
    Option.Rel Relates none value ↔ value = none := by
  cases value with
  | none => exact iff_of_true .none rfl
  | some found => exact iff_of_false (by rintro ⟨⟩) (by rintro ⟨⟩)

theorem exists_of_some_rel {Relates : Alpha → Beta → Prop} {value : Alpha} {result : Option Beta}
    (related : Option.Rel Relates (some value) result) :
    ∃ found, result = some found ∧ Relates value found := by
  cases related with
  | some both => exact ⟨_, rfl, both⟩

theorem exists_of_rel_some {Relates : Alpha → Beta → Prop} {value : Option Alpha} {result : Beta}
    (related : Option.Rel Relates value (some result)) :
    ∃ found, value = some found ∧ Relates found result := by
  cases related with
  | some both => exact ⟨_, rfl, both⟩

/-- Related options stay related when related computations continue them. -/
theorem rel_bind {Relates : Alpha → Beta → Prop} {Continues : Gamma → Gamma → Prop}
    {left : Option Alpha} {right : Option Beta} {f : Alpha → Option Gamma}
    {g : Beta → Option Gamma} (related : Option.Rel Relates left right)
    (continues : ∀ value result, Relates value result →
      Option.Rel Continues (f value) (g result)) :
    Option.Rel Continues (left.bind f) (right.bind g) := by
  cases related with
  | none => exact .none
  | some both => exact continues _ _ both

theorem rel_map {Delta : Type} {Relates : Alpha → Beta → Prop} {Image : Gamma → Delta → Prop}
    {left : Option Alpha} {right : Option Beta} {f : Alpha → Gamma} {g : Beta → Delta}
    (related : Option.Rel Relates left right)
    (maps : ∀ value result, Relates value result → Image (f value) (g result)) :
    Option.Rel Image (left.map f) (right.map g) := by
  cases related with
  | none => exact .none
  | some both => exact .some (maps _ _ both)

theorem rel_filter {Relates : Alpha → Beta → Prop} {left : Option Alpha} {right : Option Beta}
    {p : Alpha → Bool} {q : Beta → Bool} (related : Option.Rel Relates left right)
    (agree : ∀ value result, Relates value result → p value = q result) :
    Option.Rel Relates (left.filter p) (right.filter q) := by
  cases related with
  | none => exact .none
  | some both =>
      rw [Option.filter_some, Option.filter_some, agree _ _ both]
      split
      · exact .some both
      · exact .none

theorem rel_find? {Relates : Alpha → Beta → Prop} {values : List Alpha} {results : List Beta}
    {p : Alpha → Bool} {q : Beta → Bool} (related : List.Forall₂ Relates values results)
    (agree : ∀ value result, Relates value result → p value = q result) :
    Option.Rel Relates (values.find? p) (results.find? q) := by
  induction related with
  | nil => exact .none
  | cons first _ inductionHypothesis =>
      rw [List.find?_cons, List.find?_cons, agree _ _ first]
      split
      · exact .some first
      · exact inductionHypothesis

theorem rel_getElem? {Relates : Alpha → Beta → Prop} {values : List Alpha} {results : List Beta}
    (related : List.Forall₂ Relates values results) (i : ℕ) :
    Option.Rel Relates values[i]? results[i]? := by
  induction related generalizing i with
  | nil => exact .none
  | cons first _ inductionHypothesis =>
      cases i with
      | zero => exact .some first
      | succ i => exact inductionHypothesis i

/-- Two results fail with related errors or succeed with related values. -/
inductive RelExcept {Other : Type} (Errors : Error → Other → Prop) (Values : Alpha → Beta → Prop) :
    Except Error Alpha → Except Other Beta → Prop where
  | error {error : Error} {other : Other} : Errors error other →
      RelExcept Errors Values (.error error) (.error other)
  | ok {value : Alpha} {result : Beta} : Values value result →
      RelExcept Errors Values (.ok value) (.ok result)

/-- The same first result, continued in related ways. -/
theorem RelExcept.bind {Errors : Error → Error → Prop} {Values : Beta → Gamma → Prop}
    (refl : ∀ error, Errors error error) (result : Except Error Alpha)
    {f : Alpha → Except Error Beta} {g : Alpha → Except Error Gamma}
    (continues : ∀ value, RelExcept Errors Values (f value) (g value)) :
    RelExcept Errors Values (result >>= f) (result >>= g) := by
  cases result with
  | error error => exact .error (refl error)
  | ok value => exact continues value

end Related

theorem exists_forall₂ {Relates : Alpha → Beta → Prop} {values : List Alpha}
    (each : ∀ value ∈ values, ∃ result, Relates value result) :
    ∃ results, List.Forall₂ Relates values results := by
  induction values with
  | nil => exact ⟨[], .nil⟩
  | cons value rest inductionHypothesis =>
      obtain ⟨result, related⟩ := each value List.mem_cons_self
      obtain ⟨results, others⟩ := inductionHypothesis
        fun other member => each other (List.mem_cons_of_mem _ member)
      exact ⟨result :: results, .cons related others⟩

theorem exists_related {Relates : Alpha → Beta → Prop} {values : List Alpha} {results : List Beta}
    (related : List.Forall₂ Relates values results) {value : Alpha} (member : value ∈ values) :
    ∃ result ∈ results, Relates value result := by
  induction related with
  | nil => simp at member
  | cons first _ inductionHypothesis =>
      rcases List.mem_cons.mp member with rfl | inTail
      · exact ⟨_, List.mem_cons_self, first⟩
      · obtain ⟨result, found, relates⟩ := inductionHypothesis inTail
        exact ⟨result, List.mem_cons_of_mem _ found, relates⟩

theorem exists_of_mapM_eq_ok {f : Alpha → Except Error Beta} {values : List Alpha}
    {results : List Beta} (collected : values.mapM f = .ok results) {value : Alpha}
    (member : value ∈ values) : ∃ result ∈ results, f value = .ok result :=
  exists_related (mapM_eq_ok.mp collected) member

end Foundation
