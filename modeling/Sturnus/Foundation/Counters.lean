import Mathlib.Algebra.Ring.Nat
import Mathlib.Algebra.BigOperators.Group.List.Basic
import Mathlib.Algebra.BigOperators.Group.Finset.Basic
import Mathlib.Tactic.Common

/-!
# Families of counters

A counter for each label that was ever used, in the order of first use.
-/

namespace Foundation

variable {Label : Type}

abbrev Counters (Label : Type) := List (Label × ℕ)

namespace Counters

/-- The sum of the counters whose label satisfies `p`. -/
def total (p : Label → Bool) (counters : Counters Label) : ℕ :=
  ((counters.filter fun counter => p counter.1).map Prod.snd).sum

@[simp] theorem total_nil (p : Label → Bool) : total p ([] : Counters Label) = 0 := rfl

theorem total_cons (p : Label → Bool) (counter : Label × ℕ) (rest : Counters Label) :
    total p (counter :: rest) = (if p counter.1 then counter.2 else 0) + total p rest := by
  unfold total
  cases chosen : p counter.1 <;> simp [chosen]

variable [DecidableEq Label]

/-- Add to the counter of a label, which starts at zero. -/
def add (amount : ℕ) (label : Label) : Counters Label → Counters Label
  | [] => [(label, amount)]
  | (first, count) :: rest =>
      if first = label then (first, count + amount) :: rest
      else (first, count) :: add amount label rest

/-- `with_label_values(label).inc()`. -/
def inc (counters : Counters Label) (label : Label) : Counters Label := add 1 label counters

/-- `with_label_values(label)`: a missing counter appears with the value zero. -/
def touch (counters : Counters Label) (label : Label) : Counters Label := add 0 label counters

theorem total_add (p : Label → Bool) (amount : ℕ) (label : Label) (counters : Counters Label) :
    total p (add amount label counters) = total p counters + if p label then amount else 0 := by
  induction counters with
  | nil => simp [add, total_cons]
  | cons counter rest inductionHypothesis =>
      obtain ⟨first, count⟩ := counter
      unfold add
      by_cases here : first = label
      · subst here
        rw [if_pos rfl, total_cons, total_cons]
        cases p first
        · simp
        · simp only [if_true]
          omega
      · rw [if_neg here, total_cons, total_cons, inductionHypothesis, Nat.add_assoc]

theorem total_inc (p : Label → Bool) (label : Label) (counters : Counters Label) :
    total p (inc counters label) = total p counters + if p label then 1 else 0 :=
  total_add p 1 label counters

theorem total_touch (p : Label → Bool) (label : Label) (counters : Counters Label) :
    total p (touch counters label) = total p counters :=
  (total_add p 0 label counters).trans (by simp)

section Lookup

theorem lookup_cons_of_ne {label first : Label} (different : label ≠ first) (count : ℕ)
    (rest : Counters Label) : List.lookup label ((first, count) :: rest) = rest.lookup label := by
  rw [List.lookup_cons, beq_false_of_ne different]

theorem lookup_add (amount : ℕ) (label other : Label) (counters : Counters Label) :
    (add amount label counters).lookup other =
      if other = label then some ((counters.lookup label).getD 0 + amount)
      else counters.lookup other := by
  induction counters with
  | nil =>
      unfold add
      by_cases here : other = label
      · subst here
        simp
      · rw [lookup_cons_of_ne here, if_neg here]
  | cons counter rest inductionHypothesis =>
      obtain ⟨first, count⟩ := counter
      unfold add
      by_cases known : first = label
      · subst known
        by_cases here : other = first
        · subst here
          simp
        · rw [if_pos rfl, if_neg here, lookup_cons_of_ne here, lookup_cons_of_ne here]
      · rw [if_neg known, lookup_cons_of_ne (Ne.symm known)]
        by_cases here : other = first
        · subst here
          simp [known]
        · rw [lookup_cons_of_ne here, lookup_cons_of_ne here, inductionHypothesis]

/-- Equal counters are equal after the same addition, whatever their order. -/
theorem lookup_add_congr {left right : Counters Label}
    (same : ∀ label, left.lookup label = right.lookup label) (amount : ℕ) (label other : Label) :
    (add amount label left).lookup other = (add amount label right).lookup other := by
  rw [lookup_add, lookup_add, same, same]

theorem lookup_foldl_touch (labels : List Label) (counters : Counters Label) (other : Label) :
    (labels.foldl touch counters).lookup other =
      if other ∈ labels then some ((counters.lookup other).getD 0) else counters.lookup other := by
  induction labels generalizing counters with
  | nil => simp
  | cons label rest inductionHypothesis =>
      rw [List.foldl_cons, inductionHypothesis, touch, lookup_add]
      by_cases here : other = label
      · subst here
        simp
      · simp [here]

end Lookup

end Counters

end Foundation
