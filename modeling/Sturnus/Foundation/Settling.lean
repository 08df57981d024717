import Mathlib.Logic.Function.Iterate
import Mathlib.Tactic.Common

/-!
# Iterations that settle

A property settles when it holds from some iteration on.
-/

namespace Foundation

variable {State Value : Type}

def Settles (step : State → State) (Good : State → Prop) (start : State) : Prop :=
  ∃ n, ∀ m, n ≤ m → Good (step^[m] start)

variable {step : State → State} {Good Inv : State → Prop} {start : State}

theorem iterate_invariant (kept : ∀ state, Inv state → Inv (step state)) (base : Inv start)
    (n : ℕ) :
    Inv (step^[n] start) := by
  induction n with
  | zero => exact base
  | succ n inductionHypothesis =>
      rw [Function.iterate_succ_apply']
      exact kept _ inductionHypothesis

theorem settles_of_good (keptGood : ∀ state, Good state → Good (step state)) (good : Good start) :
    Settles step Good start :=
  ⟨0, fun m _ => iterate_invariant keptGood good m⟩

theorem Settles.mono {Fine : State → Prop} (weaker : ∀ state, Good state → Fine state)
    (settles : Settles step Good start) : Settles step Fine start := by
  obtain ⟨n, settled⟩ := settles
  exact ⟨n, fun m after => weaker _ (settled m after)⟩

/-- Where the property does not hold yet, a rank goes down. -/
theorem settles_of_descent (Inv : State → Prop) (rank : State → ℕ)
    (keptGood : ∀ state, Good state → Good (step state))
    (kept : ∀ state, Inv state → Inv (step state))
    (descends : ∀ state, Inv state → ¬Good state → rank (step state) < rank state)
    (base : Inv start) : Settles step Good start := by
  induction bound : rank start using Nat.strongRecOn generalizing start with
  | ind bound inductionHypothesis =>
      by_cases good : Good start
      · exact settles_of_good keptGood good
      · have lower := descends start base good
        obtain ⟨n, settled⟩ := inductionHypothesis _ (by omega) (kept start base) rfl
        refine ⟨n + 1, ?_⟩
        intro m after
        obtain ⟨earlier, rfl⟩ := Nat.exists_eq_add_of_le' (Nat.le_of_add_left_le after)
        rw [Function.iterate_succ_apply]
        exact settled earlier (by omega)

/-- An invariant that excludes the property keeps it from ever settling. -/
theorem not_settles_of_invariant (Inv : State → Prop) (kept : ∀ state, Inv state → Inv (step state))
    (excludes : ∀ state, Inv state → ¬Good state) (base : Inv start) :
    ¬Settles step Good start := by
  rintro ⟨n, settled⟩
  exact excludes _ (iterate_invariant kept base n) (settled n (Nat.le_refl n))

/-- Only the part of the state the property reads has to be iterated. -/
theorem settles_iff_of_semiconj {read : State → Value} {next : Value → Value} (Fine : Value → Prop)
    (follows : Function.Semiconj read step next) :
    Settles step (fun state => Fine (read state)) start ↔ Settles next Fine (read start) := by
  have same (m : ℕ) : read (step^[m] start) = next^[m] (read start) :=
    follows.iterate_right m start
  simp only [Settles, same]

end Foundation
