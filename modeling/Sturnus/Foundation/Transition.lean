import Mathlib.Logic.Relation
import Mathlib.Tactic.Common

/-!
# Transition systems

A system steps by a partial function of its state for every action; an action
without a result is not enabled.
-/

namespace Foundation.Transition

variable {State Action : Type}

/-- Some action leads from the one state to the other. -/
def Steps (step : State → Action → Option State) (before after : State) : Prop :=
  ∃ action, step before action = some after

/-- The states that follow a state in some run. -/
abbrev Reaches (step : State → Action → Option State) : State → State → Prop :=
  Relation.ReflTransGen (Steps step)

/-- Perform some actions in order. -/
def perform (step : State → Action → Option State) (state : State) :
    List Action → Option State
  | [] => some state
  | action :: rest => (step state action).bind fun next => perform step next rest

variable {step : State → Action → Option State} {initial state after : State}

/-- What holds at first, and is kept by every step of a run, holds all along. -/
theorem Reaches.rule (reached : Reaches step initial state) (Holds : State → Prop)
    (base : Holds initial)
    (keeps : ∀ {before action after}, Reaches step initial before → Holds before →
      step before action = some after → Holds after) : Holds state := by
  induction reached with
  | refl => exact base
  | tail earlier moved inductionHypothesis =>
      obtain ⟨action, moved⟩ := moved
      exact keeps earlier inductionHypothesis moved

theorem Reaches.of_perform {actions : List Action}
    (performed : perform step initial actions = some state) : Reaches step initial state := by
  induction actions generalizing initial with
  | nil =>
      cases performed
      exact .refl
  | cons action rest inductionHypothesis =>
      obtain ⟨next, moved, rest⟩ := Option.bind_eq_some_iff.mp performed
      exact .head ⟨action, moved⟩ (inductionHypothesis rest)

/-- Where some action of a kind always lowers a rank, actions of that kind lead to the goal. -/
theorem exists_perform (Kind : Action → Prop) (Holds Goal : State → Prop) (rank : State → ℕ)
    (progress : ∀ state, Holds state → ¬Goal state → ∃ action after, Kind action ∧
      step state action = some after ∧ Holds after ∧ rank after < rank state)
    (holds : Holds state) :
    ∃ actions final, actions.length ≤ rank state ∧ (∀ action ∈ actions, Kind action) ∧
      perform step state actions = some final ∧ Goal final := by
  induction bound : rank state using Nat.strongRecOn generalizing state with
  | ind measure inductionHypothesis =>
      by_cases done : Goal state
      · exact ⟨[], state, Nat.zero_le _, List.forall_mem_nil _, rfl, done⟩
      · obtain ⟨action, next, kind, moved, kept, lower⟩ := progress state holds done
        obtain ⟨rest, final, short, kinds, performed, goal⟩ :=
          inductionHypothesis (rank next) (bound ▸ lower) kept rfl
        refine ⟨action :: rest, final, ?_, List.forall_mem_cons.mpr ⟨kind, kinds⟩, ?_, goal⟩
        · rw [← bound]
          exact Nat.lt_of_le_of_lt short lower
        · exact Option.bind_eq_some_iff.mpr ⟨next, moved, performed⟩

end Foundation.Transition
