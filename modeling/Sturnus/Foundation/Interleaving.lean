import Mathlib.Data.List.Basic

/-!
# Interleavings of sequential programs

A program is the list of its atomic steps.  A schedule picks, again and again,
one program that is not finished and runs its next step.
-/

namespace Foundation

variable {Atom : Type}

inductive Interleaving : List (List Atom) → List Atom → Prop where
  | finished {programs} : (∀ program ∈ programs, program = []) → Interleaving programs []
  | step {before after : List (List Atom)} {atom : Atom} {rest schedule : List Atom} :
      Interleaving (before ++ rest :: after) schedule →
      Interleaving (before ++ (atom :: rest) :: after) (atom :: schedule)

namespace Interleaving

/-- A schedule runs every step of every program once. -/
theorem perm {programs : List (List Atom)} {schedule : List Atom}
    (run : Interleaving programs schedule) : schedule.Perm programs.flatten := by
  induction run with
  | finished allDone =>
      have empty : ∀ program ∈ _, program = [] := allDone
      rw [List.flatten_eq_nil_iff.mpr empty]
  | @step before after atom rest schedule _ inductionHypothesis =>
      have moved : (before ++ (atom :: rest) :: after).flatten.Perm
          (atom :: (before ++ rest :: after).flatten) := by
        simp only [List.flatten_append, List.flatten_cons, List.cons_append]
        exact List.perm_middle
      exact (inductionHypothesis.cons atom).trans moved.symm

end Interleaving

end Foundation
