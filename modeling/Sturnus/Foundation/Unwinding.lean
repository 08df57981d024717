import Mathlib.Data.List.Basic
import Mathlib.Tactic.Common

/-!
# Non-interference by unwinding

A deterministic machine and an observer who is shown part of every input and
the outputs the machine addresses to it.  Two runs whose inputs look the same
to the observer give it the same outputs, provided some equivalence of states
survives the inputs it does not see and is kept by those it does.
-/

namespace Foundation

/-- `emits` is what the observer gets to see of one step. -/
structure Machine (State Input Output : Type) where
  next : State → Input → State
  emits : State → Input → Option Output

namespace Machine

variable {State Input Output View : Type} (machine : Machine State Input Output)

/-- The observer's outputs of a run, in order. -/
def trace : State → List Input → List Output
  | _, [] => []
  | state, input :: rest =>
      (machine.emits state input).toList ++ trace (machine.next state input) rest

def run (state : State) (inputs : List Input) : State := inputs.foldl machine.next state

theorem trace_append (state : State) (first second : List Input) :
    machine.trace state (first ++ second) =
      machine.trace state first ++ machine.trace (machine.run state first) second := by
  induction first generalizing state with
  | nil => rfl
  | cons input rest inductionHypothesis =>
      simp only [List.cons_append, trace, inductionHypothesis, List.append_assoc]
      rfl

/-- What the observer must not be able to tell apart. -/
structure Unwinds (view : Input → Option View) (Agree : State → State → Prop) : Prop where
  equivalence : Equivalence Agree
  silent : ∀ state input, view input = none → machine.emits state input = none
  invisible : ∀ state input, view input = none → Agree state (machine.next state input)
  output : ∀ left right input other seen, Agree left right → view input = some seen →
    view other = some seen → machine.emits left input = machine.emits right other
  visible : ∀ left right input other seen, Agree left right → view input = some seen →
    view other = some seen → Agree (machine.next left input) (machine.next right other)

namespace Unwinds

variable {machine : Machine State Input Output} {view : Input → Option View}
  {Agree : State → State → Prop}

/-- A stretch of invisible inputs shows nothing and leaves an equivalent state. -/
theorem stutter (unwinds : machine.Unwinds view Agree) {inputs : List Input}
    (unseen : ∀ input ∈ inputs, view input = none) (state : State) :
    machine.trace state inputs = [] ∧ Agree state (machine.run state inputs) := by
  induction inputs generalizing state with
  | nil => exact ⟨rfl, unwinds.equivalence.refl state⟩
  | cons input rest inductionHypothesis =>
      have hidden : view input = none := unseen input List.mem_cons_self
      obtain ⟨quiet, reached⟩ := inductionHypothesis
        (fun other member => unseen other (List.mem_cons_of_mem _ member)) (machine.next state input)
      constructor
      · rw [trace, unwinds.silent state input hidden, quiet]
        rfl
      · exact unwinds.equivalence.trans (unwinds.invisible state input hidden) reached

/-- Runs that look the same show the same. -/
theorem trace_eq (unwinds : machine.Unwinds view Agree) {left right : List Input}
    (sameView : left.filterMap view = right.filterMap view) {state other : State}
    (agree : Agree state other) : machine.trace state left = machine.trace other right := by
  induction left generalizing right state other with
  | nil =>
      have unseen : ∀ input ∈ right, view input = none :=
        List.filterMap_eq_nil_iff.mp sameView.symm
      exact (unwinds.stutter unseen other).1.symm
  | cons input rest inductionHypothesis =>
      cases seen : view input with
      | none =>
          rw [List.filterMap_cons_none seen] at sameView
          have kept : Agree (machine.next state input) other :=
            unwinds.equivalence.trans
              (unwinds.equivalence.symm (unwinds.invisible state input seen)) agree
          rw [trace, unwinds.silent state input seen]
          exact inductionHypothesis sameView kept
      | some shown =>
          rw [List.filterMap_cons_some seen] at sameView
          -- The counterpart of `input` comes after a stretch the observer does not see.
          obtain ⟨before, counterpart, after, rfl, unseen, sameShown, sameRest⟩ :=
            List.filterMap_eq_cons_iff.mp sameView.symm
          obtain ⟨quiet, reached⟩ := unwinds.stutter unseen other
          have aligned := unwinds.equivalence.trans agree reached
          have kept := unwinds.visible _ _ _ _ _ aligned seen sameShown
          rw [trace_append, quiet, List.nil_append, trace, trace,
            unwinds.output _ _ _ _ _ aligned seen sameShown,
            inductionHypothesis sameRest.symm kept]

end Unwinds

end Machine

end Foundation
