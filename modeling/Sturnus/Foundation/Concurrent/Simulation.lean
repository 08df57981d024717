import Mathlib.Data.List.Forall2
import Sturnus.Foundation.Concurrent

/-!
# Related systems

Handlers that start related tasks, and advance related tasks in related ways,
have related runs.
-/

namespace Foundation.Concurrent

section Lists

variable {α β : Type}

theorem forall₂_set {R : α → β → Prop} {left : List α} {right : List β}
    (related : List.Forall₂ R left right) (i : ℕ) {a : α} {b : β} (both : R a b) :
    List.Forall₂ R (left.set i a) (right.set i b) := by
  induction related generalizing i with
  | nil => exact .nil
  | cons head tail inductionHypothesis =>
      cases i with
      | zero => exact .cons both tail
      | succ i => exact .cons head (inductionHypothesis i)

/-- On one side only, to another element that is related to the same. -/
theorem forall₂_set_left {R : α → β → Prop} {left : List α} {right : List β}
    (related : List.Forall₂ R left right) {i : ℕ} {a : α} {b : β} (found : right[i]? = some b)
    (both : R a b) : List.Forall₂ R (left.set i a) right := by
  obtain ⟨inside, rfl⟩ := List.getElem?_eq_some_iff.mp found
  have kept := forall₂_set related i both
  rwa [List.set_getElem_self] at kept

theorem forall₂_getElem? {R : α → β → Prop} {left : List α} {right : List β}
    (related : List.Forall₂ R left right) {i : ℕ} {a : α} (found : left[i]? = some a) :
    ∃ b, right[i]? = some b ∧ R a b := by
  induction related generalizing i with
  | nil => cases found
  | cons head tail inductionHypothesis =>
      cases i with
      | zero =>
          cases found
          exact ⟨_, rfl, head⟩
      | succ i => exact inductionHypothesis found

end Lists

variable {Shared Request Input Task Event Shared' Task' Event' : Type}

/-- Two systems whose states, tasks and journals correspond. -/
structure System.Related (States : Shared → Shared' → Prop) (Tasks : Task → Task' → Prop)
    (Events : Event → Event' → Prop) (system : System Shared Task Event)
    (other : System Shared' Task' Event') : Prop where
  shared : States system.shared other.shared
  tasks : List.Forall₂ Tasks system.tasks other.tasks
  journal : List.Forall₂ (fun entry twin => entry.1 = twin.1 ∧ Events entry.2 twin.2)
    system.journal other.journal

variable {handler : Handler Shared Request Input Task Event}
  {twin : Handler Shared' Request Input Task' Event'} {initial : Shared} {initial' : Shared'}
  {system : System Shared Task Event} {States : Shared → Shared' → Prop}
  {Tasks : Task → Task' → Prop} {Events : Event → Event' → Prop}

/-- Every run has a related run, with the same requests and inputs in the same order. -/
theorem Run.simulate (run : Run handler initial system) (base : States initial initial')
    (starts : ∀ request, Tasks (handler.start request) (twin.start request))
    (advances : ∀ {shared shared' task task'} input, States shared shared' → Tasks task task' →
      Option.Rel (fun result result' => States result.1 result'.1 ∧ Tasks result.2.1 result'.2.1 ∧
          List.Forall₂ Events result.2.2 result'.2.2)
        (handler.advance shared task input) (twin.advance shared' task' input)) :
    ∃ other, Run twin initial' other ∧ system.Related States Tasks Events other := by
  induction run with
  | boot => exact ⟨_, .boot, base, .nil, .nil⟩
  | accept request _ inductionHypothesis =>
      obtain ⟨other, run, related⟩ := inductionHypothesis
      refine ⟨_, run.accept request, related.shared, ?_, related.journal⟩
      exact List.rel_append related.tasks (.cons (starts request) .nil)
  | @advance system i task next input shared events _ found moved inductionHypothesis =>
      obtain ⟨other, run, related⟩ := inductionHypothesis
      obtain ⟨task', foundTask, tasks⟩ := forall₂_getElem? related.tasks found
      have result := advances input related.shared tasks
      rw [moved] at result
      generalize advanced : twin.advance other.shared task' input = after at result
      cases result with
      | @some _ after both =>
          obtain ⟨states, nexts, recorded⟩ := both
          refine ⟨_, run.advance foundTask advanced, states, forall₂_set related.tasks i nexts, ?_⟩
          apply List.rel_append related.journal
          rw [List.forall₂_map_left_iff, List.forall₂_map_right_iff]
          exact recorded.imp fun _ _ same => ⟨rfl, same⟩

end Foundation.Concurrent
