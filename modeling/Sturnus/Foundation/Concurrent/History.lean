import Sturnus.Foundation.Concurrent

/-!
# Tasks with their histories

A task that keeps its request and the inputs it has taken runs as the task itself does.  Two
tasks of two runs are compared input by input, wherever in the runs each input was taken.
-/

namespace Foundation.Concurrent

variable {Shared Request Input Task Event : Type}

/-- A task with the request that started it and the inputs it has taken, in order. -/
structure Recorded (Request Input Task : Type) where
  request : Request
  inputs : List Input
  task : Task

def Recorded.start (handler : Handler Shared Request Input Task Event) (request : Request) :
    Recorded Request Input Task where
  request := request
  inputs := []
  task := handler.start request

def Recorded.take (recorded : Recorded Request Input Task) (input : Input) (next : Task) :
    Recorded Request Input Task where
  request := recorded.request
  inputs := recorded.inputs ++ [input]
  task := next

/-- The same tasks, each with its history. -/
def Handler.recorded (handler : Handler Shared Request Input Task Event) :
    Handler Shared Request Input (Recorded Request Input Task) Event where
  start := Recorded.start handler
  advance shared recorded input :=
    (handler.advance shared recorded.task input).map fun (after, next, events) =>
      (after, recorded.take input next, events)

/-- The system without the histories. -/
def System.forget (system : System Shared (Recorded Request Input Task) Event) :
    System Shared Task Event where
  shared := system.shared
  tasks := system.tasks.map Recorded.task
  journal := system.journal

section Recording

variable {handler : Handler Shared Request Input Task Event} {initial : Shared}

theorem Handler.recorded_advance {shared after : Shared}
    {recorded next : Recorded Request Input Task} {input : Input} {events : List Event} :
    handler.recorded.advance shared recorded input = some (after, next, events) ↔
      ∃ task, handler.advance shared recorded.task input = some (after, task, events) ∧
        next = recorded.take input task := by
  constructor
  · intro moved
    obtain ⟨⟨_, task, _⟩, advanced, same⟩ := Option.map_eq_some_iff.mp moved
    cases same
    exact ⟨task, advanced, rfl⟩
  · rintro ⟨task, advanced, rfl⟩
    exact Option.map_eq_some_iff.mpr ⟨_, advanced, rfl⟩

/-- Forgetting the histories leaves a run. -/
theorem Run.forget {system : System Shared (Recorded Request Input Task) Event}
    (run : Run handler.recorded initial system) : Run handler initial system.forget := by
  induction run with
  | boot => exact .boot
  | accept request _ inductionHypothesis =>
      have accepted := inductionHypothesis.accept request
      unfold System.forget at accepted ⊢
      rw [List.map_append]
      exact accepted
  | @advance system i recorded next input shared events _ found moved inductionHypothesis =>
      obtain ⟨task, advanced, rfl⟩ := Handler.recorded_advance.mp moved
      have foundTask : system.forget.tasks[i]? = some recorded.task := by
        unfold System.forget
        rw [List.getElem?_map, found]
        rfl
      have taken := inductionHypothesis.advance foundTask advanced
      unfold System.forget at taken ⊢
      rw [List.map_set]
      exact taken

end Recording

section Reached

/-- What a task may be after its inputs, each of them taken in some state that is reached. -/
inductive Reached (handler : Handler Shared Request Input Task Event) (initial : Shared) :
    Recorded Request Input Task → Prop where
  | start (request : Request) : Reached handler initial (.start handler request)
  | take {system : System Shared Task Event} {recorded : Recorded Request Input Task}
      {input : Input} {shared : Shared} {next : Task} {events : List Event} :
      Run handler initial system → Reached handler initial recorded →
      handler.advance system.shared recorded.task input = some (shared, next, events) →
      Reached handler initial (recorded.take input next)

variable {handler : Handler Shared Request Input Task Event} {initial : Shared}

theorem Run.reached {system : System Shared (Recorded Request Input Task) Event}
    (run : Run handler.recorded initial system) :
    ∀ recorded ∈ system.tasks, Reached handler initial recorded := by
  induction run with
  | boot => exact List.forall_mem_nil _
  | accept request _ inductionHypothesis =>
      intro recorded member
      rcases List.mem_append.mp member with earlier | new
      · exact inductionHypothesis recorded earlier
      · rw [List.mem_singleton.mp new]
        exact .start request
  | @advance system i moving next input shared events run found moved inductionHypothesis =>
      intro recorded member
      rcases List.mem_or_eq_of_mem_set member with other | rfl
      · exact inductionHypothesis recorded other
      · obtain ⟨task, advanced, rfl⟩ := Handler.recorded_advance.mp moved
        exact .take run.forget (inductionHypothesis moving (List.mem_of_getElem? found)) advanced

variable {Shared' Task' Event' : Type} {twin : Handler Shared' Request Input Task' Event'}
  {initial' : Shared'}

/-- Tasks of one request that took the same inputs are related, if every input keeps them so,
whatever the two states it is taken in. -/
theorem Reached.related {one : Recorded Request Input Task} {other : Recorded Request Input Task'}
    (left : Reached handler initial one) (right : Reached twin initial' other)
    (request : one.request = other.request) (inputs : one.inputs = other.inputs)
    (Related : Request → Task → Task' → Prop)
    (base : ∀ request, Related request (handler.start request) (twin.start request))
    (step : ∀ {request system system' task task' input after after' next next' events events'},
      Run handler initial system → Run twin initial' system' → Related request task task' →
      handler.advance system.shared task input = some (after, next, events) →
      twin.advance system'.shared task' input = some (after', next', events') →
        Related request next next') :
    Related one.request one.task other.task := by
  induction left generalizing other with
  | start given =>
      cases right with
      | start =>
          cases request
          exact base given
      | take =>
          exact absurd inputs.symm
            (List.append_ne_nil_of_right_ne_nil _ (List.cons_ne_nil _ _))
  | take run _ advanced inductionHypothesis =>
      cases right with
      | start =>
          exact absurd inputs (List.append_ne_nil_of_right_ne_nil _ (List.cons_ne_nil _ _))
      | take runRight earlier advancedRight =>
          obtain ⟨before, last⟩ := List.append_inj' inputs rfl
          cases last
          have related := inductionHypothesis earlier request before
          exact step run runRight related advanced advancedRight

end Reached

end Foundation.Concurrent
