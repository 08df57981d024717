import Sturnus.Foundation.Concurrent

/-!
# Tasks that leave no trace

Tasks that never change the shared state can be taken out of a run: what is
left is a run of the other tasks, which does the same.
-/

namespace Foundation.Concurrent

section Lists

variable {α : Type}

/-- Where an element that is kept ends up. -/
theorem getElem?_filter {keep : α → Bool} {list : List α} {i : ℕ} {a : α}
    (found : list[i]? = some a) (kept : keep a = true) :
    (list.filter keep)[(list.take i).countP keep]? = some a := by
  induction list generalizing i with
  | nil => cases found
  | cons head tail inductionHypothesis =>
      cases i with
      | zero =>
          cases found
          simp [kept]
      | succ i =>
          have later := inductionHypothesis found
          by_cases first : keep head = true
          · simpa [first] using later
          · simpa [first] using later

theorem filter_set_of_pos {keep : α → Bool} {list : List α} {i : ℕ} {a b : α}
    (found : list[i]? = some a) (kept : keep a = true) (keeps : keep b = true) :
    (list.set i b).filter keep = (list.filter keep).set ((list.take i).countP keep) b := by
  induction list generalizing i with
  | nil => cases found
  | cons head tail inductionHypothesis =>
      cases i with
      | zero =>
          cases found
          simp [kept, keeps]
      | succ i =>
          have later := inductionHypothesis found
          by_cases first : keep head = true
          · simp [first, later]
          · simp [first, later]

theorem filter_set_of_neg {keep : α → Bool} {list : List α} {i : ℕ} {a b : α}
    (found : list[i]? = some a) (dropped : keep a = false) (drops : keep b = false) :
    (list.set i b).filter keep = list.filter keep := by
  induction list generalizing i with
  | nil => rfl
  | cons head tail inductionHypothesis =>
      cases i with
      | zero =>
          cases found
          simp [dropped, drops]
      | succ i =>
          have later := inductionHypothesis found
          simp [List.filter_cons, later]

end Lists

variable {Shared Request Input Task Event : Type}
  {handler : Handler Shared Request Input Task Event} {initial : Shared}
  {system : System Shared Task Event}

/-- Tasks that are not kept stay as they are required to be. -/
theorem Run.dropped_rule (run : Run handler initial system) (keep : Task → Bool)
    (Idle : Task → Prop)
    (base : ∀ request, keep (handler.start request) = false → Idle (handler.start request))
    (steady : ∀ {shared next task after input events},
      handler.advance shared task input = some (next, after, events) → keep after = keep task)
    (step : ∀ {shared next task after input events}, Idle task →
      handler.advance shared task input = some (next, after, events) → Idle after) :
    ∀ task ∈ system.tasks, keep task = false → Idle task := by
  apply run.tasks_rule fun task => keep task = false → Idle task
  · exact base
  · intro shared next task after input events idle moved dropped
    rw [steady moved] at dropped
    exact step (idle dropped) moved

/-- A run without the tasks that, while idle, change nothing. -/
theorem Run.erase (run : Run handler initial system) (keep : Task → Bool) (Idle : Task → Prop)
    (base : ∀ request, keep (handler.start request) = false → Idle (handler.start request))
    (steady : ∀ {shared next task after input events},
      handler.advance shared task input = some (next, after, events) → keep after = keep task)
    (step : ∀ {shared next task after input events}, Idle task →
      handler.advance shared task input = some (next, after, events) →
        Idle after ∧ next = shared ∧ events = []) :
    ∃ rest : System Shared Task Event, Run handler initial rest ∧ rest.shared = system.shared ∧
      rest.tasks = system.tasks.filter keep ∧ rest.events = system.events := by
  induction run with
  | boot => exact ⟨_, .boot, rfl, rfl, rfl⟩
  | @accept system request reached inductionHypothesis =>
      obtain ⟨rest, run, shared, tasks, events⟩ := inductionHypothesis
      by_cases kept : keep (handler.start request) = true
      · refine ⟨_, run.accept request, shared, ?_, events⟩
        simp [tasks, kept]
      · refine ⟨rest, run, shared, ?_, events⟩
        simp [tasks, kept]
  | @advance system i task next input shared done reached found moved inductionHypothesis =>
      obtain ⟨rest, run, same, tasks, events⟩ := inductionHypothesis
      by_cases kept : keep task = true
      · have keeps := (steady moved).trans kept
        have foundKept : rest.tasks[(system.tasks.take i).countP keep]? = some task := by
          rw [tasks]
          exact getElem?_filter found kept
        rw [← same] at moved
        refine ⟨_, run.advance foundKept moved, rfl, ?_, ?_⟩
        · simp only [tasks, filter_set_of_pos found kept keeps]
        · unfold System.events at events ⊢
          simp [events, Function.comp_def]
      · have dropped := Bool.eq_false_iff.mpr kept
        have idle := reached.dropped_rule keep Idle base steady
          (fun idle moved => (step idle moved).1) task (List.mem_of_getElem? found) dropped
        obtain ⟨-, unchanged, nothing⟩ := step idle moved
        subst unchanged
        subst nothing
        refine ⟨rest, run, same, ?_, ?_⟩
        · rw [tasks, filter_set_of_neg found dropped ((steady moved).trans dropped)]
        · simp only [System.events, List.map_nil, List.append_nil]
          exact events

end Foundation.Concurrent
