import Mathlib.Algebra.BigOperators.Group.Finset.Basic
import Mathlib.Algebra.BigOperators.Fin
import Mathlib.Data.List.GetD
import Mathlib.Tactic.Common

/-!
# Tasks over a shared state

A system is a shared state and the tasks started so far.  Any task may advance
at any time; an advance reads and changes the shared state, and the journal
keeps what it did, under the number of the task.
-/

namespace Foundation.Concurrent

variable {Shared Request Input Task Event : Type}

/-- How a task starts and what one advance of it does; `none` is not enabled. -/
structure Handler (Shared Request Input Task Event : Type) where
  start : Request → Task
  advance : Shared → Task → Input → Option (Shared × Task × List Event)

structure System (Shared Task Event : Type) where
  shared : Shared
  tasks : List Task
  journal : List (ℕ × Event)

namespace System

def boot (shared : Shared) : System Shared Task Event := ⟨shared, [], []⟩

/-- Everything that was done, in order. -/
def events (system : System Shared Task Event) : List Event := system.journal.map Prod.snd

/-- What one task did. -/
def journalOf (system : System Shared Task Event) (i : ℕ) : List Event :=
  (system.journal.filter (·.1 == i)).map Prod.snd

end System

/-- Every order in which requests arrive and tasks advance. -/
inductive Run (handler : Handler Shared Request Input Task Event) (initial : Shared) :
    System Shared Task Event → Prop where
  | boot : Run handler initial (.boot initial)
  | accept {system} (request : Request) : Run handler initial system →
      Run handler initial { system with tasks := system.tasks ++ [handler.start request] }
  | advance {system} {i : ℕ} {task next : Task} {input : Input} {shared : Shared}
      {events : List Event} : Run handler initial system → system.tasks[i]? = some task →
      handler.advance system.shared task input = some (shared, next, events) →
      Run handler initial
        ⟨shared, system.tasks.set i next, system.journal ++ events.map fun event => (i, event)⟩

open Classical in
/-- The same tasks, which advance only where a condition allows it. -/
noncomputable def Handler.restrict (handler : Handler Shared Request Input Task Event)
    (Allowed : Shared → Task → Input → Prop) : Handler Shared Request Input Task Event where
  start := handler.start
  advance shared task input :=
    if Allowed shared task input then handler.advance shared task input else none

theorem Handler.restrict_advance {handler : Handler Shared Request Input Task Event}
    {Allowed : Shared → Task → Input → Prop} {shared : Shared} {task : Task} {input : Input}
    {result : Shared × Task × List Event} :
    (handler.restrict Allowed).advance shared task input = some result ↔
      Allowed shared task input ∧ handler.advance shared task input = some result := by
  unfold restrict
  dsimp only
  split
  next allowed => exact ⟨fun moved => ⟨allowed, moved⟩, fun both => both.2⟩
  next refused =>
    constructor
    · intro moved
      cases moved
    · intro both
      exact absurd both.1 refused

namespace Run

variable {handler : Handler Shared Request Input Task Event} {initial : Shared}
  {system : System Shared Task Event}

/-- A run whose advances are all allowed is a run. -/
theorem of_restrict {Allowed : Shared → Task → Input → Prop}
    (run : Run (handler.restrict Allowed) initial system) : Run handler initial system := by
  induction run with
  | boot => exact .boot
  | accept request _ inductionHypothesis => exact .accept request inductionHypothesis
  | advance _ found moved inductionHypothesis =>
      exact .advance inductionHypothesis found (Handler.restrict_advance.mp moved).2

/-- A run all of whose states allow the advance is a run of the restricted tasks. -/
theorem restrict {Allowed : Shared → Task → Input → Prop} (run : Run handler initial system)
    (allowed : ∀ {system : System Shared Task Event}, Run handler initial system →
      ∀ task input, Allowed system.shared task input) :
    Run (handler.restrict Allowed) initial system := by
  induction run with
  | boot => exact .boot
  | accept request _ inductionHypothesis => exact .accept request inductionHypothesis
  | advance reached found moved inductionHypothesis =>
      exact .advance inductionHypothesis found
        (Handler.restrict_advance.mpr ⟨allowed reached _ _, moved⟩)

/-- A request arrives and advances before any other task does. -/
theorem accept_advance (run : Run handler initial system) {request : Request} {shared : Shared}
    {next : Task} {input : Input} {events : List Event}
    (moved : handler.advance system.shared (handler.start request) input =
      some (shared, next, events)) :
    ∃ journal, Run handler initial ⟨shared, system.tasks ++ [next], journal⟩ := by
  have found : (system.tasks ++ [handler.start request])[system.tasks.length]? =
      some (handler.start request) := List.getElem?_concat_length
  have advanced := (run.accept request).advance found moved
  simp only [List.set_append_right _ _ (Nat.le_refl _), Nat.sub_self, List.set_cons_zero]
    at advanced
  exact ⟨_, advanced⟩

/-- The task that arrived last advances. -/
theorem last_advance {shared next : Shared} {tasks : List Task} {task after : Task}
    {journal : List (ℕ × Event)} {input : Input} {events : List Event}
    (run : Run handler initial ⟨shared, tasks ++ [task], journal⟩)
    (moved : handler.advance shared task input = some (next, after, events)) :
    ∃ journal, Run handler initial ⟨next, tasks ++ [after], journal⟩ := by
  have found : (tasks ++ [task])[tasks.length]? = some task := List.getElem?_concat_length
  have advanced := run.advance found moved
  simp only [List.set_append_right _ _ (Nat.le_refl _), Nat.sub_self, List.set_cons_zero]
    at advanced
  exact ⟨_, advanced⟩

/-- A request that arrives at an idle system. -/
theorem alone (handler : Handler Shared Request Input Task Event) (initial : Shared)
    (request : Request) : Run handler initial ⟨initial, [handler.start request], []⟩ :=
  .accept request .boot

/-- The only task of a system advances. -/
theorem alone_advance {shared next : Shared} {task after : Task} {journal : List (ℕ × Event)}
    {input : Input} {events : List Event} (run : Run handler initial ⟨shared, [task], journal⟩)
    (moved : handler.advance shared task input = some (next, after, events)) :
    Run handler initial ⟨next, [after], journal ++ events.map fun event => (0, event)⟩ := by
  have found : [task][0]? = some task := rfl
  exact run.advance found moved

/-- A relation between the shared state and what was done that every advance keeps. -/
theorem shared_rule (run : Run handler initial system) (Holds : Shared → List Event → Prop)
    (base : Holds initial [])
    (step : ∀ {shared next task after input done events}, Holds shared done →
      handler.advance shared task input = some (next, after, events) →
        Holds next (done ++ events)) :
    Holds system.shared system.events := by
  induction run with
  | boot => exact base
  | accept request _ inductionHypothesis => exact inductionHypothesis
  | @advance system i task next input shared events _ _ moved inductionHypothesis =>
      have same : System.events ⟨shared, system.tasks.set i next,
          system.journal ++ events.map fun event => (i, event)⟩ = system.events ++ events := by
        simp [System.events, Function.comp_def]
      rw [same]
      exact step inductionHypothesis moved

/-- Only started tasks have entries in the journal. -/
theorem journal_lt (run : Run handler initial system) :
    ∀ entry ∈ system.journal, entry.1 < system.tasks.length := by
  induction run with
  | boot => simp [System.boot]
  | accept request _ inductionHypothesis =>
      intro entry member
      have started := inductionHypothesis entry member
      rw [List.length_append]
      exact Nat.lt_add_right _ started
  | @advance system i task next input shared events _ found _ inductionHypothesis =>
      intro entry member
      rw [List.length_set]
      rcases List.mem_append.mp member with old | new
      · exact inductionHypothesis entry old
      · obtain ⟨event, -, rfl⟩ := List.mem_map.mp new
        exact (List.getElem?_eq_some_iff.mp found).1

/-- An entry of the journal belongs to a started task and to what that task did. -/
theorem exists_task (run : Run handler initial system) {i : ℕ} {event : Event}
    (member : (i, event) ∈ system.journal) :
    ∃ task, system.tasks[i]? = some task ∧ event ∈ system.journalOf i := by
  have started := run.journal_lt (i, event) member
  refine ⟨system.tasks[i], List.getElem?_eq_getElem started, ?_⟩
  apply List.mem_map.mpr
  exact ⟨(i, event), List.mem_filter.mpr ⟨member, beq_self_eq_true i⟩, rfl⟩

theorem journalOf_eq_nil (run : Run handler initial system) {i : ℕ}
    (unstarted : system.tasks.length ≤ i) : system.journalOf i = [] := by
  unfold System.journalOf
  rw [List.map_eq_nil_iff, List.filter_eq_nil_iff]
  intro entry member same
  have started := run.journal_lt entry member
  rw [beq_iff_eq] at same
  omega

/-- A relation between a task and what it did that every advance of it keeps. -/
theorem task_rule (run : Run handler initial system) (Holds : Task → List Event → Prop)
    (base : ∀ request, Holds (handler.start request) [])
    (step : ∀ {system} (_ : Run handler initial system) {task next input shared done events},
      Holds task done → handler.advance system.shared task input = some (shared, next, events) →
        Holds next (done ++ events))
    {i : ℕ} {task : Task} (found : system.tasks[i]? = some task) :
    Holds task (system.journalOf i) := by
  induction run generalizing i task with
  | boot => simp [System.boot] at found
  | @accept system request reached inductionHypothesis =>
      rcases Nat.lt_or_ge i system.tasks.length with old | new
      · rw [List.getElem?_append_left old] at found
        exact inductionHypothesis found
      · have empty : System.journalOf ⟨system.shared, system.tasks ++ [handler.start request],
            system.journal⟩ i = [] := reached.journalOf_eq_nil new
        rw [List.getElem?_append_right new, List.getElem?_singleton] at found
        split at found
        next =>
          cases found
          rw [empty]
          exact base request
        next => cases found
  | @advance system j moving next input shared events reached foundMoving moved
      inductionHypothesis =>
      have split : System.journalOf ⟨shared, system.tasks.set j next,
          system.journal ++ events.map fun event => (j, event)⟩ i =
            system.journalOf i ++ if j = i then events else [] := by
        simp only [System.journalOf, List.filter_append, List.map_append, List.filter_map,
          List.map_map, Function.comp_def]
        congr 1
        by_cases same : j = i
        · simp [same]
        · simp [same]
      rw [split]
      by_cases same : j = i
      · subst same
        rw [List.getElem?_set_self (List.getElem?_eq_some_iff.mp foundMoving).1] at found
        cases found
        rw [if_pos rfl]
        exact step reached (inductionHypothesis foundMoving) moved
      · rw [List.getElem?_set_ne same] at found
        rw [if_neg same, List.append_nil]
        exact inductionHypothesis found

/-- A property of a task that every advance of it keeps. -/
theorem tasks_rule (run : Run handler initial system) (Holds : Task → Prop)
    (base : ∀ request, Holds (handler.start request))
    (step : ∀ {shared next task after input events}, Holds task →
      handler.advance shared task input = some (next, after, events) → Holds after) :
    ∀ task ∈ system.tasks, Holds task := by
  intro task member
  obtain ⟨i, found⟩ := List.mem_iff_getElem?.mp member
  apply run.task_rule (fun task _ => Holds task) base _ found
  intro system _ task next input shared done events holds moved
  exact step holds moved

/-- A quantity that moves between the shared state and the tasks is conserved. -/
theorem sum_rule (run : Run handler initial system) (value : Shared → ℕ) (held : Task → ℕ)
    (base : ∀ request, held (handler.start request) = 0)
    (step : ∀ {shared next task after input events},
      handler.advance shared task input = some (next, after, events) →
        value next + held after = value shared + held task) :
    value system.shared + (system.tasks.map held).sum = value initial := by
  induction run with
  | boot => rfl
  | accept request _ inductionHypothesis =>
      simpa [base request] using inductionHypothesis
  | @advance system i task next input shared events _ found moved inductionHypothesis =>
      have balanced := step moved
      obtain ⟨inside, same⟩ := List.getElem?_eq_some_iff.mp found
      have before : (system.tasks.map held).sum =
          ((system.tasks.take i).map held).sum + held task +
            ((system.tasks.drop (i + 1)).map held).sum := by
        conv_lhs => rw [← List.take_append_drop i system.tasks, List.drop_eq_getElem_cons inside]
        simp [same, Nat.add_assoc]
      have after : ((system.tasks.set i next).map held).sum =
          ((system.tasks.take i).map held).sum + held next +
            ((system.tasks.drop (i + 1)).map held).sum := by
        rw [List.set_eq_take_append_cons_drop, if_pos inside]
        simp [Nat.add_assoc]
      simp only [after]
      omega

/-- The journal is made of what the tasks did. -/
theorem countP_journal (p : Event → Bool) {bound : ℕ} {journal : List (ℕ × Event)}
    (inside : ∀ entry ∈ journal, entry.1 < bound) :
    (journal.map Prod.snd).countP p = ∑ i ∈ Finset.range bound,
      ((journal.filter (·.1 == i)).map Prod.snd).countP p := by
  induction journal with
  | nil => simp
  | cons entry rest inductionHypothesis =>
      obtain ⟨first, others⟩ := List.forall_mem_cons.mp inside
      have share : ∀ i, (((entry :: rest).filter (·.1 == i)).map Prod.snd).countP p =
          ((rest.filter (·.1 == i)).map Prod.snd).countP p +
            if entry.1 = i then (if p entry.2 then 1 else 0) else 0 := by
        intro i
        by_cases same : entry.1 = i
        · simp [same, List.countP_cons]
        · simp [same]
      simp only [share, Finset.sum_add_distrib, Finset.sum_ite_eq, Finset.mem_range, first,
        if_true, ← inductionHypothesis others, List.map_cons, List.countP_cons]

/-- Counting over the journal what every task did. -/
theorem countP_events (run : Run handler initial system) (p : Event → Bool) {share : Task → ℕ}
    (counts : ∀ i task, system.tasks[i]? = some task →
      (system.journalOf i).countP p = share task) :
    system.events.countP p = (system.tasks.map share).sum := by
  have shares : (system.tasks.map share).sum =
      ∑ i ∈ Finset.range system.tasks.length, (system.journalOf i).countP p := by
    rw [Finset.sum_range, ← Fin.sum_univ_fun_getElem]
    apply Finset.sum_congr rfl
    intro i _
    exact (counts i _ (List.getElem?_eq_getElem i.isLt)).symm
  rw [shares]
  exact countP_journal p run.journal_lt

/-- When every task did a thing at most once, it was done as often as there are tasks
that did it. -/
theorem countP_events_of_once (run : Run handler initial system) (p : Event → Bool)
    {did : Task → Bool} (once : ∀ i task, system.tasks[i]? = some task →
      (system.journalOf i).countP p = if did task then 1 else 0) :
    system.events.countP p = system.tasks.countP did := by
  rw [run.countP_events p once]
  induction system.tasks with
  | nil => rfl
  | cons task rest inductionHypothesis =>
      rw [List.map_cons, List.sum_cons, List.countP_cons, inductionHypothesis, Nat.add_comm]

/-- What was done is, up to its order, what every task did. -/
theorem filterMap_events_perm (run : Run handler initial system) {Item : Type}
    (item : Event → Option Item) {share : Task → List Item}
    (each : ∀ i task, system.tasks[i]? = some task →
      (system.journalOf i).filterMap item = share task) :
    (system.events.filterMap item).Perm (system.tasks.flatMap share) := by
  classical
  apply List.perm_iff_count.mpr
  intro value
  rw [List.count_filterMap, List.count_flatMap]
  apply run.countP_events
  intro i task found
  rw [Function.comp_apply, ← each i task found, List.count_filterMap]

end Run

end Foundation.Concurrent
