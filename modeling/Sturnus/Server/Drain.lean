import Sturnus.Server.Accounting
import Sturnus.Server.Refinement
import Sturnus.Server.Shutdown

/-!
# How long a drain takes

A listener waits for the requests on its connections until the timeout, and no
longer: whatever the requests do, a process that was told to shut down returns
within two timeouts.
-/

namespace Sturnus

open Foundation Foundation.Http Foundation.Transition

/-- The steps left for a listener, counting one for the time of its drain. -/
def ListenerPhase.rank (shutdownTimeout clock : ℕ) : ListenerPhase → ℕ
  | .accepting => 3
  | .draining since => if since + shutdownTimeout ≤ clock then 1 else 2
  | .returned _ => 0

/-- The time a listener may still take. -/
def ListenerPhase.due (shutdownTimeout clock : ℕ) : ListenerPhase → ℕ
  | .accepting => shutdownTimeout
  | .draining since => since + shutdownTimeout - clock
  | .returned _ => 0

/-- What happens without any connection or request taking part. -/
def Action.IsLifecycle : Action → Prop
  | .elapse _ | .shutDown _ | .timeOut _ | .stopMetrics => True
  | _ => False

namespace Process

variable {F : Type} [Float64 F] {Map : Type} {hyper : Hyper F} {codecs : Codecs Map}
  {shutdownTimeout : ℕ} {process after later : Process F} {action : Action}

section Connected

/-- A request belongs to a connection of its listener, and is finished once that is closed; what
is written is an answer. -/
structure Connected (process : Process F) : Prop where
  answered : ∀ served ∈ process.served, served.written = true →
    served.task.phase.response.isSome = true
  closed : ∀ served ∈ process.served, ∃ closed,
    process.connections[served.connection]? = some ⟨served.role, closed⟩ ∧
      (closed = true → served.isFinished = true)

/-- What a handler that is done has left stays. -/
theorem handled_of_moves {app next : AppState F} {request : Request} {phase phase' : Phase F}
    {effects : List Effect} (moves : Moves codecs app request phase next phase' effects)
    (handled : phase.isHandled = true) :
    phase'.response = phase.response ∧ phase'.isCancelled = phase.isCancelled := by
  cases moves with
  | observe | refuse | reserve | leave | leaveBody | reject | forward | complete | record
  | respond | abandon => cases handled
  | upload route body stage | drop route body stage =>
      cases stage with
      | awaiting | recording | responded | cancelled => exact ⟨rfl, rfl⟩

omit [Float64 F] in
theorem Connected.isHandled (connected : process.Connected) {served : Served F}
    (member : served ∈ process.served) (finished : served.isFinished = true) :
    served.task.phase.isHandled = true := by
  rcases Bool.or_eq_true_iff.mp finished with written | cancelled
  · exact Bool.or_eq_true_iff.mpr (.inl (connected.answered served member written))
  · exact Bool.or_eq_true_iff.mpr (.inr cancelled)

omit [Float64 F] in
theorem Connected.setPhase (connected : process.Connected) (app : AppState F)
    (phase : ListenerPhase) (role : ServerRole) :
    ({ process with app := app }.setPhase phase role).Connected := by
  refine ⟨?_, ?_⟩
  · intro served member
    rw [setPhase_served] at member
    exact connected.answered served member
  · intro served member
    rw [setPhase_served] at member
    rw [setPhase_connections]
    exact connected.closed served member

omit [Float64 F] in
/-- A request of which no less is known than before. -/
theorem Connected.set (connected : process.Connected) {i : ℕ} {served next : Served F}
    {app : AppState F} {journal : List (ℕ × Effect)} (found : process.served[i]? = some served)
    (same : next.connection = served.connection ∧ next.role = served.role)
    (answered : next.written = true → next.task.phase.response.isSome = true)
    (finished : served.isFinished = true → next.isFinished = true) :
    Connected { process with
      app := app, served := process.served.set i next, journal := journal } := by
  refine ⟨?_, ?_⟩
  · intro other member
    rcases List.mem_or_eq_of_mem_set member with old | rfl
    · exact connected.answered other old
    · exact answered
  · intro other member
    rcases List.mem_or_eq_of_mem_set member with old | rfl
    · exact connected.closed other old
    · obtain ⟨closed, here, was⟩ := connected.closed served (List.mem_of_getElem? found)
      rw [same.1, same.2]
      exact ⟨closed, here, fun over' => finished (was over')⟩

theorem Does.connected (lawful : hyper.Lawful)
    (does : Does hyper codecs shutdownTimeout process action after)
    (connected : process.Connected) : after.Connected := by
  cases does with
  | elapse | signal | acceptError | stopMetrics =>
      exact ⟨connected.answered, connected.closed⟩
  | shutDown | drain | timeOut => exact connected.setPhase _ _ _
  | accept accepting =>
      refine ⟨connected.answered, ?_⟩
      intro served member
      obtain ⟨closed, found, finished⟩ := connected.closed served member
      have inside := (List.getElem?_eq_some_iff.mp found).1
      exact ⟨closed, (List.getElem?_append_left inside).trans found, finished⟩
  | arrive request found =>
      refine ⟨?_, ?_⟩
      · intro served member
        rcases List.mem_append.mp member with old | new
        · exact connected.answered served old
        · cases List.mem_singleton.mp new
          rintro ⟨⟩
      · intro served member
        rcases List.mem_append.mp member with old | new
        · exact connected.closed served old
        · cases List.mem_singleton.mp new
          exact ⟨false, found, by simp⟩
  | @advance i connection role written request phase next input app effects found moved =>
      have kept := handled_of_moves (ServerRole.advance_moves moved)
      have member := List.mem_of_getElem? found
      refine connected.set found ⟨rfl, rfl⟩ ?_ ?_
      · intro was
        have answered := connected.answered _ member was
        rwa [(kept (Bool.or_eq_true_iff.mpr (.inl answered))).1]
      · intro finished
        have same := (kept (connected.isHandled member finished)).2
        rw [Served.isFinished] at finished ⊢
        rwa [same]
  | write found answered => exact connected.set found ⟨rfl, rfl⟩ (fun _ => answered) fun _ => rfl
  | @close connection role found completed =>
      refine ⟨connected.answered, ?_⟩
      intro served member
      obtain ⟨closed, same, finished⟩ := connected.closed served member
      by_cases here : connection = served.connection
      · subst here
        have inside := (List.getElem?_eq_some_iff.mp found).1
        rw [found] at same
        cases same
        refine ⟨true, List.getElem?_set_self inside, ?_⟩
        have quiet := List.all_eq_true.mp (lawful.completes process _ completed) served member
        simpa using quiet
      · exact ⟨closed, (List.getElem?_set_ne here).trans same, finished⟩

theorem connected_of_reaches (lawful : hyper.Lawful) {app : AppState F} {metrics : Bool}
    (reached : Reaches (step hyper codecs shutdownTimeout) (start app metrics) process) :
    process.Connected := by
  apply reached.rule Connected
  · exact ⟨by rintro served ⟨⟩, by rintro served ⟨⟩⟩
  · intro before action after _ connected moved
    exact (step_does moved).connected lawful connected

omit [Float64 F] in
/-- When all connections of a listener are closed, all its requests are finished. -/
theorem Connected.finished (connected : process.Connected) {role : ServerRole}
    (drained : process.drained role = true) {served : Served F} (member : served ∈ process.served)
    (same : served.role = role) : served.isFinished = true := by
  obtain ⟨closed, found, finished⟩ := connected.closed served member
  have over' := List.all_eq_true.mp drained _ (List.mem_of_getElem? found)
  apply finished
  simpa [same] using over'

end Connected

section Waiting

/-- Where a listener can be that began its drain at a time. -/
def Waits (shutdownTimeout : ℕ) (role : ServerRole) (since : ℕ) (process : Process F) : Prop :=
  process.phaseOf role = some (.draining since) ∨
  process.phaseOf role = some (.returned true) ∨
  process.phaseOf role = some (.returned false) ∧ since + shutdownTimeout ≤ process.clock

omit [Float64 F] in
theorem Waits.of_same {role : ServerRole} {since : ℕ}
    (waits : process.Waits shutdownTimeout role since)
    (phase : after.phaseOf role = process.phaseOf role) (clock : process.clock ≤ after.clock) :
    after.Waits shutdownTimeout role since := by
  unfold Waits
  rw [phase]
  rcases waits with draining | returned | ⟨returned, late⟩
  · exact .inl draining
  · exact .inr (.inl returned)
  · exact .inr (.inr ⟨returned, late.trans clock⟩)

omit [Float64 F] in
/-- The other listener moves on. -/
theorem Waits.setPhase {role other : ServerRole} {since : ℕ} {phase : ListenerPhase}
    {app : AppState F} (waits : process.Waits shutdownTimeout role since)
    (different : role ≠ other) :
    ({ process with app := app }.setPhase phase other).Waits shutdownTimeout role since := by
  apply waits.of_same
  · rw [phaseOf_setPhase_of_ne different]
    cases role <;> rfl
  · rw [setPhase_clock]

omit [Float64 F] in
theorem Waits.ne_accepting {role : ServerRole} {since : ℕ}
    (waits : process.Waits shutdownTimeout role since) :
    process.phaseOf role ≠ some .accepting := by
  rcases waits with phase | phase | ⟨phase, -⟩
  all_goals
    rw [phase]
    simp

theorem Does.waits {role : ServerRole} {since : ℕ}
    (does : Does hyper codecs shutdownTimeout process action after)
    (waits : process.Waits shutdownTimeout role since) :
    after.Waits shutdownTimeout role since := by
  cases does with
  | elapse time => exact waits.of_same (by cases role <;> rfl) (Nat.le_add_right _ _)
  | signal | stopMetrics | accept | arrive | advance | write | close =>
      exact waits.of_same (by cases role <;> rfl) (Nat.le_refl _)
  | acceptError => exact waits
  | @shutDown other accepting ready =>
      apply waits.setPhase
      rintro rfl
      exact waits.ne_accepting accepting
  | @drain other start draining resolved =>
      by_cases same : role = other
      · subst same
        exact .inr (.inl (phaseOf_setPhase _ _ _))
      · exact waits.setPhase same
  | @timeOut other start draining late =>
      by_cases same : role = other
      · subst same
        refine .inr (.inr ⟨phaseOf_setPhase _ _ _, ?_⟩)
        rw [setPhase_clock]
        rcases waits with phase | phase | ⟨phase, -⟩
        · rw [draining] at phase
          cases phase
          exact late
        · rw [draining] at phase
          cases phase
        · rw [draining] at phase
          cases phase
      · exact waits.setPhase same

/-- A listener that began to drain returns drained only when all its requests are finished, and
otherwise not before the timeout; so as long as one of them is not, be it that the last bytes of
its answer are still to be written, it waits that long. -/
theorem drain_waits (lawful : hyper.Lawful) (codecs : Codecs Map) (shutdownTimeout : ℕ)
    (app : AppState F) (metrics : Bool) {process later : Process F} {role : ServerRole} {since : ℕ}
    (reached : Reaches (step hyper codecs shutdownTimeout) (start app metrics) process)
    (draining : process.phaseOf role = some (.draining since))
    (follows : Reaches (step hyper codecs shutdownTimeout) process later) :
    (later.phaseOf role = some (.returned true) → ∀ served ∈ later.served,
      served.role = role → served.isFinished = true) ∧
    (later.phaseOf role = some (.returned false) → since + shutdownTimeout ≤ later.clock) ∧
    (later.clock < since + shutdownTimeout → ∀ served ∈ later.served, served.role = role →
      served.isFinished = false → later.phaseOf role = some (.draining since)) := by
  have together := reached.trans follows
  have finished : later.phaseOf role = some (.returned true) → ∀ served ∈ later.served,
      served.role = role → served.isFinished = true := by
    intro returned served member same
    exact (connected_of_reaches lawful together).finished
      (emptied_of_reaches lawful together role returned) member same
  have waits : later.Waits shutdownTimeout role since := by
    apply follows.rule (Waits shutdownTimeout role since) (.inl draining)
    intro before action after _ waits moved
    exact (step_does moved).waits waits
  refine ⟨finished, ?_, ?_⟩
  · intro returned
    rcases waits with phase | phase | ⟨-, late⟩
    · rw [returned] at phase
      cases phase
    · rw [returned] at phase
      cases phase
    · exact late
  · intro early served member same unfinished
    rcases waits with phase | returned | ⟨-, late⟩
    · exact phase
    · rw [finished returned served member same] at unfinished
      cases unfinished
    · exact absurd late (Nat.not_le.mpr early)

/-- Two requests are answered when the listener is shut down; ten units later the body of the first
answer is still being written. -/
theorem drain_waits_writing :
    ∃ process later : Process ℝ, process.phaseOf .full = some (.draining 5) ∧
      Reaches (step .prompt plainCodecs 30) process later ∧ later.clock = 15 ∧
      (later.served.map fun served => (served.task.phase.isHandled, served.written)) =
        [(true, false), (true, true)] ∧
      later.phaseOf .full = some (.draining 5) := by
  obtain ⟨app, server, candidate, first, second, answer, -, run, tasks, -⟩ :=
    exists_answered_refused
  have performed : ∃ (process later : Process ℝ) (unwritten written : Served ℝ),
      perform (step .prompt plainCodecs 30) (serving server true)
        [.write 1, .signal, .elapse 5, .shutDown .full] = some process ∧
      perform (step .prompt plainCodecs 30) process [.elapse 10] = some later ∧
      process.phaseOf .full = some (.draining 5) ∧ later.clock = 15 ∧
      later.served = [unwritten, written] ∧ unwritten.role = .full ∧
      unwritten.isFinished = false ∧
      (later.served.map fun served => (served.task.phase.isHandled, served.written)) =
        [(true, false), (true, true)] := by
    obtain ⟨shared, answered, journal⟩ := server
    cases tasks
    exact ⟨_, _, _, _, rfl, rfl, rfl, rfl, rfl, rfl, rfl, rfl⟩
  obtain ⟨process, later, unwritten, written, performed, onwards, draining, clock, both, role,
    unfinished, handled⟩ := performed
  have follows := Reaches.of_perform onwards
  obtain ⟨-, -, waits⟩ := drain_waits Hyper.prompt_lawful plainCodecs 30 app true
    ((reaches_of_run run true).trans (Reaches.of_perform performed)) draining follows
  have early : later.clock < 5 + 30 := by
    rw [clock]
    decide
  have member : unwritten ∈ later.served := by
    rw [both]
    exact List.mem_cons_self
  exact ⟨process, later, draining, follows, clock, handled,
    waits early unwritten member role unfinished⟩

end Waiting

section Completing

/-- A quantity of the listeners, added up. -/
def total (process : Process F) (quantity : ListenerPhase → ℕ) : ℕ :=
  ((process.phaseOf .full).map quantity).getD 0 +
    ((process.phaseOf .observability).map quantity).getD 0

/-- The steps left for a process. -/
def rank (shutdownTimeout : ℕ) (process : Process F) : ℕ :=
  process.total (ListenerPhase.rank shutdownTimeout process.clock) +
    if process.stopped then 0 else 1

/-- The time a process may still take. -/
def due (shutdownTimeout : ℕ) (process : Process F) : ℕ :=
  process.total (ListenerPhase.due shutdownTimeout process.clock)

omit [Float64 F] in
theorem total_setPhase (quantity : ListenerPhase → ℕ) (next : ListenerPhase) (app : AppState F)
    {role : ServerRole} {phase : ListenerPhase} (found : process.phaseOf role = some phase) :
    ({ process with app := app }.setPhase next role).total quantity + quantity phase =
      process.total quantity + quantity next := by
  unfold total
  cases role with
  | full =>
      rw [found]
      simp only [setPhase, phaseOf, Option.map_some, Option.getD_some]
      omega
  | observability =>
      rw [found]
      simp only [setPhase, phaseOf, Option.map_some, Option.getD_some]
      omega

omit [Float64 F] in
/-- A quantity that nowhere grows shrinks as much as at one listener. -/
theorem total_le (former latter : ListenerPhase → ℕ)
    (shrinks : ∀ phase, latter phase ≤ former phase) {role : ServerRole} {phase : ListenerPhase}
    (found : process.phaseOf role = some phase) :
    process.total latter + former phase ≤ process.total former + latter phase := by
  have each : ∀ phase? : Option ListenerPhase,
      (phase?.map latter).getD 0 ≤ (phase?.map former).getD 0 := by
    intro phase?
    cases phase? with
    | none => exact Nat.le_refl _
    | some phase => exact shrinks phase
  have router := each (process.phaseOf .full)
  have metrics := each (process.phaseOf .observability)
  unfold total
  cases role with
  | full =>
      rw [found, Option.map_some, Option.map_some, Option.getD_some, Option.getD_some]
      omega
  | observability =>
      rw [found, Option.map_some, Option.map_some, Option.getD_some, Option.getD_some]
      omega

omit [Float64 F] in
theorem total_bound {quantity : ListenerPhase → ℕ} {bound : ℕ}
    (bounded : ∀ role phase, process.phaseOf role = some phase → quantity phase ≤ bound) :
    process.total quantity ≤ 2 * bound := by
  have each : ∀ role, ((process.phaseOf role).map quantity).getD 0 ≤ bound := by
    intro role
    cases found : process.phaseOf role with
    | none => exact Nat.zero_le _
    | some phase => exact bounded role phase found
  have router := each .full
  have metrics := each .observability
  unfold total
  omega

omit [Float64 F] in
theorem rank_le (shutdownTimeout : ℕ) (process : Process F) :
    process.rank shutdownTimeout ≤ 7 := by
  have phases : process.total (ListenerPhase.rank shutdownTimeout process.clock) ≤ 2 * 3 := by
    apply total_bound
    intro role phase _
    unfold ListenerPhase.rank
    split
    · exact Nat.le_refl _
    · split <;> decide
    · exact Nat.zero_le _
  unfold rank
  split <;> omega

omit [Float64 F] in
theorem due_le (ordered : process.Ordered) :
    process.due shutdownTimeout ≤ 2 * shutdownTimeout := by
  apply total_bound
  intro role phase found
  cases phase with
  | accepting => exact Nat.le_refl _
  | draining since =>
      have began := ordered.began role since found
      simp only [ListenerPhase.due]
      omega
  | returned drained => exact Nat.zero_le _

theorem due_shrinks (shutdownTimeout clock wait : ℕ) (phase : ListenerPhase) :
    phase.due shutdownTimeout (clock + wait) ≤ phase.due shutdownTimeout clock := by
  cases phase with
  | accepting => exact Nat.le_refl _
  | draining since => exact Nat.sub_le_sub_left (Nat.le_add_right _ _) _
  | returned drained => exact Nat.le_refl _

theorem rank_shrinks (shutdownTimeout clock wait : ℕ) (phase : ListenerPhase) :
    phase.rank shutdownTimeout (clock + wait) ≤ phase.rank shutdownTimeout clock := by
  cases phase with
  | accepting => exact Nat.le_refl _
  | draining since =>
      simp only [ListenerPhase.rank]
      split
      · split <;> omega
      · rw [if_neg (by omega)]
  | returned drained => exact Nat.le_refl _

/-- What the lifecycle steps keep on the way to the return: the requests, the connections, and
the time by which it is done. -/
structure Finishing (process : Process F) (shutdownTimeout : ℕ) (now : Process F) : Prop where
  ordered : now.Ordered
  signalled : now.signalled = true
  served : now.served = process.served
  connections : now.connections = process.connections
  bound : now.clock + now.due shutdownTimeout ≤ process.clock + 2 * shutdownTimeout

variable {now : Process F}

/-- A listener whose shutdown future is ready moves on, if only by the time of its drain. -/
theorem Finishing.move (codecs : Codecs Map) (finishing : process.Finishing shutdownTimeout now)
    {role : ServerRole} {phase : ListenerPhase} (found : now.phaseOf role = some phase)
    (ready : now.shutdownReady role = true) (running : phase.hasReturned = false) :
    ∃ action after, action.IsLifecycle ∧ step hyper codecs shutdownTimeout now action = some after ∧
      process.Finishing shutdownTimeout after ∧
      after.rank shutdownTimeout < now.rank shutdownTimeout := by
  obtain ⟨ordered, signalled, served, connections, bound⟩ := finishing
  cases phase with
  | accepting =>
      have moved : step hyper codecs shutdownTimeout now (.shutDown role) =
          some ({ now with app := now.app.mark true }.setPhase (.draining now.clock) role) :=
        if_pos ⟨found, ready⟩
      have time := total_setPhase (ListenerPhase.due shutdownTimeout now.clock)
        (.draining now.clock) (now.app.mark true) found
      have steps := total_setPhase (ListenerPhase.rank shutdownTimeout now.clock)
        (.draining now.clock) (now.app.mark true) found
      simp only [ListenerPhase.due] at time
      refine ⟨.shutDown role, _, trivial, moved,
        ⟨(step_does moved).ordered ordered, ?_, ?_, ?_, ?_⟩, ?_⟩
      · rwa [setPhase_signalled]
      · rwa [setPhase_served]
      · rwa [setPhase_connections]
      · rw [due, setPhase_clock]
        unfold due at bound
        simp only at time ⊢
        omega
      · unfold rank
        rw [setPhase_clock, setPhase_stopped]
        have lower : (ListenerPhase.draining now.clock).rank shutdownTimeout now.clock ≤ 2 := by
          unfold ListenerPhase.rank
          dsimp only
          split <;> omega
        have before : ListenerPhase.accepting.rank shutdownTimeout now.clock = 3 := rfl
        simp only at steps ⊢
        omega
  | draining since =>
      by_cases late : since + shutdownTimeout ≤ now.clock
      · have moved : step hyper codecs shutdownTimeout now (.timeOut role) =
            some (now.setPhase (.returned false) role) := by
          simp only [step, found, late, if_true]
        have time : (now.setPhase (.returned false) role).total
            (ListenerPhase.due shutdownTimeout now.clock) + (since + shutdownTimeout - now.clock) =
            now.due shutdownTimeout + 0 :=
          total_setPhase _ _ now.app found
        have steps : (now.setPhase (.returned false) role).total
            (ListenerPhase.rank shutdownTimeout now.clock) +
              (ListenerPhase.draining since).rank shutdownTimeout now.clock =
            now.total (ListenerPhase.rank shutdownTimeout now.clock) + 0 :=
          total_setPhase _ _ now.app found
        refine ⟨.timeOut role, _, trivial, moved,
          ⟨(step_does moved).ordered ordered, ?_, ?_, ?_, ?_⟩, ?_⟩
        · rwa [setPhase_signalled]
        · rwa [setPhase_served]
        · rwa [setPhase_connections]
        · rw [due, setPhase_clock]
          omega
        · unfold rank
          rw [setPhase_clock, setPhase_stopped]
          have before : (ListenerPhase.draining since).rank shutdownTimeout now.clock = 1 :=
            if_pos late
          omega
      · have began := ordered.began role since found
        obtain ⟨wait, waited⟩ := Nat.exists_eq_add_of_le (Nat.le_of_not_le late)
        have moved : step hyper codecs shutdownTimeout now (.elapse wait) =
            some { now with clock := now.clock + wait } := rfl
        have time := total_le (ListenerPhase.due shutdownTimeout now.clock)
          (ListenerPhase.due shutdownTimeout (now.clock + wait)) (due_shrinks _ _ wait) found
        have steps := total_le (ListenerPhase.rank shutdownTimeout now.clock)
          (ListenerPhase.rank shutdownTimeout (now.clock + wait)) (rank_shrinks _ _ wait) found
        refine ⟨.elapse wait, _, trivial, moved,
          ⟨(step_does moved).ordered ordered, signalled, served, connections, ?_⟩, ?_⟩
        · change now.clock + wait +
            now.total (ListenerPhase.due shutdownTimeout (now.clock + wait)) ≤ _
          have left : (ListenerPhase.draining since).due shutdownTimeout now.clock = wait :=
            Nat.sub_eq_of_eq_add' waited
          have none : (ListenerPhase.draining since).due shutdownTimeout (now.clock + wait) = 0 :=
            Nat.sub_eq_zero_of_le (Nat.le_of_eq waited)
          unfold due at bound
          omega
        · apply Nat.add_lt_add_right _ (if now.stopped then 0 else 1)
          change now.total (ListenerPhase.rank shutdownTimeout (now.clock + wait)) < _
          have before : (ListenerPhase.draining since).rank shutdownTimeout now.clock = 2 :=
            if_neg late
          have passed :
              (ListenerPhase.draining since).rank shutdownTimeout (now.clock + wait) = 1 :=
            if_pos (Nat.le_of_eq waited)
          omega
  | returned drained => cases running

/-- As long as the process has not returned, a lifecycle step brings it closer to it. -/
theorem Finishing.progress (codecs : Codecs Map)
    (finishing : process.Finishing shutdownTimeout now) (running : now.returned ≠ true) :
    ∃ action after, action.IsLifecycle ∧ step hyper codecs shutdownTimeout now action = some after ∧
      process.Finishing shutdownTimeout after ∧
      after.rank shutdownTimeout < now.rank shutdownTimeout := by
  by_cases router : now.listener.hasReturned = true
  · cases metrics : now.metricsListener with
    | none =>
        simp [returned, router, metrics] at running
    | some phase =>
        have open' : phase.hasReturned = false := by
          simpa [returned, router, metrics] using running
        by_cases stopped : now.stopped = true
        · have found : now.phaseOf .observability = some phase := metrics
          exact finishing.move codecs found stopped open'
        · have moved : step hyper codecs shutdownTimeout now .stopMetrics =
              some { now with stopped := true } :=
            if_pos ⟨router, by simp [metrics]⟩
          refine ⟨.stopMetrics, _, trivial, moved,
            ⟨(step_does moved).ordered finishing.ordered, finishing.signalled, finishing.served,
              finishing.connections, finishing.bound⟩, ?_⟩
          have same : Process.total { now with stopped := true }
              (ListenerPhase.rank shutdownTimeout now.clock) =
              now.total (ListenerPhase.rank shutdownTimeout now.clock) := rfl
          simp only [rank, same, stopped, if_true]
          exact Nat.lt_succ_self _
  · have found : now.phaseOf .full = some now.listener := rfl
    exact finishing.move codecs found finishing.signalled (Bool.eq_false_iff.mpr router)

/-- Once the signal was received, a process returns within two timeouts by at most seven steps in
which no connection and no request takes part. -/
theorem shutdown_completes (codecs : Codecs Map) (shutdownTimeout : ℕ) {app : AppState F}
    (fresh : app.shuttingDown = false) (metrics : Bool) {process : Process F}
    (reached : Reaches (step hyper codecs shutdownTimeout) (start app metrics) process)
    (signalled : process.signalled = true) :
    ∃ actions final, actions.length ≤ 7 ∧ (∀ action ∈ actions, action.IsLifecycle) ∧
      perform (step hyper codecs shutdownTimeout) process actions = some final ∧
      final.returned = true ∧ final.clock ≤ process.clock + 2 * shutdownTimeout ∧
      final.served = process.served ∧ final.connections = process.connections := by
  have ordered := ordered_of_reaches fresh reached
  have finishing : process.Finishing shutdownTimeout process :=
    ⟨ordered, signalled, rfl, rfl, Nat.add_le_add_left (due_le ordered) _⟩
  obtain ⟨actions, final, short, kinds, performed, returned, finished⟩ :=
    exists_perform Action.IsLifecycle (process.Finishing shutdownTimeout)
      (fun now => now.returned = true ∧ process.Finishing shutdownTimeout now)
      (rank shutdownTimeout)
      (fun now finishing open' => finishing.progress codecs fun returned =>
        open' ⟨returned, finishing⟩) finishing
  refine ⟨actions, final, short.trans (rank_le _ _), kinds, performed, returned, ?_,
    finished.served, finished.connections⟩
  exact (Nat.le_add_right _ _).trans finished.bound

/-- A process that is told to stop while a body is being buffered. -/
theorem shutdown_completes_buffering :
    ∃ process : Process ℝ, process.signalled = true ∧ process.drained .full = false ∧
      ∃ final, Reaches (step .prompt plainCodecs 30) process final ∧ final.returned = true ∧
        final.clock ≤ process.clock + 60 := by
  have performed : ∃ process : Process ℝ, perform (step .prompt plainCodecs 30) (start idleApp true)
      [.accept .full, .arrive 0 plainRequest, .advance 0 .poll, .signal] = some process ∧
      process.signalled = true ∧ process.drained .full = false :=
    ⟨_, rfl, rfl, rfl⟩
  obtain ⟨process, performed, signalled, handled⟩ := performed
  obtain ⟨actions, final, -, -, onwards, returned, intime, -⟩ :=
    shutdown_completes plainCodecs 30 rfl true (Reaches.of_perform performed) signalled
  exact ⟨process, signalled, handled, final, .of_perform onwards, returned, intime⟩

end Completing

end Process

end Sturnus
