import Sturnus.Server.Process

/-!
# What a shutdown does

What holds of a process in every state of a run, and what it keeps from one
state of a run to any later one: the flag, the listeners that are gone, and the
time a drain is given.
-/

namespace Sturnus

open Foundation Foundation.Http Foundation.Transition

/-- Which phases may follow which. -/
inductive ListenerPhase.Leads : ListenerPhase → ListenerPhase → Prop where
  | stay (phase : ListenerPhase) : Leads phase phase
  | drain (since : ℕ) : Leads .accepting (.draining since)
  | give (drained : Bool) : Leads .accepting (.returned drained)
  | finish (since : ℕ) (drained : Bool) : Leads (.draining since) (.returned drained)

theorem ListenerPhase.Leads.trans {first second third : ListenerPhase}
    (former : first.Leads second) (latter : second.Leads third) : first.Leads third := by
  cases former with
  | stay => exact latter
  | drain since =>
      cases latter with
      | stay => exact .drain since
      | finish _ drained => exact .give drained
  | give drained =>
      cases latter with
      | stay => exact .give drained
  | finish since drained =>
      cases latter with
      | stay => exact .finish since drained

/-- A listener that is missing stays missing. -/
def ListenerPhase.Follows : Option ListenerPhase → Option ListenerPhase → Prop :=
  Option.Rel ListenerPhase.Leads

theorem ListenerPhase.Follows.refl (phase : Option ListenerPhase) : Follows phase phase := by
  cases phase with
  | none => exact .none
  | some phase => exact .some (.stay phase)

theorem ListenerPhase.Follows.trans {first second third : Option ListenerPhase}
    (former : Follows first second) (latter : Follows second third) : Follows first third := by
  cases former with
  | none =>
      cases latter with
      | none => exact .none
  | some leads =>
      cases latter with
      | some leadsOn => exact .some (leads.trans leadsOn)

/-- No phase leads back to accepting. -/
theorem ListenerPhase.Follows.of_accepting {phase : Option ListenerPhase}
    (follows : Follows phase (some .accepting)) : phase = some .accepting := by
  cases follows with
  | some leads =>
      cases leads with
      | stay => rfl

namespace Process

variable {F : Type}

section Phases

variable {process : Process F} {phase : ListenerPhase} {role other : ServerRole}

@[simp] theorem phaseOf_setPhase (process : Process F) (phase : ListenerPhase)
    (role : ServerRole) : (process.setPhase phase role).phaseOf role = some phase := by
  cases role <;> rfl

theorem phaseOf_setPhase_of_ne (different : other ≠ role) :
    (process.setPhase phase role).phaseOf other = process.phaseOf other := by
  cases role with
  | full =>
      cases other with
      | full => exact absurd rfl different
      | observability => rfl
  | observability =>
      cases other with
      | full => rfl
      | observability => exact absurd rfl different

@[simp] theorem setPhase_app (process : Process F) (phase : ListenerPhase) (role : ServerRole) :
    (process.setPhase phase role).app = process.app := by
  cases role <;> rfl

@[simp] theorem setPhase_clock (process : Process F) (phase : ListenerPhase)
    (role : ServerRole) : (process.setPhase phase role).clock = process.clock := by
  cases role <;> rfl

@[simp] theorem setPhase_signalled (process : Process F) (phase : ListenerPhase)
    (role : ServerRole) : (process.setPhase phase role).signalled = process.signalled := by
  cases role <;> rfl

@[simp] theorem setPhase_stopped (process : Process F) (phase : ListenerPhase)
    (role : ServerRole) : (process.setPhase phase role).stopped = process.stopped := by
  cases role <;> rfl

@[simp] theorem setPhase_connections (process : Process F) (phase : ListenerPhase)
    (role : ServerRole) : (process.setPhase phase role).connections = process.connections := by
  cases role <;> rfl

@[simp] theorem setPhase_served (process : Process F) (phase : ListenerPhase)
    (role : ServerRole) : (process.setPhase phase role).served = process.served := by
  cases role <;> rfl

@[simp] theorem setPhase_journal (process : Process F) (phase : ListenerPhase)
    (role : ServerRole) : (process.setPhase phase role).journal = process.journal := by
  cases role <;> rfl

end Phases

/-- The connections a listener has accepted. -/
def accepted (process : Process F) (role : ServerRole) : ℕ :=
  (process.connections.map Connection.role).count role

/-- What a process keeps from one state to a later one. -/
structure Precedes (earlier later : Process F) : Prop where
  clock : earlier.clock ≤ later.clock
  flag : earlier.app.shuttingDown = true → later.app.shuttingDown = true
  phases : ∀ role, ListenerPhase.Follows (earlier.phaseOf role) (later.phaseOf role)
  accepted : ∀ role, earlier.phaseOf role ≠ some .accepting →
    later.accepted role = earlier.accepted role
  connections : ∀ (i : ℕ) (connection : Connection), earlier.connections[i]? = some connection →
    ∃ still, later.connections[i]? = some ⟨connection.role, still⟩ ∧
      (connection.closed = true → still = true)

namespace Precedes

variable {earlier middle later : Process F}

theorem phaseOf_ne_accepting (precedes : Precedes earlier later) {role : ServerRole}
    (past : earlier.phaseOf role ≠ some .accepting) : later.phaseOf role ≠ some .accepting := by
  intro accepting
  have follows := precedes.phases role
  rw [accepting] at follows
  exact past follows.of_accepting

theorem of_same (clock : earlier.clock ≤ later.clock)
    (flag : later.app.shuttingDown = earlier.app.shuttingDown)
    (phases : ∀ role, later.phaseOf role = earlier.phaseOf role)
    (connections : later.connections = earlier.connections) : Precedes earlier later where
  clock := clock
  flag set := flag.trans set
  phases role := by
    rw [phases role]
    exact .refl _
  accepted role _ := by simp only [Process.accepted, connections]
  connections i connection found := ⟨connection.closed, connections ▸ found, id⟩

theorem trans (former : Precedes earlier middle) (latter : Precedes middle later) :
    Precedes earlier later where
  clock := former.clock.trans latter.clock
  flag set := latter.flag (former.flag set)
  phases role := (former.phases role).trans (latter.phases role)
  accepted role past := by
    rw [latter.accepted role (former.phaseOf_ne_accepting past), former.accepted role past]
  connections i connection found := by
    obtain ⟨between, foundBetween, kept⟩ := former.connections i connection found
    obtain ⟨still, foundStill, keptOn⟩ := latter.connections i _ foundBetween
    exact ⟨still, foundStill, fun was => keptOn (kept was)⟩

end Precedes

section Steps

variable [Float64 F] {Map : Type} {hyper : Hyper F} {codecs : Codecs Map} {shutdownTimeout : ℕ}
  {process after : Process F} {action : Action}

/-- No handler touches the flag. -/
theorem shuttingDown_of_moves {app next : AppState F} {request : Request}
    {phase phase' : Phase F} {effects : List Effect}
    (moves : Moves codecs app request phase next phase' effects) :
    next.shuttingDown = app.shuttingDown := by
  have replayed := congrArg AppState.shuttingDown (moves.replays app.budget)
  have kept := (app.setBudget app.budget).performAll_keeps AppState.shuttingDown
    (by
      intro app effect
      cases effect <;> rfl) effects
  exact replayed.trans kept

omit [Float64 F] in
/-- A listener moves on, and nothing else is changed but perhaps the flag set. -/
theorem precedes_setPhase {role : ServerRole} {phase next : ListenerPhase} {app : AppState F}
    (found : process.phaseOf role = some phase) (leads : phase.Leads next)
    (flag : process.app.shuttingDown = true → app.shuttingDown = true) :
    Precedes process ({ process with app := app }.setPhase next role) := by
  refine ⟨?_, ?_, ?_, ?_, ?_⟩
  · rw [setPhase_clock]
  · rw [setPhase_app]
    exact flag
  · intro other
    by_cases same : other = role
    · subst same
      rw [found, phaseOf_setPhase]
      exact .some leads
    · rw [phaseOf_setPhase_of_ne same]
      have kept : Process.phaseOf { process with app := app } other = process.phaseOf other := by
        cases other <;> rfl
      rw [kept]
      exact .refl _
  · intro other _
    rw [accepted, setPhase_connections, accepted]
  · intro i connection found
    rw [setPhase_connections]
    exact ⟨connection.closed, found, id⟩

omit [Float64 F] in
/-- Closing a connection leaves it the listener's. -/
theorem roles_close {connection : ℕ} {role : ServerRole}
    (found : process.connections[connection]? = some ⟨role, false⟩) :
    (process.connections.set connection ⟨role, true⟩).map Connection.role =
      process.connections.map Connection.role := by
  have given : (process.connections.map Connection.role)[connection]? = some role := by
    simp [found]
  obtain ⟨inside, same⟩ := List.getElem?_eq_some_iff.mp given
  rw [List.map_set]
  conv_lhs => rw [← same]
  exact List.set_getElem_self inside

theorem Does.precedes (does : Does hyper codecs shutdownTimeout process action after) :
    Precedes process after := by
  cases does with
  | elapse time => exact .of_same (Nat.le_add_right _ _) rfl (fun role => by cases role <;> rfl) rfl
  | signal => exact .of_same (Nat.le_refl _) rfl (fun role => by cases role <;> rfl) rfl
  | acceptError => exact .of_same (Nat.le_refl _) rfl (fun _ => rfl) rfl
  | stopMetrics => exact .of_same (Nat.le_refl _) rfl (fun role => by cases role <;> rfl) rfl
  | arrive | write =>
      exact .of_same (Nat.le_refl _) rfl (fun role => by cases role <;> rfl) rfl
  | advance found moved =>
      exact .of_same (Nat.le_refl _) (shuttingDown_of_moves (ServerRole.advance_moves moved))
        (fun role => by cases role <;> rfl) rfl
  | shutDown accepting ready =>
      exact precedes_setPhase accepting (.drain _) fun _ => rfl
  | drain draining closed => exact precedes_setPhase draining (.finish _ _) id
  | timeOut draining late => exact precedes_setPhase draining (.finish _ _) id
  | @accept role accepting =>
      refine ⟨Nat.le_refl _, id, ?_, ?_, ?_⟩
      · intro other
        cases other <;> exact .refl _
      · intro other past
        have different : role ≠ other := by
          rintro rfl
          exact past accepting
        simp [accepted, different]
      · intro i connection found
        have inside := (List.getElem?_eq_some_iff.mp found).1
        exact ⟨connection.closed, (List.getElem?_append_left inside).trans found, id⟩
  | @close connection role found completed =>
      refine ⟨Nat.le_refl _, id, ?_, ?_, ?_⟩
      · intro other
        cases other <;> exact .refl _
      · intro other _
        exact congrArg (List.count other) (roles_close found)
      · intro i earlier foundEarlier
        by_cases same : connection = i
        · subst same
          have inside := (List.getElem?_eq_some_iff.mp found).1
          rw [found] at foundEarlier
          cases foundEarlier
          exact ⟨true, List.getElem?_set_self inside, fun _ => rfl⟩
        · exact ⟨earlier.closed, (List.getElem?_set_ne same).trans foundEarlier, id⟩

theorem precedes_of_reaches (reached : Reaches (step hyper codecs shutdownTimeout) process after) :
    Precedes process after := by
  apply reached.rule (Precedes process) (.of_same (Nat.le_refl _) rfl (fun _ => rfl) rfl)
  intro before action after _ precedes moved
  exact precedes.trans (step_does moved).precedes

end Steps

/-- The order in which a process shuts down. -/
structure Ordered (process : Process F) : Prop where
  flag : process.app.shuttingDown = true ↔ process.listener ≠ .accepting
  signalled : process.listener ≠ .accepting → process.signalled = true
  metrics : ∀ phase ∈ process.metricsListener, phase ≠ .accepting → process.stopped = true
  stopped : process.stopped = true → process.listener.hasReturned = true
  began : ∀ role since, process.phaseOf role = some (.draining since) → since ≤ process.clock

section Ordered

variable [Float64 F] {Map : Type} {hyper : Hyper F} {codecs : Codecs Map} {shutdownTimeout : ℕ}
  {process after : Process F} {action : Action}

omit [Float64 F] in
theorem start_ordered {app : AppState F} (fresh : app.shuttingDown = false) (metrics : Bool) :
    (start app metrics).Ordered where
  flag := by simp [start, fresh]
  signalled := by simp [start]
  metrics := by
    cases metrics <;> simp [start]
  stopped := by simp [start]
  began role since draining := by
    cases role with
    | full => cases draining
    | observability => cases metrics <;> cases draining

omit [Float64 F] in
/-- Where a listener has returned, the accept loop of the router is over. -/
theorem Ordered.listener_ne (ordered : process.Ordered) {role : ServerRole}
    (ready : process.shutdownReady role = true) (other : role ≠ .full) :
    process.listener ≠ .accepting := by
  cases role with
  | full => exact absurd rfl other
  | observability =>
      intro accepting
      have returned := ordered.stopped ready
      rw [accepting] at returned
      cases returned

omit [Float64 F] in
/-- A step that leaves the listeners where they are. -/
theorem Ordered.of_same (ordered : process.Ordered)
    (flag : after.app.shuttingDown = process.app.shuttingDown)
    (signalled : process.signalled = true → after.signalled = true)
    (phases : ∀ role, after.phaseOf role = process.phaseOf role)
    (stopped : after.stopped = process.stopped) (clock : process.clock ≤ after.clock) :
    after.Ordered := by
  have listener : after.listener = process.listener := Option.some.inj (phases .full)
  have metricsListener : after.metricsListener = process.metricsListener := phases .observability
  refine ⟨?_, ?_, ?_, ?_, ?_⟩
  · rw [flag, listener]
    exact ordered.flag
  · rw [listener]
    exact fun past => signalled (ordered.signalled past)
  · rw [metricsListener, stopped]
    exact ordered.metrics
  · rw [listener, stopped]
    exact ordered.stopped
  · intro role since draining
    rw [phases] at draining
    exact (ordered.began role since draining).trans clock

omit [Float64 F] in
/-- A listener whose loop may end, or has ended, moves on. -/
theorem Ordered.setPhase (ordered : process.Ordered) {role : ServerRole}
    {phase : ListenerPhase} {app : AppState F} (ready : process.shutdownReady role = true)
    (flag : app.shuttingDown = true) (next : phase ≠ .accepting)
    (returning : process.listener.hasReturned = true → role = .full → phase.hasReturned = true)
    (began : ∀ since, phase = .draining since → since ≤ process.clock) :
    ({ process with app := app }.setPhase phase role).Ordered := by
  have beganOther (other : ServerRole) (different : other ≠ role) (since : ℕ)
      (draining : ({ process with app := app }.setPhase phase role).phaseOf other =
        some (.draining since)) : since ≤ process.clock := by
    rw [phaseOf_setPhase_of_ne different] at draining
    apply ordered.began other
    cases other <;> exact draining
  cases role with
  | full =>
      refine ⟨?_, ?_, ?_, ?_, ?_⟩
      · exact iff_of_true flag next
      · exact fun _ => ready
      · exact ordered.metrics
      · intro stopped
        exact returning (ordered.stopped stopped) rfl
      · intro other since draining
        cases other with
        | full => exact began since (Option.some.inj draining)
        | observability => exact beganOther .observability (by simp) since draining
  | observability =>
      have over' := ordered.listener_ne ready (by simp)
      refine ⟨?_, ?_, ?_, ?_, ?_⟩
      · exact iff_of_true flag over'
      · exact fun _ => ordered.signalled over'
      · exact fun _ _ _ => ready
      · exact ordered.stopped
      · intro other since draining
        cases other with
        | full => exact beganOther .full (by simp) since draining
        | observability => exact began since (Option.some.inj draining)

omit [Float64 F] in
/-- A listener that does not accept any more was told to stop. -/
theorem Ordered.ready (ordered : process.Ordered) {role : ServerRole} {phase : ListenerPhase}
    (found : process.phaseOf role = some phase) (past : phase ≠ .accepting) :
    process.shutdownReady role = true ∧ process.app.shuttingDown = true := by
  cases role with
  | full =>
      cases found
      exact ⟨ordered.signalled past, ordered.flag.mpr past⟩
  | observability =>
      have stopped : process.shutdownReady .observability = true :=
        ordered.metrics phase found past
      exact ⟨stopped, ordered.flag.mpr (ordered.listener_ne stopped (by simp))⟩

theorem Does.ordered (does : Does hyper codecs shutdownTimeout process action after)
    (ordered : process.Ordered) : after.Ordered := by
  cases does with
  | elapse time =>
      exact ordered.of_same rfl id (fun role => by cases role <;> rfl) rfl (Nat.le_add_right _ _)
  | signal =>
      exact ordered.of_same rfl (fun _ => rfl) (fun role => by cases role <;> rfl) rfl
        (Nat.le_refl _)
  | acceptError => exact ordered
  | stopMetrics returned some =>
      refine ⟨ordered.flag, ordered.signalled, fun _ _ _ => rfl, fun _ => returned, ?_⟩
      intro role
      cases role with
      | full => exact ordered.began .full
      | observability => exact ordered.began .observability
  | accept | arrive | write | close =>
      exact ordered.of_same rfl id (fun role => by cases role <;> rfl) rfl (Nat.le_refl _)
  | advance found moved =>
      exact ordered.of_same (shuttingDown_of_moves (ServerRole.advance_moves moved)) id
        (fun role => by cases role <;> rfl) rfl (Nat.le_refl _)
  | shutDown accepting ready =>
      refine ordered.setPhase ready rfl (by simp) ?_ ?_
      · rintro returned rfl
        have listener : process.listener = .accepting := Option.some.inj accepting
        rw [listener] at returned
        cases returned
      · rintro since ⟨⟩
        exact Nat.le_refl _
  | drain draining | timeOut draining =>
      obtain ⟨ready, flag⟩ := ordered.ready draining (by simp)
      exact ordered.setPhase ready flag (by simp) (fun _ _ => rfl) (by simp)

theorem ordered_of_reaches {app : AppState F} (fresh : app.shuttingDown = false) {metrics : Bool}
    (reached : Reaches (step hyper codecs shutdownTimeout) (start app metrics) process) :
    process.Ordered := by
  apply reached.rule Ordered (start_ordered fresh metrics)
  intro before action after _ ordered moved
  exact (step_does moved).ordered ordered

end Ordered

section Emptied

variable [Float64 F] {Map : Type} {hyper : Hyper F} {codecs : Codecs Map} {shutdownTimeout : ℕ}
  {process after : Process F} {action : Action}

/-- A listener that returned drained has no open connection. -/
def Emptied (process : Process F) : Prop :=
  ∀ role, process.phaseOf role = some (.returned true) → process.drained role = true

omit [Float64 F] in
theorem drained_accept {role : ServerRole} (accepting : process.phaseOf role = some .accepting)
    (other : ServerRole) (past : process.phaseOf other ≠ some .accepting)
    (drained : process.drained other = true) :
    Process.drained { process with connections := process.connections ++ [⟨role, false⟩] } other =
      true := by
  have different : role ≠ other := by
    rintro rfl
    exact past accepting
  simp only [Process.drained, List.all_append, Bool.and_eq_true]
  exact ⟨drained, by simp [different]⟩

omit [Float64 F] in
theorem drained_close (connection : ℕ) (role other : ServerRole)
    (drained : process.drained other = true) :
    Process.drained { process with
      connections := process.connections.set connection ⟨role, true⟩ } other = true := by
  apply List.all_eq_true.mpr
  intro entry member
  rcases List.mem_or_eq_of_mem_set member with old | rfl
  · exact List.all_eq_true.mp drained entry old
  · simp

omit [Float64 F] in
/-- A step that leaves the listeners where they are. -/
theorem Emptied.of_same (emptied : process.Emptied)
    (phases : ∀ role, after.phaseOf role = process.phaseOf role)
    (drained : ∀ role, process.phaseOf role ≠ some .accepting → process.drained role = true →
      after.drained role = true) : after.Emptied := by
  intro role returned
  rw [phases] at returned
  apply drained role _ (emptied role returned)
  rw [returned]
  simp

omit [Float64 F] in
theorem Emptied.setPhase (emptied : process.Emptied) {app : AppState F} {phase : ListenerPhase}
    {role : ServerRole} (drained : phase = .returned true → process.drained role = true) :
    ({ process with app := app }.setPhase phase role).Emptied := by
  intro other returned
  rw [Process.drained, setPhase_connections]
  by_cases same : other = role
  · subst same
    rw [phaseOf_setPhase] at returned
    exact drained (Option.some.inj returned)
  · rw [phaseOf_setPhase_of_ne same] at returned
    apply emptied other
    cases other <;> exact returned

theorem Does.emptied (lawful : hyper.Lawful)
    (does : Does hyper codecs shutdownTimeout process action after)
    (emptied : process.Emptied) : after.Emptied := by
  cases does with
  | elapse | signal | stopMetrics | arrive | advance | write =>
      exact emptied.of_same (fun role => by cases role <;> rfl) fun _ _ => id
  | acceptError => exact emptied
  | accept accepting =>
      exact emptied.of_same (fun role => by cases role <;> rfl) (drained_accept accepting)
  | close =>
      exact emptied.of_same (fun role => by cases role <;> rfl) fun other _ =>
        drained_close _ _ other
  | shutDown | timeOut => exact emptied.setPhase (by simp)
  | drain draining resolved =>
      exact emptied.setPhase fun _ => lawful.resolves process _ resolved

theorem emptied_of_reaches (lawful : hyper.Lawful) {app : AppState F} {metrics : Bool}
    (reached : Reaches (step hyper codecs shutdownTimeout) (start app metrics) process) :
    process.Emptied := by
  apply reached.rule Emptied
  · intro role returned
    rfl
  · intro before action after _ emptied moved
    exact (step_does moved).emptied lawful emptied

/-- In every state of every run, the flag is set exactly when the router's accept loop is over,
which takes a signal; the metrics listener accepts until the router's listener has returned; and a
listener that returned drained has no open connection.  From any state to any later one, the flag
stays set, and a listener whose loop is over accepts no connection again. -/
theorem shutdown_ordered (lawful : hyper.Lawful) (codecs : Codecs Map) (shutdownTimeout : ℕ)
    {app : AppState F} (fresh : app.shuttingDown = false) (metrics : Bool) {process : Process F}
    (reached : Reaches (step hyper codecs shutdownTimeout) (start app metrics) process) :
    (process.app.shuttingDown = true ↔ process.listener ≠ .accepting) ∧
    (process.listener ≠ .accepting → process.signalled = true) ∧
    (process.listener.hasReturned = false → ∀ phase ∈ process.metricsListener,
      phase = .accepting) ∧
    (∀ role, process.phaseOf role = some (.returned true) → process.drained role = true) ∧
    ∀ later, Reaches (step hyper codecs shutdownTimeout) process later →
      (process.app.shuttingDown = true → later.app.shuttingDown = true) ∧
      ∀ role, process.phaseOf role ≠ some .accepting →
        later.phaseOf role ≠ some .accepting ∧ later.accepted role = process.accepted role := by
  have ordered := ordered_of_reaches fresh reached
  refine ⟨ordered.flag, ordered.signalled, ?_, emptied_of_reaches lawful reached, ?_⟩
  · intro running phase found
    by_contra past
    have returned := ordered.stopped (ordered.metrics phase found past)
    rw [running] at returned
    cases returned
  · intro later follows
    have precedes := precedes_of_reaches follows
    refine ⟨precedes.flag, ?_⟩
    intro role past
    exact ⟨precedes.phaseOf_ne_accepting past, precedes.accepted role past⟩

/-- Two connections, a signal, a third connection that the loop still takes, and the shutdown. -/
theorem shutdown_ordered_signalled :
    ∃ process, Reaches (step .prompt plainCodecs 30) (start idleApp true) process ∧
      process.listener = .draining 0 ∧ process.accepted .full = 2 ∧
      ∀ later, Reaches (step .prompt plainCodecs 30) process later → later.accepted .full = 2 := by
  have performed : ∃ process, perform (step .prompt plainCodecs 30) (start idleApp true)
      [.accept .full, .accept .observability, .signal, .accept .full, .shutDown .full] =
        some process ∧ process.listener = .draining 0 ∧ process.accepted .full = 2 :=
    ⟨_, rfl, rfl, rfl⟩
  obtain ⟨process, performed, draining, two⟩ := performed
  have reached := Reaches.of_perform performed
  obtain ⟨-, -, -, -, onwards⟩ :=
    shutdown_ordered Hyper.prompt_lawful plainCodecs 30 rfl true reached
  refine ⟨process, reached, draining, two, ?_⟩
  intro later follows
  have past : process.phaseOf .full ≠ some .accepting := by
    rw [phaseOf, draining]
    simp
  rw [((onwards later follows).2 .full past).2, two]

end Emptied

end Process

end Sturnus
