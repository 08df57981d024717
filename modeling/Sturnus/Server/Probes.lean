import Sturnus.Server.Drain

/-!
# Health probes

A health probe tells whether the router's accept loop is over, on whichever
listener it came in.
-/

namespace Sturnus

open Foundation Foundation.Http Foundation.Transition

variable {F : Type} [Float64 F] {Map : Type}

/-- `run_healthcheck`: probe a running instance, and fail unless it answers with success.  How a
status is displayed is left open. -/
def runHealthcheck (display : StatusCode → Text) (probe : Text → Except Text StatusCode)
    (port : UInt16) : Except Text Unit := do
  let url := "http://127.0.0.1:".toList ++ (toString port.toNat).toList ++ "/health".toList
  let status ← probe url
  if status.isSuccess then .ok ()
  else .error ("health probe ".toList ++ url ++ " returned ".toList ++ display status)

omit [Float64 F] in
theorem healthResponse_isSuccess (shuttingDown : Bool) :
    (healthResponse shuttingDown : Response F).status.isSuccess = !shuttingDown := by
  cases shuttingDown <;> rfl

/-- The phase of a health GET that is polled, on either listener. -/
theorem advance_health {codecs : Codecs Map} {app after : AppState F} {request : Request}
    {role : ServerRole} {phase : Phase F} {input : Input} {response : Response F}
    {effects : List Effect} (get : request.method = .get) (health : IsHealthPath request.path)
    (moved : role.advance codecs app request phase input =
      some (after, .observed response, effects)) :
    response = healthResponse app.shuttingDown := by
  have embedded : role.embed request = request := by
    cases role with
    | full => rfl
    | observability => exact if_pos get
  have full := ServerRole.advance_embed moved
  rw [embedded] at full
  cases phase with
  | received =>
      cases input with
      | poll =>
          simp only [advancePhase, advanceReceived, admission, get,
            observabilityGet_health _ _ health, Option.some.injEq, Prod.mk.injEq,
            Phase.observed.injEq] at full
          exact full.2.1.symm
      | cancel => cases full
      | collected | exchanged | record | uploadFrame | dropOutbound => cases full
  | buffering permit =>
      cases input with
      | collected read =>
          simp only [advancePhase, Option.some.injEq] at full
          have moves := advanceCollected_moves codecs app request permit read
          rw [full] at moves
          cases moves
      | cancel => cases full
      | poll | exchanged | record | uploadFrame | dropOutbound => cases full
  | called call =>
      obtain ⟨result, -, same⟩ := Option.map_eq_some_iff.mp full
      cases same
  | rejected | observed | cancelled => cases input <;> cases full

namespace Process

variable {hyper : Hyper F} {codecs : Codecs Map} {shutdownTimeout : ℕ}
  {process earlier after later : Process F} {action : Action}

/-- Every health GET answered since a state says what the flag was meanwhile. -/
def ProbedSince (earlier process : Process F) : Prop :=
  ∀ (i : ℕ) (served : Served F) (response : Response F), process.served[i]? = some served →
    served.task.request.method = .get → IsHealthPath served.task.request.path →
    served.task.phase = .observed response →
    (∀ was, earlier.served[i]? = some was → was.task.phase.isHandled = false) →
    ∃ shuttingDown, response = healthResponse shuttingDown ∧
      (earlier.listener ≠ .accepting → shuttingDown = true) ∧
      (process.listener = .accepting → shuttingDown = false)

omit [Float64 F] in
theorem ProbedSince.of_same (probed : earlier.ProbedSince process)
    (served : after.served = process.served)
    (back : after.listener = .accepting → process.listener = .accepting) :
    earlier.ProbedSince after := by
  intro i request response found get health answered unanswered
  rw [served] at found
  obtain ⟨flag, same, past, accepting⟩ :=
    probed i request response found get health answered unanswered
  exact ⟨flag, same, past, fun still => accepting (back still)⟩

omit [Float64 F] in
theorem Precedes.listener_ne (precedes : earlier.Precedes process)
    (past : earlier.listener ≠ .accepting) : process.listener ≠ .accepting := by
  have other : earlier.phaseOf .full ≠ some .accepting := by
    simpa [phaseOf] using past
  simpa [phaseOf] using precedes.phaseOf_ne_accepting other

theorem Does.probedSince (does : Does hyper codecs shutdownTimeout process action after)
    (ordered : process.Ordered) (precedes : earlier.Precedes process)
    (probed : earlier.ProbedSince process) : earlier.ProbedSince after := by
  have back : after.listener = .accepting → process.listener = .accepting := by
    intro accepting
    by_contra past
    exact does.precedes.listener_ne past accepting
  cases does with
  | elapse | signal | accept | acceptError | stopMetrics | close =>
      exact probed.of_same rfl back
  | shutDown | drain | timeOut => exact probed.of_same (setPhase_served _ _ _) back
  | arrive request found =>
      intro i served response foundServed get health answered unanswered
      rcases Nat.lt_or_ge i process.served.length with old | new
      · rw [List.getElem?_append_left old] at foundServed
        exact probed i served response foundServed get health answered unanswered
      · rw [List.getElem?_append_right new, List.getElem?_singleton] at foundServed
        split at foundServed
        · cases foundServed
          cases answered
        · cases foundServed
  | @write j connection role written task found answered' =>
      intro i served response foundServed get health answered unanswered
      by_cases same : j = i
      · subst same
        rw [List.getElem?_set_self (List.getElem?_eq_some_iff.mp found).1] at foundServed
        cases foundServed
        exact probed j _ response found get health answered unanswered
      · rw [List.getElem?_set_ne same] at foundServed
        exact probed i served response foundServed get health answered unanswered
  | @advance j connection role written request phase next input app effects found moved =>
      intro i served response foundServed get health answered unanswered
      by_cases same : j = i
      · subst same
        rw [List.getElem?_set_self (List.getElem?_eq_some_iff.mp found).1] at foundServed
        cases foundServed
        dsimp only at get health answered
        subst answered
        refine ⟨process.app.shuttingDown, advance_health get health moved, ?_, ?_⟩
        · intro past
          exact ordered.flag.mpr (precedes.listener_ne past)
        · intro accepting
          apply Bool.eq_false_iff.mpr
          intro flag
          exact ordered.flag.mp flag accepting
      · rw [List.getElem?_set_ne same] at foundServed
        exact probed i served response foundServed get health answered unanswered

/-- A health GET that is answered between two states of a run is answered as shutting down if the
accept loop was over before, and as ok if it still runs; and `healthcheck` passes on exactly the
latter answer. -/
theorem probes_tell_shutdown (codecs : Codecs Map) (shutdownTimeout : ℕ) {app : AppState F}
    (fresh : app.shuttingDown = false) (metrics : Bool) {earlier later : Process F}
    (reached : Reaches (step hyper codecs shutdownTimeout) (start app metrics) earlier)
    (follows : Reaches (step hyper codecs shutdownTimeout) earlier later)
    {i : ℕ} {served : Served F} {response : Response F} (found : later.served[i]? = some served)
    (get : served.task.request.method = .get) (health : IsHealthPath served.task.request.path)
    (answered : served.task.phase = .observed response)
    (unanswered : ∀ was, earlier.served[i]? = some was → was.task.phase.isHandled = false) :
    ∃ shuttingDown, response = healthResponse shuttingDown ∧
      (earlier.listener ≠ .accepting → shuttingDown = true) ∧
      (later.listener = .accepting → shuttingDown = false) ∧
      ∀ display port, runHealthcheck display (fun _ => .ok response.status) port = .ok () ↔
        shuttingDown = false := by
  have probed : earlier.ProbedSince later := by
    apply (follows.rule (fun now => earlier.ProbedSince now) _ _)
    · intro i served response found get health answered unanswered
      have open' := unanswered served found
      rw [answered] at open'
      cases open'
    · intro before action after between probed moved
      exact (step_does moved).probedSince (ordered_of_reaches fresh (reached.trans between))
        (precedes_of_reaches between) probed
  obtain ⟨flag, same, past, accepting⟩ :=
    probed i served response found get health answered unanswered
  refine ⟨flag, same, past, accepting, ?_⟩
  intro display port
  have success := healthResponse_isSuccess (F := F) flag
  rw [← same] at success
  unfold runHealthcheck
  cases flag with
  | true => simp [bind, Except.bind, success]
  | false => simp [bind, Except.bind, success]

/-- A probe of the metrics listener while the router drains. -/
theorem probes_tell_shutdown_draining :
    ∃ (process : Process ℝ) (served : Served ℝ) (response : Response ℝ),
      Reaches (step .prompt plainCodecs 30) (start idleApp true) process ∧
      process.served[0]? = some served ∧ served.role = .observability ∧
      served.task.phase = .observed response ∧ response = healthResponse true := by
  have performed : ∃ (earlier later : Process ℝ) (served : Served ℝ) (response : Response ℝ),
      perform (step .prompt plainCodecs 30) (start idleApp true)
        [.accept .full, .accept .observability, .signal, .shutDown .full] = some earlier ∧
      perform (step .prompt plainCodecs 30) earlier
        [.arrive 1 ⟨.get, "/healthz".toList, none, none⟩, .advance 0 .poll] = some later ∧
      earlier.listener = .draining 0 ∧ earlier.served = [] ∧
      later.served[0]? = some served ∧ served.role = .observability ∧
      served.task.request = ⟨.get, "/healthz".toList, none, none⟩ ∧
      served.task.phase = .observed response :=
    ⟨_, _, _, _, rfl, rfl, rfl, rfl, rfl, rfl, rfl, rfl⟩
  obtain ⟨earlier, later, served, response, before, between, draining, none, found, role, request,
    answered⟩ := performed
  have reached := Reaches.of_perform before
  have follows := Reaches.of_perform between
  obtain ⟨flag, same, past, -⟩ := probes_tell_shutdown plainCodecs 30 rfl true reached follows
    found (by rw [request]) (by rw [request]; exact .inr rfl) answered (by simp [none])
  have down : flag = true := past (by rw [draining]; simp)
  exact ⟨later, served, response, reached.trans follows, found, role, answered, by rw [same, down]⟩

end Process

end Sturnus
