import Sturnus.Foundation.Concurrent.Erasure
import Sturnus.Server.Refinement

/-!
# Scrapes leave no trace

A request that is no POST is answered without a change to anything that is
shared.  So the requests that were proxied make a run of their own, and when the
router has drained they are accounted for, whoever scraped it meanwhile.
-/

namespace Sturnus

open Foundation Foundation.Http Foundation.Concurrent Foundation.Transition

variable {F : Type} [Float64 F] {Map : Type}

/-- Waiting for its poll, answered, or gone. -/
def Phase.isQuiet {F : Type} : Phase F → Bool
  | .received | .rejected _ _ | .observed _ | .cancelled => true
  | .buffering _ | .called _ => false

def Task.isPost {F : Type} (task : Task F) : Bool := task.request.method = .post

section Quiet

variable {codecs : Codecs Map} {app after : AppState F} {task next : Task F} {input : Input}
  {effects : List Effect}

theorem admission_of_not_post {request : Request} (noPost : request.method ≠ .post) :
    (∃ response, admission codecs app request = .observed response) ∨
      ∃ rejection, admission codecs app request = .rejected rejection ∧
        rejection ≠ .budgetExhausted := by
  unfold admission
  cases method : request.method with
  | get =>
      simp only
      cases observabilityGet codecs request.path app with
      | some response => exact .inl ⟨response, rfl⟩
      | none => exact .inr ⟨.notFound, rfl, by simp⟩
  | other => exact .inr ⟨.methodNotAllowed, rfl, by simp⟩
  | post => exact absurd method noPost

theorem isPost_of_advance
    (moved : (handler codecs).advance app task input = some (after, next, effects)) :
    next.isPost = task.isPost := by
  obtain ⟨result, -, same⟩ := Option.map_eq_some_iff.mp moved
  cases same
  rfl

/-- A request that is no POST stays quiet, and changes and records nothing. -/
theorem quiet_of_advance (quiet : task.isPost = false ∧ task.phase.isQuiet = true)
    (moved : (handler codecs).advance app task input = some (after, next, effects)) :
    (next.isPost = false ∧ next.phase.isQuiet = true) ∧ after = app ∧ effects = [] := by
  obtain ⟨request, phase⟩ := task
  have noPost : request.method ≠ .post := of_decide_eq_false quiet.1
  have kept := (isPost_of_advance moved).trans quiet.1
  obtain ⟨result, advanced, same⟩ := Option.map_eq_some_iff.mp moved
  cases same
  cases phase with
  | received =>
      cases input with
      | poll =>
          simp only [advancePhase, Option.some.injEq] at advanced
          subst advanced
          unfold advanceReceived at kept ⊢
          have admitted : (∃ response, admission codecs app request = .observed response) ∨
              ∃ rejection, admission codecs app request = .rejected rejection ∧
                rejection ≠ .budgetExhausted := admission_of_not_post noPost
          rcases admitted with ⟨response, admitted⟩ | ⟨rejection, admitted, other⟩
          · rw [admitted] at kept ⊢
            exact ⟨⟨kept, rfl⟩, rfl, rfl⟩
          · rw [admitted] at kept ⊢
            simp only [Rejection.effects_of_ne other] at kept ⊢
            exact ⟨⟨kept, rfl⟩, rfl, trivial⟩
      | cancel =>
          cases advanced
          exact ⟨⟨kept, rfl⟩, rfl, rfl⟩
      | collected | exchanged | record | uploadFrame | dropOutbound => cases advanced
  | rejected | observed | cancelled => cases input <;> cases advanced
  | buffering | called => cases quiet.2

theorem run_erase {server : Server F} (run : Run (handler codecs) app server) :
    ∃ rest : Server F, Run (handler codecs) app rest ∧ rest.shared = server.shared ∧
      rest.tasks = server.tasks.filter Task.isPost ∧ rest.events = server.events :=
  run.erase Task.isPost (fun task => task.isPost = false ∧ task.phase.isQuiet = true)
    (fun _ dropped => ⟨dropped, rfl⟩) isPost_of_advance quiet_of_advance

end Quiet

section Proxied

/-- A POST that came in on a connection of the router. -/
def Served.isProxied (served : Served F) : Bool := served.role = .full ∧ served.task.isPost

omit [Float64 F] in
theorem Served.Mirrors.isPost_eq {served : Served F} {task : Task F}
    (mirrors : served.Mirrors task) : task.isPost = served.isProxied := by
  have posted : task.isPost = true ↔ task.request.method = .post := decide_eq_true_iff
  have proxied : served.isProxied = true ↔ served.role = .full ∧ served.task.isPost = true :=
    decide_eq_true_iff
  have asked : served.task.isPost = true ↔ served.task.request.method = .post :=
    decide_eq_true_iff
  rw [Bool.eq_iff_iff, posted, proxied, asked, mirrors.request]
  cases served.role with
  | full => simp [ServerRole.embed]
  | observability => simp [ServerRole.embed]

omit [Float64 F] in
theorem Served.Mirrors.eq_of_isProxied {served : Served F} {task : Task F}
    (mirrors : served.Mirrors task) (proxied : served.isProxied = true) : task = served.task := by
  obtain ⟨request, phase⟩ := mirrors
  obtain ⟨full, post⟩ := of_decide_eq_true proxied
  have asked : task.request = served.task.request := by
    rw [request, full]
    rfl
  have posted : served.task.request.method = .post := of_decide_eq_true post
  have same := phase.eq_of_ne (by rw [asked, posted]; simp)
  cases task
  cases served with
  | mk connection role written task =>
      cases task
      simp only at asked same
      rw [asked, same]

omit [Float64 F] in
theorem tasks_eq_proxied {served : List (Served F)} {tasks : List (Task F)}
    (mirrors : List.Forall₂ Served.Mirrors served tasks) :
    tasks.filter Task.isPost = (served.filter Served.isProxied).map Served.task := by
  induction mirrors with
  | nil => rfl
  | @cons served task _ _ first _ inductionHypothesis =>
      by_cases proxied : served.isProxied = true
      · have posted := first.isPost_eq.trans proxied
        rw [List.filter_cons_of_pos posted, List.filter_cons_of_pos proxied, List.map_cons,
          inductionHypothesis, first.eq_of_isProxied proxied]
      · have other : ¬task.isPost = true := by rwa [first.isPost_eq]
        rw [List.filter_cons_of_neg other, List.filter_cons_of_neg proxied, inductionHypothesis]

namespace Process

variable {hyper : Hyper F} {codecs : Codecs Map} {shutdownTimeout : ℕ} {process : Process F}

/-- Whatever is scraped on either listener, in any number and order, and however far the shutdown
is: the POSTs of the router make a run of their own, to the same state but for the flag and with
the same effects in the same order. -/
theorem scrapes_leave_no_trace (codecs : Codecs Map) (shutdownTimeout : ℕ) (app : AppState F)
    (metrics : Bool) {process : Process F}
    (reached : Reaches (step hyper codecs shutdownTimeout) (start app metrics) process) :
    ∃ server : Server F, Run (handler codecs) app server ∧
      server.shared = process.app.mark app.shuttingDown ∧
      server.tasks = (process.served.filter Served.isProxied).map Served.task ∧
      server.events = process.journal.map Prod.snd := by
  obtain ⟨server, run, mirrors⟩ := mirrors_of_reaches reached
  obtain ⟨rest, run, shared, tasks, events⟩ := run_erase run
  refine ⟨rest, run, shared.trans mirrors.shared, ?_, ?_⟩
  · rw [tasks, tasks_eq_proxied mirrors.served]
  · rw [events, System.events, mirrors.journal]

/-- While a body is buffered, both listeners are scraped. -/
theorem scrapes_leave_no_trace_buffering :
    ∃ (process : Process ℝ) (server : Server ℝ),
      Reaches (step .prompt plainCodecs 30) (start idleApp true) process ∧
      process.served.length = 3 ∧
      Run (handler plainCodecs) idleApp server ∧ server.tasks.length = 1 ∧
      server.shared = process.app.mark false := by
  have performed : ∃ process : Process ℝ, perform (step .prompt plainCodecs 30) (start idleApp true)
      [.accept .full, .accept .observability, .arrive 0 ⟨.get, "/status".toList, none, none⟩,
        .arrive 0 plainRequest, .arrive 1 plainRequest, .advance 1 .poll, .advance 0 .poll,
        .advance 2 .poll] = some process ∧ process.served.length = 3 ∧
      ((process.served.filter Served.isProxied).map Served.task).length = 1 :=
    ⟨_, rfl, rfl, rfl⟩
  obtain ⟨process, performed, three, one⟩ := performed
  have reached := Reaches.of_perform performed
  obtain ⟨server, run, shared, tasks, -⟩ :=
    scrapes_leave_no_trace plainCodecs 30 idleApp true reached
  exact ⟨process, server, reached, three, run, by rw [tasks, one], shared⟩

end Process

end Proxied

end Sturnus
