import Sturnus.Foundation.Concurrent.Simulation
import Sturnus.Server.Process

/-!
# The process refines its requests

Leaving out connections, listeners and the shutdown flag, a run of the process
is a run of its requests: what holds of every run of requests holds of the
process, while it serves and while it drains.  And every run of requests is one
of a process that serves them on one connection.
-/

namespace Sturnus

open Foundation Foundation.Http Foundation.Concurrent Foundation.Transition

variable {F : Type} [Float64 F] {Map : Type}

/-- The request is handled alike as a request to the full router. -/
structure Served.Mirrors (served : Served F) (task : Task F) : Prop where
  request : task.request = served.role.embed served.task.request
  phase : served.task.phase.Alike task.request task.phase

namespace Process

variable {hyper : Hyper F} {codecs : Codecs Map} {shutdownTimeout : ℕ} {process after : Process F}
  {action : Action}

/-- The process with its connections and listeners left out, and the flag as given. -/
structure Mirrors (flag : Bool) (process : Process F) (server : Server F) : Prop where
  shared : server.shared = process.app.mark flag
  served : List.Forall₂ Served.Mirrors process.served server.tasks
  journal : server.journal = process.journal

/-- Every step of the process is a step of its requests, or none. -/
theorem Does.mirrors (does : Does hyper codecs shutdownTimeout process action after)
    {initial : AppState F} {flag : Bool} {server : Server F}
    (run : Run (handler codecs) initial server) (mirrors : process.Mirrors flag server) :
    ∃ next, Run (handler codecs) initial next ∧ after.Mirrors flag next := by
  cases does with
  | elapse | signal | accept | acceptError | stopMetrics | close =>
      exact ⟨server, run, mirrors.shared, mirrors.served, mirrors.journal⟩
  | @shutDown role | @drain role | @timeOut role =>
      refine ⟨server, run, ?_⟩
      cases role with
      | full => exact ⟨mirrors.shared, mirrors.served, mirrors.journal⟩
      | observability => exact ⟨mirrors.shared, mirrors.served, mirrors.journal⟩
  | @arrive connection role request found =>
      refine ⟨_, run.accept (role.embed request), mirrors.shared, ?_, mirrors.journal⟩
      apply List.rel_append mirrors.served
      exact .cons ⟨rfl, .same _⟩ .nil
  | @write i connection role written task found answered =>
      obtain ⟨other, foundTask, same⟩ := forall₂_getElem? mirrors.served found
      exact ⟨server, run, mirrors.shared,
        forall₂_set_left mirrors.served foundTask ⟨same.request, same.phase⟩, mirrors.journal⟩
  | @advance i connection role written request phase next input app effects found moved =>
      obtain ⟨⟨asked, other⟩, foundTask, same, alike⟩ := forall₂_getElem? mirrors.served found
      dsimp only at same alike
      subst same
      obtain ⟨result, advanced, alikeNext⟩ :=
        advancePhase_mark alike (ServerRole.advance_embed moved) flag
      have handled : (handler codecs).advance server.shared ⟨role.embed request, other⟩ input =
          some (app.mark flag, ⟨role.embed request, result⟩, effects) := by
        simp only [handler, mirrors.shared, advanced, Option.map_some]
      refine ⟨_, run.advance foundTask handled, rfl, ?_, ?_⟩
      · exact forall₂_set mirrors.served i ⟨rfl, alikeNext⟩
      · simp only [mirrors.journal]

/-- In every state of every run of the process, its requests stand as in some run of requests on
the state it booted with: the shared state is the same but for the shutdown flag, the journal is
the same, and so is every request but for the answers to observability GETs. -/
theorem mirrors_of_reaches {app : AppState F} {metrics : Bool}
    (reached : Reaches (step hyper codecs shutdownTimeout) (start app metrics) process) :
    ∃ server, Run (handler codecs) app server ∧ process.Mirrors app.shuttingDown server := by
  apply reached.rule fun process =>
    ∃ server, Run (handler codecs) app server ∧ process.Mirrors app.shuttingDown server
  · exact ⟨_, .boot, rfl, .nil, rfl⟩
  · intro before action after _ inductionHypothesis moved
    obtain ⟨server, run, mirrors⟩ := inductionHypothesis
    exact (step_does moved).mirrors run mirrors

/-- The process whose requests came in on one connection of the router that is still open. -/
def serving (server : Server F) (metrics : Bool) : Process F :=
  { start server.shared metrics with
    connections := [⟨.full, false⟩]
    served := server.tasks.map (Served.mk 0 .full false)
    journal := server.journal }

/-- Every run of requests is that of a process. -/
theorem reaches_of_run {app : AppState F} {server : Server F}
    (run : Run (handler codecs) app server) (metrics : Bool) :
    Reaches (step hyper codecs shutdownTimeout) (start app metrics) (serving server metrics) := by
  induction run with
  | boot => exact .single ⟨.accept .full, rfl⟩
  | @accept server request _ inductionHypothesis =>
      refine inductionHypothesis.tail ⟨.arrive 0 request, ?_⟩
      simp [step, serving, start, handler]
  | @advance server i task next input shared events _ found moved inductionHypothesis =>
      refine inductionHypothesis.tail ⟨.advance i input, ?_⟩
      obtain ⟨⟨_, phase, _⟩, advanced, same⟩ := Option.map_eq_some_iff.mp moved
      cases same
      have inside : (serving server metrics).served[i]? = some ⟨0, .full, false, task⟩ := by
        simp [serving, found]
      have handled : ServerRole.full.advance codecs (serving server metrics).app task.request
          task.phase input = some (shared, phase, events) := advanced
      simp only [step, inside, handled, Option.map_some]
      simp [serving, start]

end Process

end Sturnus
