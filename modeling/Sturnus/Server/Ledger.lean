import Sturnus.Server.Permits

/-!
# The ledger of a request

What a request has recorded is determined by its phase: first the tick it drew,
then a prefix of what its completion is due.  Replaying what all requests
recorded gives the shared state.
-/

namespace Sturnus

open Foundation Foundation.Http Foundation.Concurrent

variable {F : Type} [Float64 F] {Map : Type}

section Plans

def Stage.remaining : Stage → List Effect
  | .recording _ remaining => remaining
  | .awaiting | .responded _ | .cancelled => []

namespace Phase

variable {F : Type}

def refusal : Phase F → List Effect
  | .rejected rejection _ => rejection.effects
  | _ => []

/-- Recorded before a request is forwarded. -/
def opening (phase : Phase F) : List Effect := phase.refusal ++ ticksOf phase.route

/-- Due once the forwarding call has ended. -/
def closing (phase : Phase F) : List Effect :=
  (phase.completed.map fun completed => completed.1.effects completed.2).getD []

/-- Due, and not recorded yet. -/
def remaining : Phase F → List Effect
  | .called call => call.stage.remaining
  | _ => []

end Phase

end Plans

/-- The opening and a prefix of the closing; the rest of the closing remains. -/
def Phase.Recorded {F : Type} (phase : Phase F) (done : List Effect) : Prop :=
  ∃ recorded, done = phase.opening ++ recorded ∧ recorded ++ phase.remaining = phase.closing

/-- What holds between a request, what it recorded and the state the server booted into. -/
structure Ledger (app : AppState F) (phase : Phase F) (done : List Effect) : Prop where
  recorded : phase.Recorded done
  routes : ∀ route ∈ phase.route, app.modelMap.Routes route
  ended : ∀ route completion, phase.completed = some (route, completion) →
    forwardRequest route.candidate route.isStreaming app.budget.maxBodyBytes
      app.gcpTokenProvider completion.exchange = some completion.result

section Step

theorem Rejection.effects_of_ne {rejection : Rejection} (other : rejection ≠ .budgetExhausted) :
    rejection.effects = [] := by
  cases rejection with
  | budgetExhausted => exact absurd rfl other
  | _ => rfl

/-- Nothing was recorded yet where nothing is due. -/
theorem Phase.Recorded.eq_opening {F : Type} {phase : Phase F} {done : List Effect}
    (recorded : phase.Recorded done) (nothing : phase.closing = []) : done = phase.opening := by
  obtain ⟨recorded, rfl, due⟩ := recorded
  rw [nothing, List.append_eq_nil_iff] at due
  rw [due.1, List.append_nil]

variable {codecs : Codecs Map} {app boot after : AppState F} {request : Request}
  {phase next : Phase F} {done effects : List Effect}

theorem Moves.recorded (moves : Moves codecs app request phase after next effects)
    (before : phase.Recorded done) : next.Recorded (done ++ effects) := by
  cases moves with
  | observe | reserve | leave | leaveBody | abandon | upload | drop =>
      rw [List.append_nil]
      exact before
  | refuse =>
      rw [before.eq_opening rfl]
      exact ⟨[], by simp [Phase.opening, Phase.refusal, Phase.route, ticksOf], rfl⟩
  | reject _ other =>
      rw [before.eq_opening rfl]
      refine ⟨[], ?_, rfl⟩
      simp [Phase.opening, Phase.refusal, Phase.route, ticksOf, Rejection.effects_of_ne other]
  | forward =>
      rw [before.eq_opening rfl]
      exact ⟨[], by simp [Phase.opening, Phase.refusal, Phase.route, ticksOf], rfl⟩
  | complete =>
      rw [before.eq_opening rfl]
      exact ⟨[], rfl, rfl⟩
  | record route outbound completion effect rest =>
      obtain ⟨recorded, rfl, due⟩ := before
      refine ⟨recorded ++ [effect], List.append_assoc _ _ _, ?_⟩
      rw [List.append_assoc]
      exact due
  | respond =>
      rw [List.append_nil]
      exact before

/-- Every move keeps the ledger, for a state that still has the map, the cap and the token
provider it booted with. -/
theorem Moves.ledger (moves : Moves codecs app request phase after next effects)
    (map : app.modelMap = boot.modelMap)
    (cap : app.budget.maxBodyBytes = boot.budget.maxBodyBytes)
    (provider : app.gcpTokenProvider = boot.gcpTokenProvider) (ledger : Ledger boot phase done) :
    Ledger boot next (done ++ effects) := by
  refine ⟨moves.recorded ledger.recorded, ?_, ?_⟩
  · cases moves with
    | observe | refuse | reserve | leave | leaveBody => simp [Phase.route]
    | reject _ _ routes => exact map ▸ routes
    | forward _ routes =>
        rintro given ⟨⟩
        exact map ▸ routes
    | complete | record | respond | abandon | upload | drop => exact ledger.routes
  · cases moves with
    | observe | refuse | reserve | leave | leaveBody | reject | forward | abandon =>
        simp [Phase.completed, Stage.completion]
    | complete outbound ended =>
        rintro given completion ⟨⟩
        rw [cap, provider] at ended
        exact ended
    | record | respond | upload | drop => exact ledger.ended

end Step

section Replay

variable {codecs : Codecs Map} {app after : AppState F} {request : Request}
  {phase next : Phase F} {effects : List Effect}

theorem AppState.performAll_append (app : AppState F) (first second : List Effect) :
    app.performAll (first ++ second) = (app.performAll first).performAll second :=
  List.foldl_append

@[simp] theorem AppState.performAll_modelMap (app : AppState F) (effects : List Effect) :
    (app.performAll effects).modelMap = app.modelMap := by
  apply AppState.performAll_keeps AppState.modelMap
  intro app effect
  cases effect <;> rfl

@[simp] theorem AppState.performAll_gcpTokenProvider (app : AppState F) (effects : List Effect) :
    (app.performAll effects).gcpTokenProvider = app.gcpTokenProvider := by
  apply AppState.performAll_keeps AppState.gcpTokenProvider
  intro app effect
  cases effect <;> rfl

/-- Effects do not touch the budget, and do not depend on it. -/
theorem AppState.performAll_setBudget (app : AppState F) (budget : BufferBudget)
    (effects : List Effect) :
    (app.performAll effects).setBudget budget = (app.setBudget budget).performAll effects := by
  induction effects generalizing app with
  | nil => rfl
  | cons effect rest inductionHypothesis =>
      refine (inductionHypothesis _).trans ?_
      cases effect <;> rfl

/-- Up to the budget, a move changes the state by what it records. -/
theorem Moves.replays (moves : Moves codecs app request phase after next effects)
    (budget : BufferBudget) :
    after.setBudget budget = (app.setBudget budget).performAll effects := by
  cases moves with
  | observe | reserve | leave | leaveBody | complete | respond | abandon | upload => rfl
  | refuse | forward => exact app.performAll_setBudget budget _
  | reject => exact app.performAll_setBudget budget _
  | record _ _ _ effect => exact app.performAll_setBudget budget [effect]
  | drop _ body =>
      unfold AppState.dropBody
      cases body.permit <;> rfl

end Replay

section Runs

variable {codecs : Codecs Map} {app : AppState F} {server : Server F}

/-- The shared state is the boot state with everything that was recorded applied to it. -/
theorem run_replays (run : Run (handler codecs) app server) :
    server.shared.setBudget app.budget = app.performAll server.events := by
  apply run.shared_rule (fun shared done => shared.setBudget app.budget = app.performAll done) rfl
  intro shared next task after input done events replayed moved
  rw [AppState.performAll_append, ← replayed]
  exact (handler_moves moved).replays app.budget

theorem run_modelMap (run : Run (handler codecs) app server) :
    server.shared.modelMap = app.modelMap := by
  have same := congrArg AppState.modelMap (run_replays run)
  rwa [AppState.performAll_modelMap] at same

theorem run_gcpTokenProvider (run : Run (handler codecs) app server) :
    server.shared.gcpTokenProvider = app.gcpTokenProvider := by
  have same := congrArg AppState.gcpTokenProvider (run_replays run)
  rwa [AppState.performAll_gcpTokenProvider] at same

theorem run_ledger (run : Run (handler codecs) app server) {i : ℕ} {task : Task F}
    (found : server.tasks[i]? = some task) : Ledger app task.phase (server.journalOf i) := by
  apply run.task_rule (fun task done => Ledger app task.phase done) _ _ found
  · intro request
    exact ⟨⟨[], rfl, rfl⟩, by rintro route ⟨⟩, by rintro route completion ⟨⟩⟩
  · intro server reached task next input shared done events ledger moved
    exact (handler_moves moved).ledger (run_modelMap reached) (run_limits reached).2
      (run_gcpTokenProvider reached) ledger

end Runs

end Sturnus
