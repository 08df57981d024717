import Sturnus.Proxy.Rewrite
import Sturnus.Server.Moves

/-!
# The buffer budget over whole runs

Every advance moves permits between the semaphore and one request, so in every
state the permits that are not available are held by some request or its body.
-/

namespace Sturnus

open Foundation Foundation.Http Foundation.Concurrent

variable {F : Type} [Float64 F] {Map : Type}

/-- The permits held by all requests and outbound bodies. -/
def heldPermits (server : Server F) : ℕ := (server.tasks.map fun task => task.phase.held).sum

section Moves

@[simp] theorem AppState.perform_budget (app : AppState F) (effect : Effect) :
    (app.perform effect).budget = app.budget := by
  cases effect <;> rfl

@[simp] theorem AppState.performAll_budget (app : AppState F) (effects : List Effect) :
    (app.performAll effects).budget = app.budget :=
  AppState.performAll_keeps AppState.budget AppState.perform_budget app effects

omit [Float64 F] in
theorem AppState.dropBody_conserves (app : AppState F) (body : OutboundBody) :
    (app.dropBody body).budget.availablePermits = app.budget.availablePermits + body.held := by
  unfold dropBody OutboundBody.held
  cases body.permit <;> rfl

variable {codecs : Codecs Map} {app after : AppState F} {request : Request}
  {phase next : Phase F} {effects : List Effect}

/-- What a request gains the semaphore loses. -/
theorem Moves.conserves (moves : Moves codecs app request phase after next effects) :
    after.budget.availablePermits + next.held = app.budget.availablePermits + phase.held := by
  cases moves with
  | observe | leave | complete | respond | abandon | upload => rfl
  | refuse =>
      rw [AppState.performAll_budget]
      rfl
  | reserve _ _ reserved => exact (BufferBudget.reserve_conserves reserved).1
  | leaveBody permit => rfl
  | reject =>
      unfold AppState.release
      rw [AppState.performAll_budget]
      rfl
  | forward =>
      rw [AppState.performAll_budget]
      rfl
  | record =>
      rw [AppState.perform_budget]
      rfl
  | drop route body stage =>
      rw [app.dropBody_conserves body]
      rfl

/-- The size of the budget and the cap never change. -/
theorem Moves.limits (moves : Moves codecs app request phase after next effects) :
    after.budget.permits = app.budget.permits ∧
      after.budget.maxBodyBytes = app.budget.maxBodyBytes := by
  cases moves with
  | observe | leave | complete | respond | abandon | upload | leaveBody => exact ⟨rfl, rfl⟩
  | refuse | forward =>
      rw [AppState.performAll_budget]
      exact ⟨rfl, rfl⟩
  | reserve _ _ reserved => exact (BufferBudget.reserve_conserves reserved).2.imp_right And.left
  | reject =>
      unfold AppState.release
      rw [AppState.performAll_budget]
      exact ⟨rfl, rfl⟩
  | record =>
      rw [AppState.perform_budget]
      exact ⟨rfl, rfl⟩
  | drop route body stage =>
      unfold AppState.dropBody
      cases body.permit <;> exact ⟨rfl, rfl⟩

/-- A request that is not admitted leaves the budget as it was. -/
theorem Moves.refused (moves : Moves codecs app request .received after next effects)
    (notAdmitted : ∀ permit, next ≠ .buffering permit) : after.budget = app.budget := by
  cases moves with
  | observe | leave => rfl
  | refuse => exact AppState.performAll_budget _ _
  | reserve => exact absurd rfl (notAdmitted _)

/-- Only a request that was just received is answered 429, when its reservation fails. -/
theorem Moves.exhausted {route : Option Route}
    (moves : Moves codecs app request phase after (.rejected .budgetExhausted route) effects) :
    phase = .received ∧ ∃ bytes, bytes ≤ app.budget.maxBodyBytes ∧
      app.budget.reserve bytes = none := by
  cases moves with
  | refuse reason =>
      obtain ⟨bytes, -, within, refused⟩ := reason rfl
      exact ⟨rfl, bytes, within, refused⟩
  | reject _ other => exact absurd rfl other

end Moves

section Runs

variable {codecs : Codecs Map} {app : AppState F} {server : Server F}

theorem advance_admitted {request : Request} {permit : Permit} {budget : BufferBudget}
    (admitted : admission codecs app request = .admitted permit budget) :
    (handler codecs).advance app (Task.start request) .poll =
      some (app.setBudget budget, ⟨request, .buffering permit⟩, []) := by
  simp only [handler, Task.start, advancePhase, advanceReceived, admitted, Option.map_some]

theorem advance_forwarded {request : Request} {permit : Permit}
    {read : Except BodyError (List UInt8)} {route : Route} {outbound : OutboundBody}
    {rrState : RoundRobinState}
    (routed : routeBody codecs.json app request.affinityHeader permit read =
      (.forwarding route outbound, rrState)) :
    (handler codecs).advance app ⟨request, .buffering permit⟩ (.collected read) =
      some ({ app with rrState := rrState },
        ⟨request, .called ⟨route, some outbound, .awaiting⟩⟩, route.ticks) := by
  simp only [handler, advancePhase, advanceCollected, routed, Option.map_some]

/-- A request within the cap is admitted with the permit that is reserved for it. -/
theorem admission_reserves {request : Request} {bytes : UInt64} {permit : Permit}
    {budget : BufferBudget} (posted : request.method = .post)
    (length : request.declaredLen = some bytes) (within : bytes ≤ app.budget.maxBodyBytes)
    (reserved : app.budget.reserve bytes = some (permit, budget)) :
    admission codecs app request = .admitted permit budget := by
  unfold admission
  simp only [posted, length, UInt64.not_lt.mpr within, if_false, reserved]

/-- It is buffered on that permit. -/
theorem advance_reserves {request : Request} {bytes : UInt64} {permit : Permit}
    {budget : BufferBudget} (posted : request.method = .post)
    (length : request.declaredLen = some bytes) (within : bytes ≤ app.budget.maxBodyBytes)
    (reserved : app.budget.reserve bytes = some (permit, budget)) :
    (handler codecs).advance app (Task.start request) .poll =
      some (app.setBudget budget, ⟨request, .buffering permit⟩, []) :=
  advance_admitted (admission_reserves posted length within reserved)

theorem run_conserves (run : Run (handler codecs) app server) :
    server.shared.budget.availablePermits + heldPermits server =
      app.budget.availablePermits := by
  apply run.sum_rule (fun app => app.budget.availablePermits) fun task => task.phase.held
  · intro request
    rfl
  · intro shared next task after input events moved
    exact (handler_moves moved).conserves

omit [Float64 F] in
/-- What every request holds within its permits, all of them hold within theirs. -/
theorem sum_le_heldPermits {bytes : Task F → ℕ}
    (each : ∀ task ∈ server.tasks, bytes task ≤ 1024 * task.phase.held) :
    (server.tasks.map bytes).sum ≤ 1024 * heldPermits server := by
  unfold heldPermits
  rw [← List.sum_map_mul_left]
  exact List.sum_le_sum each

theorem run_limits (run : Run (handler codecs) app server) :
    server.shared.budget.permits = app.budget.permits ∧
      server.shared.budget.maxBodyBytes = app.budget.maxBodyBytes := by
  apply run.shared_rule (fun shared _ => shared.budget.permits = app.budget.permits ∧
    shared.budget.maxBodyBytes = app.budget.maxBodyBytes) ⟨rfl, rfl⟩
  intro shared next task after input done events limits moved
  obtain ⟨permits, cap⟩ := (handler_moves moved).limits
  exact ⟨permits.trans limits.1, cap.trans limits.2⟩

end Runs

/-- From a fresh budget on, the permits that are available and those that are held are all
there are. -/
theorem run_whole {codecs : Codecs Map} {app : AppState F} {server : Server F}
    {budgetBytes maxBodyBytes : UInt64} (fresh : app.budget = .new budgetBytes maxBodyBytes)
    (run : Run (handler codecs) app server) :
    server.shared.budget.availablePermits + heldPermits server =
      server.shared.budget.permits.toNat := by
  rw [run_conserves run, (run_limits run).1, fresh, BufferBudget.availablePermits_new]

/-- In every state of every run: the available permits and the held ones add up to the
budget, whoever is refused leaves it unchanged, an idle budget admits every body
within the cap, and a 429 is answered only while some other request holds permits. -/
theorem budget_never_leaks (codecs : Codecs Map) {app : AppState F}
    {budgetBytes maxBodyBytes : UInt64} (fresh : app.budget = .new budgetBytes maxBodyBytes)
    {server : Server F} (run : Run (handler codecs) app server) :
    server.shared.budget.permits = app.budget.permits ∧
    server.shared.budget.maxBodyBytes = app.budget.maxBodyBytes ∧
    server.shared.budget.availablePermits + heldPermits server =
      server.shared.budget.permits.toNat ∧
    (∀ task ∈ server.tasks, ∀ input after next effects,
      (handler codecs).advance server.shared task input = some (after, next, effects) →
      task.phase = .received → (∀ permit, next.phase ≠ .buffering permit) →
        after.budget = server.shared.budget) ∧
    (heldPermits server = 0 → ∀ bytes ≤ server.shared.budget.maxBodyBytes,
      (server.shared.budget.reserve bytes).isSome = true) ∧
    ∀ task ∈ server.tasks, ∀ input after next effects route,
      (handler codecs).advance server.shared task input = some (after, next, effects) →
      next.phase = .rejected .budgetExhausted route →
        task.phase = .received ∧ ∃ other ∈ server.tasks, 0 < other.phase.held := by
  obtain ⟨permits, cap⟩ := run_limits run
  have conserved := run_whole fresh run
  have admits (idle : heldPermits server = 0) (bytes : UInt64)
      (within : bytes ≤ server.shared.budget.maxBodyBytes) :
      (server.shared.budget.reserve bytes).isSome = true := by
    rw [idle, Nat.add_zero] at conserved
    exact BufferBudget.reserve_isSome conserved within
  refine ⟨permits, cap, conserved, ?_, admits, ?_⟩
  · intro task _ input after next effects moved received notAdmitted
    have moves := handler_moves moved
    rw [received] at moves
    exact moves.refused notAdmitted
  · intro task _ input after next effects route moved exhausted
    have moves := handler_moves moved
    rw [exhausted] at moves
    obtain ⟨received, bytes, within, refused⟩ := moves.exhausted
    refine ⟨received, ?_⟩
    by_contra nobody
    push Not at nobody
    have idle : heldPermits server = 0 := by
      apply List.sum_eq_zero
      intro count member
      obtain ⟨other, inside, rfl⟩ := List.mem_map.mp member
      exact Nat.le_zero.mp (nobody other inside)
    have admitted := admits idle bytes within
    rw [refused] at admitted
    cases admitted

/-- Four permits and no aliases. -/
noncomputable def idleApp : AppState ℝ where
  modelMap := ⟨∅⟩
  tracker := .new 0 0
  rrState := .new
  exploitK := exploitK
  gcpTokenProvider := none
  budget := .new 4096 2048
  metrics := .new
  shuttingDown := false

def plainCodecs : Codecs (List (Text × Text)) := ⟨.flat, fun _ => .ok []⟩

def plainRequest : Request := ⟨.post, "/v1/chat/completions".toList, none, some 1500⟩

/-- While a body of 1500 bytes is buffered, two of the four permits are left. -/
theorem budget_never_leaks_buffering :
    ∃ server, Run (handler plainCodecs) idleApp server ∧ heldPermits server = 2 ∧
      server.shared.budget.availablePermits = 2 := by
  have moved : ∃ after next effects, (handler plainCodecs).advance idleApp
      (Task.start plainRequest) .poll = some (after, next, effects) ∧ next.phase.held = 2 :=
    ⟨_, _, _, rfl, rfl⟩
  obtain ⟨after, next, effects, moved, two⟩ := moved
  obtain ⟨server, alone, run⟩ : ∃ server : Server ℝ, server.tasks = [next] ∧
      Run (handler plainCodecs) idleApp server :=
    ⟨_, rfl, (Run.alone (handler plainCodecs) idleApp plainRequest).alone_advance moved⟩
  obtain ⟨permits, -, conserved, -⟩ := budget_never_leaks plainCodecs rfl run
  have held : heldPermits server = 2 := by
    unfold heldPermits
    rw [alone]
    exact two
  have four : idleApp.budget.permits.toNat = 4 := rfl
  rw [held, permits, four] at conserved
  exact ⟨server, run, held, by omega⟩

end Sturnus
