import Sturnus.Server.Boot
import Sturnus.Server.Permits

/-!
# The bytes behind the permits

A permit is reserved for the length a request declares.  It counts the kilobytes
of that length, but no more than 32 bits can count: a longer body is held on
fewer permits than it has kilobytes.
-/

namespace Sturnus

open Foundation Foundation.Http Foundation.Concurrent

variable {F : Type} [Float64 F] {Map : Type}

section Declared

/-- The permit of a request, which its handler or its outbound body holds. -/
def Phase.permit : Phase F → Option Permit
  | .buffering permit => some permit
  | .called call => call.outbound.bind OutboundBody.permit
  | _ => none

/-- The declared length of a request that holds a permit. -/
def Task.declaredBytes (task : Task F) : ℕ :=
  match task.phase.permit with
  | some _ => (task.request.declaredLen.map UInt64.toNat).getD 0
  | none => 0

/-- The declared lengths of all requests that hold a permit. -/
def declaredBytes (server : Server F) : ℕ := (server.tasks.map Task.declaredBytes).sum

/-- The longest body whose kilobytes fit into a `u32`. -/
def countableBytes : ℕ := 1024 * (2 ^ 32 - 1)

/-- A request that is received and within the cap declares a length that can be counted. -/
def CountableStep (app : AppState F) (task : Task F) (_ : Input) : Prop :=
  ∀ declared, task.phase = .received → task.request.declaredLen = some declared →
    declared ≤ app.budget.maxBodyBytes → declared.toNat ≤ countableBytes

/-- A permit that is held was reserved for a declared length that can be counted. -/
def Task.Backed (task : Task F) : Prop :=
  ∀ permit ∈ task.phase.permit, ∃ declared, task.request.declaredLen = some declared ∧
    declared.toNat ≤ countableBytes ∧ permit.count = (BufferBudget.wanted declared).toNat

omit [Float64 F] in
theorem Phase.held_eq_permit (phase : Phase F) :
    phase.held = (phase.permit.map Permit.count).getD 0 := by
  cases phase with
  | called call =>
      obtain ⟨route, outbound, stage⟩ := call
      cases outbound <;> rfl
  | received | buffering | rejected | observed | cancelled => rfl

omit [Float64 F] in
/-- The kilobytes of a length that can be counted cover it. -/
theorem Task.Backed.declaredBytes_le {task : Task F} (backed : task.Backed) :
    task.declaredBytes ≤ 1024 * task.phase.held := by
  rw [Phase.held_eq_permit]
  unfold declaredBytes
  split
  next permit holds =>
    obtain ⟨declared, length, countable, count⟩ := backed permit holds
    have wanted := BufferBudget.wanted_toNat declared
    rw [holds, length, Option.map_some, Option.map_some, Option.getD_some, Option.getD_some, count]
    unfold countableBytes at countable
    omega
  next => exact Nat.zero_le _

end Declared

section Countable

variable {codecs : Codecs Map} {app after : AppState F} {request : Request}
  {phase next : Phase F} {effects : List Effect}

/-- Only a reservation makes a permit. -/
theorem Moves.backs (moves : Moves codecs app request phase after next effects)
    (countable : ∀ declared, phase = .received → request.declaredLen = some declared →
      declared ≤ app.budget.maxBodyBytes → declared.toNat ≤ countableBytes)
    (backed : Task.Backed ⟨request, phase⟩) : Task.Backed ⟨request, next⟩ := by
  cases moves with
  | observe | refuse | leave | leaveBody | reject | drop =>
      intro permit holds
      cases holds
  | @reserve declared taken budget length within reserved =>
      rintro permit ⟨⟩
      exact ⟨declared, length, countable declared rfl length within,
        BufferBudget.reserve_count reserved⟩
  | forward | complete | record | respond | abandon | upload => exact backed

/-- In a run of countable steps every permit is backed. -/
theorem run_backed {server : Server F}
    (run : Run ((handler codecs).restrict CountableStep) app server) :
    ∀ task ∈ server.tasks, task.Backed := by
  apply run.tasks_rule Task.Backed
  · rintro request permit ⟨⟩
  · intro shared after task next input events backed moved
    obtain ⟨countable, moved⟩ := Handler.restrict_advance.mp moved
    obtain ⟨⟨after, phase, effects⟩, advanced, same⟩ := Option.map_eq_some_iff.mp moved
    cases same
    exact (advancePhase_moves advanced).backs countable backed

/-- What is declared is covered by the permits that are held, and so by all permits. -/
theorem declaredBytes_le_permits {budgetBytes maxBodyBytes : UInt64} {server : Server F}
    (fresh : app.budget = .new budgetBytes maxBodyBytes)
    (run : Run ((handler codecs).restrict CountableStep) app server) :
    declaredBytes server ≤ 1024 * server.shared.budget.permits.toNat := by
  have whole := run_whole fresh run.of_restrict
  calc
    declaredBytes server ≤ 1024 * heldPermits server :=
      sum_le_heldPermits fun task member => (run_backed run task member).declaredBytes_le
    _ ≤ 1024 * server.shared.budget.permits.toNat := by
      rw [← whole]
      exact Nat.mul_le_mul_left 1024 (Nat.le_add_left _ _)

end Countable

section Uncountable

variable {codecs : Codecs Map} {app : AppState F} {server : Server F}

/-- A request that declares a length is given its permits while these are available. -/
theorem run_reserves (run : Run (handler codecs) app server) {bytes : UInt64}
    (within : bytes ≤ server.shared.budget.maxBodyBytes)
    (enough : (BufferBudget.wanted bytes).toNat ≤ server.shared.budget.availablePermits) :
    ∃ after, Run (handler codecs) app after ∧
      after.shared.budget.availablePermits + (BufferBudget.wanted bytes).toNat =
        server.shared.budget.availablePermits ∧
      after.shared.budget.maxBodyBytes = server.shared.budget.maxBodyBytes ∧
      declaredBytes after = declaredBytes server + bytes.toNat := by
  obtain ⟨⟨permit, budget⟩, reserved⟩ :=
    Option.isSome_iff_exists.mp (BufferBudget.reserve_isSome_iff.mpr enough)
  obtain ⟨conserved, -, cap, -⟩ := BufferBudget.reserve_conserves reserved
  rw [BufferBudget.reserve_count reserved] at conserved
  have moved : (handler codecs).advance server.shared
      ((handler codecs).start ⟨.post, [], none, some bytes⟩) .poll =
        some (server.shared.setBudget budget, ⟨_, .buffering permit⟩, []) :=
    advance_reserves rfl rfl within reserved
  obtain ⟨journal, accepted⟩ := run.accept_advance moved
  refine ⟨_, accepted, conserved, cap, ?_⟩
  unfold declaredBytes
  rw [List.map_append, List.sum_append, List.map_singleton, List.sum_singleton]
  rfl

/-- One kilobyte after another takes the permits that are left. -/
theorem run_fills (run : Run (handler codecs) app server)
    (within : (1024 : UInt64) ≤ server.shared.budget.maxBodyBytes) (n : ℕ)
    (left : server.shared.budget.availablePermits = n) :
    ∃ after, Run (handler codecs) app after ∧
      declaredBytes after = declaredBytes server + 1024 * n := by
  induction n generalizing server with
  | zero => exact ⟨server, run, rfl⟩
  | succ n inductionHypothesis =>
      have one : (BufferBudget.wanted 1024).toNat = 1 := by decide
      obtain ⟨next, reached, conserved, cap, bytes⟩ := run_reserves run within (by omega)
      rw [one, left] at conserved
      obtain ⟨after, filled, total⟩ :=
        inductionHypothesis reached (cap ▸ within) (Nat.add_right_cancel conserved)
      refine ⟨after, filled, ?_⟩
      change _ = _ + 1024 at bytes
      rw [total, bytes]
      omega

/-- A length out of count is given as many permits as can be counted. -/
theorem wanted_uncountable {bytes : UInt64} (beyond : countableBytes < bytes.toNat) :
    (BufferBudget.wanted bytes).toNat = 2 ^ 32 - 1 := by
  have wanted := BufferBudget.wanted_toNat bytes
  unfold countableBytes at beyond
  omega

/-- Where the cap is out of count, one body of that length and kilobytes in all permits that
are left exceed the budget. -/
theorem run_exceeds (codecs : Codecs Map)
    (whole : app.budget.availablePermits = app.budget.permits.toNat)
    (beyond : countableBytes < app.budget.maxBodyBytes.toNat) :
    ∃ server, Run (handler codecs) app server ∧
      1024 * server.shared.budget.permits.toNat < declaredBytes server := by
  have saturated := wanted_uncountable beyond
  have covered := app.budget.covered
  have enough : (BufferBudget.wanted app.budget.maxBodyBytes).toNat ≤
      app.budget.availablePermits := by
    rw [whole]
    exact BufferBudget.wanted_le (UInt64.le_iff_toNat_le.mp app.budget.positive) covered
  obtain ⟨large, reached, conserved, cap, bytes⟩ :=
    run_reserves (Run.boot : Run (handler codecs) app (.boot app)) (UInt64.le_refl _) enough
  have within : (1024 : UInt64) ≤ large.shared.budget.maxBodyBytes := by
    rw [cap, UInt64.le_iff_toNat_le]
    exact Nat.le_trans (by decide) beyond.le
  obtain ⟨server, run, total⟩ := run_fills reached within _ rfl
  refine ⟨server, run, ?_⟩
  change _ = 0 + app.budget.maxBodyBytes.toNat at bytes
  change _ + (BufferBudget.wanted app.budget.maxBodyBytes).toNat = app.budget.availablePermits
    at conserved
  rw [saturated, whole] at conserved
  rw [(run_limits run).1, total, bytes]
  unfold countableBytes at beyond
  omega

end Uncountable

/-- The permits never cover more bytes than the budget has, but for one kilobyte.  What the
requests that hold a permit have declared is within the permits in every run whose bodies can
be counted, and in every run at all exactly if the cap or the budget is below what a `u32`
counts. -/
theorem declared_within_permits_iff (codecs : Codecs Map) (app : AppState F)
    (budgetBytes maxBodyBytes : UInt64) :
    1024 * (BufferBudget.new budgetBytes maxBodyBytes).permits.toNat ≤
      max budgetBytes.toNat 1024 ∧
    (∀ server, Run ((handler codecs).restrict CountableStep)
      (app.setBudget (.new budgetBytes maxBodyBytes)) server →
        declaredBytes server ≤ 1024 * server.shared.budget.permits.toNat) ∧
    ((∀ server, Run (handler codecs) (app.setBudget (.new budgetBytes maxBodyBytes)) server →
        declaredBytes server ≤ 1024 * server.shared.budget.permits.toNat) ↔
      maxBodyBytes.toNat ≤ countableBytes ∨ budgetBytes.toNat < 2 ^ 42) := by
  have fresh : (app.setBudget (.new budgetBytes maxBodyBytes)).budget =
      .new budgetBytes maxBodyBytes := rfl
  have permits : (BufferBudget.new budgetBytes maxBodyBytes).permits.toNat =
      max (budgetBytes.toNat / 1024) 1 := BufferBudget.permitsFor_toNat budgetBytes
  have cap : (BufferBudget.new budgetBytes maxBodyBytes).maxBodyBytes.toNat =
      min maxBodyBytes.toNat (max (budgetBytes.toNat / 1024) 1 * 1024) := by
    change (min maxBodyBytes (BufferBudget.permitsFor budgetBytes * 1024)).toNat = _
    rw [UInt64.toNat_min, BufferBudget.permitsFor_kilobytes, BufferBudget.permitsFor_toNat]
  have countable : (BufferBudget.new budgetBytes maxBodyBytes).maxBodyBytes.toNat ≤
      countableBytes ↔ maxBodyBytes.toNat ≤ countableBytes ∨ budgetBytes.toNat < 2 ^ 42 := by
    rw [cap]
    unfold countableBytes
    omega
  refine ⟨?_, fun server run => declaredBytes_le_permits fresh run, ?_⟩
  · rw [permits]
    omega
  rw [← countable]
  constructor
  · intro within
    by_contra beyond
    have whole := BufferBudget.availablePermits_new budgetBytes maxBodyBytes
    rw [← fresh] at whole
    obtain ⟨server, run, exceeds⟩ := run_exceeds codecs whole (Nat.lt_of_not_le beyond)
    exact Nat.not_lt.mpr (within server run) exceeds
  · intro small server run
    apply declaredBytes_le_permits fresh
    apply run.restrict
    intro system reached task input declared received length within
    rw [(run_limits reached).2] at within
    exact (UInt64.le_iff_toNat_le.mp within).trans small

section Vast

/-- Eight tebibytes. -/
def vastBytes : UInt64 := 8796093022208

/-- One model, and a budget as large as the longest body. -/
noncomputable def vastConfig : Config ℝ :=
  { (Config.single "openai".toList "https://api.openai.com/v1".toList "fast".toList
      ["gpt-4o".toList] : Config ℝ) with
    routing := { (RoutingConfig.default : RoutingConfig ℝ) with
      maxBodyBytes := vastBytes
      maxBufferedBytes := some vastBytes } }

/-- Two bodies, each as long as the whole budget, are buffered at once. -/
theorem declared_exceeds_permits :
    ∃ app server, boot (some : Text → Option Text) none vastConfig = .ok app ∧
      app.budget = .new vastBytes vastBytes ∧ Run (handler plainCodecs) app server ∧
      1024 * server.shared.budget.permits.toNat = vastBytes.toNat ∧
      declaredBytes server = 2 * vastBytes.toNat := by
  have valid : vastConfig.validate (some : Text → Option Text) = .ok () :=
    Config.single_validate "openai".toList "fast".toList ["gpt-4o".toList] (by decide)
  have start : ∃ app, boot (some : Text → Option Text) none vastConfig = .ok app ∧
      app.budget = .new vastBytes vastBytes :=
    ⟨_, bind_eq_ok.mpr ⟨(), valid, rfl⟩, rfl⟩
  obtain ⟨app, started, fresh⟩ := start
  have cap : app.budget.maxBodyBytes = vastBytes := by
    rw [fresh]
    decide
  have permits : app.budget.permits.toNat = 2 * (2 ^ 32) := by
    rw [fresh]
    decide
  have whole : app.budget.availablePermits = 2 * (2 ^ 32) := by
    rw [← permits, fresh]
    rfl
  have saturated : (BufferBudget.wanted vastBytes).toNat = 2 ^ 32 - 1 :=
    wanted_uncountable (by decide)
  have enough : (BufferBudget.wanted vastBytes).toNat ≤ app.budget.availablePermits := by
    rw [saturated, whole]
    decide
  have idle : Run (handler plainCodecs) app (.boot app) := .boot
  obtain ⟨first, reached, conserved, same, one⟩ :=
    run_reserves idle (UInt64.le_of_eq cap.symm) enough
  change _ = app.budget.availablePermits at conserved
  have left : (BufferBudget.wanted vastBytes).toNat ≤ first.shared.budget.availablePermits := by
    rw [saturated, whole] at conserved
    omega
  obtain ⟨server, run, -, -, two⟩ :=
    run_reserves reached (UInt64.le_of_eq (same.trans cap).symm) left
  refine ⟨app, server, started, fresh, run, ?_, ?_⟩
  · rw [(run_limits run).1, permits]
    decide
  · change _ = 0 + _ at one
    rw [two, one]
    omega

end Vast

end Sturnus
