import Sturnus.Config.Cgroup
import Sturnus.Server.Accounting
import Sturnus.Server.ByteCap

/-!
# Half of the container

Unless the configuration says otherwise, the request bodies are given half of the
memory that the kernel grants the container.
-/

namespace Sturnus

open Foundation Foundation.Concurrent

variable {F Addr : Type} [Float64 F] {Map : Type}

section Budget

variable (budgetBytes maxBodyBytes : UInt64)

/-- The bytes that the permits of a budget stand for. -/
theorem BufferBudget.permits_new :
    1024 * (new budgetBytes maxBodyBytes).permits.toNat ≤ max budgetBytes.toNat 1024 := by
  have permits : (new budgetBytes maxBodyBytes).permits.toNat = max (budgetBytes.toNat / 1024) 1 :=
    permitsFor_toNat budgetBytes
  rw [permits]
  omega

/-- The cap is the smaller one of that asked for and of the permits. -/
theorem BufferBudget.maxBodyBytes_new :
    (new budgetBytes maxBodyBytes).maxBodyBytes.toNat =
      min maxBodyBytes.toNat (max (budgetBytes.toNat / 1024) 1 * 1024) := by
  change (min maxBodyBytes (permitsFor budgetBytes * 1024)).toNat = _
  rw [UInt64.toNat_min, permitsFor_kilobytes, permitsFor_toNat]

end Budget

/-- In every run where bodies can be counted, what is declared is within the budget. -/
theorem declaredBytes_le_budget {codecs : Codecs Map} {app : AppState F}
    {budgetBytes maxBodyBytes : UInt64} (fresh : app.budget = .new budgetBytes maxBodyBytes)
    (countable : (BufferBudget.new budgetBytes maxBodyBytes).maxBodyBytes.toNat ≤ countableBytes)
    {server : Server F} (run : Run (handler codecs) app server) :
    declaredBytes server ≤ max budgetBytes.toNat 1024 := by
  have counted : Run ((handler codecs).restrict CountableStep) app server := by
    apply run.restrict
    intro system reached task input declared received length within
    rw [(run_limits reached).2, fresh] at within
    exact (UInt64.le_iff_toNat_le.mp within).trans countable
  calc
    declaredBytes server ≤ 1024 * server.shared.budget.permits.toNat :=
      declaredBytes_le_permits fresh counted
    _ ≤ max budgetBytes.toNat 1024 := by
      rw [(run_limits run).1, fresh]
      exact BufferBudget.permits_new budgetBytes maxBodyBytes

variable [DecidableEq Addr]

/-- In a container whose control files tell a limit, and without a budget in the configuration:
whatever the requests and their order, the bodies that hold a permit were declared with no more
bytes than half the limit, but for a kilobyte, and no longer body is ever admitted. -/
theorem container_bounds_buffers (codecs : Codecs Map) {parseAddr : Text → Option Addr}
    {readToString : Text → Except Text Text} {config : Config F} {app : AppState F}
    (started : boot parseAddr (cgroupMemoryLimit readToString) config = .ok app)
    (unset : config.routing.maxBufferedBytes = none) {limit : UInt64}
    (confined : Confines readToString memoryMax memoryLimitInBytes limit)
    (countable : config.routing.maxBodyBytes.toNat ≤ countableBytes ∨ limit.toNat < 2 ^ 43)
    {server : Server F} (run : Run (handler codecs) app server) :
    declaredBytes server ≤ max (limit.toNat / 2) 1024 ∧
      server.shared.budget.maxBodyBytes.toNat ≤ max (limit.toNat / 2) 1024 := by
  have limited : cgroupMemoryLimit readToString = some limit := confined.found
  have half : (limit / 2).toNat = limit.toNat / 2 := UInt64.toNat_div _ _
  have budget : config.routing.bufferBudgetBytes (some limit) = (limit / 2, "cgroup") := by
    unfold RoutingConfig.bufferBudgetBytes
    rw [unset]
  have fresh : app.budget = .new (limit / 2) config.routing.maxBodyBytes := by
    rw [boot_budget started, limited, budget]
  have cap := BufferBudget.maxBodyBytes_new (limit / 2) config.routing.maxBodyBytes
  rw [half] at cap
  constructor
  · rw [← half]
    apply declaredBytes_le_budget fresh _ run
    unfold countableBytes at countable ⊢
    omega
  · rw [(run_limits run).2, fresh, cap]
    omega

/-- The control files of a container of 256 MiB. -/
def quarterGibibyte (path : Text) : Except Text Text :=
  if path = memoryMax then .ok "268435456\n".toList else .error "no such file".toList

theorem confines_quarterGibibyte :
    Confines quarterGibibyte memoryMax memoryLimitInBytes 268435456 := by
  have blank : ∀ c ∈ ['\n'], Text.isWhitespace c = true := by
    intro c member
    rw [List.mem_singleton.mp member]
    rfl
  have tells : Tells "268435456\n".toList (268435456 : UInt64).toNat :=
    ⟨[], (toString 268435456).toList, ['\n'], by decide +kernel, Decimal.writes_toString _,
      List.forall_mem_nil _, blank⟩
  exact .v2 (if_pos rfl) tells

/-- A body of 1500 bytes, in a container whose bodies may have 128 MiB. -/
theorem container_bounds_buffers_quarter :
    ∃ (app : AppState ℝ) (server : Server ℝ),
      boot (some : Text → Option Text) (cgroupMemoryLimit quarterGibibyte) plainConfig = .ok app ∧
      Run (handler plainCodecs) app server ∧ declaredBytes server = 1500 ∧
      declaredBytes server ≤ 134217728 ∧
      server.shared.budget.maxBodyBytes.toNat ≤ 134217728 := by
  have start : ∃ app,
      boot (some : Text → Option Text) (cgroupMemoryLimit quarterGibibyte) plainConfig = .ok app :=
    ⟨_, bind_eq_ok.mpr ⟨(), Config.single_validate _ _ _ (by decide), rfl⟩⟩
  obtain ⟨app, started⟩ := start
  have fresh : app.budget = .new 134217728 33554432 := by
    rw [boot_budget started, show cgroupMemoryLimit quarterGibibyte = some 268435456 from
      confines_quarterGibibyte.found]
    rfl
  have idle : Run (handler plainCodecs) app (.boot app) := .boot
  have within : (1500 : UInt64) ≤ app.budget.maxBodyBytes := by
    rw [fresh]
    decide
  have enough : (BufferBudget.wanted 1500).toNat ≤ app.budget.availablePermits := by
    rw [fresh]
    decide
  obtain ⟨server, run, -, -, bytes⟩ := run_reserves idle within enough
  obtain ⟨buffers, cap⟩ := container_bounds_buffers plainCodecs started rfl
    confines_quarterGibibyte (.inr (by decide)) run
  exact ⟨app, server, started, run, bytes, buffers, cap⟩

end Sturnus
