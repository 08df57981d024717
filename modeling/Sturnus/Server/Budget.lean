import Sturnus.Foundation.Semaphore
import Mathlib.Tactic.Common

/-!
# The buffer budget

Memory for request bodies is handed out in permits of one kilobyte.  `usize`
has 64 bits.
-/

namespace Sturnus

open Foundation

/-- A cap above the budget would be a request that can never be admitted, so every
budget covers its cap. -/
structure BufferBudget where
  semaphore : Semaphore
  permits : UInt64
  maxBodyBytes : UInt64
  positive : 1 ≤ permits
  covered : maxBodyBytes.toNat ≤ permits.toNat * 1024

/-- `bytes.div_ceil(1024)`. -/
def divCeil1024 (bytes : UInt64) : UInt64 :=
  if bytes % 1024 = 0 then bytes / 1024 else bytes / 1024 + 1

/-- `u32::try_from(n).unwrap_or(u32::MAX)`. -/
def saturatingU32 (n : UInt64) : UInt32 := if n ≤ 0xFFFFFFFF then n.toUInt32 else 0xFFFFFFFF

namespace BufferBudget

/-- `(budget_bytes / 1024).clamp(1, MAX_PERMITS)`. -/
def permitsFor (budgetBytes : UInt64) : UInt64 :=
  min (max (budgetBytes / 1024) 1) (UInt64.ofNat Semaphore.maxPermits)

/-- The upper clamp is never reached: a 64-bit budget has fewer kilobytes. -/
theorem permitsFor_toNat (budgetBytes : UInt64) :
    (permitsFor budgetBytes).toNat = max (budgetBytes.toNat / 1024) 1 := by
  have bytes : budgetBytes.toNat < 2 ^ 64 := budgetBytes.toNat_lt
  have clamp : (UInt64.ofNat Semaphore.maxPermits).toNat = 2 ^ 61 - 1 := by decide
  unfold permitsFor
  rw [UInt64.toNat_min, UInt64.toNat_max, UInt64.toNat_div, clamp]
  change min (max (budgetBytes.toNat / 1024) 1) (2 ^ 61 - 1) = _
  omega

theorem permitsFor_kilobytes (budgetBytes : UInt64) :
    (permitsFor budgetBytes * 1024).toNat = (permitsFor budgetBytes).toNat * 1024 := by
  have bytes : budgetBytes.toNat < 2 ^ 64 := budgetBytes.toNat_lt
  have permits := permitsFor_toNat budgetBytes
  rw [UInt64.toNat_mul]
  change (permitsFor budgetBytes).toNat * 1024 % 2 ^ 64 = _
  omega

def new (budgetBytes maxBodyBytes : UInt64) : BufferBudget where
  semaphore := .new (permitsFor budgetBytes).toNat
  permits := permitsFor budgetBytes
  maxBodyBytes := min maxBodyBytes (permitsFor budgetBytes * 1024)
  positive := by
    rw [UInt64.le_iff_toNat_le, permitsFor_toNat]
    exact Nat.le_max_right _ _
  covered := by
    rw [UInt64.toNat_min, permitsFor_kilobytes]
    exact Nat.min_le_right _ _

def availablePermits (budget : BufferBudget) : ℕ := budget.semaphore.availablePermits

/-- The permits wanted for a body: whole kilobytes, at least one. -/
def wanted (bytes : UInt64) : UInt32 := saturatingU32 (max (divCeil1024 bytes) 1)

def reserve (budget : BufferBudget) (bytes : UInt64) : Option (Permit × BufferBudget) :=
  (budget.semaphore.tryAcquireMany (wanted bytes)).map fun (permit, semaphore) =>
    (permit, { budget with semaphore := semaphore })

/-- Dropping a permit returns it to the semaphore it came from. -/
def release (budget : BufferBudget) (permit : Permit) : BufferBudget :=
  { budget with semaphore := budget.semaphore.release permit }

theorem divCeil1024_toNat (bytes : UInt64) :
    (divCeil1024 bytes).toNat = (bytes.toNat + 1023) / 1024 := by
  have small : bytes.toNat < 2 ^ 64 := bytes.toNat_lt
  have rest : (bytes % 1024).toNat = bytes.toNat % 1024 := UInt64.toNat_mod ..
  have quotient : (bytes / 1024).toNat = bytes.toNat / 1024 := UInt64.toNat_div ..
  unfold divCeil1024
  split
  next exact =>
    rw [exact] at rest
    change 0 = _ at rest
    omega
  next inexact =>
    have positive : bytes.toNat % 1024 ≠ 0 := by
      intro zero
      exact inexact (UInt64.toNat_inj.mp (rest.trans zero))
    rw [UInt64.toNat_add, quotient]
    change (bytes.toNat / 1024 + 1) % 2 ^ 64 = _
    omega

theorem saturatingU32_toNat (n : UInt64) : (saturatingU32 n).toNat = min n.toNat (2 ^ 32 - 1) := by
  unfold saturatingU32
  split
  next fits =>
    have bound : n.toNat ≤ 2 ^ 32 - 1 := UInt64.le_iff_toNat_le.mp fits
    rw [UInt64.toNat_toUInt32]
    omega
  next large =>
    have bound : 2 ^ 32 - 1 < n.toNat := UInt64.lt_iff_toNat_lt.mp (UInt64.not_le.mp large)
    change 2 ^ 32 - 1 = _
    omega

/-- The permits of a body, at most those of a budget that covers its length. -/
theorem wanted_toNat (bytes : UInt64) :
    (wanted bytes).toNat = min (max ((bytes.toNat + 1023) / 1024) 1) (2 ^ 32 - 1) := by
  unfold wanted
  rw [saturatingU32_toNat, UInt64.toNat_max, divCeil1024_toNat]
  rfl

theorem wanted_pos (bytes : UInt64) : 0 < (wanted bytes).toNat := by
  have wanted := wanted_toNat bytes
  omega

theorem wanted_le {bytes : UInt64} {permits : ℕ} (positive : 1 ≤ permits)
    (fits : bytes.toNat ≤ permits * 1024) : (wanted bytes).toNat ≤ permits := by
  have wanted := wanted_toNat bytes
  omega

variable {budget rest : BufferBudget} {bytes : UInt64} {permit : Permit}

/-- A reservation moves permits out of the semaphore and changes nothing else. -/
theorem reserve_conserves (reserved : budget.reserve bytes = some (permit, rest)) :
    rest.availablePermits + permit.count = budget.availablePermits ∧
      rest.permits = budget.permits ∧ rest.maxBodyBytes = budget.maxBodyBytes ∧
      0 < permit.count := by
  obtain ⟨⟨taken, semaphore⟩, acquired, same⟩ := Option.map_eq_some_iff.mp reserved
  cases same
  obtain ⟨conserved, count⟩ := Semaphore.tryAcquireMany_conserves acquired
  exact ⟨conserved, rfl, rfl, count ▸ wanted_pos bytes⟩

theorem reserve_count (reserved : budget.reserve bytes = some (permit, rest)) :
    permit.count = (wanted bytes).toNat := by
  obtain ⟨⟨taken, semaphore⟩, acquired, same⟩ := Option.map_eq_some_iff.mp reserved
  cases same
  exact (Semaphore.tryAcquireMany_conserves acquired).2

theorem reserve_isSome_iff :
    (budget.reserve bytes).isSome = true ↔ (wanted bytes).toNat ≤ budget.availablePermits := by
  unfold reserve
  rw [Option.isSome_map, Semaphore.tryAcquireMany_isSome]
  rfl

/-- When all permits are available, every body within the cap is admitted. -/
theorem reserve_isSome (whole : budget.availablePermits = budget.permits.toNat)
    (fits : bytes ≤ budget.maxBodyBytes) : (budget.reserve bytes).isSome = true := by
  have positive : 1 ≤ budget.permits.toNat := UInt64.le_iff_toNat_le.mp budget.positive
  have length : bytes.toNat ≤ budget.maxBodyBytes.toNat := UInt64.le_iff_toNat_le.mp fits
  rw [reserve_isSome_iff, whole]
  exact wanted_le positive (Nat.le_trans length budget.covered)

@[simp] theorem availablePermits_new (budgetBytes maxBodyBytes : UInt64) :
    (new budgetBytes maxBodyBytes).availablePermits =
      (new budgetBytes maxBodyBytes).permits.toNat := rfl

end BufferBudget

end Sturnus
