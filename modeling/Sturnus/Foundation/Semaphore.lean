import Mathlib.Algebra.Ring.Nat
import Mathlib.Tactic.Common

/-!
# Counting semaphores

Acquiring takes permits off the semaphore and hands them out as one value;
dropping that value puts them back.
-/

namespace Foundation

structure Semaphore where
  availablePermits : ℕ
  deriving DecidableEq

/-- Permits that were taken from a semaphore together. -/
structure Permit where
  count : ℕ
  deriving DecidableEq

namespace Semaphore

/-- `usize::MAX >> 3` on 64 bits. -/
def maxPermits : ℕ := 2 ^ 61 - 1

def new (permits : ℕ) : Semaphore := ⟨permits⟩

/-- All of the wanted permits, or none of them. -/
def tryAcquireMany (semaphore : Semaphore) (want : UInt32) : Option (Permit × Semaphore) :=
  if want.toNat ≤ semaphore.availablePermits then
    some (⟨want.toNat⟩, ⟨semaphore.availablePermits - want.toNat⟩)
  else none

/-- Dropping a permit. -/
def release (semaphore : Semaphore) (permit : Permit) : Semaphore :=
  ⟨semaphore.availablePermits + permit.count⟩

variable {semaphore : Semaphore}

theorem tryAcquireMany_isSome {want : UInt32} :
    (semaphore.tryAcquireMany want).isSome = true ↔ want.toNat ≤ semaphore.availablePermits := by
  unfold tryAcquireMany
  split <;> simp [*]

/-- What an acquisition takes off is what it hands out. -/
theorem tryAcquireMany_conserves {want : UInt32} {permit : Permit} {rest : Semaphore}
    (acquired : semaphore.tryAcquireMany want = some (permit, rest)) :
    rest.availablePermits + permit.count = semaphore.availablePermits ∧
      permit.count = want.toNat := by
  unfold tryAcquireMany at acquired
  split at acquired
  next enough =>
    cases acquired
    exact ⟨Nat.sub_add_cancel enough, rfl⟩
  next => cases acquired

end Semaphore

end Foundation
