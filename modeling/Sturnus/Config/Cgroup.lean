import Sturnus.Foundation.Decimal

/-!
# The memory limit of the container

The kernel tells the limit in a control file, of cgroups v2 or else of v1.
-/

namespace Sturnus

open Foundation

/-- v2: a byte count, or `max` when unlimited. -/
def parseCgroupV2 (raw : Text) : Option UInt64 := Decimal.parseU64 (Text.trim raw)

/-- `1u64 << 60`. -/
def unboundedThreshold : UInt64 := 1152921504606846976

/-- v1: a byte count; reports a page-rounded `i64::MAX` when unlimited. -/
def parseCgroupV1 (raw : Text) : Option UInt64 :=
  (Decimal.parseU64 (Text.trim raw)).bind fun limit =>
    if limit < unboundedThreshold then some limit else none

/-- Prefer cgroup v2, fall back to v1, else `none` (unlimited or unavailable). -/
def cgroupMemoryLimitFrom (readToString : Text → Except Text Text) (v2 v1 : Text) :
    Option UInt64 :=
  match readToString v2 with
  | .ok raw => parseCgroupV2 raw
  | .error _ =>
      match readToString v1 with
      | .ok raw => parseCgroupV1 raw
      | .error _ => none

def memoryMax : Text := "/sys/fs/cgroup/memory.max".toList

def memoryLimitInBytes : Text := "/sys/fs/cgroup/memory/memory.limit_in_bytes".toList

/-- The container's memory limit from cgroups (v2, then v1), if one is set. -/
def cgroupMemoryLimit (readToString : Text → Except Text Text) : Option UInt64 :=
  cgroupMemoryLimitFrom readToString memoryMax memoryLimitInBytes

/-- A control file that tells a number, which may have whitespace around it. -/
def Tells (raw : Text) (limit : ℕ) : Prop :=
  ∃ before text after, raw = before ++ text ++ after ∧ Decimal.Writes limit text ∧
    (∀ c ∈ before, Text.isWhitespace c = true) ∧ ∀ c ∈ after, Text.isWhitespace c = true

/-- What the control files say about the container: the file of v1 counts when that of v2
cannot be read, and a number from 2^60 on is no limit there. -/
inductive Confines (readToString : Text → Except Text Text) (v2 v1 : Text) (limit : UInt64) :
    Prop where
  | v2 {raw : Text} : readToString v2 = .ok raw → Tells raw limit.toNat →
      Confines readToString v2 v1 limit
  | v1 {error raw : Text} : readToString v2 = .error error → readToString v1 = .ok raw →
      Tells raw limit.toNat → limit.toNat < 2 ^ 60 → Confines readToString v2 v1 limit

section Parsing

variable {raw : Text} {limit : UInt64}

theorem tells_iff {n : ℕ} : Tells raw n ↔ Decimal.Writes n (Text.trim raw) := by
  constructor
  · rintro ⟨before, text, after, rfl, writes, blank, blankAfter⟩
    rw [Text.trim_padded blank blankAfter writes.solid]
    exact writes
  · intro writes
    obtain ⟨before, after, whole, blank, blankAfter⟩ := Text.exists_padding raw
    exact ⟨before, Text.trim raw, after, whole, writes, blank, blankAfter⟩

theorem parseCgroupV2_eq_some : parseCgroupV2 raw = some limit ↔ Tells raw limit.toNat := by
  rw [tells_iff]
  exact Decimal.parseU64_eq_some

theorem parseCgroupV1_eq_some :
    parseCgroupV1 raw = some limit ↔ Tells raw limit.toNat ∧ limit.toNat < 2 ^ 60 := by
  have threshold : ∀ found : UInt64, found < unboundedThreshold ↔ found.toNat < 2 ^ 60 :=
    fun _ => UInt64.lt_iff_toNat_lt
  rw [tells_iff, parseCgroupV1, Option.bind_eq_some_iff]
  constructor
  · rintro ⟨found, parsed, bounded⟩
    split at bounded
    next below =>
        cases bounded
        exact ⟨Decimal.parseU64_eq_some.mp parsed, (threshold _).mp below⟩
    next => cases bounded
  · rintro ⟨writes, below⟩
    exact ⟨limit, Decimal.parseU64_eq_some.mpr writes, if_pos ((threshold _).mpr below)⟩

end Parsing

section Files

variable {readToString : Text → Except Text Text} {v2 v1 : Text} {limit : UInt64}

theorem Confines.found (confines : Confines readToString v2 v1 limit) :
    cgroupMemoryLimitFrom readToString v2 v1 = some limit := by
  unfold cgroupMemoryLimitFrom
  cases confines with
  | v2 first tells =>
      rw [first]
      exact parseCgroupV2_eq_some.mpr tells
  | v1 first second tells below =>
      rw [first, second]
      exact parseCgroupV1_eq_some.mpr ⟨tells, below⟩

theorem confines_of_found (found : cgroupMemoryLimitFrom readToString v2 v1 = some limit) :
    Confines readToString v2 v1 limit := by
  unfold cgroupMemoryLimitFrom at found
  cases first : readToString v2 with
  | ok raw =>
      rw [first] at found
      exact .v2 first (parseCgroupV2_eq_some.mp found)
  | error error =>
      rw [first] at found
      cases second : readToString v1 with
      | ok raw =>
          rw [second] at found
          obtain ⟨tells, below⟩ := parseCgroupV1_eq_some.mp found
          exact .v1 first second tells below
      | error other =>
          rw [second] at found
          cases found

end Files

/-- A limit is found exactly when a control file tells it: whatever whitespace is around it, with
a sign and with leading zeros or without, of any value below 2^64 (of v1, below 2^60).  A file of
v2 that can be read but tells no number hides the file of v1. -/
theorem cgroupMemoryLimitFrom_eq_some (readToString : Text → Except Text Text) (v2 v1 : Text)
    (limit : UInt64) :
    cgroupMemoryLimitFrom readToString v2 v1 = some limit ↔
      Confines readToString v2 v1 limit :=
  ⟨confines_of_found, Confines.found⟩

example : parseCgroupV2 "268435456\n".toList = some 268435456 ∧
    parseCgroupV2 "max\n".toList = none ∧
    parseCgroupV1 "9223372036854771712".toList = none := by decide +kernel

end Sturnus
