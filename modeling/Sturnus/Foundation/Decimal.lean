import Sturnus.Foundation.Text
import Mathlib.Algebra.Ring.Nat

/-!
# Decimal numbers

`str::parse::<u64>`: an optional plus sign and ASCII digits, at least one, whose
number fits into 64 bits.
-/

namespace Foundation.Decimal

/-- `checked_mul` and `checked_add`. -/
def checked (n : ℕ) : Option UInt64 := if n < 2 ^ 64 then some (.ofNat n) else none

/-- `char::to_digit(10)`. -/
def digit (c : Char) : Option ℕ := if c.isDigit then some (c.toNat - '0'.toNat) else none

/-- The loop of `from_str_radix`. -/
def pushDigits (result : UInt64) : Text → Option UInt64
  | [] => some result
  | c :: rest => do
      let scaled ← checked (result.toNat * 10)
      let digit ← digit c
      let next ← checked (scaled.toNat + digit)
      pushDigits next rest

def parseU64 : Text → Option UInt64
  | [] => none
  | c :: rest =>
      if c = '+' then if rest.isEmpty then none else pushDigits 0 rest
      else pushDigits 0 (c :: rest)

/-- Digits that write a number, after the number that the digits before them wrote. -/
structure Digits (text : Text) (before n : ℕ) : Prop where
  digits : ∀ c ∈ text, c.isDigit = true
  value : Nat.ofDigitChars 10 text before = n

/-- A text that writes a number: a plus sign or none, and digits, with zeros in front or none. -/
inductive Writes (n : ℕ) : Text → Prop where
  | digits {text : Text} : text ≠ [] → Digits text 0 n → Writes n text
  | plus {text : Text} : text ≠ [] → Digits text 0 n → Writes n ('+' :: text)

section Digits

theorem checked_eq_some {n : ℕ} {result : UInt64} :
    checked n = some result ↔ n = result.toNat := by
  unfold checked
  split
  next fits =>
      rw [Option.some.injEq, ← UInt64.toNat_inj, UInt64.toNat_ofNat_of_lt' fits]
  next large =>
      apply iff_of_false
      · intro found
        cases found
      · rintro rfl
        exact large result.toNat_lt

/-- More digits never make a number smaller. -/
theorem le_ofDigitChars (text : Text) (before : ℕ) : before ≤ Nat.ofDigitChars 10 text before := by
  rw [Nat.ofDigitChars_eq_ofDigitChars_zero]
  have positive : 1 ≤ 10 ^ text.length := Nat.one_le_pow _ _ (by decide)
  have scaled : 1 * before ≤ 10 ^ text.length * before := Nat.mul_le_mul_right before positive
  omega

theorem pushDigits_eq_some {text : Text} {before result : UInt64} :
    pushDigits before text = some result ↔ Digits text before.toNat result.toNat := by
  induction text generalizing before with
  | nil =>
      rw [pushDigits, Option.some.injEq, ← UInt64.toNat_inj]
      constructor
      · intro same
        exact ⟨List.forall_mem_nil _, same⟩
      · intro digits
        exact digits.value
  | cons c rest inductionHypothesis =>
      simp only [pushDigits, Option.bind_eq_bind, Option.bind_eq_some_iff, checked_eq_some,
        inductionHypothesis]
      constructor
      · rintro ⟨scaled, tenfold, value, found, next, sum, digits⟩
        unfold digit at found
        split at found
        next isDigit =>
            cases found
            refine ⟨List.forall_mem_cons.mpr ⟨isDigit, digits.digits⟩, ?_⟩
            rw [Nat.ofDigitChars_cons, Nat.mul_comm, tenfold, sum]
            exact digits.value
        next => cases found
      · intro digits
        obtain ⟨isDigit, others⟩ := List.forall_mem_cons.mp digits.digits
        have value := digits.value
        rw [Nat.ofDigitChars_cons] at value
        have grows := le_ofDigitChars rest (10 * before.toNat + (c.toNat - '0'.toNat))
        have small := result.toNat_lt
        have fits : 10 * before.toNat + (c.toNat - '0'.toNat) < 2 ^ 64 := by omega
        have scaled : before.toNat * 10 < 2 ^ 64 := by omega
        refine ⟨.ofNat (before.toNat * 10), (UInt64.toNat_ofNat_of_lt' scaled).symm,
          c.toNat - '0'.toNat, if_pos isDigit,
          .ofNat (10 * before.toNat + (c.toNat - '0'.toNat)), ?_, others, ?_⟩
        · rw [UInt64.toNat_ofNat_of_lt' fits, UInt64.toNat_ofNat_of_lt' scaled, Nat.mul_comm]
        · rw [UInt64.toNat_ofNat_of_lt' fits]
          exact value

end Digits

/-- Exactly the texts that write a number of 64 bits are accepted. -/
theorem parseU64_eq_some {text : Text} {result : UInt64} :
    parseU64 text = some result ↔ Writes result.toNat text := by
  cases text with
  | nil =>
      apply iff_of_false
      · intro found
        cases found
      · rintro ⟨nonempty, -⟩
        exact nonempty rfl
  | cons c rest =>
      rw [parseU64]
      by_cases sign : c = '+'
      · subst sign
        rw [if_pos rfl]
        constructor
        · intro found
          split at found
          next => cases found
          next nonempty =>
              exact .plus (by simpa using nonempty) (pushDigits_eq_some.mp found)
        · intro writes
          cases writes with
          | digits _ digits => cases digits.digits '+' List.mem_cons_self
          | plus nonempty digits =>
              rw [if_neg (by simpa using nonempty)]
              exact pushDigits_eq_some.mpr digits
      · rw [if_neg sign]
        constructor
        · intro found
          exact .digits (List.cons_ne_nil _ _) (pushDigits_eq_some.mp found)
        · intro writes
          cases writes with
          | digits _ digits => exact pushDigits_eq_some.mpr digits
          | plus => exact absurd rfl sign

theorem isWhitespace_of_isDigit {c : Char} (isDigit : c.isDigit = true) :
    Text.isWhitespace c = false := by
  have range : 48 ≤ c.toNat ∧ c.toNat ≤ 57 := Char.isDigit_iff_toNat.mp isDigit
  unfold Text.isWhitespace
  simp
  omega

/-- A number has no whitespace in it. -/
theorem Writes.solid {n : ℕ} {text : Text} (writes : Writes n text) :
    ∀ c ∈ text, Text.isWhitespace c = false := by
  cases writes with
  | digits _ digits =>
      intro c member
      exact isWhitespace_of_isDigit (digits.digits c member)
  | plus _ digits =>
      intro c member
      rcases List.mem_cons.mp member with rfl | member
      · decide
      · exact isWhitespace_of_isDigit (digits.digits c member)

/-- A number as it is printed. -/
theorem writes_toString (n : ℕ) : Writes n (toString n).toList := by
  have printed : (toString n).toList = Nat.toDigits 10 n := Nat.toList_repr
  rw [printed]
  refine .digits Nat.toDigits_ne_nil ⟨?_, Nat.ofDigitChars_ten_toDigits⟩
  intro c member
  exact Nat.isDigit_of_mem_toDigits (by decide) (by decide) member

end Foundation.Decimal
