import Sturnus.Foundation.Text

/-!
# The caller's trace

An inbound `traceparent` is cut into its fields, which are checked one by one.
The checks admit more than the W3C grammar: hex digits of either case, and any
text for the flags.
-/

namespace Sturnus

open Foundation

structure TraceContext where
  traceId : Text
  parentSpanId : Text
  deriving DecidableEq

/-- `u8::is_ascii_hexdigit`. -/
def isAsciiHexdigit (b : UInt8) : Bool :=
  (48 ≤ b.toNat && b.toNat ≤ 57) || (65 ≤ b.toNat && b.toNat ≤ 70) ||
    (97 ≤ b.toNat && b.toNat ≤ 102)

def isHex (s : Text) : Bool := s.bytes.all isAsciiHexdigit

def isAllZero (s : Text) : Bool := s.bytes.all fun b => b.toNat == 48

/-- Parse a W3C `traceparent` into the caller's trace and parent-span ids. -/
def parseTraceparent (value : Text) : Option TraceContext :=
  match (Text.trim value).splitOn '-' with
  | version :: traceId :: parentId :: _flags :: rest =>
      if version = "00".toList ∧ rest ≠ [] then none
      else if (Text.bytes version).length ≠ 2 ∨ ¬isHex version ∨ version = "ff".toList then none
      else if (Text.bytes traceId).length ≠ 32 ∨ ¬isHex traceId ∨ isAllZero traceId then none
      else if (Text.bytes parentId).length ≠ 16 ∨ ¬isHex parentId ∨ isAllZero parentId then none
      else some ⟨traceId, parentId⟩
  | _ => none

section Grammar

/-- The hex digits of the grammar. -/
def isLowerHex (c : Char) : Bool :=
  (48 ≤ c.toNat && c.toNat ≤ 57) || (97 ≤ c.toNat && c.toNat ≤ 102)

def isUpperHex (c : Char) : Bool := 65 ≤ c.toNat && c.toNat ≤ 70

def LowerHex (n : ℕ) (text : Text) : Prop := text.length = n ∧ text.all isLowerHex = true

def AllZero (text : Text) : Prop := text.all (· == '0') = true

/-- The W3C grammar: four fields of fixed lengths, and nothing behind them or, from the
second version on, anything behind a dash. -/
inductive IsTraceparent : Text → TraceContext → Prop where
  | fields {version traceId parentId flags further : Text} :
      LowerHex 2 version → version ≠ "ff".toList →
      LowerHex 32 traceId → ¬AllZero traceId →
      LowerHex 16 parentId → ¬AllZero parentId →
      LowerHex 2 flags →
      (further = [] ∨ version ≠ "00".toList ∧ ∃ extra, further = '-' :: extra) →
      IsTraceparent
        (version ++ '-' :: (traceId ++ '-' :: (parentId ++ '-' :: (flags ++ further))))
        ⟨traceId, parentId⟩

end Grammar

section Checks

/-- What is checked of the fields; the flags are not. -/
structure Traceparent.Checked (version traceId parentId : Text) (rest : List Text) : Prop where
  arity : version = "00".toList → rest = []
  version : (Text.bytes version).length = 2 ∧ isHex version = true ∧ version ≠ "ff".toList
  traceId : (Text.bytes traceId).length = 32 ∧ isHex traceId = true ∧ isAllZero traceId = false
  parentId : (Text.bytes parentId).length = 16 ∧ isHex parentId = true ∧ isAllZero parentId = false

/-- What is not checked: the case of the digits, and the flags. -/
structure Traceparent.Strict (version traceId parentId flags : Text) : Prop where
  version : version.any isUpperHex = false
  traceId : traceId.any isUpperHex = false
  parentId : parentId.any isUpperHex = false
  flags : LowerHex 2 flags

variable {version traceId parentId flags : Text} {rest : List Text}

/-- The two ids are exactly the second and the third field. -/
theorem parseTraceparent_eq_some_iff {value : Text} {context : TraceContext} :
    parseTraceparent value = some context ↔ ∃ version flags rest,
      (Text.trim value).splitOn '-' =
        version :: context.traceId :: context.parentSpanId :: flags :: rest ∧
      Traceparent.Checked version context.traceId context.parentSpanId rest := by
  unfold parseTraceparent
  split
  next version traceId parentId flags rest fields =>
    rw [fields]
    constructor
    · intro parsed
      split_ifs at parsed with arity versionBad traceBad parentBad
      cases parsed
      simp only [not_and, not_not, not_or, ne_eq, Bool.not_eq_true, Bool.not_eq_false]
        at arity versionBad traceBad parentBad
      exact ⟨version, flags, rest, rfl, arity, versionBad, traceBad, parentBad⟩
    · rintro ⟨_, _, _, same, checked⟩
      simp only [List.cons.injEq] at same
      obtain ⟨rfl, rfl, rfl, rfl, rfl⟩ := same
      have arity : ¬(version = "00".toList ∧ rest ≠ []) :=
        fun late => late.2 (checked.arity late.1)
      simp only [arity, checked.version, checked.traceId, checked.parentId, ne_eq, not_true,
        Bool.false_eq_true, or_self, if_false]
  next short =>
    apply iff_of_false
    · rintro ⟨⟩
    · rintro ⟨version, flags, rest, fields, -⟩
      exact short _ _ _ _ _ fields

/-- A hex digit is of one case. -/
theorem isHex_eq_all (s : Text) :
    isHex s = s.all fun c => isLowerHex c || isUpperHex c := by
  have high : ∀ b : UInt8, 128 ≤ b.toNat → isAsciiHexdigit b = false := by
    intro b beyond
    simp only [isAsciiHexdigit, Bool.or_eq_false_iff, Bool.and_eq_false_iff,
      decide_eq_false_iff_not]
    omega
  rw [isHex, Text.all_bytes_of_ascii high]
  congr 1
  funext c
  rw [Bool.eq_iff_iff]
  simp only [isAsciiHexdigit, isLowerHex, isUpperHex, Bool.or_eq_true, Bool.and_eq_true,
    decide_eq_true_eq, UInt8.toNat_ofNat']
  omega

theorem length_bytes_of_isHex {s : Text} (digits : isHex s = true) :
    (Text.bytes s).length = s.length := by
  apply Text.length_bytes_of_ascii
  intro c member
  rw [isHex_eq_all, List.all_eq_true] at digits
  have digit := digits c member
  simp only [isLowerHex, isUpperHex, Bool.or_eq_true, Bool.and_eq_true, decide_eq_true_eq] at digit
  omega

theorem isAllZero_eq_all (s : Text) : isAllZero s = s.all (· == '0') := by
  have high : ∀ b : UInt8, 128 ≤ b.toNat → (b.toNat == 48) = false := by
    intro b beyond
    exact beq_eq_false_iff_ne.mpr (by omega)
  rw [isAllZero, Text.all_bytes_of_ascii high]
  congr 1
  funext c
  have zero : c = '0' ↔ c.toNat = 48 := ⟨fun same => same ▸ rfl, fun same => Char.toNat_inj.mp same⟩
  rw [Bool.eq_iff_iff]
  simp only [Bool.and_eq_true, decide_eq_true_eq, beq_iff_eq, UInt8.toNat_ofNat', zero]
  omega

/-- A text of hex digits is ASCII, and lowercase if it has no uppercase digit. -/
theorem lowerHex_iff (n : ℕ) (s : Text) :
    LowerHex n s ↔ (Text.bytes s).length = n ∧ isHex s = true ∧ s.any isUpperHex = false := by
  have lower : s.all isLowerHex = true ↔ isHex s = true ∧ s.any isUpperHex = false := by
    rw [isHex_eq_all, List.all_eq_true, List.all_eq_true, List.any_eq_false]
    constructor
    · intro digits
      constructor
      · exact fun c member => Bool.or_eq_true_iff.mpr (.inl (digits c member))
      · intro c member
        have digit := digits c member
        simp only [isLowerHex, isUpperHex, Bool.or_eq_true, Bool.and_eq_true,
          decide_eq_true_eq] at digit ⊢
        omega
    · rintro ⟨digits, notUpper⟩ c member
      exact (Bool.or_eq_true_iff.mp (digits c member)).resolve_right (notUpper c member)
  rw [LowerHex, lower]
  constructor
  · rintro ⟨length, digits⟩
    exact ⟨(length_bytes_of_isHex digits.1).trans length, digits⟩
  · rintro ⟨length, digits⟩
    exact ⟨(length_bytes_of_isHex digits.1).symm.trans length, digits⟩

theorem notMem_of_lowerHex {n : ℕ} {s : Text} (digits : LowerHex n s) : '-' ∉ s := by
  intro member
  have dash := List.all_eq_true.mp digits.2 _ member
  exact absurd dash (by decide)

theorem allZero_iff (s : Text) : ¬AllZero s ↔ isAllZero s = false := by
  rw [AllZero, isAllZero_eq_all, Bool.not_eq_true]

end Checks

section Exact

variable {version traceId parentId flags : Text} {rest : List Text}

/-- The grammar, field by field. -/
structure Traceparent.Valid (version traceId parentId flags : Text) (rest : List Text) : Prop where
  arity : version = "00".toList → rest = []
  version : LowerHex 2 version ∧ version ≠ "ff".toList
  traceId : LowerHex 32 traceId ∧ ¬AllZero traceId
  parentId : LowerHex 16 parentId ∧ ¬AllZero parentId
  flags : LowerHex 2 flags

theorem valid_iff :
    Traceparent.Valid version traceId parentId flags rest ↔
      Traceparent.Checked version traceId parentId rest ∧
        Traceparent.Strict version traceId parentId flags := by
  constructor
  · rintro ⟨arity, ⟨versionHex, notFf⟩, ⟨traceHex, traceSome⟩, ⟨parentHex, parentSome⟩, flagsHex⟩
    obtain ⟨versionLength, versionDigits, versionLower⟩ := (lowerHex_iff _ _).mp versionHex
    obtain ⟨traceLength, traceDigits, traceLower⟩ := (lowerHex_iff _ _).mp traceHex
    obtain ⟨parentLength, parentDigits, parentLower⟩ := (lowerHex_iff _ _).mp parentHex
    exact ⟨⟨arity, ⟨versionLength, versionDigits, notFf⟩,
      ⟨traceLength, traceDigits, (allZero_iff _).mp traceSome⟩,
      ⟨parentLength, parentDigits, (allZero_iff _).mp parentSome⟩⟩,
      ⟨versionLower, traceLower, parentLower, flagsHex⟩⟩
  · rintro ⟨checked, strict⟩
    obtain ⟨versionLength, versionDigits, notFf⟩ := checked.version
    obtain ⟨traceLength, traceDigits, traceSome⟩ := checked.traceId
    obtain ⟨parentLength, parentDigits, parentSome⟩ := checked.parentId
    exact ⟨checked.arity,
      ⟨(lowerHex_iff _ _).mpr ⟨versionLength, versionDigits, strict.version⟩, notFf⟩,
      ⟨(lowerHex_iff _ _).mpr ⟨traceLength, traceDigits, strict.traceId⟩,
        (allZero_iff _).mpr traceSome⟩,
      ⟨(lowerHex_iff _ _).mpr ⟨parentLength, parentDigits, strict.parentId⟩,
        (allZero_iff _).mpr parentSome⟩, strict.flags⟩

/-- Lowercase digits hold no dash, so the fields of the grammar are those of the split. -/
theorem isTraceparent_iff {text : Text} {context : TraceContext} :
    IsTraceparent text context ↔ ∃ version flags rest,
      text.splitOn '-' =
        version :: context.traceId :: context.parentSpanId :: flags :: rest ∧
      Traceparent.Valid version context.traceId context.parentSpanId flags rest := by
  constructor
  · rintro @⟨version, traceId, parentId, flags, further, versionHex, notFf, traceHex, traceSome,
      parentHex, parentSome, flagsHex, behind⟩
    have tail : ∃ rest, (flags ++ further).splitOn '-' = flags :: rest ∧
        (version = "00".toList → rest = []) := by
      rcases behind with rfl | ⟨later, extra, rfl⟩
      · rw [List.append_nil]
        exact ⟨[], List.splitOn_eq_singleton (notMem_of_lowerHex flagsHex), fun _ => rfl⟩
      · exact ⟨_, List.splitOn_append_cons_self_of_not_mem (notMem_of_lowerHex flagsHex) _,
          fun first => absurd first later⟩
    obtain ⟨rest, split, arity⟩ := tail
    refine ⟨version, flags, rest, ?_, arity, ⟨versionHex, notFf⟩, ⟨traceHex, traceSome⟩,
      ⟨parentHex, parentSome⟩, flagsHex⟩
    rw [List.splitOn_append_cons_self_of_not_mem (notMem_of_lowerHex versionHex),
      List.splitOn_append_cons_self_of_not_mem (notMem_of_lowerHex traceHex),
      List.splitOn_append_cons_self_of_not_mem (notMem_of_lowerHex parentHex), split]
  · rintro ⟨version, flags, rest, fields, valid⟩
    obtain ⟨text, rfl, -, fields⟩ := Text.splitOn_eq_cons_cons_iff.mp fields
    obtain ⟨text, rfl, -, fields⟩ := Text.splitOn_eq_cons_cons_iff.mp fields
    obtain ⟨text, rfl, -, fields⟩ := Text.splitOn_eq_cons_cons_iff.mp fields
    have behind : ∃ further, text = flags ++ further ∧
        (further = [] ∨ version ≠ "00".toList ∧ ∃ extra, further = '-' :: extra) := by
      cases rest with
      | nil =>
          obtain ⟨rfl, -⟩ := Text.splitOn_eq_singleton_iff.mp fields
          exact ⟨[], (List.append_nil _).symm, .inl rfl⟩
      | cons next others =>
          obtain ⟨extra, rfl, -, -⟩ := Text.splitOn_eq_cons_cons_iff.mp fields
          have later : version ≠ "00".toList := fun first => by cases valid.arity first
          exact ⟨_, rfl, .inr ⟨later, extra, rfl⟩⟩
    obtain ⟨further, rfl, behind⟩ := behind
    exact .fields valid.version.1 valid.version.2 valid.traceId.1 valid.traceId.2
      valid.parentId.1 valid.parentId.2 valid.flags behind

/-- What is accepted is a traceparent, and every traceparent is accepted, exactly on the
texts whose fields pass the checks only in the strict spelling. -/
theorem parseTraceparent_exact_iff (value : Text) :
    (∀ context, parseTraceparent value = some context ↔
      IsTraceparent (Text.trim value) context) ↔
    ∀ version traceId parentId flags rest,
      (Text.trim value).splitOn '-' = version :: traceId :: parentId :: flags :: rest →
      Traceparent.Checked version traceId parentId rest →
        Traceparent.Strict version traceId parentId flags := by
  simp only [parseTraceparent_eq_some_iff, isTraceparent_iff, valid_iff]
  constructor
  · intro exact version traceId parentId flags rest fields checked
    obtain ⟨_, _, _, same, -, strict⟩ :=
      (exact ⟨traceId, parentId⟩).mp ⟨version, flags, rest, fields, checked⟩
    rw [fields] at same
    simp only [List.cons.injEq, true_and] at same
    obtain ⟨rfl, rfl, -⟩ := same
    exact strict
  · intro strict context
    constructor
    · rintro ⟨version, flags, rest, fields, checked⟩
      exact ⟨version, flags, rest, fields, checked, strict _ _ _ _ _ fields checked⟩
    · rintro ⟨version, flags, rest, fields, checked, -⟩
      exact ⟨version, flags, rest, fields, checked⟩

/-- Uppercase digits in an id. -/
def upperId : Text := "00-0AF7651916CD43DD8448EB211C80319C-b7ad6b7169203331-01".toList

/-- The reserved version in uppercase. -/
def upperVersion : Text := "FF-0af7651916cd43dd8448eb211c80319c-b7ad6b7169203331-01".toList

/-- Flags that are no digits. -/
def looseFlags : Text := "00-0af7651916cd43dd8448eb211c80319c-b7ad6b7169203331-zz".toList

theorem parseTraceparent_too_lax :
    (∃ context, parseTraceparent upperId = some context ∧
      ¬IsTraceparent (Text.trim upperId) context) ∧
    (∃ context, parseTraceparent upperVersion = some context ∧
      ¬IsTraceparent (Text.trim upperVersion) context) ∧
    ∃ context, parseTraceparent looseFlags = some context ∧
      ¬IsTraceparent (Text.trim looseFlags) context := by
  refine ⟨⟨⟨"0AF7651916CD43DD8448EB211C80319C".toList, "b7ad6b7169203331".toList⟩,
      by decide +kernel, ?_⟩,
    ⟨⟨"0af7651916cd43dd8448eb211c80319c".toList, "b7ad6b7169203331".toList⟩,
      by decide +kernel, ?_⟩,
    ⟨⟨"0af7651916cd43dd8448eb211c80319c".toList, "b7ad6b7169203331".toList⟩,
      by decide +kernel, ?_⟩⟩
  · intro accepted
    obtain ⟨_, _, _, -, valid⟩ := isTraceparent_iff.mp accepted
    exact absurd valid.traceId.1.2 (by decide +kernel)
  · intro accepted
    obtain ⟨version, _, _, fields, valid⟩ := isTraceparent_iff.mp accepted
    have first : ((Text.trim upperVersion).splitOn '-')[0]? = some "FF".toList := by
      decide +kernel
    rw [fields] at first
    obtain rfl := Option.some.inj first
    exact absurd valid.version.1.2 (by decide +kernel)
  · intro accepted
    obtain ⟨_, flags, _, fields, valid⟩ := isTraceparent_iff.mp accepted
    have fourth : ((Text.trim looseFlags).splitOn '-')[3]? = some "zz".toList := by
      decide +kernel
    rw [fields] at fourth
    obtain rfl := Option.some.inj fourth
    exact absurd valid.flags.2 (by decide +kernel)

end Exact

end Sturnus
