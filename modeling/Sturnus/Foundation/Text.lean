import Mathlib.Data.List.DropRight
import Mathlib.Tactic.Common

/-!
# Texts

A text is the list of its Unicode scalar values.  Its bytes are the UTF-8
encoding.
-/

namespace Foundation

abbrev Text := List Char

namespace Text

/-- The UTF-8 bytes of a text. -/
def bytes (text : Text) : List UInt8 := text.flatMap String.utf8EncodeChar

/-- The text that some bytes encode, when they are valid UTF-8. -/
def ofBytes (bytes : List UInt8) : Option Text :=
  bytes.toByteArray.utf8Decode?.map Array.toList

/-- Cut a text at the first occurrence of a separator, which is dropped. -/
def splitOnce (separator : Char) : Text → Option (Text × Text)
  | [] => none
  | c :: rest =>
      if c = separator then some ([], rest)
      else (splitOnce separator rest).map fun (before, after) => (c :: before, after)

def stripPrefix (start text : Text) : Option Text :=
  if start.isPrefixOf text then some (text.drop start.length) else none

/-- `char::is_whitespace`: the characters with the property `White_Space`. -/
def isWhitespace (c : Char) : Bool :=
  (9 ≤ c.toNat && c.toNat ≤ 13) || c.toNat == 32 || c.toNat == 0x85 || c.toNat == 0xA0 ||
    c.toNat == 0x1680 || (0x2000 ≤ c.toNat && c.toNat ≤ 0x200A) || c.toNat == 0x2028 ||
    c.toNat == 0x2029 || c.toNat == 0x202F || c.toNat == 0x205F || c.toNat == 0x3000

def trim (text : Text) : Text := (text.dropWhile isWhitespace).rdropWhile isWhitespace

def trimEndMatches (c : Char) (text : Text) : Text := text.rdropWhile (· == c)

theorem ofBytes_eq_some {bytes : List UInt8} {text : Text} :
    ofBytes bytes = some text ↔ bytes = text.bytes := by
  constructor
  · intro decoded
    obtain ⟨characters, found, rfl⟩ := Option.map_eq_some_iff.mp decoded
    have valid : bytes.toByteArray.utf8Decode?.isSome = true := by rw [found]; rfl
    have encoded : (bytes.toByteArray.utf8Decode?.get valid).toList.utf8Encode =
        bytes.toByteArray := ByteArray.utf8Encode_get_utf8Decode?
    simp only [found, Option.get_some] at encoded
    exact (List.toByteArray_inj.mp encoded).symm
  · rintro rfl
    have decoded : (Text.bytes text).toByteArray.utf8Decode? = some text.toArray :=
      List.utf8Decode?_utf8Encode
    rw [ofBytes, decoded]
    rfl

theorem splitOnce_append_of_not_mem {separator : Char} {before : Text}
    (absent : separator ∉ before) (after : Text) :
    splitOnce separator (before ++ separator :: after) = some (before, after) := by
  induction before with
  | nil => simp [splitOnce]
  | cons c rest inductionHypothesis =>
      simp only [List.mem_cons, not_or] at absent
      simp [splitOnce, inductionHypothesis absent.2, Ne.symm absent.1]

theorem splitOnce_eq_some {separator : Char} {text before after : Text}
    (found : splitOnce separator text = some (before, after)) :
    text = before ++ separator :: after ∧ separator ∉ before := by
  induction text generalizing before with
  | nil => simp [splitOnce] at found
  | cons c rest inductionHypothesis =>
      by_cases here : c = separator
      · subst here
        simp only [splitOnce, if_true, Option.some.injEq, Prod.mk.injEq] at found
        simp [← found.1, ← found.2]
      · simp only [splitOnce, here, if_false, Option.map_eq_some_iff, Prod.mk.injEq,
          Prod.exists] at found
        obtain ⟨front, back, cut, rfl, rfl⟩ := found
        obtain ⟨rfl, absent⟩ := inductionHypothesis cut
        exact ⟨rfl, by simp [absent, Ne.symm here]⟩

theorem stripPrefix_append (start rest : Text) :
    stripPrefix start (start ++ rest) = some rest := by
  simp [stripPrefix]

theorem stripPrefix_eq_some {start text rest : Text}
    (stripped : stripPrefix start text = some rest) : text = start ++ rest := by
  simp only [stripPrefix, List.isPrefixOf_iff_prefix] at stripped
  split at stripped
  next isPrefix =>
    obtain ⟨tail, rfl⟩ := isPrefix
    simpa using stripped
  next => simp at stripped

/-- Trimming stops inside the front part once that part ends in another character. -/
theorem trimEndMatches_append {c : Char} {front : Text} (nonempty : front ≠ [])
    (last : front.getLast nonempty ≠ c) (back : Text) :
    trimEndMatches c (front ++ back) = front ++ trimEndMatches c back := by
  induction back using List.reverseRecOn with
  | nil =>
      have fixed : front.rdropWhile (· == c) = front :=
        List.rdropWhile_eq_self_iff.mpr fun _ => by simpa using last
      simpa [trimEndMatches] using fixed
  | append_singleton back x inductionHypothesis =>
      unfold trimEndMatches at *
      rw [← List.append_assoc, List.rdropWhile_concat, List.rdropWhile_concat]
      split
      · exact inductionHypothesis
      · rw [List.append_assoc]

/-- What trimming leaves does not end in the character, and was followed by nothing else. -/
theorem trimEndMatches_eq_iff {c : Char} {text front : Text} :
    trimEndMatches c text = front ↔
      (∃ n, text = front ++ List.replicate n c) ∧ front.getLast? ≠ some c := by
  constructor
  · rintro rfl
    refine ⟨⟨(text.rtakeWhile (· == c)).length, ?_⟩, ?_⟩
    · have back : text.rtakeWhile (· == c) =
          List.replicate (text.rtakeWhile (· == c)).length c :=
        List.eq_replicate_iff.mpr ⟨rfl, fun x member => by simpa using List.mem_rtakeWhile_imp member⟩
      rw [← back]
      exact List.rdropWhile_append_rtakeWhile.symm
    · intro ended
      obtain ⟨front, same⟩ := List.getLast?_eq_some_iff.mp ended
      have fixed : trimEndMatches c (front ++ [c]) = front ++ [c] := by
        rw [← same]
        exact List.rdropWhile_idempotent _ _
      have shorter : (trimEndMatches c (front ++ [c])).length ≤ front.length := by
        rw [trimEndMatches, List.rdropWhile_concat, if_pos (beq_self_eq_true c)]
        exact (List.rdropWhile_prefix _ front).length_le
      rw [fixed, List.length_append, List.length_singleton] at shorter
      omega
  · rintro ⟨⟨n, rfl⟩, last⟩
    induction n with
    | zero =>
        rw [List.replicate_zero, List.append_nil]
        apply List.rdropWhile_eq_self_iff.mpr
        intro nonempty ended
        apply last
        rw [List.getLast?_eq_some_getLast nonempty, beq_iff_eq.mp ended]
    | succ n inductionHypothesis =>
        rw [List.replicate_succ', ← List.append_assoc, trimEndMatches,
          List.rdropWhile_concat, if_pos (beq_self_eq_true c)]
        exact inductionHypothesis

section Trim

/-- What trimming leaves, between whitespace. -/
theorem exists_padding (text : Text) :
    ∃ before after, text = before ++ trim text ++ after ∧
      (∀ c ∈ before, isWhitespace c = true) ∧ ∀ c ∈ after, isWhitespace c = true := by
  refine ⟨text.takeWhile isWhitespace, (text.dropWhile isWhitespace).rtakeWhile isWhitespace,
    ?_, fun c member => List.mem_takeWhile_imp member,
    fun c member => List.mem_rtakeWhile_imp member⟩
  rw [List.append_assoc, trim, List.rdropWhile_append_rtakeWhile, List.takeWhile_append_dropWhile]

/-- Whitespace around a text without any is trimmed. -/
theorem trim_padded {before text after : Text}
    (blank : ∀ c ∈ before, isWhitespace c = true) (blankAfter : ∀ c ∈ after, isWhitespace c = true)
    (solid : ∀ c ∈ text, isWhitespace c = false) : trim (before ++ text ++ after) = text := by
  rw [trim, List.append_assoc, List.dropWhile_append_of_pos blank]
  cases text with
  | nil =>
      rw [List.nil_append, List.dropWhile_eq_nil_iff.mpr blankAfter]
      rfl
  | cons c rest =>
      have visible : ¬isWhitespace c = true := by simp [solid c List.mem_cons_self]
      have trailing : (c :: rest ++ after).rdropWhile isWhitespace =
          (c :: rest).rdropWhile isWhitespace := by
        unfold List.rdropWhile
        rw [List.reverse_append, List.dropWhile_append_of_pos]
        simpa using blankAfter
      rw [List.cons_append, List.dropWhile_cons_of_neg visible, ← List.cons_append, trailing]
      apply List.rdropWhile_eq_self_iff.mpr
      intro nonempty
      simp [solid _ (List.getLast_mem nonempty)]

end Trim

section Split

variable {separator : Char} {text field : Text}

/-- A text without the separator is its only field. -/
theorem splitOn_eq_singleton_iff :
    text.splitOn separator = [field] ↔ text = field ∧ separator ∉ field := by
  by_cases member : separator ∈ text
  · obtain ⟨before, after, rfl, absent⟩ := List.eq_append_cons_of_mem member
    rw [List.splitOn_append_cons_self_of_not_mem absent]
    apply iff_of_false
    · intro same
      exact List.splitOn_ne_nil separator after (List.cons.inj same).2
    · rintro ⟨rfl, missing⟩
      exact missing member
  · rw [List.splitOn_eq_singleton member, List.cons.injEq, and_iff_left rfl]
    constructor
    · rintro rfl
      exact ⟨rfl, member⟩
    · exact And.left

/-- The first field ends at the first separator, and the rest is split behind it. -/
theorem splitOn_eq_cons_cons_iff {next : Text} {others : List Text} :
    text.splitOn separator = field :: next :: others ↔
      ∃ rest, text = field ++ separator :: rest ∧ separator ∉ field ∧
        rest.splitOn separator = next :: others := by
  constructor
  · intro fields
    by_cases member : separator ∈ text
    · obtain ⟨before, after, rfl, absent⟩ := List.eq_append_cons_of_mem member
      rw [List.splitOn_append_cons_self_of_not_mem absent] at fields
      obtain ⟨rfl, behind⟩ := List.cons.inj fields
      exact ⟨after, rfl, absent, behind⟩
    · rw [List.splitOn_eq_singleton member] at fields
      cases (List.cons.inj fields).2
  · rintro ⟨rest, rfl, absent, behind⟩
    rw [List.splitOn_append_cons_self_of_not_mem absent, behind]

end Split

section Ascii

variable {p : UInt8 → Bool}

/-- A test that no byte from 128 on passes is a test of ASCII characters. -/
theorem all_encode_of_ascii (high : ∀ b : UInt8, 128 ≤ b.toNat → p b = false) (c : Char) :
    (String.utf8EncodeChar c).all p = (c.toNat < 128 && p (UInt8.ofNat c.toNat)) := by
  have value : c.toNat = c.val.toNat := rfl
  fun_cases String.utf8EncodeChar c
  next small =>
    have ascii : c.toNat < 128 := by omega
    rw [decide_eq_true ascii, Bool.true_and]
    exact Bool.and_true _
  all_goals
    have beyond : ¬c.toNat < 128 := by omega
    simp only [List.all_cons, beyond, decide_false, Bool.false_and]
    rw [high _ (by rw [UInt8.toNat_ofNat']; omega), Bool.false_and]

theorem all_bytes_of_ascii (high : ∀ b : UInt8, 128 ≤ b.toNat → p b = false) (text : Text) :
    text.bytes.all p = text.all fun c => c.toNat < 128 && p (UInt8.ofNat c.toNat) := by
  rw [bytes, List.all_flatMap]
  simp only [all_encode_of_ascii high]

theorem length_bytes_of_ascii {text : Text} (ascii : ∀ c ∈ text, c.toNat < 128) :
    text.bytes.length = text.length := by
  induction text with
  | nil => rfl
  | cons c rest inductionHypothesis =>
      have small : c.toNat ≤ 127 := Nat.le_of_lt_succ (ascii c List.mem_cons_self)
      have one : String.utf8EncodeChar c = [UInt8.ofNat c.toNat] := if_pos small
      have split : bytes (c :: rest) = String.utf8EncodeChar c ++ bytes rest := rfl
      rw [split, one, List.length_append, List.length_singleton, List.length_cons,
        inductionHypothesis fun other member => ascii other (List.mem_cons_of_mem _ member),
        Nat.add_comm]

end Ascii

end Text

end Foundation
