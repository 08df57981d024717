import Mathlib.Data.List.AList
import Mathlib.Data.List.DropRight
import Sturnus.Foundation.Text

/-!
# Header names, values and maps

The parts of an HTTP header library a proxy relies on: names are nonempty
lower-cased tokens, values are bytes without control characters other than
tab, and a map holds the values of each name.
-/

namespace Foundation

/-- A map whose entries are listed in the order an iteration yields them. -/
abbrev HashMap (Key Value : Type) := AList fun _ : Key => Value

namespace Http

/-- Token characters after lower-casing. -/
def isNameChar (c : Char) : Bool :=
  c.isLower || c.isDigit || "!#$%&'*+-.^_`|~".toList.contains c

def maxNameLength : ℕ := 65535

structure HeaderName where
  text : Text
  legal : (!text.isEmpty && text.length ≤ maxNameLength && text.all isNameChar) = true
  deriving DecidableEq

/-- `HeaderName::try_from(&str)`: names are compared ignoring ASCII case, so they
are stored in lower case. -/
def HeaderName.tryFrom (name : Text) : Option HeaderName :=
  let lower := name.map Char.toLower
  if legal : (!lower.isEmpty && lower.length ≤ maxNameLength && lower.all isNameChar) = true then
    some ⟨lower, legal⟩
  else none

/-- A byte a value may contain: a tab, or at least 32 and not 127. -/
def isValueByte (b : UInt8) : Bool := b.toNat == 9 || (32 ≤ b.toNat && b.toNat != 127)

/-- A byte `to_str` accepts. -/
def isVisibleByte (b : UInt8) : Bool := b.toNat == 9 || (32 ≤ b.toNat && b.toNat < 127)

structure HeaderValue where
  bytes : List UInt8
  legal : bytes.all isValueByte = true
  deriving DecidableEq

def HeaderValue.fromBytes (bytes : List UInt8) : Option HeaderValue :=
  if legal : bytes.all isValueByte = true then some ⟨bytes, legal⟩ else none

/-- `HeaderValue::try_from(&str)`. -/
def HeaderValue.tryFrom (value : Text) : Option HeaderValue :=
  HeaderValue.fromBytes value.bytes

/-- `HeaderValue::to_str`: only visible ASCII and tab can be read as text. -/
def HeaderValue.toStr (value : HeaderValue) : Option Text :=
  if value.bytes.all isVisibleByte then some (value.bytes.map fun b => Char.ofNat b.toNat)
  else none

/-- Space and tab, which may stand around a value without belonging to it. -/
def isBlankByte (b : UInt8) : Bool := b.toNat == 9 || b.toNat == 32

/-- The value as the peer reads it: the blanks around it are gone. -/
def HeaderValue.received (value : HeaderValue) : HeaderValue where
  bytes := (value.bytes.dropWhile isBlankByte).rdropWhile isBlankByte
  legal := by
    have inside : (value.bytes.dropWhile isBlankByte).rdropWhile isBlankByte ⊆ value.bytes :=
      List.Subset.trans (List.rdropWhile_prefix _ _).subset (List.dropWhile_suffix _).subset
    exact List.all_eq_true.mpr fun b member =>
      List.all_eq_true.mp value.legal b (inside member)

/-- The values of each name, in the order they were added. -/
abbrev HeaderMap := HashMap HeaderName (List HeaderValue)

structure StatusCode where
  code : ℕ
  valid : 100 ≤ code ∧ code < 1000
  deriving DecidableEq

def StatusCode.isSuccess (status : StatusCode) : Bool := 200 ≤ status.code && status.code < 300

namespace HeaderMap

/-- The values of a name; none when it is absent. -/
def getAll (map : HeaderMap) (name : HeaderName) : List HeaderValue :=
  (map.lookup name).getD []

/-- Every value with its name. -/
def iter (map : HeaderMap) : List (HeaderName × HeaderValue) :=
  map.entries.flatMap fun entry => entry.2.map fun value => (entry.1, value)

/-- Replace all values of a name; the flag says whether there were any. -/
def insert (map : HeaderMap) (name : HeaderName) (value : HeaderValue) : HeaderMap × Bool :=
  (AList.insert name [value] map, (map.lookup name).isSome)

/-- Add a value of a name after those it has. -/
def append (map : HeaderMap) (name : HeaderName) (value : HeaderValue) : HeaderMap :=
  AList.insert name (map.getAll name ++ [value]) map

end HeaderMap

section Text

/-- A character `to_str` can read back: visible ASCII or tab. -/
def isVisibleChar (c : Char) : Bool := c.toNat == 9 || (32 ≤ c.toNat && c.toNat < 127)

theorem encode_of_visible {c : Char} (visible : isVisibleChar c = true) :
    String.utf8EncodeChar c = [UInt8.ofNat c.toNat] := by
  have small : c.toNat ≤ 127 := by
    simp only [isVisibleChar, Bool.or_eq_true, beq_iff_eq, Bool.and_eq_true,
      decide_eq_true_eq] at visible
    omega
  exact if_pos small

/-- Encoding neither adds nor hides a character `to_str` rejects: every byte of a
character beyond ASCII is at least 128. -/
theorem all_visible_bytes (text : Text) :
    text.bytes.all isVisibleByte = text.all isVisibleChar := by
  have high : ∀ b : UInt8, 128 ≤ b.toNat → isVisibleByte b = false := by
    intro b beyond
    simp only [isVisibleByte, Bool.or_eq_false_iff, Bool.and_eq_false_iff, beq_eq_false_iff_ne,
      decide_eq_false_iff_not]
    omega
  rw [Text.all_bytes_of_ascii high]
  congr 1
  funext c
  rw [Bool.eq_iff_iff]
  simp only [isVisibleByte, isVisibleChar, Bool.or_eq_true, Bool.and_eq_true, beq_iff_eq,
    decide_eq_true_eq, UInt8.toNat_ofNat']
  omega

/-- The bytes of a visible text are its characters. -/
theorem decode_visible {text : Text} (visible : text.all isVisibleChar = true) :
    (text.bytes.map fun b => Char.ofNat b.toNat) = text := by
  induction text with
  | nil => rfl
  | cons c rest inductionHypothesis =>
      simp only [List.all_cons, Bool.and_eq_true] at visible
      have split : Text.bytes (c :: rest) = String.utf8EncodeChar c ++ Text.bytes rest := rfl
      have head : Char.ofNat (UInt8.ofNat c.toNat).toNat = c := by
        have small : c.toNat < 256 := by
          have bound := visible.1
          simp only [isVisibleChar, Bool.or_eq_true, beq_iff_eq, Bool.and_eq_true,
            decide_eq_true_eq] at bound
          omega
        rw [UInt8.toNat_ofNat', Nat.mod_eq_of_lt small, Char.ofNat_toNat]
      rw [split, List.map_append, inductionHypothesis visible.2, encode_of_visible visible.1]
      rw [List.map_singleton, head, List.singleton_append]

theorem bytes_tryFrom {text : Text} {value : HeaderValue}
    (legal : HeaderValue.tryFrom text = some value) : value.bytes = text.bytes := by
  unfold HeaderValue.tryFrom HeaderValue.fromBytes at legal
  split at legal
  next => rw [← Option.some.inj legal]
  next => cases legal

/-- A text that is a legal value can be read back exactly when it is visible. -/
theorem toStr_tryFrom {text : Text} {value : HeaderValue}
    (legal : HeaderValue.tryFrom text = some value) :
    value.toStr = if text.all isVisibleChar then some text else none := by
  unfold HeaderValue.toStr
  rw [bytes_tryFrom legal, all_visible_bytes]
  split
  next visible => rw [decode_visible visible]
  next => rfl

/-- A value whose text neither begins nor ends with a blank arrives as it was sent. -/
theorem received_tryFrom {text : Text} {value : HeaderValue}
    (legal : HeaderValue.tryFrom text = some value) (visible : text.all isVisibleChar = true)
    (first : ∀ c ∈ text.head?, c ≠ ' ' ∧ c ≠ '\t')
    (last : ∀ c ∈ text.getLast?, c ≠ ' ' ∧ c ≠ '\t') : value.received = value := by
  have encoded : value.bytes = text.map fun c => UInt8.ofNat c.toNat := by
    rw [bytes_tryFrom legal, Text.bytes, List.map_eq_flatMap]
    apply List.flatMap_congr
    intro c member
    exact encode_of_visible (List.all_eq_true.mp visible c member)
  have kept : ∀ c ∈ text, c ≠ ' ' ∧ c ≠ '\t' → ¬isBlankByte (UInt8.ofNat c.toNat) = true := by
    intro c member other blank
    have shown := List.all_eq_true.mp visible c member
    simp only [isVisibleChar, isBlankByte, Bool.or_eq_true, beq_iff_eq, Bool.and_eq_true,
      decide_eq_true_eq, UInt8.toNat_ofNat'] at shown blank
    rcases (by omega : c.toNat = 9 ∨ c.toNat = 32) with tab | space
    · exact other.2 (Char.toNat_inj.mp tab)
    · exact other.1 (Char.toNat_inj.mp space)
  have front : value.bytes.dropWhile isBlankByte = value.bytes := by
    rw [List.dropWhile_eq_self_iff, encoded]
    intro nonempty
    rw [List.getElem_map]
    have nonempty : 0 < text.length := by simpa using nonempty
    exact kept _ (List.getElem_mem _) (first _ (by simp [List.head?_eq_getElem?, nonempty]))
  have back : value.bytes.rdropWhile isBlankByte = value.bytes := by
    rw [List.rdropWhile_eq_self_iff, encoded]
    intro nonempty
    have nonempty : text ≠ [] := by simpa using nonempty
    rw [List.getLast_map]
    exact kept _ (List.getLast_mem nonempty)
      (last _ (List.getLast_mem_getLast? nonempty))
  unfold HeaderValue.received
  simp only [front, back]

end Text

end Http

end Foundation
