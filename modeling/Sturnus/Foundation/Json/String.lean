import Sturnus.Foundation.Http

/-!
# JSON strings

`scanToken` reads a string token off the front of a text and decodes it; `quote`
writes one.  A high surrogate escape must be followed by a low one, and no other
surrogate can be decoded.
-/

namespace Foundation.Json

section Readers

variable {Alpha Beta : Type}

/-- The reader consumes a prefix and does not look behind it. -/
def Local (read : Text → Option (Alpha × Text)) : Prop :=
  ∀ text value rest, read text = some (value, rest) →
    ∃ used, text = used ++ rest ∧ ∀ more, read (used ++ more) = some (value, more)

/-- Run a reader on what another one left. -/
def andThen (read : Text → Option (Alpha × Text)) (next : Alpha → Text → Option (Beta × Text))
    (text : Text) : Option (Beta × Text) :=
  (read text).bind fun result => next result.1 result.2

theorem Local.andThen {read : Text → Option (Alpha × Text)}
    {next : Alpha → Text → Option (Beta × Text)} (first : Local read)
    (second : ∀ value, Local (next value)) : Local (andThen read next) := by
  intro text value rest found
  obtain ⟨⟨middle, left⟩, foundFirst, foundSecond⟩ := Option.bind_eq_some_iff.mp found
  obtain ⟨usedFirst, rfl, againFirst⟩ := first _ _ _ foundFirst
  obtain ⟨usedSecond, rfl, againSecond⟩ := second middle _ _ _ foundSecond
  refine ⟨usedFirst ++ usedSecond, (List.append_assoc ..).symm, ?_⟩
  intro more
  simp only [Json.andThen, List.append_assoc, againFirst, Option.bind_some, againSecond]

theorem local_return (value : Alpha) : Local fun text => some (value, text) := by
  intro text result rest found
  cases found
  exact ⟨[], rfl, fun more => rfl⟩

theorem local_none : Local fun _ => (none : Option (Alpha × Text)) := by
  intro text value rest found
  cases found

theorem Local.ite {first second : Text → Option (Alpha × Text)} (condition : Prop)
    [Decidable condition] (whenTrue : Local first) (whenFalse : Local second) :
    Local fun text => if condition then first text else second text := by
  by_cases holds : condition
  · simpa only [holds, if_true] using whenTrue
  · simpa only [holds, if_false] using whenFalse

end Readers

section Scan

def hexDigit? (c : Char) : Option ℕ :=
  if '0' ≤ c ∧ c ≤ '9' then some (c.toNat - 48)
  else if 'a' ≤ c ∧ c ≤ 'f' then some (c.toNat - 87)
  else if 'A' ≤ c ∧ c ≤ 'F' then some (c.toNat - 55)
  else none

/-- Any one character. -/
def anyChar : Text → Option (Char × Text)
  | [] => none
  | c :: rest => some (c, rest)

def expect (c : Char) : Text → Option (Unit × Text) :=
  andThen anyChar fun found text => if found = c then some ((), text) else none

def scanHexDigit : Text → Option (ℕ × Text) :=
  andThen anyChar fun c text => (hexDigit? c).map fun digit => (digit, text)

def scanHex4 : Text → Option (ℕ × Text) :=
  andThen scanHexDigit fun a => andThen scanHexDigit fun b => andThen scanHexDigit fun c =>
    andThen scanHexDigit fun d text => some (a * 4096 + b * 256 + c * 16 + d, text)

def isHighSurrogate (n : ℕ) : Bool := 0xD800 ≤ n && n < 0xDC00

def isLowSurrogate (n : ℕ) : Bool := 0xDC00 ≤ n && n < 0xE000

/-- What follows `\u`. -/
def scanUnicode : Text → Option (Char × Text) :=
  andThen scanHex4 fun high text =>
    if isHighSurrogate high then
      andThen (expect '\\') (fun _ => andThen (expect 'u') fun _ => andThen scanHex4 fun low text =>
        if isLowSurrogate low then
          some (Char.ofNat (0x10000 + (high - 0xD800) * 0x400 + (low - 0xDC00)), text)
        else none) text
    else if isLowSurrogate high then none
    else some (Char.ofNat high, text)

/-- The character behind a two-character escape. -/
def unescape? : Char → Option Char
  | '"' => some '"'
  | '\\' => some '\\'
  | '/' => some '/'
  | 'b' => some '\x08'
  | 'f' => some '\x0c'
  | 'n' => some '\n'
  | 'r' => some '\r'
  | 't' => some '\t'
  | _ => none

/-- What follows a backslash. -/
def scanEscape : Text → Option (Char × Text) :=
  andThen anyChar fun c text =>
    if c = 'u' then scanUnicode text else (unescape? c).map fun decoded => (decoded, text)

/-- The rest of a character of a string, escaped or not, that starts with `c`. -/
def scanCharFrom (c : Char) (text : Text) : Option (Char × Text) :=
  if c = '\\' then scanEscape text
  else if c.toNat < 32 then none
  else some (c, text)

/-- Characters up to the closing quote; every one of them costs one fuel. -/
def scanChars : ℕ → Text → Option (Text × Text)
  | 0 => fun _ => none
  | fuel + 1 => andThen anyChar fun c text =>
      if c = '"' then some ([], text)
      else andThen (scanCharFrom c) (fun decoded => andThen (scanChars fuel) fun others rest =>
        some (decoded :: others, rest)) text

def scanToken : Text → Option (Text × Text)
  | '"' :: rest => scanChars rest.length rest
  | _ => none

/-- The token decodes to the text. -/
def Token (token text : Text) : Prop := scanToken token = some (text, [])

instance (token text : Text) : Decidable (Token token text) :=
  inferInstanceAs (Decidable (_ = _))

end Scan

section Local

theorem local_anyChar : Local anyChar := by
  intro text value rest found
  cases text with
  | nil => cases found
  | cons c rest =>
      cases found
      exact ⟨[_], rfl, fun more => rfl⟩

theorem local_optionMap {Alpha : Type} (value : Option Alpha) :
    Local fun text => value.map fun found => (found, text) := by
  cases value with
  | none => exact local_none
  | some found => exact local_return found

theorem local_expect (c : Char) : Local (expect c) := by
  apply local_anyChar.andThen
  intro found
  exact (local_return ()).ite _ local_none

theorem local_scanHex4 : Local scanHex4 := by
  have digit : Local scanHexDigit := local_anyChar.andThen fun c => local_optionMap _
  exact digit.andThen fun a => digit.andThen fun b => digit.andThen fun c =>
    digit.andThen fun d => local_return _

theorem local_scanUnicode : Local scanUnicode := by
  apply local_scanHex4.andThen
  intro high
  apply Local.ite
  · apply (local_expect '\\').andThen
    intro _
    apply (local_expect 'u').andThen
    intro _
    apply local_scanHex4.andThen
    intro low
    exact (local_return _).ite _ local_none
  · exact local_none.ite _ (local_return _)

theorem local_scanCharFrom (c : Char) : Local (scanCharFrom c) := by
  apply Local.ite
  · apply local_anyChar.andThen
    intro escape
    exact local_scanUnicode.ite _ (local_optionMap _)
  · exact local_none.ite _ (local_return _)

theorem local_scanChars (fuel : ℕ) : Local (scanChars fuel) := by
  induction fuel with
  | zero => exact local_none
  | succ fuel inductionHypothesis =>
      apply local_anyChar.andThen
      intro c
      apply (local_return []).ite _
      apply (local_scanCharFrom c).andThen
      intro decoded
      exact inductionHypothesis.andThen fun others => local_return _

theorem anyChar_shorter {text rest : Text} {c : Char} (found : anyChar text = some (c, rest)) :
    rest.length < text.length := by
  cases text with
  | nil => cases found
  | cons head tail =>
      cases found
      exact Nat.lt_succ_self _

theorem Local.length_le {Alpha : Type} {read : Text → Option (Alpha × Text)}
    (reads : Local read) {text rest : Text} {value : Alpha}
    (found : read text = some (value, rest)) : rest.length ≤ text.length := by
  obtain ⟨used, rfl, -⟩ := reads _ _ _ found
  simp

/-- Every character read is consumed, so the length of the text is enough fuel. -/
theorem scanChars_of_length_le {fuel enough : ℕ} {text : Text} {result : Text × Text}
    (found : scanChars fuel text = some result) (long : text.length ≤ enough) :
    scanChars enough text = some result := by
  induction fuel generalizing enough text result with
  | zero => cases found
  | succ fuel inductionHypothesis =>
      obtain ⟨⟨c, left⟩, first, remaining⟩ := Option.bind_eq_some_iff.mp found
      have shorter := anyChar_shorter first
      obtain ⟨enough, rfl⟩ := Nat.exists_eq_add_one.mpr (Nat.zero_lt_of_lt (shorter.trans_le long))
      refine Option.bind_eq_some_iff.mpr ⟨(c, left), first, ?_⟩
      by_cases closing : c = '"'
      · simpa only [closing, if_true] using remaining
      · simp only [closing, if_false] at remaining ⊢
        obtain ⟨⟨decoded, behind⟩, second, others⟩ := Option.bind_eq_some_iff.mp remaining
        have notLonger := (local_scanCharFrom c).length_le second
        have room : behind.length ≤ enough := by omega
        refine Option.bind_eq_some_iff.mpr ⟨(decoded, behind), second, ?_⟩
        obtain ⟨tail, third, combined⟩ := Option.bind_eq_some_iff.mp others
        exact Option.bind_eq_some_iff.mpr
          ⟨tail, inductionHypothesis third room, combined⟩

theorem local_scanToken : Local scanToken := by
  intro text value rest found
  cases text with
  | nil => cases found
  | cons c body =>
      by_cases opening : c = '"'
      · subst opening
        obtain ⟨used, rfl, again⟩ := local_scanChars _ _ _ _ found
        exact ⟨'"' :: used, rfl, fun more => scanChars_of_length_le (again more) le_rfl⟩
      · simp [scanToken, opening] at found

end Local

section Quote

def hexDigit (n : ℕ) : Char := "0123456789abcdef".toList.getD n '0'

def escapeChar (c : Char) : Text :=
  if c = '"' then ['\\', '"']
  else if c = '\\' then ['\\', '\\']
  else if c = '\x08' then ['\\', 'b']
  else if c = '\x0c' then ['\\', 'f']
  else if c = '\n' then ['\\', 'n']
  else if c = '\r' then ['\\', 'r']
  else if c = '\t' then ['\\', 't']
  else if c.toNat < 32 then
    ['\\', 'u', '0', '0', hexDigit (c.toNat / 16), hexDigit (c.toNat % 16)]
  else [c]

def quote (text : Text) : Text := '"' :: (text.flatMap escapeChar ++ ['"'])

theorem hexDigit?_hexDigit : ∀ n < 16, hexDigit? (hexDigit n) = some n := by decide

/-- An escaped character does not start with a quote and reads back as itself. -/
theorem scanCharFrom_escapeChar (c : Char) :
    ∃ head tail, escapeChar c = head :: tail ∧ head ≠ '"' ∧
      ∀ rest, scanCharFrom head (tail ++ rest) = some (c, rest) := by
  unfold escapeChar
  split_ifs with isQuote isBackslash isBackspace isFormFeed isNewline isReturn isTab isControl
  · subst isQuote
    exact ⟨_, _, rfl, by decide, fun rest => rfl⟩
  · subst isBackslash
    exact ⟨_, _, rfl, by decide, fun rest => rfl⟩
  · subst isBackspace
    exact ⟨_, _, rfl, by decide, fun rest => rfl⟩
  · subst isFormFeed
    exact ⟨_, _, rfl, by decide, fun rest => rfl⟩
  · subst isNewline
    exact ⟨_, _, rfl, by decide, fun rest => rfl⟩
  · subst isReturn
    exact ⟨_, _, rfl, by decide, fun rest => rfl⟩
  · subst isTab
    exact ⟨_, _, rfl, by decide, fun rest => rfl⟩
  · refine ⟨_, _, rfl, by decide, ?_⟩
    intro rest
    have high := hexDigit?_hexDigit (c.toNat / 16) (by omega)
    have low := hexDigit?_hexDigit (c.toNat % 16) (by omega)
    have zero : hexDigit? '0' = some 0 := by decide
    have value : c.toNat / 16 * 16 + c.toNat % 16 = c.toNat := Nat.div_add_mod' _ _
    have notHigh : isHighSurrogate c.toNat = false := by simp [isHighSurrogate]; omega
    have notLow : isLowSurrogate c.toNat = false := by simp [isLowSurrogate]; omega
    simp [scanCharFrom, scanEscape, scanUnicode, scanHex4, scanHexDigit, andThen, anyChar, zero,
      high, low, value, notHigh, notLow]
  · refine ⟨c, [], rfl, isQuote, ?_⟩
    intro rest
    simp [scanCharFrom, isBackslash, isControl]

theorem scanChars_escape (text rest : Text) {fuel : ℕ} (enough : text.length < fuel) :
    scanChars fuel (text.flatMap escapeChar ++ '"' :: rest) = some (text, rest) := by
  induction text generalizing fuel with
  | nil =>
      obtain ⟨fuel, rfl⟩ := Nat.exists_eq_add_one.mpr enough
      rfl
  | cons c others inductionHypothesis =>
      obtain ⟨fuel, rfl⟩ := Nat.exists_eq_add_one.mpr (Nat.zero_lt_of_lt enough)
      obtain ⟨head, tail, escaped, notQuote, reads⟩ := scanCharFrom_escapeChar c
      have remaining := inductionHypothesis (Nat.lt_of_succ_lt_succ enough)
      simp only [List.flatMap_cons, escaped, List.cons_append, List.append_assoc, scanChars,
        andThen, anyChar, Option.bind_some, notQuote, if_false, reads, remaining]

theorem length_le_escape (text : Text) : text.length ≤ (text.flatMap escapeChar).length := by
  induction text with
  | nil => exact Nat.le_refl _
  | cons c others inductionHypothesis =>
      obtain ⟨head, tail, escaped, -⟩ := scanCharFrom_escapeChar c
      simp only [List.flatMap_cons, escaped, List.length_append, List.length_cons]
      omega

theorem token_quote (text : Text) : Token (quote text) text := by
  have bound := length_le_escape text
  apply scanChars_escape
  simp only [List.length_append, List.length_singleton]
  omega

end Quote

end Foundation.Json
