import Mathlib.Algebra.BigOperators.Group.List.Basic
import Mathlib.Algebra.Ring.Nat
import Sturnus.Foundation.Json.Reader
import Sturnus.Foundation.Upsert

/-!
# Sizes of JSON texts

How many bytes a layout of an object takes, field by field, and how many of them
are whitespace or escapes that `compact` does not write: `quote` writes the
shortest token of a text.
-/

namespace Foundation

/-- The number of UTF-8 bytes. -/
def Text.size (text : Text) : ℕ := (Text.bytes text).length

namespace Json

section Sizes

@[simp] theorem size_nil : Text.size [] = 0 := rfl

@[simp] theorem size_append (first second : Text) :
    (first ++ second).size = first.size + second.size := by
  simp [Text.size, Text.bytes]

theorem size_cons (c : Char) (rest : Text) : Text.size (c :: rest) = c.utf8Size + rest.size := by
  simp [Text.size, Text.bytes]

theorem length_le_size (text : Text) : text.length ≤ text.size := by
  induction text with
  | nil => exact Nat.le_refl _
  | cons c rest inductionHypothesis =>
      have positive := c.utf8Size_pos
      rw [size_cons, List.length_cons]
      omega

/-- An escape has at most six characters of one byte each. -/
theorem size_escapeChar_le (c : Char) : (escapeChar c).size ≤ 6 := by
  have digit : ∀ n < 16, (hexDigit n).utf8Size = 1 := by decide
  unfold escapeChar
  split_ifs with isQuote isBackslash isBackspace isFormFeed isNewline isReturn isTab isControl
  all_goals try decide
  · have high := digit (c.toNat / 16) (by omega)
    have low := digit (c.toNat % 16) (by omega)
    simp only [size_cons, high, low, size_nil]
    decide
  · have four := c.utf8Size_le_four
    rw [size_cons, size_nil]
    omega

/-- A two-character escape decodes to something that is written in at most two bytes. -/
theorem size_unescape {c decoded : Char} (found : unescape? c = some decoded) :
    (escapeChar decoded).size ≤ 2 := by
  unfold unescape? at found
  split at found <;> cases found <;> decide

end Sizes

section Tokens

/-- Every success consumes so many characters. -/
def Consumes {Alpha : Type} (n : ℕ) (read : Text → Option (Alpha × Text)) : Prop :=
  ∀ text value rest, read text = some (value, rest) → rest.length + n ≤ text.length

variable {Alpha Beta : Type}

theorem Consumes.andThen {m n : ℕ} {read : Text → Option (Alpha × Text)}
    {next : Alpha → Text → Option (Beta × Text)} (first : Consumes m read)
    (second : ∀ value, Consumes n (next value)) : Consumes (m + n) (andThen read next) := by
  intro text value rest found
  obtain ⟨⟨middle, left⟩, foundFirst, foundSecond⟩ := Option.bind_eq_some_iff.mp found
  have before := first _ _ _ foundFirst
  have behind := second middle _ _ _ foundSecond
  dsimp only at behind
  omega

theorem consumes_scanHex4 : Consumes 4 scanHex4 := by
  have digit : Consumes 1 scanHexDigit := by
    intro text value rest found
    obtain ⟨⟨c, left⟩, first, same⟩ := Option.bind_eq_some_iff.mp found
    obtain ⟨_, -, pair⟩ := Option.map_eq_some_iff.mp same
    have shorter := anyChar_shorter first
    cases pair
    exact shorter
  have last (n : ℕ) : Consumes 0 fun text : Text => some (n, text) := by
    intro text value rest found
    cases found
    exact Nat.le_refl _
  exact digit.andThen fun a => digit.andThen fun b => digit.andThen fun c =>
    digit.andThen fun d => last _

theorem four_le_of_scanUnicode {used : Text} {c : Char} (found : scanUnicode used = some (c, [])) :
    4 ≤ used.length := by
  obtain ⟨⟨high, left⟩, first, -⟩ := Option.bind_eq_some_iff.mp found
  have consumed := consumes_scanHex4 _ _ _ first
  omega

/-- A character of a token takes at least as many bytes as `escapeChar` writes for it. -/
theorem size_escapeChar_le_used {c decoded : Char} {used : Text} (notQuote : c ≠ '"')
    (found : scanCharFrom c used = some (decoded, [])) :
    (escapeChar decoded).size ≤ Text.size (c :: used) := by
  have length := length_le_size (c :: used)
  rw [List.length_cons] at length
  unfold scanCharFrom at found
  split_ifs at found with backslash control
  · obtain ⟨⟨e, left⟩, first, remaining⟩ := Option.bind_eq_some_iff.mp found
    have shorter := anyChar_shorter first
    dsimp only at remaining
    split_ifs at remaining with isUnicode
    · have whole : used = e :: left := by
        cases used with
        | nil => cases first
        | cons _ _ =>
            cases first
            rfl
      have digits := four_le_of_scanUnicode remaining
      have six := size_escapeChar_le decoded
      rw [whole, List.length_cons] at length
      rw [whole]
      omega
    · obtain ⟨_, escape, same⟩ := Option.map_eq_some_iff.mp remaining
      cases same
      have two := size_unescape escape
      omega
  · cases found
    have plain : escapeChar c = [c] := by
      unfold escapeChar
      have unlike (d : Char) (small : d.toNat < 32) : c ≠ d := by
        rintro rfl
        exact control small
      rw [if_neg notQuote, if_neg backslash, if_neg (unlike _ (by decide)),
        if_neg (unlike _ (by decide)), if_neg (unlike _ (by decide)), if_neg (unlike _ (by decide)),
        if_neg (unlike _ (by decide)), if_neg control]
    rw [plain]

theorem size_escape_le_scanned {fuel : ℕ} {text decoded rest : Text}
    (found : scanChars fuel text = some (decoded, rest)) :
    Text.size (decoded.flatMap escapeChar) + 1 + rest.size ≤ text.size := by
  induction fuel generalizing text decoded with
  | zero => cases found
  | succ fuel inductionHypothesis =>
      obtain ⟨⟨c, left⟩, first, remaining⟩ := Option.bind_eq_some_iff.mp found
      have whole : text = c :: left := by
        cases text with
        | nil => cases first
        | cons _ _ =>
            cases first
            rfl
      rw [whole, size_cons]
      dsimp only at remaining
      split_ifs at remaining with closing
      · cases remaining
        have positive := c.utf8Size_pos
        rw [List.flatMap_nil, size_nil]
        omega
      · obtain ⟨⟨point, behind⟩, read, tail⟩ := Option.bind_eq_some_iff.mp remaining
        obtain ⟨⟨others, last⟩, readOthers, same⟩ := Option.bind_eq_some_iff.mp tail
        cases same
        obtain ⟨used, rfl, again⟩ := local_scanCharFrom c _ _ _ read
        have here := size_escapeChar_le_used closing (by simpa using again [])
        have there := inductionHypothesis readOthers
        rw [size_cons] at here
        rw [List.flatMap_cons, size_append, size_append]
        dsimp only at there ⊢
        omega

/-- `quote` writes the shortest token. -/
theorem size_quote_le {token text : Text} (decodes : Token token text) :
    (quote text).size ≤ token.size := by
  cases token with
  | nil => cases decodes
  | cons c rest =>
      have opening : c = '"' := Option.some.inj (token_head decodes)
      subst opening
      have bound := size_escape_le_scanned decodes
      have whole : (quote text).size = 1 + (Text.size (text.flatMap escapeChar) + 1) := by
        rw [quote, size_cons, size_append]
        rfl
      have one : ('"').utf8Size = 1 := by decide
      rw [whole, size_cons, one]
      rw [size_nil] at bound
      omega

end Tokens

section Layouts

/-- The bytes of a field in a compact object: its quoted key, a colon, its value and the
comma or the brace behind it. -/
def fieldSize (field : Text × Text) : ℕ := (quote field.1).size + field.2.size + 2

def fieldsSize (fields : List (Text × Text)) : ℕ := (fields.map fieldSize).sum

@[simp] theorem fieldsSize_cons (field : Text × Text) (rest : List (Text × Text)) :
    fieldsSize (field :: rest) = fieldSize field + fieldsSize rest := rfl

theorem fieldsSize_append (first second : List (Text × Text)) :
    fieldsSize (first ++ second) = fieldsSize first + fieldsSize second := by
  simp [fieldsSize]

theorem fieldsSize_perm {fields others : List (Text × Text)} (perm : fields.Perm others) :
    fieldsSize fields = fieldsSize others :=
  (perm.map fieldSize).sum_eq

theorem size_compactMember (field : Text × Text) :
    (compactMember field).size + 1 = fieldSize field := by
  have colon : (':').utf8Size = 1 := by decide
  rw [compactMember, size_append, size_cons, colon, fieldSize]
  omega

theorem size_compactTail (fields : List (Text × Text)) :
    (compactTail fields).size = fieldsSize fields + 1 := by
  have comma : (',').utf8Size = 1 := by decide
  induction fields with
  | nil => rfl
  | cons field rest inductionHypothesis =>
      have member := size_compactMember field
      rw [compactTail, size_cons, size_append, inductionHypothesis, comma, fieldsSize_cons]
      omega

/-- An empty object has no field whose comma could be its brace. -/
theorem size_compact (fields : List (Text × Text)) :
    (compact fields).size = fieldsSize fields + if fields = [] then 2 else 1 := by
  cases fields with
  | nil => rfl
  | cons field rest =>
      have brace : ('{').utf8Size = 1 := by decide
      have member := size_compactMember field
      rw [compact, size_cons, size_append, size_compactTail, brace, fieldsSize_cons,
        if_neg (List.cons_ne_nil _ _)]
      omega

/-- Overwriting a field frees the bytes it had. -/
theorem fieldsSize_upsert (key value : Text) (fields : List (Text × Text)) :
    fieldsSize (upsert key value fields) +
        ((fields.lookup key).map fun old => fieldSize (key, old)).getD 0 =
      fieldsSize fields + fieldSize (key, value) := by
  induction fields with
  | nil => simp [upsert, fieldsSize]
  | cons field rest inductionHypothesis =>
      obtain ⟨first, old⟩ := field
      by_cases here : first = key
      · subst here
        simp only [upsert, beq_self_eq_true, if_true, fieldsSize_cons, List.lookup_cons_self,
          Option.map_some, Option.getD_some]
        omega
      · rw [upsert, if_neg (by simpa using here), lookup_cons_of_ne (Ne.symm here),
          fieldsSize_cons, fieldsSize_cons]
        omega

/-- Collapsing frees the bytes of the superseded fields. -/
theorem fieldsSize_collapse (fields : List (Text × Text)) :
    fieldsSize (collapse fields) + fieldsSize (superseded fields) = fieldsSize fields := by
  rw [← fieldsSize_append]
  exact fieldsSize_perm (collapse_append_superseded_perm fields)

variable {IsValue : Text → Prop}

/-- Whitespace and escapes that `compact` does not write. -/
def Member.surplus (member : Member IsValue) : ℕ :=
  member.beforeKey.size + member.afterKey.size + member.beforeValue.size +
    member.afterValue.size + (member.token.size - (quote member.key).size)

theorem Member.size_text (member : Member IsValue) :
    member.text.size + 1 = fieldSize member.field + member.surplus := by
  have shortest := size_quote_le member.decodes
  have colon : (':').utf8Size = 1 := by decide
  simp only [Member.text, size_append, size_cons, colon, fieldSize, Member.field, Member.surplus]
  omega

/-- A text of an object that has members. -/
structure Layout (IsValue : Text → Prop) where
  lead : Text
  first : Member IsValue
  others : List (Member IsValue)
  trail : Text
  blankLead : Blank lead
  blankTrail : Blank trail

namespace Layout

variable (layout : Layout IsValue)

def members : List (Member IsValue) := layout.first :: layout.others

def text : Text :=
  layout.lead ++ '{' :: (layout.first.text ++ tailText layout.trail layout.others)

def fields : List (Text × Text) := layout.members.map Member.field

/-- The bytes that rewriting the same fields would save. -/
def surplus : ℕ :=
  layout.lead.size + layout.trail.size + (layout.members.map Member.surplus).sum

theorem objectText : ObjectText IsValue layout.text layout.fields :=
  .members layout.first layout.others layout.blankLead layout.blankTrail

theorem size_tailText (trail : Text) (others : List (Member IsValue)) :
    (tailText trail others).size = fieldsSize (others.map Member.field) +
      (others.map Member.surplus).sum + trail.size + 1 := by
  induction others with
  | nil =>
      have brace : ('}').utf8Size = 1 := by decide
      rw [tailText, size_cons, brace]
      simp only [List.map_nil, List.sum_nil, fieldsSize]
      omega
  | cons member rest inductionHypothesis =>
      have comma : (',').utf8Size = 1 := by decide
      have size := member.size_text
      rw [tailText, size_cons, size_append, inductionHypothesis, comma, List.map_cons,
        List.map_cons, List.sum_cons, fieldsSize_cons]
      omega

theorem size_text : layout.text.size = fieldsSize layout.fields + layout.surplus + 1 := by
  have brace : ('{').utf8Size = 1 := by decide
  have size := layout.first.size_text
  rw [text, size_append, size_cons, size_append, size_tailText, brace, fields, surplus, members,
    List.map_cons, List.map_cons, List.sum_cons, fieldsSize_cons]
  omega

end Layout

theorem exists_layout {text : Text} {fields : List (Text × Text)}
    (object : ObjectText IsValue text fields) (nonempty : fields ≠ []) :
    ∃ layout : Layout IsValue, text = layout.text ∧ fields = layout.fields := by
  cases object with
  | empty => exact absurd rfl nonempty
  | @members lead trail first others blankLead blankTrail =>
      exact ⟨⟨lead, first, others, trail, blankLead, blankTrail⟩, rfl, rfl⟩

end Layouts

end Json

end Foundation
