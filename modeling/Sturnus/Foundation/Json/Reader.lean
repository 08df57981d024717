import Sturnus.Foundation.Json.Object

/-!
# A reader for flat objects

The values of a flat object are strings, numbers and names; nested arrays and
objects are refused.  `readObject` accepts exactly the layouts of flat objects
and returns their members.
-/

namespace Foundation.Json

def isScalarChar (c : Char) : Bool := !isBlank c && !",:{}[]\"".toList.contains c

/-- A string, or a run of characters without meaning for the layout. -/
def FlatValue (value : Text) : Prop :=
  (∃ decoded, Token value decoded) ∨ (value ≠ [] ∧ ∀ c ∈ value, isScalarChar c = true)

def skipBlank (text : Text) : Text := text.dropWhile isBlank

def scanValue (text : Text) : Option (Text × Text) :=
  if text.head? = some '"' then
    (scanToken text).map fun result => (text.take (text.length - result.2.length), result.2)
  else if text.takeWhile isScalarChar = [] then none
  else some (text.takeWhile isScalarChar, text.dropWhile isScalarChar)

def readMember (text : Text) : Option ((Text × Text) × Text) := do
  let (key, rest) ← scanToken (skipBlank text)
  let (_, rest) ← expect ':' (skipBlank rest)
  let (value, rest) ← scanValue (skipBlank rest)
  return ((key, value), skipBlank rest)

/-- One member and what follows it; every member costs one fuel. -/
def readMembers : ℕ → Text → Option (List (Text × Text))
  | 0, _ => none
  | fuel + 1, text => do
      let (field, rest) ← readMember text
      match rest with
      | '}' :: trail => if skipBlank trail = [] then some [field] else none
      | ',' :: more => (readMembers fuel more).map (field :: ·)
      | _ => none

/-- What follows the opening brace. -/
def readInner (inner : Text) : Option (List (Text × Text)) :=
  match skipBlank inner with
  | '}' :: trail => if skipBlank trail = [] then some [] else none
  | _ => readMembers inner.length inner

def readObject (text : Text) : Option (List (Text × Text)) :=
  match skipBlank text with
  | '{' :: inner => readInner inner
  | _ => none

section Blanks

theorem skipBlank_append {lead rest : Text} (blank : Blank lead)
    (stops : ∀ c ∈ rest.head?, isBlank c = false) : skipBlank (lead ++ rest) = rest := by
  unfold skipBlank
  rw [List.dropWhile_append_of_pos blank]
  cases rest with
  | nil => rfl
  | cons c rest => simp [stops c rfl]

theorem exists_blank (text : Text) : ∃ lead, Blank lead ∧ text = lead ++ skipBlank text :=
  ⟨text.takeWhile isBlank, fun _ => List.mem_takeWhile_imp, by simp [skipBlank]⟩

theorem blank_of_skipBlank {text : Text} (empty : skipBlank text = []) : Blank text := by
  obtain ⟨lead, blank, whole⟩ := exists_blank text
  rw [whole, empty, List.append_nil]
  exact blank

end Blanks

section Values

theorem token_head {token text : Text} (decodes : Token token text) : token.head? = some '"' := by
  cases token with
  | nil => cases decodes
  | cons c rest =>
      by_cases opening : c = '"'
      · rw [opening]
        rfl
      · simp [Token, scanToken, opening] at decodes

theorem scanToken_append {token text : Text} (decodes : Token token text) (rest : Text) :
    scanToken (token ++ rest) = some (text, rest) := by
  obtain ⟨used, whole, again⟩ := local_scanToken _ _ _ decodes
  rw [List.append_nil] at whole
  exact whole ▸ again rest

theorem scanToken_split {text decoded rest : Text} (found : scanToken text = some (decoded, rest)) :
    ∃ token, text = token ++ rest ∧ Token token decoded := by
  obtain ⟨used, whole, again⟩ := local_scanToken _ _ _ found
  refine ⟨used, whole, ?_⟩
  simpa [Token] using again []

theorem flatValue_head {value : Text} (flat : FlatValue value) :
    ∃ c, value.head? = some c ∧ isBlank c = false := by
  rcases flat with ⟨decoded, decodes⟩ | ⟨nonempty, scalar⟩
  · exact ⟨'"', token_head decodes, rfl⟩
  · obtain ⟨c, rest, rfl⟩ := List.exists_cons_of_ne_nil nonempty
    have plain := scalar c List.mem_cons_self
    simp only [isScalarChar, Bool.and_eq_true, Bool.not_eq_true'] at plain
    exact ⟨c, rfl, plain.1⟩

theorem scanValue_append {value rest : Text} (flat : FlatValue value)
    (stops : ∀ c ∈ rest.head?, isScalarChar c = false) :
    scanValue (value ++ rest) = some (value, rest) := by
  unfold scanValue
  rcases flat with ⟨decoded, decodes⟩ | ⟨nonempty, scalar⟩
  · have opening : (value ++ rest).head? = some '"' := by
      simp [List.head?_append, token_head decodes]
    rw [if_pos opening, scanToken_append decodes]
    simp
  · have notOpening : (value ++ rest).head? ≠ some '"' := by
      obtain ⟨c, others, rfl⟩ := List.exists_cons_of_ne_nil nonempty
      intro opening
      have plain := scalar c List.mem_cons_self
      simp only [List.cons_append, List.head?_cons, Option.some.injEq] at opening
      subst opening
      exact absurd plain (by decide)
    have front : rest.takeWhile isScalarChar = [] ∧ rest.dropWhile isScalarChar = rest := by
      cases rest with
      | nil => exact ⟨rfl, rfl⟩
      | cons c rest => simp [stops c rfl]
    rw [if_neg notOpening, List.takeWhile_append_of_pos scalar, List.dropWhile_append_of_pos scalar,
      front.1, front.2, List.append_nil, if_neg nonempty]

theorem scanValue_split {text value rest : Text} (found : scanValue text = some (value, rest)) :
    text = value ++ rest ∧ FlatValue value := by
  unfold scanValue at found
  split_ifs at found with opening empty
  · obtain ⟨⟨decoded, after⟩, scanned, same⟩ := Option.map_eq_some_iff.mp found
    obtain ⟨token, rfl, decodes⟩ := scanToken_split scanned
    simp only [List.length_append, Nat.add_sub_cancel, List.take_left', Prod.mk.injEq] at same
    obtain ⟨rfl, rfl⟩ := same
    exact ⟨rfl, .inl ⟨decoded, decodes⟩⟩
  · simp only [Option.some.injEq, Prod.mk.injEq] at found
    obtain ⟨rfl, rfl⟩ := found
    exact ⟨(List.takeWhile_append_dropWhile).symm, .inr ⟨empty, fun _ => List.mem_takeWhile_imp⟩⟩

end Values

section Members

theorem skipBlank_member (member : Member FlatValue) (rest : Text) :
    skipBlank (member.text ++ rest) = member.token ++ (member.afterKey ++
      ':' :: (member.beforeValue ++ (member.value ++ (member.afterValue ++ rest)))) := by
  simp only [Member.text, List.append_assoc, List.cons_append]
  apply skipBlank_append member.blankBeforeKey
  intro c first
  simp only [List.head?_append, token_head member.decodes, Option.some_or, Option.mem_some_iff]
    at first
  rw [← first]
  rfl

/-- A member is followed by a comma or a closing brace, which ends its value. -/
theorem readMember_append (member : Member FlatValue) {d : Char} (ends : isScalarChar d = false)
    (notBlank : isBlank d = false) (more : Text) :
    readMember (member.text ++ d :: more) = some (member.field, d :: more) := by
  have colon (rest : Text) : skipBlank (member.afterKey ++ ':' :: rest) = ':' :: rest := by
    apply skipBlank_append member.blankAfterKey
    intro c first
    cases first
    rfl
  have value (rest : Text) : skipBlank (member.beforeValue ++ (member.value ++ rest)) =
      member.value ++ rest := by
    apply skipBlank_append member.blankBeforeValue
    intro c first
    obtain ⟨head, found, plain⟩ := flatValue_head member.isValue
    simp only [List.head?_append, found, Option.some_or, Option.mem_some_iff] at first
    rw [← first]
    exact plain
  have stops : ∀ c ∈ (member.afterValue ++ d :: more).head?, isScalarChar c = false := by
    intro c first
    cases after : member.afterValue with
    | nil =>
        simp only [after, List.nil_append, List.head?_cons, Option.mem_some_iff] at first
        rw [← first]
        exact ends
    | cons b others =>
        simp only [after, List.cons_append, List.head?_cons, Option.mem_some_iff] at first
        have blank := member.blankAfterValue b (by simp [after])
        rw [← first, isScalarChar, blank]
        rfl
  have done : skipBlank (member.afterValue ++ d :: more) = d :: more := by
    apply skipBlank_append member.blankAfterValue
    intro c first
    cases first
    exact notBlank
  unfold readMember
  simp only [skipBlank_member, scanToken_append member.decodes, Option.bind_eq_bind,
    Option.bind_some, colon]
  change (scanValue (skipBlank _)).bind _ = _
  simp only [value, scanValue_append member.isValue stops, Option.bind_some, done]
  rfl

theorem expect_eq_some {c : Char} {text rest : Text} {done : Unit}
    (found : expect c text = some (done, rest)) : text = c :: rest := by
  obtain ⟨⟨head, left⟩, first, same⟩ := Option.bind_eq_some_iff.mp found
  cases text with
  | nil => cases first
  | cons _ _ =>
      cases first
      dsimp only at same
      split_ifs at same with equal
      cases same
      rw [equal]

theorem readMember_split {text rest : Text} {field : Text × Text}
    (found : readMember text = some (field, rest)) :
    ∃ member : Member FlatValue, member.field = field ∧ text = member.text ++ rest := by
  simp only [readMember, Option.bind_eq_bind, Option.bind_eq_some_iff, Prod.exists] at found
  obtain ⟨key, afterToken, scanned, done, afterColon, colon, value, afterValue, read, same⟩ := found
  cases same
  obtain ⟨token, tokenText, decodes⟩ := scanToken_split scanned
  obtain ⟨valueText, flat⟩ := scanValue_split read
  obtain ⟨beforeKey, blankBeforeKey, wholeText⟩ := exists_blank text
  obtain ⟨afterKey, blankAfterKey, wholeToken⟩ := exists_blank afterToken
  obtain ⟨beforeValue, blankBeforeValue, wholeColon⟩ := exists_blank afterColon
  obtain ⟨behind, blankBehind, wholeValue⟩ := exists_blank afterValue
  refine ⟨⟨beforeKey, token, key, afterKey, beforeValue, value, behind, decodes, flat,
    blankBeforeKey, blankAfterKey, blankBeforeValue, blankBehind⟩, rfl, ?_⟩
  rw [wholeText, tokenText, wholeToken, expect_eq_some colon, wholeColon, valueText]
  conv_lhs => rw [wholeValue]
  simp only [Member.text, List.append_assoc, List.cons_append]

theorem skipBlank_of_blank {text : Text} (blank : Blank text) : skipBlank text = [] :=
  List.dropWhile_eq_nil_iff.mpr blank

theorem readMembers_tailText {trail : Text} (blank : Blank trail) (first : Member FlatValue)
    (others : List (Member FlatValue)) {fuel : ℕ} (enough : others.length < fuel) :
    readMembers fuel (first.text ++ tailText trail others) =
      some (first.field :: others.map Member.field) := by
  induction others generalizing first fuel with
  | nil =>
      obtain ⟨fuel, rfl⟩ := Nat.exists_eq_add_one.mpr enough
      have read := readMember_append first (by rfl : isScalarChar '}' = false) rfl trail
      simp only [readMembers, tailText, read, Option.bind_eq_bind, Option.bind_some,
        skipBlank_of_blank blank]
      rfl
  | cons second others inductionHypothesis =>
      obtain ⟨fuel, rfl⟩ := Nat.exists_eq_add_one.mpr (Nat.zero_lt_of_lt enough)
      have read := readMember_append first (by rfl : isScalarChar ',' = false) rfl
        (second.text ++ tailText trail others)
      have remaining := inductionHypothesis second (Nat.lt_of_succ_lt_succ enough)
      simp only [readMembers, tailText, read, Option.bind_eq_bind, Option.bind_some, remaining]
      rfl

theorem exists_tailText {fuel : ℕ} {text : Text} {fields : List (Text × Text)}
    (found : readMembers fuel text = some fields) :
    ∃ (trail : Text) (first : Member FlatValue) (others : List (Member FlatValue)), Blank trail ∧
      text = first.text ++ tailText trail others ∧
      fields = first.field :: others.map Member.field := by
  induction fuel generalizing text fields with
  | zero => cases found
  | succ fuel inductionHypothesis =>
      obtain ⟨⟨field, rest⟩, read, remaining⟩ := Option.bind_eq_some_iff.mp found
      obtain ⟨first, rfl, rfl⟩ := readMember_split read
      dsimp only at remaining
      split at remaining
      next trail =>
          split_ifs at remaining with empty
          cases remaining
          exact ⟨trail, first, [], blank_of_skipBlank empty, rfl, rfl⟩
      next more =>
          obtain ⟨others, readOthers, rfl⟩ := Option.map_eq_some_iff.mp remaining
          obtain ⟨trail, second, tail, blank, rfl, rfl⟩ := inductionHypothesis readOthers
          exact ⟨trail, first, second :: tail, blank, rfl, rfl⟩
      next => cases remaining

end Members

section Objects

theorem length_le_tailText (trail : Text) (others : List (Member FlatValue)) :
    others.length < (tailText trail others).length := by
  induction others with
  | nil => simp [tailText]
  | cons member rest inductionHypothesis =>
      simp only [tailText, List.length_cons, List.length_append]
      omega

theorem readObject_of_blank {lead : Text} (blank : Blank lead) (inner : Text) :
    readObject (lead ++ '{' :: inner) = readInner inner := by
  unfold readObject
  rw [skipBlank_append blank (by rintro c ⟨⟩; rfl)]
  rfl

theorem readInner_empty {inner trail : Text} (blankInner : Blank inner) (blankTrail : Blank trail) :
    readInner (inner ++ '}' :: trail) = some [] := by
  unfold readInner
  rw [skipBlank_append blankInner (by rintro c ⟨⟩; rfl)]
  simp only [skipBlank_of_blank blankTrail, if_true]

theorem readInner_members {trail : Text} (blank : Blank trail) (first : Member FlatValue)
    (others : List (Member FlatValue)) :
    readInner (first.text ++ tailText trail others) =
      some (first.field :: others.map Member.field) := by
  have opening : (skipBlank (first.text ++ tailText trail others)).head? = some '"' := by
    rw [skipBlank_member, List.head?_append, token_head first.decodes]
    rfl
  have enough := length_le_tailText trail others
  unfold readInner
  split
  next closed =>
      rw [closed] at opening
      cases opening
  next =>
      apply readMembers_tailText blank
      rw [List.length_append]
      omega

/-- The reader accepts exactly the layouts of flat objects. -/
theorem readObject_iff (text : Text) (fields : List (Text × Text)) :
    readObject text = some fields ↔ ObjectText FlatValue text fields := by
  constructor
  · intro found
    obtain ⟨lead, blankLead, whole⟩ := exists_blank text
    unfold readObject at found
    split at found
    next inner opened =>
        obtain ⟨beforeFirst, blankInner, wholeInner⟩ := exists_blank inner
        unfold readInner at found
        rw [whole, opened]
        split at found
        next trail closed =>
            split_ifs at found with empty
            cases found
            rw [wholeInner, closed]
            exact .empty blankLead blankInner (blank_of_skipBlank empty)
        next =>
            obtain ⟨trail, first, others, blankTrail, rfl, rfl⟩ := exists_tailText found
            exact .members first others blankLead blankTrail
    next => cases found
  · intro layout
    cases layout with
    | empty blankLead blankInner blankTrail =>
        rw [readObject_of_blank blankLead, readInner_empty blankInner blankTrail]
    | members first others blankLead blankTrail =>
        rw [readObject_of_blank blankLead, readInner_members blankTrail]

end Objects

end Foundation.Json
