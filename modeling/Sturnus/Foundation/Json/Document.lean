import Sturnus.Foundation.Json.Tree

/-!
# Documents

`document` reads the tree of a text, whatever the magnitude of its numbers, the
escapes in its strings and the depth of its nesting.  `Tree.text` writes a tree
without whitespace, and reading gives it back.
-/

namespace Foundation.Json

section Reading

/-- The escape of a surrogate, behind its backslash. -/
def scanSurrogate : Text → Option (ℕ × Text) :=
  andThen (expect 'u') fun _ => andThen scanHex4 fun n text =>
    if isHighSurrogate n || isLowSurrogate n then some (n, text) else none

/-- A character, or a surrogate without a partner. -/
def scanPointFrom (c : Char) (text : Text) : Option (ℕ × Text) :=
  match scanCharFrom c text with
  | some (decoded, rest) => some (decoded.toNat, rest)
  | none => if c = '\\' then scanSurrogate text else none

/-- Points up to the closing quote; every one of them costs one fuel. -/
def scanPoints : ℕ → Text → Option (Points × Text)
  | 0 => fun _ => none
  | fuel + 1 => andThen anyChar fun c text =>
      if c = '"' then some ([], text)
      else andThen (scanPointFrom c) (fun point => andThen (scanPoints fuel) fun others rest =>
        some (point :: others, rest)) text

def readString : Text → Option (Points × Text)
  | '"' :: rest => scanPoints rest.length rest
  | _ => none

/-- The tree of a run of scalar characters. -/
def scalar (word : Text) : Option (Tree Points) :=
  if word = "null".toList then some .null
  else if word = "true".toList then some (.bool true)
  else if word = "false".toList then some (.bool false)
  else if legal : word.all isScalarChar = true ∧ (readDecimal word).isSome = true then
    some (.number ⟨word, legal.1, legal.2⟩)
  else none

variable {Item : Type}

/-- Items behind the first bracket or a comma; every one of them costs one fuel. -/
def readMore (close : Char) (item : Text → Option (Item × Text)) :
    ℕ → Text → Option (List Item × Text)
  | 0, _ => none
  | fuel + 1, text =>
      (item (skipBlank text)).bind fun result =>
        match skipBlank result.2 with
        | [] => none
        | c :: more =>
            if c = ',' then
              (readMore close item fuel more).map fun others => (result.1 :: others.1, others.2)
            else if c = close then some ([result.1], more)
            else none

/-- Items behind the first bracket, if any. -/
def readItems (close : Char) (item : Text → Option (Item × Text)) (text : Text) :
    Option (List Item × Text) :=
  match skipBlank text with
  | [] => none
  | c :: rest => if c = close then some ([], rest) else readMore close item text.length text

def readEntry (value : Text → Option (Item × Text)) (text : Text) :
    Option ((Points × Item) × Text) :=
  (readString text).bind fun key =>
    (expect ':' (skipBlank key.2)).bind fun colon =>
      (value (skipBlank colon.2)).map fun result => ((key.1, result.1), result.2)

/-- A tree and what follows it; every bracket costs one fuel. -/
def readTree : ℕ → Text → Option (Tree Points × Text)
  | 0, _ => none
  | fuel + 1, text =>
      match text with
      | '"' :: _ => (readString text).map fun result => (.string result.1, result.2)
      | '[' :: rest =>
          (readItems ']' (readTree fuel) rest).map fun result => (.array result.1, result.2)
      | '{' :: rest =>
          (readItems '}' (readEntry (readTree fuel)) rest).map fun result =>
            (.object result.1, result.2)
      | _ => (scalar (text.takeWhile isScalarChar)).map fun tree =>
          (tree, text.dropWhile isScalarChar)

/-- The tree of a whole text. -/
def document (text : Text) : Option (Tree Points) :=
  (readTree text.length (skipBlank text)).bind fun result =>
    if skipBlank result.2 = [] then some result.1 else none

end Reading

section Writing

/-- Items with commas between them and the bracket that closes them. -/
def sequence (close : Char) : List Text → Text
  | [] => [close]
  | [item] => item ++ [close]
  | item :: others => item ++ ',' :: sequence close others

/-- The text of a tree, without whitespace. -/
def Tree.text : Tree Text → Text
  | .null => "null".toList
  | .bool true => "true".toList
  | .bool false => "false".toList
  | .number literal => literal.text
  | .string value => quote value
  | .array items => '[' :: sequence ']' (items.map Tree.text)
  | .object entries => compact (entries.map fun entry => (entry.1, Tree.text entry.2))
termination_by tree => sizeOf tree
decreasing_by
  · exact sizeOf_item ‹_ ∈ _›
  · exact sizeOf_entry ‹_ ∈ _›

theorem compact_eq (fields : List (Text × Text)) :
    compact fields = '{' :: sequence '}' (fields.map compactMember) := by
  have tail (field : Text × Text) (rest : List (Text × Text)) :
      compactMember field ++ compactTail rest =
        sequence '}' ((field :: rest).map compactMember) := by
    induction rest generalizing field with
    | nil => rfl
    | cons second others inductionHypothesis =>
        rw [compactTail, inductionHypothesis]
        rfl
  cases fields with
  | nil => rfl
  | cons field rest => rw [compact, tail]

theorem length_le_sequence (close : Char) (items : List Text) :
    items.length ≤ (sequence close items).length := by
  induction items with
  | nil => exact Nat.zero_le _
  | cons first others inductionHypothesis =>
      cases others with
      | nil => simp [sequence]
      | cons second rest =>
          simp only [sequence, List.length_cons, List.length_append] at inductionHypothesis ⊢
          omega

theorem length_le_of_mem {items : List Text} {item : Text} (member : item ∈ items) (close : Char) :
    item.length ≤ (sequence close items).length := by
  induction items with
  | nil => cases member
  | cons first others inductionHypothesis =>
      cases others with
      | nil =>
          rw [List.mem_singleton.mp member]
          simp [sequence]
      | cons second rest =>
          simp only [sequence, List.length_cons, List.length_append]
          rcases List.mem_cons.mp member with rfl | inside
          · exact Nat.le_add_right _ _
          · have bound := inductionHypothesis inside
            omega

end Writing

section RoundTrip

/-- The text does not go on with a scalar. -/
def Stops (text : Text) : Prop := ∀ c ∈ text.head?, isScalarChar c = false

variable {Item : Type}

/-- A written item reads back in front of whatever stops it, and does not look like
whitespace or a bracket that closes. -/
structure Readable (item : Text → Option (Item × Text)) (written : Text) (result : Item) : Prop where
  reads : ∀ rest, Stops rest → item (written ++ rest) = some (result, rest)
  head : ∃ c rest, written = c :: rest ∧ isBlank c = false ∧ c ≠ ']' ∧ c ≠ '}'

theorem Readable.skipBlank {item : Text → Option (Item × Text)} {written : Text} {result : Item}
    (readable : Readable item written result) (rest : Text) :
    skipBlank (written ++ rest) = written ++ rest := by
  obtain ⟨c, others, rfl, plain, -⟩ := readable.head
  exact skipBlank_append blank_nil (by rintro _ ⟨⟩; exact plain)

theorem stops_comma (rest : Text) : Stops (',' :: rest) := by
  rintro c ⟨⟩
  rfl

section Items

variable {close : Char} {item : Text → Option (Item × Text)}

theorem readMore_sequence (closes : close = ']' ∨ close = '}') {first : Text} {texts : List Text}
    {result : Item} {results : List Item} (readable : Readable item first result)
    (others : List.Forall₂ (Readable item) texts results) {fuel : ℕ} (enough : texts.length < fuel)
    (rest : Text) :
    readMore close item fuel (sequence close (first :: texts) ++ rest) =
      some (result :: results, rest) := by
  induction others generalizing first result fuel with
  | nil =>
      obtain ⟨fuel, rfl⟩ := Nat.exists_eq_add_one.mpr enough
      have stops : Stops (close :: rest) := by
        rintro c ⟨⟩
        rcases closes with rfl | rfl <;> rfl
      have closed : skipBlank (close :: rest) = close :: rest := by
        rcases closes with rfl | rfl <;> rfl
      have notComma : close ≠ ',' := by
        rcases closes with rfl | rfl <;> decide
      simp only [readMore, sequence, List.append_assoc, List.singleton_append,
        readable.skipBlank, readable.reads _ stops, Option.bind_some, closed, if_neg notComma,
        if_true]
  | cons second _ inductionHypothesis =>
      obtain ⟨fuel, rfl⟩ := Nat.exists_eq_add_one.mpr (Nat.zero_lt_of_lt enough)
      have remaining := inductionHypothesis second (Nat.lt_of_succ_lt_succ enough)
      have comma (rest : Text) : skipBlank (',' :: rest) = ',' :: rest := rfl
      simp only [readMore, sequence, List.append_assoc, List.cons_append, readable.skipBlank,
        readable.reads _ (stops_comma _), Option.bind_some, comma, if_true, remaining,
        Option.map_some]

theorem readItems_sequence (closes : close = ']' ∨ close = '}') {texts : List Text}
    {results : List Item} (readable : List.Forall₂ (Readable item) texts results) (rest : Text) :
    readItems close item (sequence close texts ++ rest) = some (results, rest) := by
  cases readable with
  | nil =>
      have closed : skipBlank (sequence close [] ++ rest) = close :: rest := by
        rcases closes with rfl | rfl <;> rfl
      unfold readItems
      rw [closed]
      simp only [if_true]
  | @cons first result texts results readable others =>
      obtain ⟨c, tail, whole, plain, notBracket, notBrace⟩ := readable.head
      have opened : ∃ more, sequence close (first :: texts) ++ rest = c :: more := by
        cases texts <;> exact ⟨_, by rw [whole]; rfl⟩
      obtain ⟨more, opened⟩ := opened
      have unclosed : c ≠ close := by
        rcases closes with rfl | rfl
        · exact notBracket
        · exact notBrace
      have skipped : skipBlank (c :: more) = c :: more := by
        simp [Json.skipBlank, plain]
      have bound := length_le_sequence close (first :: texts)
      have enough : texts.length < (c :: more).length := by
        rw [← opened, List.length_append]
        rw [List.length_cons] at bound
        omega
      have read := readMore_sequence closes readable others enough rest
      unfold readItems
      rw [opened] at read ⊢
      rw [skipped]
      simp only [if_neg unclosed, read]

end Items

theorem scanPoints_escape (text rest : Text) {fuel : ℕ} (enough : text.length < fuel) :
    scanPoints fuel (text.flatMap escapeChar ++ '"' :: rest) = some (points text, rest) := by
  induction text generalizing fuel with
  | nil =>
      obtain ⟨fuel, rfl⟩ := Nat.exists_eq_add_one.mpr enough
      rfl
  | cons c others inductionHypothesis =>
      obtain ⟨fuel, rfl⟩ := Nat.exists_eq_add_one.mpr (Nat.zero_lt_of_lt enough)
      obtain ⟨head, tail, escaped, notQuote, reads⟩ := scanCharFrom_escapeChar c
      have remaining := inductionHypothesis (Nat.lt_of_succ_lt_succ enough)
      have point (rest : Text) : scanPointFrom head (tail ++ rest) = some (c.toNat, rest) := by
        rw [scanPointFrom, reads]
      simp only [List.flatMap_cons, escaped, List.cons_append, List.append_assoc, scanPoints,
        andThen, anyChar, Option.bind_some, notQuote, if_false, point, remaining]
      rfl

theorem readString_quote (text rest : Text) :
    readString (quote text ++ rest) = some (points text, rest) := by
  have bound := length_le_escape text
  have whole : quote text ++ rest = '"' :: (text.flatMap escapeChar ++ '"' :: rest) := by
    simp [quote]
  rw [whole]
  apply scanPoints_escape
  rw [List.length_append, List.length_cons]
  omega

theorem readable_scalar {word : Text} {tree : Tree Points} (nonempty : word ≠ [])
    (plain : word.all isScalarChar = true) (known : scalar word = some tree) (fuel : ℕ) :
    Readable (readTree (fuel + 1)) word tree := by
  obtain ⟨c, others, rfl⟩ := List.exists_cons_of_ne_nil nonempty
  have first : isScalarChar c = true := List.all_eq_true.mp plain c List.mem_cons_self
  have differs (d : Char) (special : isScalarChar d = false) : c ≠ d := by
    rintro rfl
    rw [first] at special
    cases special
  constructor
  · intro rest stops
    have word : (c :: others ++ rest).takeWhile isScalarChar = c :: others ∧
        (c :: others ++ rest).dropWhile isScalarChar = rest := by
      rw [List.takeWhile_append_of_pos (List.all_eq_true.mp plain),
        List.dropWhile_append_of_pos (List.all_eq_true.mp plain)]
      cases rest with
      | nil => simp
      | cons d rest => simp [stops d rfl]
    unfold readTree
    split
    next same => exact absurd (List.cons.inj same).1 (differs '"' rfl)
    next same => exact absurd (List.cons.inj same).1 (differs '[' rfl)
    next same => exact absurd (List.cons.inj same).1 (differs '{' rfl)
    next => rw [word.1, word.2, known, Option.map_some]
  · refine ⟨c, others, rfl, ?_, differs ']' rfl, differs '}' rfl⟩
    simp only [isScalarChar, Bool.and_eq_true, Bool.not_eq_true'] at first
    exact first.1

theorem scalar_number (literal : Number) : scalar literal.text = some (.number literal) := by
  have differs (word : Text) (illegal : (readDecimal word).isSome = false) :
      literal.text ≠ word := by
    rintro rfl
    rw [literal.legal] at illegal
    cases illegal
  unfold scalar
  rw [if_neg (differs _ rfl), if_neg (differs _ rfl), if_neg (differs _ rfl),
    dif_pos ⟨literal.scalar, literal.legal⟩]

theorem readable_entry {value : Text → Option (Item × Text)} {written : Text} {result : Item}
    (readable : Readable value written result) (key : Text) :
    Readable (readEntry value) (compactMember (key, written)) (points key, result) := by
  constructor
  · intro rest stops
    have colon (rest : Text) : expect ':' (skipBlank (':' :: rest)) = some ((), rest) := rfl
    unfold readEntry
    simp only [compactMember, List.append_assoc, List.cons_append, readString_quote,
      Option.bind_some, colon, readable.skipBlank, readable.reads rest stops, Option.map_some]
  · exact ⟨'"', _, rfl, rfl, by decide, by decide⟩

namespace Tree

theorem readable_string (value : Text) (fuel : ℕ) :
    Readable (readTree (fuel + 1)) (string value).text ((string value).map points) := by
  rw [text, map]
  constructor
  · intro rest _
    have read := readString_quote value rest
    simp only [quote, List.cons_append] at read ⊢
    rw [readTree, read, Option.map_some]
  · exact ⟨'"', _, rfl, rfl, by decide, by decide⟩

theorem readable_array {items : List (Tree Text)} {fuel : ℕ}
    (each : ∀ item ∈ items, Readable (readTree fuel) item.text (item.map points)) :
    Readable (readTree (fuel + 1)) (array items).text ((array items).map points) := by
  have readable : List.Forall₂ (Readable (readTree fuel)) (items.map text)
      (items.map (map points)) := by
    rw [List.forall₂_map_left_iff, List.forall₂_map_right_iff, List.forall₂_same]
    exact each
  rw [text, map]
  constructor
  · intro rest _
    rw [List.cons_append, readTree, readItems_sequence (.inl rfl) readable, Option.map_some]
  · exact ⟨'[', _, rfl, rfl, by decide, by decide⟩

theorem readable_object {entries : List (Text × Tree Text)} {fuel : ℕ}
    (each : ∀ entry ∈ entries, Readable (readTree fuel) entry.2.text (entry.2.map points)) :
    Readable (readTree (fuel + 1)) (object entries).text ((object entries).map points) := by
  have readable : List.Forall₂ (Readable (readEntry (readTree fuel)))
      (entries.map (compactMember ∘ fun entry => (entry.1, text entry.2)))
      (entries.map fun entry => (points entry.1, map points entry.2)) := by
    rw [List.forall₂_map_left_iff, List.forall₂_map_right_iff, List.forall₂_same]
    intro entry member
    exact readable_entry (each entry member) entry.1
  rw [text, compact_eq, List.map_map, map]
  constructor
  · intro rest _
    rw [List.cons_append, readTree, readItems_sequence (.inr rfl) readable, Option.map_some]
  · exact ⟨'{', _, rfl, rfl, by decide, by decide⟩

/-- Reading what was written gives the tree back. -/
theorem readTree_text (tree : Tree Text) {fuel : ℕ} (enough : tree.text.length ≤ fuel) :
    Readable (readTree fuel) tree.text (tree.map points) := by
  induction tree using Tree.induct generalizing fuel with
  | null =>
      rw [text] at enough ⊢
      obtain ⟨fuel, rfl⟩ := Nat.exists_eq_add_one.mpr (Nat.zero_lt_of_lt enough)
      rw [map]
      exact readable_scalar (by simp) (by rfl) rfl fuel
  | bool value =>
      have some : 0 < (Tree.bool value : Tree Text).text.length := by cases value <;> simp [text]
      obtain ⟨fuel, rfl⟩ := Nat.exists_eq_add_one.mpr (some.trans_le enough)
      rw [map]
      cases value with
      | false =>
          rw [text]
          exact readable_scalar (by simp) (by rfl) rfl fuel
      | true =>
          rw [text]
          exact readable_scalar (by simp) (by rfl) rfl fuel
  | number literal =>
      rw [text] at enough ⊢
      have nonempty : literal.text ≠ [] := by
        intro empty
        have legal := literal.legal
        rw [empty] at legal
        cases legal
      obtain ⟨fuel, rfl⟩ :=
        Nat.exists_eq_add_one.mpr ((List.length_pos_iff.mpr nonempty).trans_le enough)
      rw [map]
      exact readable_scalar nonempty literal.scalar (scalar_number literal) fuel
  | string value =>
      rw [text] at enough
      obtain ⟨fuel, rfl⟩ := Nat.exists_eq_add_one.mpr (Nat.zero_lt_of_lt enough)
      exact readable_string value fuel
  | array items inductionHypothesis =>
      rw [text] at enough
      obtain ⟨fuel, rfl⟩ := Nat.exists_eq_add_one.mpr (Nat.zero_lt_of_lt enough)
      apply readable_array
      intro item member
      have bound := length_le_of_mem (List.mem_map_of_mem (f := text) member) ']'
      exact inductionHypothesis item member (bound.trans (Nat.le_of_succ_le_succ enough))
  | object entries inductionHypothesis =>
      rw [text, compact_eq, List.map_map] at enough
      obtain ⟨fuel, rfl⟩ := Nat.exists_eq_add_one.mpr (Nat.zero_lt_of_lt enough)
      apply readable_object
      intro entry member
      have bound := length_le_of_mem (List.mem_map_of_mem
        (f := compactMember ∘ fun entry => (entry.1, text entry.2)) member) '}'
      have inside : (text entry.2).length ≤ (compactMember (entry.1, text entry.2)).length := by
        simp only [compactMember, List.length_append, List.length_cons]
        omega
      exact inductionHypothesis entry member
        (inside.trans (bound.trans (Nat.le_of_succ_le_succ enough)))

theorem document_text (tree : Tree Text) : document tree.text = some (tree.map points) := by
  have readable := tree.readTree_text (Nat.le_refl _)
  have skipped := readable.skipBlank []
  have read := readable.reads [] (by rintro c ⟨⟩)
  rw [List.append_nil] at skipped read
  rw [document, skipped, read, Option.bind_some]
  rfl

theorem document_object (entries : List (Text × Tree Text)) :
    document (object entries).text =
      some (.object (entries.map (Prod.map points (map points)))) := by
  rw [document_text, map]
  rfl

end Tree

end RoundTrip

end Foundation.Json
