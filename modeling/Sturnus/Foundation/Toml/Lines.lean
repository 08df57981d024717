import Sturnus.Foundation.Toml.Document

/-!
# Documents of lines

A reader for documents whose lines are headers and strings.  It shows that the
law of readers can be kept.
-/

namespace Foundation.Toml

/-- A line gives a table or a key of the last one. -/
inductive Line where
  | header (path : List Text)
  | string (key : Text)
  deriving DecidableEq

section Read

def Token.char? : Token Unit → Option Char
  | .char c => some c
  | .string _ => none

def isBare (c : Char) : Bool := c.isAlphanum || c == '_' || c == '-'

/-- A bare key, or a quoted one without escapes. -/
def readKey : Text → Option Text
  | '"' :: rest =>
      if rest.getLast? = some '"' ∧ Unescaped rest.dropLast then some rest.dropLast else none
  | text => if text ≠ [] ∧ text.all isBare = true then some text else none

def readHeader (inside : Text) : Option (List Line) :=
  if inside.getLast? = some ']' then do
    let path ← (inside.dropLast.splitOn '.').mapM readKey
    return [.header path]
  else none

def readEntry (line : List (Token Unit)) : Option (List Line) := do
  let key ← ((line.takeWhile (· ≠ .char ' ')).mapM Token.char?).bind readKey
  match line.dropWhile (· ≠ .char ' ') with
  | [.char ' ', .char '=', .char ' ', .string ()] => return [.string key]
  | _ => none

def readLine : List (Token Unit) → Option (List Line)
  | [] => some []
  | .char '[' :: rest => (rest.mapM Token.char?).bind readHeader
  | line => readEntry line

def readLines (tokens : List (Token Unit)) : Option (List Line) :=
  ((tokens.splitOn (.char '\n')).mapM readLine).map List.flatten

end Read

section Assemble

/-- The entries of a table. -/
abbrev Entries := List (Text × Value Unit Slot)

/-- Add a key to the table at a path; no key is given twice. -/
def put : List Text → Text → Value Unit Slot → Entries → Option Entries
  | [], key, value, entries =>
      if (entries.lookup key).isSome then none else some (entries ++ [(key, value)])
  | name :: path, key, value, entries =>
      match entries.lookup name with
      | none => (put path key value []).map fun inner => entries ++ [(name, .table inner)]
      | some (.table inner) =>
          (put path key value inner).map fun inner =>
            entries.map fun entry => if entry.1 = name then (name, .table inner) else entry
      | some _ => none

/-- `path` is the table of the last header, `count` the number of strings so far. -/
def assemble : List Line → List Text → ℕ → Entries → Option Entries
  | [], _, _, entries => some entries
  | .header path :: rest, _, count, entries =>
      path.getLast?.bind fun name =>
        (put path.dropLast name (.table []) entries).bind (assemble rest path count)
  | .string key :: rest, path, count, entries =>
      (put path key (.string (.nth count)) entries).bind (assemble rest path (count + 1))

end Assemble

def document (tokens : List (Token Unit)) : Option (Value Unit Slot) :=
  (readLines tokens).bind fun lines => (assemble lines [] 0 []).map .table

def readDocument (text : Text) : Except Text (Value Unit Text) :=
  match lexText text with
  | none => .error "unsupported string".toList
  | some tokens =>
      match document (skeleton tokens) with
      | none => .error "unsupported line".toList
      | some value => .ok (value.map (Slot.text (strings tokens)))

theorem compositional_readDocument : Compositional readDocument := by
  refine ⟨document, ?_⟩
  intro text tokens lexed
  simp only [readDocument, lexed]
  cases document (skeleton tokens) with
  | none => rfl
  | some value => rfl

end Foundation.Toml
