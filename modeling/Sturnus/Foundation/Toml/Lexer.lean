import Sturnus.Foundation.Interpolation
import Sturnus.Foundation.Json.String

/-!
# TOML basic strings

A lexer that decodes the basic strings that stand for values, drops comments and
copies everything else: keys, other kinds of strings and the characters between
them.  It reads templates, whose holes must be inside those strings or comments.
-/

namespace Foundation.Toml

section Grammar

/-- `non-eol`: no control character other than a tab. -/
def isNonEol (c : Char) : Bool := c == '\t' || (32 ≤ c.toNat && c.toNat != 127)

/-- `basic-unescaped`: what a basic string can hold as it is. -/
def isBasicUnescaped (c : Char) : Bool := isNonEol c && c != '"' && c != '\\'

def Unescaped (text : Text) : Prop := ∀ c ∈ text, isBasicUnescaped c = true

instance (text : Text) : Decidable (Unescaped text) :=
  List.decidableBAll (fun c => isBasicUnescaped c = true) text

/-- The escapes of one character. -/
def unescape : Char → Option Char
  | 'b' => some '\x08'
  | 't' => some '\t'
  | 'n' => some '\n'
  | 'f' => some '\x0c'
  | 'r' => some '\x0d'
  | '"' => some '"'
  | '\\' => some '\\'
  | _ => none

end Grammar

/-- A character as it stands, or a whole string. -/
inductive Token (Str : Type) where
  | char (c : Char)
  | string (value : Str)
  deriving DecidableEq

inductive Bracket where
  | array
  | inline
  deriving DecidableEq

/-- The open brackets, and whether a quote starts a value. -/
structure Context where
  brackets : List Bracket
  value : Bool

/-- A document starts with a key or a header. -/
def Context.start : Context := ⟨[], false⟩

def Context.after (context : Context) (c : Char) : Context :=
  if c = '=' then { context with value := true }
  else if c = '\n' then
    -- A line ends its entry unless a bracket is open.
    if context.brackets = [] then { context with value := false } else context
  else if c = ',' then { context with value := context.brackets.head? = some .array }
  else if c = '[' then
    -- Without a value to come it opens a header.
    if context.value then { brackets := .array :: context.brackets, value := true } else context
  else if c = '{' then
    if context.value then { brackets := .inline :: context.brackets, value := false } else context
  else if c = ']' ∨ c = '}' then { context with brackets := context.brackets.tail }
  else context

/-- Inside a string that is copied. -/
inductive Copy where
  | opened (quote : Char)
  | within (quote : Char) (escaped : Bool)
  /-- An empty string, or the start of a long one. -/
  | doubled (quote : Char)
  /-- `run` counts the quotes just read: three of them close the string. -/
  | long (quote : Char) (escaped : Bool) (run : ℕ)

/-- What a character does to a string that is copied. -/
inductive Copied where
  | goes (inner : Copy)
  | ends
  /-- It comes after the string. -/
  | ended

def escapes (quote c : Char) : Bool := quote == '"' && c == '\\'

def Copy.step : Copy → Char → Copied
  | .opened quote, c =>
      .goes (if c = quote then .doubled quote else .within quote (escapes quote c))
  | .within quote escaped, c =>
      if escaped then .goes (.within quote false)
      else if c = quote then .ends
      else .goes (.within quote (escapes quote c))
  | .doubled quote, c => if c = quote then .goes (.long quote false 0) else .ended
  | .long quote escaped run, c =>
      if escaped then .goes (.long quote false 0)
      else if c = quote then .goes (.long quote false (run + 1))
      else if 3 ≤ run then .ended
      else .goes (.long quote (escapes quote c) 0)

/-- Inside a basic string that is decoded: `code` is what the digits so far spell. -/
inductive Mode where
  | basic
  | escape
  | hex (left code : ℕ)

/-- What a character does to a string that is decoded. -/
inductive Decoded where
  | goes (mode : Mode) (added : Option Char)
  | ends

def hexStep (left code : ℕ) : Option Decoded :=
  match left with
  | left + 1 => some (.goes (.hex left code) none)
  | 0 => if code.isValidChar then some (.goes .basic (some (Char.ofNat code))) else none

def Mode.step : Mode → Char → Option Decoded
  | .basic, c =>
      if c = '"' then some .ends
      else if c = '\\' then some (.goes .escape none)
      else if isBasicUnescaped c then some (.goes .basic (some c))
      else none
  | .escape, c =>
      if c = 'u' then some (.goes (.hex 3 0) none)
      else if c = 'U' then some (.goes (.hex 7 0) none)
      else (unescape c).map fun d => .goes .basic (some d)
  | .hex left code, c =>
      (Json.hexDigit? c).bind fun digit => hexStep left (code * 16 + digit)

/-- Where the lexer stands. -/
inductive Place (Hole : Type) where
  | plain
  | comment
  | copy (inner : Copy)
  | decode (mode : Mode) (content : Template Hole)
  /-- The next character tells an empty string from the start of a long one. -/
  | closed (content : Template Hole)

structure State (Hole : Type) where
  context : Context
  place : Place Hole

/-- What a step adds and where it goes. -/
structure Outcome (Hole : Type) where
  tokens : List (Token (Template Hole))
  next : State Hole

section Lexer

variable {Hole : Type}

def plainStep (context : Context) (c : Char) : Outcome Hole :=
  if c = '"' ∧ context.value = true then ⟨[], context, .decode .basic []⟩
  else if c = '#' then ⟨[], context, .comment⟩
  else
    ⟨[.char c], context.after c, if c = '"' ∨ c = '\x27' then .copy (.opened c) else .plain⟩

def copyStep (context : Context) (c : Char) : Copied → Outcome Hole
  | .goes inner => ⟨[.char c], context, .copy inner⟩
  | .ends => ⟨[.char c], context, .plain⟩
  | .ended => plainStep context c

def decodeStep (context : Context) (content : Template Hole) : Decoded → Outcome Hole
  | .goes mode added => ⟨[], context, .decode mode (content ++ Template.ofText added.toList)⟩
  | .ends => ⟨[], context, .closed content⟩

def charStep (context : Context) : Place Hole → Char → Option (Outcome Hole)
  | .plain, c => some (plainStep context c)
  | .comment, c =>
      if c = '\n' ∨ c = '\x0d' then some (plainStep context c)
      else if isNonEol c then some ⟨[], context, .comment⟩
      else none
  | .copy inner, c => some (copyStep context c (inner.step c))
  | .decode mode content, c => (mode.step c).map (decodeStep context content)
  | .closed content, c =>
      if c = '"' then
        if content.isEmpty then
          some ⟨List.replicate 3 (.char '"'), context, .copy (.long '"' false 0)⟩
        else none
      else some ⟨.string content :: (plainStep context c).tokens, (plainStep context c).next⟩

def step (state : State Hole) : Symbol Hole → Option (Outcome Hole)
  | .char c => charStep state.context state.place c
  | .ref hole =>
      match state.place with
      | .comment => some ⟨[], state.context, .comment⟩
      | .decode .basic content => some ⟨[], state.context, .decode .basic (content ++ [.ref hole])⟩
      | _ => none

/-- The end of the document. -/
def finish : Place Hole → Option (List (Token (Template Hole)))
  | .decode .. => none
  | .closed content => some [.string content]
  | _ => some []

def lexFrom (state : State Hole) : Template Hole → Option (List (Token (Template Hole)))
  | [] => finish state.place
  | symbol :: rest =>
      (step state symbol).bind fun outcome => (lexFrom outcome.next rest).map (outcome.tokens ++ ·)

def lex (template : Template Hole) : Option (List (Token (Template Hole))) :=
  lexFrom ⟨.start, .plain⟩ template

end Lexer

section Filling

variable {Hole Other : Type}

/-- The filled template, as a template with nothing left to fill. -/
def filled (value : Hole → Text) (template : Template Hole) : Template Other :=
  Template.ofText (template.fill value)

@[simp] theorem filled_nil (value : Hole → Text) : (filled value [] : Template Other) = [] := rfl

@[simp] theorem filled_append (value : Hole → Text) (left right : Template Hole) :
    (filled value (left ++ right) : Template Other) = filled value left ++ filled value right := by
  simp only [filled, Template.fill_append, Template.ofText_append]

def Token.map {Str Result : Type} (f : Str → Result) : Token Str → Token Result
  | .char c => .char c
  | .string value => .string (f value)

def Place.fill (value : Hole → Text) : Place Hole → Place Other
  | .plain => .plain
  | .comment => .comment
  | .copy inner => .copy inner
  | .decode mode content => .decode mode (filled value content)
  | .closed content => .closed (filled value content)

def State.fill (value : Hole → Text) (state : State Hole) : State Other :=
  ⟨state.context, state.place.fill value⟩

def Outcome.fill (value : Hole → Text) (outcome : Outcome Hole) : Outcome Other :=
  ⟨outcome.tokens.map (Token.map (filled value)), outcome.next.fill value⟩

variable (value : Hole → Text)

end Filling

section Exact

variable {Hole : Type}

/-- Where a value is to come. -/
def State.beforeValue : State Hole := ⟨⟨[], true⟩, .plain⟩

end Exact

end Foundation.Toml
