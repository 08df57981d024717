import Mathlib.Tactic.Common

/-!
# Cells that are initialised once

Whoever enters an empty cell initialises it, while others wait; if that fails,
the cell is empty again.  What a cell is made of is left open: it is known by
the state it stands for.
-/

namespace Foundation

inductive OnceState (Value : Type) where
  | empty
  | initializing
  | initialized (value : Value)

/-- What a caller meets. -/
inductive OnceEntry (Value : Type) where
  | found (value : Value)
  /-- The caller has to initialise the cell. -/
  | vacant
  /-- Another caller initialises the cell. -/
  | blocked

/-- The steps of `get_or_try_init`. -/
structure OnceCell (Cell Value : Type) where
  new : Cell
  enter : Cell → OnceEntry Value × Cell
  /-- The initialiser has returned a value. -/
  set : Cell → Value → Cell
  /-- The initialiser has failed, or was dropped. -/
  release : Cell → Cell

namespace OnceState

variable {Value : Type}

/-- Nobody initialises the cell. -/
def settled : OnceState Value → ℕ
  | .initializing => 0
  | .empty | .initialized _ => 1

def value : OnceState Value → Option Value
  | .initialized value => some value
  | .empty | .initializing => none

end OnceState

namespace OnceCell

variable {Cell Value : Type}

/-- A cell is in the state that its calls so far have left it in. -/
structure Lawful (once : OnceCell Cell Value) (state : Cell → OnceState Value) : Prop where
  new : state once.new = .empty
  empty : ∀ cell, state cell = .empty →
    (once.enter cell).1 = .vacant ∧ state (once.enter cell).2 = .initializing
  initializing : ∀ cell, state cell = .initializing → (once.enter cell).1 = .blocked
  initialized : ∀ cell value, state cell = .initialized value →
    (once.enter cell).1 = .found value ∧ state (once.enter cell).2 = .initialized value
  set : ∀ cell value, state cell = .initializing → state (once.set cell value) = .initialized value
  release : ∀ cell, state cell = .initializing → state (once.release cell) = .empty

/-- The cell that is its state. -/
def plain : OnceCell (OnceState Value) Value where
  new := .empty
  enter
    | .empty => (.vacant, .initializing)
    | .initializing => (.blocked, .initializing)
    | .initialized value => (.found value, .initialized value)
  set _ value := .initialized value
  release _ := .empty

variable {once : OnceCell Cell Value} {state : Cell → OnceState Value} {cell next : Cell}

end OnceCell

end Foundation
