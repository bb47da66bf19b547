import OrderFlow.Failure
import OrderFlow.Value.Basic

/-!
# Obstacles

A document can be well formed and yet not be read: an integer has more digits than a literal may
have, or lists and objects are nested deeper than the stack has room for. `obstacle?` is the first
such thing in the document of a value.
-/

namespace OrderFlow

/-- What stops the reading of a document that is well formed. -/
inductive Obstacle
  | integerTooLong (digits : Nat)
  | tooDeep
deriving DecidableEq

/-- How the reading fails. -/
def Obstacle.failure : Obstacle → Failure
  | integerTooLong digits => .value (.integerTooLong digits)
  | tooDeep => .recursion

/-- How deep lists and objects may be nested where a document is read. Each takes a call of its own
on a stack that is not empty at the start. There is always room for a list of records. -/
structure Room where
  levels : Nat
  enough : 2 ≤ levels
deriving DecidableEq

/-- The room in most places: of a thousand calls the reader has not made more than a hundred. -/
def Room.standard : Room :=
  ⟨900, by decide⟩

namespace Document

open Text

/-- How many digits an integer has. -/
def digitCount (n : Int) : Nat :=
  (Nat.toDigits 10 n.natAbs).length

mutual

/-- The first obstacle in the document of a value, where so many levels are left. -/
def obstacle? : Value → Nat → Option Obstacle
  | .int n, _ =>
    if digitCount n ≤ literalDigits then none else some (.integerTooLong (digitCount n))
  | .arr _, 0 => some .tooDeep
  | .arr items, levels + 1 => itemsObstacle? items levels
  | .obj _, 0 => some .tooDeep
  | .obj fields, levels + 1 => fieldsObstacle? fields levels
  | _, _ => none

/-- The first obstacle in the items of a list. -/
def itemsObstacle? : List Value → Nat → Option Obstacle
  | [], _ => none
  | v :: vs, levels => (obstacle? v levels).or (itemsObstacle? vs levels)

/-- The first obstacle in the fields of an object. -/
def fieldsObstacle? : List (String × Value) → Nat → Option Obstacle
  | [], _ => none
  | (_, v) :: rest, levels => (obstacle? v levels).or (fieldsObstacle? rest levels)

end

end Document

end OrderFlow
