import OrderFlow.Value.Basic
import OrderFlow.Failure

/-!
# Checking records

The check of a value ends in a record, in the issues found, or in an abort. Parts are checked
in order and their issues are added up, so that one check names every defect. An abort is met
when its part is reached, and nothing after it is checked.
-/

namespace OrderFlow

/-- The outcome of a check. -/
inductive Checked (α : Type)
  | accepted (a : α)
  | refused (issues : List Issue)
  | aborted (cause : Abort)

namespace Checked

variable {α β : Type}

/-- A change to what was accepted. -/
def map (f : α → β) : Checked α → Checked β
  | accepted a => accepted (f a)
  | refused issues => refused issues
  | aborted cause => aborted cause

/-- Two checks, one after the other, with the issues of both. -/
def both (f : Checked (α → β)) (x : Unit → Checked α) : Checked β :=
  match f with
  | aborted cause => aborted cause
  | accepted g => (x ()).map g
  | refused issues =>
    match x () with
    | aborted cause => aborted cause
    | accepted _ => refused issues
    | refused more => refused (issues ++ more)

instance : Functor Checked where
  map := map

instance : Pure Checked where
  pure := accepted

instance : Seq Checked where
  seq := both

/-- A check on what another check accepted. -/
def andThen (x : Checked α) (f : α → Checked β) : Checked β :=
  match x with
  | accepted a => f a
  | refused issues => refused issues
  | aborted cause => aborted cause

/-- A single defect of the whole value. -/
def defect (d : Defect) : Checked α :=
  refused [⟨[], d⟩]

/-- The outcome of a type's own rule. -/
def ofRule : Except ValueFault α → Checked α
  | .ok a => accepted a
  | .error fault => defect (.refused fault)

/-- The outcome of a rule that may end the check of the whole record. -/
def ofRefusable : Except Refusal α → Checked α
  | .ok a => accepted a
  | .error (.value fault) => defect (.refused fault)
  | .error (.abort cause) => aborted cause

/-- The issues of a part, seen from the record that holds it. -/
def under (step : PathStep) : Checked α → Checked α
  | refused issues => refused (issues.map fun i => { i with path := step :: i.path })
  | accepted a => accepted a
  | aborted cause => aborted cause

/-- A field that has to be there. -/
def required (record : Value) (name : String) (check : Value → Checked α) : Checked α :=
  match record.field? name with
  | some v => (check v).under (.field name)
  | none => refused [⟨[.field name], .missing⟩]

/-- A field with a value that stands for it when it is absent. -/
def optional (record : Value) (name : String) (absent : α) (check : Value → Checked α) :
    Checked α :=
  match record.field? name with
  | some v => (check v).under (.field name)
  | none => accepted absent

/-- A value that may be null. -/
def nullable (check : Value → Checked α) : Value → Checked (Option α)
  | .null => accepted none
  | v => (check v).map some

/-- The items of a list from a position on. -/
def items (check : Value → Checked α) : Nat → List Value → Checked (List α)
  | _, [] => accepted []
  | n, v :: vs => both (((check v).under (.index n)).map List.cons) fun _ => items check (n + 1) vs

/-- A list, each item of which is checked. -/
def list (check : Value → Checked α) : Value → Checked (List α)
  | .arr vs => items check 0 vs
  | _ => defect .notAList

/-- The outcome of a check as that of an operation. -/
def toExcept (invalid : List Issue → Failure) : Checked α → Except Failure α
  | accepted a => .ok a
  | refused issues => .error (invalid issues)
  | aborted cause => .error (.abort cause)

/-- What was accepted. -/
def accepted? : Checked α → Option α
  | accepted a => some a
  | _ => none

end Checked

end OrderFlow
