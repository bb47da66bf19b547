import OrderFlow.Binary64.Text
import OrderFlow.Text.Quoted

/-!
# Values

A value is a piece of data whose type is not yet known: what a page of the order book, a
setting or a stored order holds before it is checked. Objects keep the order in which their
fields were first written; a field written again keeps its place and takes the last value.
`Value.shown` is a value as messages show it.
-/

namespace OrderFlow

/-- Untyped data: a document's values, and decimals besides. A text is torn if one of its code
points is half of a surrogate pair and thus no character. -/
inductive Value
  | null
  | bool (b : Bool)
  | int (n : Int)
  | float (x : Binary64)
  | decimal (x : Number)
  | str (s : String)
  | torn (points : List Nat) (broken : ¬ ∀ n ∈ points, n.isValidChar)
  | arr (items : List Value)
  | obj (fields : List (String × Value))

namespace Value

/-- Characters with the mark of replacement for those code points that are none. -/
def mended (points : List Nat) : String :=
  String.ofList (points.map fun n => (Text.character? n).getD (Char.ofNat 0xfffd))

/-- The text of certain code points. -/
def ofPoints (points : List Nat) : Value :=
  if whole : ∀ n ∈ points, n.isValidChar then .str (mended points) else .torn points whole

/-- A list of fields with one field set. -/
def setField (fields : List (String × Value)) (name : String) (v : Value) :
    List (String × Value) :=
  if fields.any (·.1 == name) then
    fields.map fun field => if field.1 == name then (name, v) else field
  else fields ++ [(name, v)]

/-- The value of a field of an object. -/
def field? (v : Value) (name : String) : Option Value :=
  match v with
  | .obj fields => fields.lookup name
  | _ => none

/-- An absent value as null. -/
def ofOption {α : Type} (f : α → Value) : Option α → Value
  | some a => f a
  | none => .null

/-- The name of a truth value in messages. -/
def boolText (b : Bool) : String :=
  if b then "True" else "False"

mutual

/-- A value inside a message; texts and decimals of a larger value are marked as such. -/
def inner : Value → String
  | .null => "None"
  | .bool b => boolText b
  | .int n => Text.intText n
  | .float x => x.text
  | .decimal x => "Decimal('" ++ x.text ++ "')"
  | .str s => Text.quoted s
  | .torn points _ => Text.quotedPoints points
  | .arr items => "[" ++ ", ".intercalate (innerItems items) ++ "]"
  | .obj fields => "\x7b" ++ ", ".intercalate (innerFields fields) ++ "\x7d"

/-- The items of a list inside a message. -/
def innerItems : List Value → List String
  | [] => []
  | v :: vs => inner v :: innerItems vs

/-- The fields of an object inside a message. -/
def innerFields : List (String × Value) → List String
  | [] => []
  | (name, v) :: rest => (Text.quoted name ++ ": " ++ inner v) :: innerFields rest

end

/-- A value as a message shows it; the message is mended where a text is torn. -/
def shown : Value → String
  | .str s => s
  | .torn points _ => mended points
  | .decimal x => x.text
  | v => inner v

end Value

end OrderFlow
