import OrderFlow.Failure
import OrderFlow.Value.Basic

/-!
# Identifiers, quantities and texts

An identifier is a positive integer of a kind, so that an item is never taken for a venue. A
quantity is an integer that is not negative. Each is made from an integer or from a value of
any type; the failure says why a value is refused.
-/

namespace OrderFlow

open Text

/-- What an identifier identifies. -/
inductive IdKind
  | order
  | item
  | venue
  | account
  | other
deriving DecidableEq

/-- The name of a kind in messages. -/
def IdKind.name : IdKind → String
  | order => "OrderId"
  | item => "ItemId"
  | venue => "VenueId"
  | account => "AccountId"
  | other => "PositiveInt"

/-- The longest part of a quoted text in a message. -/
def quotedLength : Nat := 200

/-- The integer that a text writes as a literal. -/
def readInteger (s : String) : Except ValueFault Int :=
  match Literal.read s with
  | .value n => .ok n
  | .tooLong digits => .error (.integerTooLong digits)
  | .malformed => .error (.integerLiteral (cut quotedLength (quoted s)))

/-- A positive integer that identifies something of a kind. -/
structure Id (kind : IdKind) where
  val : Nat
  pos : 0 < val
deriving DecidableEq

/-- Identifier that the venue gives to an order. -/
abbrev OrderId := Id .order

/-- Identifier of a traded item. -/
abbrev ItemId := Id .item

/-- Identifier of a venue. -/
abbrev VenueId := Id .venue

/-- Identifier of the account that reads the order book. -/
abbrev AccountId := Id .account

namespace Id

/-- The identifier of an integer; a message shows the integer as `shown`. -/
def check (kind : IdKind) (shown : String) (n : Int) : Except ValueFault (Id kind) :=
  if h : 0 < n then .ok ⟨n.toNat, by omega⟩ else .error (.identifier shown kind.name)

/-- The identifier of an integer. -/
def ofInt (kind : IdKind) (n : Int) : Except ValueFault (Id kind) :=
  check kind (intText n) n

/-- The integer that a value is. A text is read to tell a wrong literal from a wrong type, but
is no integer itself. -/
def integer? : Value → Except Failure (Option Int)
  | .int n => .ok (some n)
  | .float .nan => .error (.value .floatNotANumber)
  | .float (.infinite _) => .error .overflow
  | .float x => .ok x.whole?
  | .decimal (.finite x) => .ok (if x.isWhole then some x.truncate else none)
  | .decimal (.infinite _) => .error .overflow
  | .decimal (.nan _ _ _) => .error (.value .decimalNotANumber)
  | .str s =>
    match readInteger s with
    | .ok _ => .ok none
    | .error fault => .error (.value fault)
  | .torn points _ => .error (.value (.integerLiteral (cut quotedLength (quotedPoints points))))
  | .bool _ => .ok none
  | .null => .error .mistyped
  | .arr _ => .error .mistyped
  | .obj _ => .error .mistyped

/-- The identifier that a value is. -/
def ofValue (kind : IdKind) (v : Value) : Except Failure (Id kind) := do
  match ← integer? v with
  | some n => (check kind v.shown n).mapError .value
  | none => .error (.value (.identifier v.shown kind.name))

end Id

namespace Quantity

/-- A magnitude that is not negative; a message shows it as `shown`. -/
def check (shown : String) (negative : Bool) (n : Option Int) : Except Failure Nat :=
  if negative then .error (.value (.quantity shown))
  else
    match n with
    | some n => .ok n.toNat
    | none => .error .overflow

/-- The quantity of an integer. -/
def ofInt (n : Int) : Except ValueFault Nat :=
  if n < 0 then .error (.quantity (intText n)) else .ok n.toNat

/-- The quantity that a value is; a fraction is dropped. -/
def ofValue (v : Value) : Except Failure Nat :=
  match v with
  | .int n => check v.shown (n < 0) (some n)
  | .bool b => .ok (if b then 1 else 0)
  | .float .nan => .error (.value .floatNotANumber)
  | .float x => check v.shown (x.lt .zero) x.truncate?
  | .decimal (.finite x) => check v.shown (x.lt (.ofInt 0)) (some x.truncate)
  | .decimal (.infinite negative) => check v.shown negative none
  | .decimal (.nan _ _ _) => .error .invalidOperation
  | .null => .error .mistyped
  | .str _ => .error .mistyped
  | .torn _ _ => .error .mistyped
  | .arr _ => .error .mistyped
  | .obj _ => .error .mistyped

end Quantity

/-- A text that must not be absent. -/
inductive TextKind
  | plain
  | address
  | token
  | refreshToken
  | scope
deriving DecidableEq

/-- The class of a text in messages. -/
def TextKind.className : TextKind → String
  | plain => "helpers.types.common.NonNullStr"
  | address => "helpers.types.common.URL"
  | token => "helpers.types.auth.Token"
  | refreshToken => "helpers.types.auth.RefreshToken"
  | scope => "helpers.types.auth.Scope"

/-- The text of a value that is not null. -/
def TextKind.ofValue (kind : TextKind) : Value → Except Failure String
  | .null => .error (.value (.missingText kind.className))
  | v => .ok v.shown

end OrderFlow
