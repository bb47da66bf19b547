import OrderFlow.Identifier
import OrderFlow.Price.Basic
import OrderFlow.Time.Instant
import OrderFlow.Trade.Basic

/-!
# Orders

A resting order as the venue reports it at one point in time. An order that passed its check
has a price in hundredths and quantities that are not negative (`Order.Sound`); the operations
on orders do not rely on it.
-/

namespace OrderFlow

/-- A resting order. -/
structure Order where
  id : OrderId
  item : ItemId
  isBuy : Bool
  price : Option Number
  remaining : Int
  total : Int
  issued : Instant
  duration : Int
  minimum : Int
  range : String
  location : Option Int
deriving DecidableEq

namespace Order

/-- The side of an order. -/
def side (o : Order) : Side :=
  .ofIsBuy o.isBuy

/-- The instant at which an order expires on its own, unless it cannot be represented. -/
def expiry? (o : Order) : Option Instant :=
  o.issued.add? (.days o.duration)

/-- Two prices that are the same number, or both absent. -/
def samePrice : Option Number → Option Number → Bool
  | none, none => true
  | some a, some b => a.eqv b
  | _, _ => false

/-- Two states of an order between which nothing that matters changed. -/
def sameState (a b : Order) : Bool :=
  a.remaining == b.remaining && a.total == b.total && samePrice a.price b.price
    && a.isBuy == b.isBuy && a.item == b.item

/-- What the check of an order ensures. -/
structure Sound (o : Order) : Prop where
  price : ∃ p : Price, o.price = some p.toNumber
  remaining : 0 ≤ o.remaining
  total : 0 ≤ o.total

end Order

end OrderFlow
