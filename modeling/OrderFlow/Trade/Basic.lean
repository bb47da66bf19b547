import OrderFlow.Identifier
import OrderFlow.Price.Basic
import OrderFlow.Time.Instant

/-!
# Trades

Trading that was inferred for one order is a `TradeDelta`. It counts towards a `TradeKey`: a
day, a venue, an item, a side and a bound. A `TradeRow` is what was accumulated for one key.
-/

namespace OrderFlow

/-- The side of the book. -/
inductive Side
  | buy
  | sell
deriving DecidableEq

namespace Side

/-- The side of an order. -/
def ofIsBuy (isBuy : Bool) : Side :=
  if isBuy then buy else sell

/-- An order on the buying side. -/
def isBuy : Side → Bool
  | buy => true
  | sell => false

/-- The name of a side. -/
def text : Side → String
  | buy => "buy"
  | sell => "sell"

end Side

/-- Which estimate a trade counts towards: confirmed reductions only, or disappearances that
do not look like expiry as well. -/
inductive Bound
  | conservative
  | liberal
deriving DecidableEq

namespace Bound

/-- The estimate that includes disappearances. -/
def isUpper : Bound → Bool
  | conservative => false
  | liberal => true

/-- The bound with or without disappearances. -/
def ofIsUpper (upper : Bool) : Bound :=
  if upper then liberal else conservative

end Bound

/-- What trades are added up for. -/
structure TradeKey where
  day : Day
  venue : VenueId
  item : ItemId
  side : Side
  bound : Bound
deriving DecidableEq

namespace TradeKey

/-- Keys by day, venue, item, side (buying first) and bound (the lower one first). -/
def order (a b : TradeKey) : Ordering :=
  (compare a.day.number b.day.number).then <|
    (compare a.venue.val b.venue.val).then <|
      (compare a.item.val b.item.val).then <|
        (compare b.side.isBuy a.side.isBuy).then <| compare a.bound.isUpper b.bound.isUpper

/-- The order of keys as a test. -/
def le (a b : TradeKey) : Bool :=
  (a.order b).isLE

end TradeKey

/-- Trading inferred for one order. -/
structure TradeDelta where
  key : TradeKey
  quantity : Nat
  events : Nat
  price : Decimal
  quantity_pos : 0 < quantity

namespace TradeDelta

/-- A delta of a positive quantity and a count of events that is not negative. -/
def check (key : TradeKey) (price : Decimal) (quantity events : Int) :
    Except Failure TradeDelta :=
  if h : 0 < quantity.toNat then
    if events < 0 then .error (.value (.eventCount events))
    else .ok ⟨key, quantity.toNat, events.toNat, price, h⟩
  else .error (.value (.tradeQuantity quantity))

/-- The value of the traded quantity. -/
def value (d : TradeDelta) : Decimal :=
  notional d.price d.quantity

end TradeDelta

/-- What was accumulated for one key. -/
structure TradeRow where
  key : TradeKey
  amount : Int
  events : Int
  value : Number
  high : Decimal
  low : Decimal

namespace TradeRow

/-- The average price; zero if nothing was traded. -/
def average (r : TradeRow) : Except Failure Number :=
  if r.amount ≤ 0 then .ok (.finite (.ofInt 0))
  else
    match r.value with
    | .finite x => .ok (.finite (x.quotient r.amount.toNat))
    | .infinite negative => .ok (.infinite negative)
    | .nan negative false payload => .ok (.nan negative false payload)
    | .nan _ true _ => .error .invalidOperation

end TradeRow

end OrderFlow
