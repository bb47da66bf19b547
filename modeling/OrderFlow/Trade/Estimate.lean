import OrderFlow.Failure
import OrderFlow.Order.Book
import OrderFlow.Time.Stamp
import OrderFlow.Trade.Basic

/-!
# Inferring trades

Trades are inferred from two consecutive books. An order whose remaining volume went down was
filled by the difference, which counts towards both bounds. An order that vanished was filled,
cancelled or expired; unless it was due to expire, what remained of it counts towards the
liberal bound. An order that cannot be judged is skipped alone.
-/

namespace OrderFlow

/-- An order was due to expire between two observations, give or take a window. The first
observation is looked at first, and the second only if it does not decide. -/
def Order.likelyExpired (o : Order) (previousAt nowAt : Stamp) (window : Duration) :
    Except Failure Bool := do
  let some expiry := o.expiry? | throw .overflow
  let some first := previousAt.add? (-window) | throw .overflow
  if first.offset.isNone then throw .mistyped
  if (expiry.micros : Int) < first.point then return false
  let some last := nowAt.add? window | throw .overflow
  if last.offset.isNone then throw .mistyped
  return decide ((expiry.micros : Int) ≤ last.point)

namespace Estimate

/-- Why nothing was inferred from an order. -/
inductive SkipReason
  | duration (days : Int)
  | nothingRemaining
  | noUsablePrice
deriving DecidableEq

/-- What was found out about one order. -/
inductive Finding
  | trade (delta : TradeDelta)
  | skip (order : OrderId) (reason : SkipReason)

namespace Finding

/-- The delta of an inferred trade. -/
def delta? : Finding → Option TradeDelta
  | trade delta => some delta
  | skip _ _ => none

/-- The wording of a reason to skip an order. -/
def reasonText : SkipReason → String
  | .duration days => "duration " ++ Text.intText days
  | .nothingRemaining => "nothing remaining"
  | .noUsablePrice => "no usable price"

/-- The note on an order that was skipped. -/
def note? : Finding → Option String
  | trade _ => none
  | skip order reason =>
    some ("Skipping order " ++ Text.natText order.val ++ ": " ++ reasonText reason)

end Finding

/-- The first of several prices that is finite. -/
def usablePrice? (prices : List (Option Number)) : Option Decimal :=
  prices.findSome? fun price => price.bind Number.finite?

/-- The key of an order's trades. -/
def keyOf (day : Day) (venue : VenueId) (o : Order) (bound : Bound) : TradeKey :=
  ⟨day, venue, o.item, o.side, bound⟩

/-- The findings on an order that is in both books: it trades at the price in effect before. -/
def filled (day : Day) (venue : VenueId) (previous current : Order) : List Finding :=
  let drop := previous.remaining - current.remaining
  if h : 0 < drop then
    match usablePrice? [previous.price, current.price] with
    | none => [.skip current.id .noUsablePrice]
    | some price =>
      [Bound.conservative, Bound.liberal].map fun bound =>
        .trade ⟨keyOf day venue current bound, drop.toNat, 1, price, by omega⟩
  else []

/-- The findings on the orders that are in both books, in the order of the current one. -/
def fills (day : Day) (venue : VenueId) (previous current : Book) : List Finding :=
  current.flatMap fun c =>
    match previous.find? c.id with
    | some p => filled day venue p c
    | none => []

/-- The findings on an order that vanished. -/
def vanished (day : Day) (venue : VenueId) (previousAt nowAt : Stamp) (window : Duration)
    (o : Order) : Except Failure (List Finding) := do
  if o.duration ≤ 0 then return [.skip o.id (.duration o.duration)]
  if ← o.likelyExpired previousAt nowAt window then return []
  if h : 0 < o.remaining then
    match usablePrice? [o.price] with
    | none => return [.skip o.id .noUsablePrice]
    | some price =>
      return [.trade ⟨keyOf day venue o .liberal, o.remaining.toNat, 1, price, by omega⟩]
  else return [.skip o.id .nothingRemaining]

/-- The findings on the orders that vanished, in the order of the previous book. -/
def disappearances (day : Day) (venue : VenueId) (previousAt nowAt : Stamp) (window : Duration)
    (previous current : Book) : Except Failure (List Finding) := do
  let gone := previous.filter fun o => !current.has o.id
  return (← gone.mapM (vanished day venue previousAt nowAt window)).flatten

end Estimate

/-- What two observations of a venue tell. -/
structure Estimate where
  unchanged : Bool
  findings : List Estimate.Finding

namespace Estimate

/-- The inferred trades. -/
def deltas (e : Estimate) : List TradeDelta :=
  e.findings.filterMap Finding.delta?

/-- The notes on orders that were skipped. -/
def notes (e : Estimate) : List String :=
  e.findings.filterMap Finding.note?

/-- The trades inferred between two observations of a venue. -/
def between (previous current : List Order) (previousAt now : Stamp) (venue : VenueId)
    (window : Duration) : Except Failure Estimate := do
  let some previousAt := previousAt.utc? | throw .overflow
  let some now := now.utc? | throw .overflow
  let previous := Book.ofOrders previous
  let current := Book.ofOrders current
  if Book.unchanged previous current then return ⟨true, []⟩
  let day := now.day
  let gone ←
    disappearances day venue (.ofInstant previousAt) (.ofInstant now) window previous current
  return ⟨false, fills day venue previous current ++ gone⟩

end Estimate

end OrderFlow
