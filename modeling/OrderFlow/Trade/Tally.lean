import OrderFlow.Keyed
import OrderFlow.Trade.Basic

/-!
# Adding up trades

A tally holds one entry for each key, in the order in which keys first occurred. Adding a
delta changes the entry of its key only. `Tally.rows` are the entries in the order of keys.
-/

namespace OrderFlow

/-- What has been added up for a key. -/
structure TallyEntry where
  amount : Nat
  events : Nat
  value : Decimal
  high : Decimal
  low : Decimal
deriving DecidableEq

namespace TallyEntry

/-- The entry of a single delta. -/
def ofDelta (d : TradeDelta) : TallyEntry :=
  ⟨d.quantity, d.events, d.value, d.price, d.price⟩

/-- An entry with one more delta. -/
def add (e : TallyEntry) (d : TradeDelta) : TallyEntry where
  amount := e.amount + d.quantity
  events := e.events + d.events
  value := e.value.add d.value
  high := maxPrice e.high d.price
  low := minPrice e.low d.price

/-- An entry as the row of its key. -/
def row (key : TradeKey) (e : TallyEntry) : TradeRow :=
  ⟨key, e.amount, e.events, .finite e.value, e.high, e.low⟩

end TallyEntry

/-- Entries by key. -/
abbrev Tally := Keyed TradeKey TallyEntry

namespace Tally

/-- The tally of no trades. -/
def empty : Tally := []

/-- A tally with one more delta. -/
def add (d : TradeDelta) (t : Tally) : Tally :=
  Keyed.alter d.key (fun e => e.elim (.ofDelta d) (·.add d)) t

/-- A tally with more deltas, one after the other. -/
def addAll (t : Tally) (ds : List TradeDelta) : Tally :=
  ds.foldl (fun t d => t.add d) t

/-- The rows of a tally in the order of their keys. -/
def rows (t : Tally) : List TradeRow :=
  (t.map fun entry => entry.2.row entry.1).mergeSort fun a b => a.key.le b.key

end Tally

/-- The rows of a list of deltas. -/
def aggregate (ds : List TradeDelta) : List TradeRow :=
  (Tally.empty.addAll ds).rows

end OrderFlow
