import OrderFlow.Store.Snapshot

/-!
# Daily figures

The figures of one day at a venue, highest value first, and the status of a venue.
-/

namespace OrderFlow

/-- Which rows of a day are asked for. -/
structure DailyQuery where
  venue : VenueId
  day : Day
  side : Option Side
  bound : Bound
  item : Option ItemId
  limit : Int

namespace DailyQuery

/-- How many rows a query gives unless told otherwise. -/
def defaultLimit : Int := 500

/-- A key of the day, venue, bound, side and item of a query. -/
def selects (q : DailyQuery) (key : TradeKey) : Bool :=
  key.venue == q.venue && key.day == q.day && key.bound == q.bound
    && q.side.all (key.side = ·) && q.item.all (key.item = ·)

/-- The integers of a query fit into cells. -/
def Fits (q : DailyQuery) : Prop :=
  Cell.Fits q.venue.val ∧ (∀ item ∈ q.item, Cell.Fits item.val) ∧ Cell.Fits (max q.limit 0)

instance (q : DailyQuery) : Decidable q.Fits :=
  inferInstanceAs (Decidable (_ ∧ _))

end DailyQuery

namespace DailyFigures

/-- Entries of higher value come first, and then those of a smaller item. -/
def le (a b : TradeKey × DailyFigures) : Bool :=
  b.2.value.lt a.2.value
    || (!a.2.value.lt b.2.value && a.1.item.val ≤ b.1.item.val)

/-- The same, and of entries of the same value and item the buying one comes first. -/
def leBuying (a b : TradeKey × DailyFigures) : Bool :=
  le a b && (!le b a || a.1.side.isBuy || !b.1.side.isBuy)

/-- Selling entries come before buying ones. -/
def leSelling (a b : TradeKey × DailyFigures) : Bool :=
  b.1.side.isBuy || !a.1.side.isBuy

end DailyFigures

namespace Tables

/-- The entries that a query selects. Those of a single item are met selling side first, all
others in the order in which they were first written. -/
def selected (t : Tables) (q : DailyQuery) : Keyed TradeKey DailyFigures :=
  let entries := t.daily.filter fun e => q.selects e.1
  if q.item.isSome then entries.mergeSort DailyFigures.leSelling else entries

/-- The rows of a query, highest value first. Where the limit parts entries of the same value
and item, the one that is met first is taken. -/
def dailyRows (t : Tables) (q : DailyQuery) : List TradeRow :=
  let top := ((t.selected q).mergeSort DailyFigures.le).take q.limit.toNat
  (top.mergeSort DailyFigures.leBuying).map fun e => e.2.toRow e.1

/-- The last day of a venue with figures. -/
def latestDay? (t : Tables) (venue : VenueId) : Option Day :=
  (t.daily.filter (·.1.venue = venue)).foldl (fun latest e =>
    match latest with
    | some day => if day.number < e.1.day.number then some e.1.day else some day
    | none => some e.1.day) none

end Tables

/-- The state of a venue's book and figures. -/
structure VenueStatus where
  observedAt : Option Instant
  orders : Nat
  buys : Nat
  sells : Nat
  items : Nat
  latestDay : Option Day

namespace VenueStatus

/-- The status of a venue with a certain snapshot and last day. -/
def of (snapshot : Option Snapshot) (latestDay : Option Day) : VenueStatus :=
  let orders := (snapshot.map (·.orders)).getD []
  let buys := orders.countP (·.isBuy)
  ⟨snapshot.map (·.observedAt), orders.length, buys, orders.length - buys,
    ((orders.map (·.item)).eraseDups).length, latestDay⟩

end VenueStatus

namespace Store

/-- The rows of a day. -/
def daily (s : Store) (q : DailyQuery) : Except Failure (List TradeRow) := do
  let t ← s.reading
  if q.Fits then return t.dailyRows q else throw .overflow

/-- The status of a venue. -/
def status (s : Store) (venue : VenueId) : Except Failure VenueStatus := do
  let snapshot ← s.snapshot? venue
  return .of snapshot ((← s.reading).latestDay? venue)

end Store

end OrderFlow
