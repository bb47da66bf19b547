import OrderFlow.Keyed
import OrderFlow.Store.Cell
import OrderFlow.Trade.Basic
import OrderFlow.Value.Obstacle

/-!
# Tables

What the store keeps: for each venue the latest order book as a document, and for each trade
key the figures of its day. Figures are merged, never replaced: counts and values add up, the
high only rises, the low only falls, and the average follows from value and amount.
-/

namespace OrderFlow

/-- The latest order book of a venue. -/
structure StoredBook where
  observedAt : Instant
  payload : Value

namespace StoredBook

/-- The value of a book's document, where there is so much room for reading it. -/
def load (room : Room) (book : StoredBook) : Except Failure Value :=
  match Document.obstacle? book.payload room.levels with
  | some obstacle => .error obstacle.failure
  | none => .ok book.payload

end StoredBook

/-- The figures of a trade key; value, high and low count hundredths. -/
structure DailyFigures where
  amount : Cell
  events : Cell
  value : Cell
  high : Int
  low : Int
  average : Cell
  updatedAt : Instant
deriving DecidableEq

namespace DailyFigures

/-- The figures of a row that is written for the first time. -/
def ofRow (now : Instant) (r : TradeRow) : Except Failure DailyFigures := do
  let value ← toCents r.value
  let high ← toCents (.finite r.high)
  let low ← toCents (.finite r.low)
  let average ← r.average
  return ⟨.int r.amount, .int r.events, .int value, high, low, .ofReal (.ofNumber average), now⟩

/-- Figures whose integers fit into cells. -/
def Fits (f : DailyFigures) : Prop :=
  Cell.Fits f.amount.toInt ∧ Cell.Fits f.events.toInt ∧ Cell.Fits f.value.toInt
    ∧ Cell.Fits f.high ∧ Cell.Fits f.low

instance (f : DailyFigures) : Decidable f.Fits :=
  inferInstanceAs (Decidable (_ ∧ _))

/-- The average of a value in hundredths over an amount, zero if there is no amount. -/
def mean (value amount : Cell) : Cell :=
  if Cell.lt (.int 0) amount then .ofReal ((value.toReal.div amount.toReal).div (.ofInt 100))
  else .int 0

/-- Figures with those of a later row added. -/
def merge (old new : DailyFigures) : DailyFigures where
  amount := old.amount.add new.amount
  events := old.events.add new.events
  value := old.value.add new.value
  high := max old.high new.high
  low := min old.low new.low
  average := mean (old.value.add new.value) (old.amount.add new.amount)
  updatedAt := new.updatedAt

/-- Figures as the row of their key. -/
def toRow (key : TradeKey) (f : DailyFigures) : TradeRow where
  key := key
  amount := f.amount.toInt
  events := f.events.toInt
  value := .finite (ofCents f.value.toInt)
  high := ofCents f.high
  low := ofCents f.low

end DailyFigures

/-- The tables of a store. -/
structure Tables where
  books : Keyed VenueId StoredBook
  daily : Keyed TradeKey DailyFigures

namespace Tables

/-- Tables without rows. -/
def empty : Tables := ⟨[], []⟩

/-- The book of a venue. -/
def book? (t : Tables) (venue : VenueId) : Option StoredBook :=
  t.books.get? venue

/-- Tables with the book of a venue replaced. -/
def putBook (t : Tables) (venue : VenueId) (book : StoredBook) : Tables :=
  { t with books := t.books.put venue book }

/-- Tables with the time of a venue's book moved. -/
def touchBook (t : Tables) (venue : VenueId) (now : Instant) : Tables :=
  { t with books := t.books.map fun (v, book) =>
      (v, if v = venue then { book with observedAt := now } else book) }

/-- Tables with figures merged into those of their key. -/
def mergeFigures (t : Tables) (key : TradeKey) (new : DailyFigures) : Tables :=
  { t with daily := t.daily.alter key fun old => old.elim new (·.merge new) }

/-- The books by venue. -/
def listBooks (t : Tables) : Keyed VenueId StoredBook :=
  t.books.mergeSort fun a b => a.1.val ≤ b.1.val

/-- The figures by day, venue, item, side (selling first) and bound (the lower one first). -/
def listDaily (t : Tables) : Keyed TradeKey DailyFigures :=
  let order (a b : TradeKey) : Ordering :=
    (compare a.day.number b.day.number).then <|
      (compare a.venue.val b.venue.val).then <|
        (compare a.item.val b.item.val).then <|
          (compare a.side.isBuy b.side.isBuy).then <| compare a.bound.isUpper b.bound.isUpper
  t.daily.mergeSort fun a b => (order a.1 b.1).isLE

end Tables

end OrderFlow
