import OrderFlow.Store.Commit

/-!
# Snapshots

The latest book of a venue as it is read back. A stored document may be anything: if it can be
loaded, an order that does not pass its check is skipped alone, and a document that is no list is
read as one where it can be. Views, summaries and the status of a venue are computed from its
snapshot.
-/

namespace OrderFlow

/-- The latest book of a venue: the orders that passed their check, and those that did not. -/
structure Snapshot where
  venue : VenueId
  observedAt : Instant
  orders : List Order
  skipped : List Value

namespace Snapshot

/-- The items of a stored document. A document that stands for nothing has none; an object has
its names and a text its characters. -/
def itemsOf : Value → Except Failure (List Value)
  | .arr items => .ok items
  | .obj fields => .ok (fields.map fun f => .str f.1)
  | .str s => .ok (s.toList.map fun c => .str c.toString)
  | .torn points _ => .ok (points.map fun n => .ofPoints [n])
  | .null => .ok []
  | .bool b => if b then .error .mistyped else .ok []
  | .int n => if n = 0 then .ok [] else .error .mistyped
  | .float x => if x.compare? .zero = some .eq then .ok [] else .error .mistyped
  | .decimal _ => .error .mistyped

/-- How a skipped order is referred to: by its identifier, or as it is if it is no object. -/
def label (v : Value) : Value :=
  match v with
  | .obj _ => (v.field? "order_id").getD .null
  | v => v

/-- Orders that passed their check, and labels of those that did not. -/
def sift : List Value → Except Failure (List Order × List Value)
  | [] => .ok ([], [])
  | v :: vs =>
    match Order.check v with
    | .accepted o => do
      let (orders, skipped) ← sift vs
      return (o :: orders, skipped)
    | .refused _ => do
      let (orders, skipped) ← sift vs
      return (orders, label v :: skipped)
    | .aborted cause => .error (.abort cause)

/-- The snapshot of a stored book. -/
def ofBook (room : Room) (venue : VenueId) (book : StoredBook) : Except Failure Snapshot := do
  let (orders, skipped) ← sift (← itemsOf (← book.load room))
  return ⟨venue, book.observedAt, orders, skipped⟩

end Snapshot

namespace Store

/-- The tables of a store for a reader. -/
def reading (s : Store) : Except Failure Tables :=
  match s.tables with
  | some t => .ok t
  | none => .error Work.broken

/-- The latest snapshot of a venue, if there is one. -/
def snapshot? (s : Store) (venue : VenueId) : Except Failure (Option Snapshot) := do
  let t ← s.reading
  if ¬ Cell.Fits venue.val then throw .overflow
  match t.book? venue with
  | some book => return some (← Snapshot.ofBook s.room venue book)
  | none => return none

end Store

/-- A part of the latest book. -/
structure BookView where
  observedAt : Option Instant
  total : Nat
  matched : Nat
  orders : List Order

namespace BookView

/-- How many orders a view shows unless told otherwise. -/
def defaultLimit : Int := 200

/-- An order of a certain item and side, where these are given. -/
def selects (item : Option ItemId) (side : Option Side) (o : Order) : Bool :=
  item.all (o.item = ·) && side.all (o.side = ·)

/-- The first orders of an item and a side. -/
def of (snapshot : Option Snapshot) (item : Option ItemId) (side : Option Side) (limit : Int) :
    BookView :=
  match snapshot with
  | none => ⟨none, 0, 0, []⟩
  | some s =>
    let matched := s.orders.filter (selects item side)
    ⟨some s.observedAt, s.orders.length, matched.length, matched.take limit.toNat⟩

end BookView

/-- The orders of an item, counted by side, with the best price of each side. -/
structure ItemSummary where
  item : ItemId
  sells : Nat
  buys : Nat
  bestSell : Option Decimal
  bestBuy : Option Decimal
deriving DecidableEq

namespace ItemSummary

/-- The summary of no orders. -/
def empty (item : ItemId) : ItemSummary :=
  ⟨item, 0, 0, none, none⟩

/-- All orders of a summary. -/
def total (s : ItemSummary) : Nat :=
  s.sells + s.buys

/-- The best price so far; another one takes its place only if it is strictly better. -/
def better (beats : Decimal → Decimal → Bool) (best price : Option Decimal) : Option Decimal :=
  match best, price with
  | some b, some p => if beats p b then some p else some b
  | some b, none => some b
  | none, p => p

/-- A summary with one more order. -/
def add (s : ItemSummary) (o : Order) : ItemSummary :=
  let price := o.price.bind Number.finite?
  if o.isBuy then
    { s with buys := s.buys + 1, bestBuy := better (fun p b => b.lt p) s.bestBuy price }
  else
    { s with sells := s.sells + 1, bestSell := better Decimal.lt s.bestSell price }

/-- Summaries with one more order. -/
def collect (summaries : Keyed ItemId ItemSummary) (o : Order) : Keyed ItemId ItemSummary :=
  summaries.alter o.item fun s => (s.getD (.empty o.item)).add o

/-- Items with the most orders come first, and then those with the smaller identifier. -/
def le (a b : ItemSummary) : Bool :=
  b.total < a.total || (a.total == b.total && a.item.val ≤ b.item.val)

/-- The first summaries of a book's items. -/
def ofOrders (orders : List Order) (side : Option Side) (limit : Int) : List ItemSummary :=
  let selected := orders.filter (BookView.selects none side)
  (((selected.foldl collect []).map (·.2)).mergeSort le).take limit.toNat

end ItemSummary

namespace Store

/-- A part of the latest book of a venue. -/
def view (s : Store) (venue : VenueId) (item : Option ItemId) (side : Option Side)
    (limit : Int) : Except Failure BookView := do
  return .of (← s.snapshot? venue) item side limit

/-- Summaries of the items in the latest book of a venue. -/
def summaries (s : Store) (venue : VenueId) (side : Option Side) (limit : Int) :
    Except Failure (List ItemSummary) := do
  match ← s.snapshot? venue with
  | some snapshot => return ItemSummary.ofOrders snapshot.orders side limit
  | none => return []

end Store

end OrderFlow
