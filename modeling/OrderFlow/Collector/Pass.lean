import OrderFlow.Collector.Lock
import OrderFlow.Collector.Report
import OrderFlow.Collector.Tracker
import OrderFlow.Store.Snapshot
import OrderFlow.Trade.Estimate
import OrderFlow.Trade.Tally
import OrderFlow.Venue.Pages

/-!
# Passes

A pass fetches the order book of a venue, infers trades from it and the book that the store
holds, and commits both. The first book of a venue only becomes the baseline: without one to
compare with, nothing is inferred. A failed pass is recorded against its venue and leaves the
store as it was; a successful one clears the record.
-/

namespace OrderFlow

/-- What a pass has to write: the book it fetched, and the rows of the trades it inferred. -/
structure Harvest where
  observedAt : Instant
  orders : List Order
  estimate : Estimate
  hadPrevious : Bool

namespace Harvest

/-- The rows of the inferred trades. -/
def rows (h : Harvest) : List TradeRow :=
  aggregate h.estimate.deltas

/-- What to report once it is written. -/
def report (h : Harvest) : PassReport where
  observedAt := .ofInstant h.observedAt
  orderCount := h.orders.length
  keyCount := h.rows.length
  unchanged := h.estimate.unchanged
  hadPrevious := h.hadPrevious

/-- The harvest of a book against the one that was loaded. -/
def of (settings : Settings) (loaded : Except Failure (Option Snapshot)) (venue : VenueId)
    (orders : List Order) (observedAt : Stamp) : Except Failure Harvest := do
  let some now := observedAt.utc? | throw .overflow
  let previous ← loaded
  let window ← settings.expiryWindow
  let before := (previous.map (·.orders)).getD []
  let beforeAt := (previous.map (·.observedAt)).getD now
  let estimate ←
    Estimate.between before orders (.ofInstant beforeAt) (.ofInstant now) venue window
  return ⟨now, orders, estimate, previous.isSome⟩

/-- A store with a harvest committed. -/
def commit (h : Harvest) (fault : Option Nat) (store : Store) (venue : VenueId) :
    Store × Except Failure Unit :=
  store.commitUnder fault venue (.ofInstant h.observedAt) h.orders h.estimate.unchanged h.rows

end Harvest

/-- Where the database fails during a pass: as it loads the latest book, or in front of a
statement of the transaction. -/
inductive DatabaseFault
  | loading
  | writing (statement : Nat)
deriving DecidableEq

namespace DatabaseFault

/-- The statement in front of which the database fails. -/
def statement? : DatabaseFault → Option Nat
  | loading => none
  | writing statement => some statement

end DatabaseFault

namespace Store

/-- The latest snapshot of a venue, unless the database fails to load it. -/
def load (s : Store) (fault : Option DatabaseFault) (venue : VenueId) :
    Except Failure (Option Snapshot) :=
  if fault = some .loading then .error Work.broken else s.snapshot? venue

/-- A store after a pass of a venue whose fetch has its outcome, and the report of the pass. -/
def absorb (s : Store) (settings : Settings) (fault : Option DatabaseFault) (venue : VenueId)
    (observedAt : Stamp) (fetched : Except Failure (List Order)) :
    Store × Except Failure PassReport :=
  let harvest := fetched.bind fun orders =>
    Harvest.of settings (s.load fault venue) venue orders observedAt
  match harvest with
  | .error f => (s, .error f)
  | .ok h =>
    let (after, outcome) := h.commit (fault.bind DatabaseFault.statement?) s venue
    (after, outcome.map fun _ => h.report)

end Store

/-- A collector: its settings, its way to the venue, its store, and a tracker for each venue
that it was asked about. -/
structure Collector where
  settings : Settings
  connection : Connection
  access : Access
  store : Store
  trackers : Keyed VenueId FailureTracker

namespace Collector

/-- A collector that has not run a pass. -/
def start (settings : Settings) (account : AccountId) (adapted : Bool) (store : Store) :
    Collector where
  settings := settings
  connection := .ofSettings settings adapted
  access := .start account Access.marketScope
  store := store
  trackers := []

/-- The tracker of a venue. -/
def tracker (c : Collector) (venue : VenueId) : FailureTracker :=
  (c.trackers.get? venue).getD (.start c.settings.enabled)

/-- A collector with the tracker of a venue changed. -/
def setTracker (c : Collector) (venue : VenueId) (t : FailureTracker) : Collector :=
  { c with trackers := c.trackers.put venue t }

/-- The venue that a call means: the one it names, or the configured one. -/
def venueFor (c : Collector) (named : Option VenueId) : Option VenueId :=
  named.or c.settings.venue

/-- Who asks for a pass: which venue it names, whether the venue shall bypass its cache, when
the book is observed, and which venues are busy. -/
structure PassRequest where
  venue : Option VenueId
  forceRefresh : Bool
  observedAt : Option Stamp
  busy : Locks

/-- A pass on its way: the access and the store as they are, and what was sent. -/
structure PassState where
  access : Access
  store : Store
  sent : List Request

/-- When a pass observes the book: as it is told, or when it runs. -/
def PassRequest.time (r : PassRequest) (now : Instant) : Stamp :=
  r.observedAt.getD (.ofInstant now)

/-- The steps of a pass of a known venue, with the lock of the venue. -/
def collect (c : Collector) (around : Surroundings) (r : PassRequest) (venue : VenueId) :
    PassState × Except Failure PassReport :=
  let (session, fetched) :=
    (c.connection.orders around venue r.forceRefresh).run ⟨c.access, []⟩
  let (store, outcome) := c.store.absorb c.settings none venue (r.time around.now) fetched
  (⟨session.access, store, session.sent⟩, outcome)

/-- What a pass needs before it starts: a venue, an account and the lock of the venue. -/
def prepare (settings : Settings) (named : Option VenueId) (busy : Locks) :
    Except Failure VenueId := do
  let (venue, _) ← settings.forPass (named.map fun venue => (venue.val : Int))
  busy.take settings.lockTimeout venue
  return venue

/-- A collector with the outcome of a pass recorded against the venue that it meant. -/
def record {α : Type} (c : Collector) (named : Option VenueId) (outcome : Except Failure α) :
    Collector :=
  match c.venueFor named with
  | none => c
  | some venue =>
    c.setTracker venue <| match outcome with
      | .ok _ => (c.tracker venue).recordSuccess
      | .error _ => (c.tracker venue).recordFailure

/-- One pass: the collector after it, the requests that it sent, and its report. -/
def pass (c : Collector) (around : Surroundings) (r : PassRequest) :
    Collector × List Request × Except Failure PassReport :=
  match prepare c.settings r.venue r.busy with
  | .error f => (c.record r.venue (.error f : Except Failure Unit), [], .error f)
  | .ok venue =>
    let (after, outcome) := c.collect around r venue
    let c := { c with access := after.access, store := after.store }
    (c.record r.venue outcome, after.sent, outcome)

/-- The venue whose tracker a call means. -/
def trackedVenue (c : Collector) (named : Option VenueId) : Except Failure VenueId :=
  match c.venueFor named with
  | some venue => .ok venue
  | none => .error (.value .noVenue)

/-- Whether to tell an operator of the failures of a venue now. -/
def shouldNotify (c : Collector) (now : Stamp) (named : Option VenueId) :
    Collector × Except Failure Bool :=
  match c.trackedVenue named with
  | .error f => (c, .error f)
  | .ok venue =>
    let (t, answer) := (c.tracker venue).shouldNotify now
    (c.setTracker venue t, answer)

/-- A success from elsewhere: the failures of a venue are forgotten. -/
def markSuccess (c : Collector) (named : Option VenueId) : Collector × Except Failure Unit :=
  match c.trackedVenue named with
  | .error f => (c, .error f)
  | .ok venue => (c.setTracker venue (c.tracker venue).recordSuccess, .ok ())

end Collector

end OrderFlow
