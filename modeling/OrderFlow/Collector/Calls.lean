import OrderFlow.Collector.Pass

/-!
# Calls of a collector

A collector is asked for passes, told of successes from elsewhere, and asked whether to tell an
operator, for one venue or another. A `Visit` is what a pass meets on its way, so that a call says
all that decides what becomes of the store and the trackers.
-/

namespace OrderFlow

/-- What a pass meets: the venue that it names, when the book is observed, how the fetch ends, and
where the database fails. -/
structure Visit where
  named : Option VenueId
  observedAt : Stamp
  fetched : Except Failure (List Order)
  fault : Option DatabaseFault

namespace Collector

/-- A pass with what it meets, and the venues that are busy: the collector after it, and its
report. -/
def visit (c : Collector) (busy : Locks) (v : Visit) : Collector × Except Failure PassReport :=
  match prepare c.settings v.named busy with
  | .error f => (c.record v.named (.error f : Except Failure Unit), .error f)
  | .ok venue =>
    let (store, outcome) := c.store.absorb c.settings v.fault venue v.observedAt v.fetched
    (({ c with store := store }).record v.named outcome, outcome)

/-- A call of a collector. -/
inductive Call
  | visit (busy : Locks) (v : Visit)
  | markSuccess (named : Option VenueId)
  | shouldNotify (now : Stamp) (named : Option VenueId)

/-- The venue that a call names. -/
def Call.named : Call → Option VenueId
  | visit _ v => v.named
  | markSuccess named => named
  | shouldNotify _ named => named

/-- What a call is answered. -/
inductive Reply
  | report (outcome : Except Failure PassReport)
  | marked (outcome : Except Failure Unit)
  | advice (outcome : Except Failure Bool)

/-- A collector after a call, and the reply. -/
def call (c : Collector) : Call → Collector × Reply
  | .visit busy v =>
    let (after, outcome) := c.visit busy v
    (after, .report outcome)
  | .markSuccess named =>
    let (after, outcome) := c.markSuccess named
    (after, .marked outcome)
  | .shouldNotify now named =>
    let (after, outcome) := c.shouldNotify now named
    (after, .advice outcome)

/-- A collector after several calls. -/
def after (c : Collector) (calls : List Call) : Collector :=
  calls.foldl (fun c call => (c.call call).1) c

/-- Several calls with their replies. -/
def log (c : Collector) : List Call → List (Call × Reply)
  | [] => []
  | call :: rest => (call, (c.call call).2) :: log (c.call call).1 rest

end Collector

end OrderFlow
