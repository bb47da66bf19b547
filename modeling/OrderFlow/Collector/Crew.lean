import OrderFlow.Collector.Calls

/-!
# Passes side by side

Several passes run on one collector at the same time. A pass waits for the lock of its venue,
fetches the book, loads the latest one, commits, lets the lock go, and records its outcome. It takes
one of these steps when it is its turn, and turns may come in any order. A turn that finds the lock
with another pass is a wait that was too long; a pass that waits on has its turn later.

A lock does not know who holds it: whoever lets it go frees it.
-/

namespace OrderFlow

/-- How far a pass is: it waits for the lock of its venue; it has the lock, with the fetched book or
with what it has to write; it is over but still has the lock; it has let the lock go; or its outcome
is recorded. -/
inductive PassStage
  | waiting
  | locked (venue : VenueId)
  | fetched (venue : VenueId) (orders : List Order)
  | loaded (venue : VenueId) (harvest : Harvest)
  | closing (venue : VenueId) (outcome : Except Failure PassReport)
  | left (outcome : Except Failure PassReport)
  | ended (outcome : Except Failure PassReport)

namespace PassStage

/-- The venue whose lock a pass has taken and not let go. -/
def inside? : PassStage → Option VenueId
  | locked venue => some venue
  | fetched venue _ => some venue
  | loaded venue _ => some venue
  | closing venue _ => some venue
  | _ => none

/-- How a pass came out. -/
def outcome? : PassStage → Option (Except Failure PassReport)
  | closing _ outcome => some outcome
  | left outcome => some outcome
  | ended outcome => some outcome
  | _ => none

/-- A pass that has not started, or whose outcome is recorded. -/
def Idle : PassStage → Prop
  | waiting => True
  | ended _ => True
  | _ => False

end PassStage

/-- Passes on one collector: the locks that are held, how far every pass is, and which passes have
committed, the first one first. -/
structure Crew where
  collector : Collector
  locked : Locks
  stage : Nat → PassStage
  committed : List Nat

namespace Crew

/-- A collector without passes. -/
def start (c : Collector) : Crew :=
  ⟨c, [], fun _ => .waiting, []⟩

/-- A crew with the stage of a pass changed. -/
def setStage (w : Crew) (number : Nat) (stage : PassStage) : Crew :=
  { w with stage := fun n => if n = number then stage else w.stage n }

/-- The turn of a pass, where `plan` says what every pass meets. -/
def turn (plan : Nat → Visit) (w : Crew) (n : Nat) : Crew :=
  let c := w.collector
  let v := plan n
  match w.stage n with
  | .waiting =>
    match Collector.prepare c.settings v.named w.locked with
    | .ok venue => { w with locked := venue :: w.locked }.setStage n (.locked venue)
    | .error f => w.setStage n (.left (.error f))
  | .locked venue =>
    match v.fetched with
    | .ok orders => w.setStage n (.fetched venue orders)
    | .error f => w.setStage n (.closing venue (.error f))
  | .fetched venue orders =>
    match Harvest.of c.settings (c.store.load v.fault venue) venue orders v.observedAt with
    | .ok harvest => w.setStage n (.loaded venue harvest)
    | .error f => w.setStage n (.closing venue (.error f))
  | .loaded venue harvest =>
    match harvest.commit (v.fault.bind DatabaseFault.statement?) c.store venue with
    | (store, .ok _) =>
      { w with collector := { c with store := store }, committed := w.committed ++ [n] }.setStage n
        (.closing venue (.ok harvest.report))
    | (store, .error f) =>
      { w with collector := { c with store := store } }.setStage n (.closing venue (.error f))
  | .closing venue outcome => { w with locked := w.locked.erase venue }.setStage n (.left outcome)
  | .left outcome => { w with collector := c.record v.named outcome }.setStage n (.ended outcome)
  | .ended _ => w

/-- A crew after several turns. -/
def run (plan : Nat → Visit) (turns : List Nat) (w : Crew) : Crew :=
  turns.foldl (turn plan) w

end Crew

end OrderFlow
