import OrderFlow.Failure
import OrderFlow.Time.Stamp

/-!
# Failure trackers

A tracker counts the failed passes of one venue since its last success and decides when an
operator should hear of them: from a number of failures in a row on, and then at most once in
an interval.
-/

namespace OrderFlow

/-- The failures of one venue. -/
structure FailureTracker where
  enabled : Bool
  notifyAfter : Int
  interval : Duration
  failures : Nat
  lastNotified : Option Instant
deriving DecidableEq

namespace FailureTracker

/-- Failures in a row from which on an operator is told. -/
def defaultNotifyAfter : Int := 3

/-- The time between two notifications, an hour. -/
def defaultInterval : Duration := .seconds 3600

/-- A tracker without failures. -/
def fresh (enabled : Bool) (notifyAfter : Int) (interval : Duration) : FailureTracker :=
  ⟨enabled, notifyAfter, interval, 0, none⟩

/-- The tracker of a venue that no pass has been run for. -/
def start (enabled : Bool) : FailureTracker :=
  fresh enabled defaultNotifyAfter defaultInterval

/-- One more failure. -/
def recordFailure (t : FailureTracker) : FailureTracker :=
  { t with failures := t.failures + 1 }

/-- A success: failures and notifications are forgotten. -/
def recordSuccess (t : FailureTracker) : FailureTracker :=
  { t with failures := 0, lastNotified := none }

/-- A success that was seen elsewhere. -/
def markSuccess (t : FailureTracker) : FailureTracker :=
  t.recordSuccess

/-- Notifications switched on or off. -/
def enable (t : FailureTracker) (value : Bool) : FailureTracker :=
  { t with enabled := value }

/-- The interval since the last notification has not passed. -/
def isQuiet (t : FailureTracker) (now : Instant) : Bool :=
  match t.lastNotified with
  | some last => decide (now.since last < t.interval)
  | none => false

/-- Whether to tell an operator now; a positive answer is remembered. -/
def shouldNotify (t : FailureTracker) (now : Stamp) : FailureTracker × Except Failure Bool :=
  if !t.enabled || decide ((t.failures : Int) < t.notifyAfter) then (t, .ok false)
  else
    match now.utc? with
    | none => (t, .error .overflow)
    | some now =>
      if t.isQuiet now then (t, .ok false)
      else ({ t with lastNotified := some now }, .ok true)

/-- One more failure, and whether to tell an operator of it. -/
def shouldNotifyFailure (t : FailureTracker) (now : Stamp) :
    FailureTracker × Except Failure Bool :=
  t.recordFailure.shouldNotify now

end FailureTracker

end OrderFlow
