import OrderFlow.Binary64.Basic

/-!
# Rate limits

A limit admits a number of calls in a window of time. The window starts when the limit is made
and again with the first call after it ran out. A call too many counts too; it waits for what
is left of the window and is made once more.
-/

namespace OrderFlow

/-- A number of calls in a window, and the calls made since the window began. -/
structure RateLimit where
  calls : Int
  period : Binary64
  windowStart : Binary64
  made : Int

namespace RateLimit

/-- The most calls that a limit can take. -/
def maxCalls : Int := 9223372036854775807

/-- A limit made at a time; it admits at least one call. -/
def start (calls : Int) (period now : Binary64) : RateLimit :=
  ⟨max 1 (min maxCalls calls), period, now, 0⟩

/-- What is left of the window. -/
def remaining (l : RateLimit) (now : Binary64) : Binary64 :=
  l.period.add (now.add l.windowStart.neg).neg

/-- The limit with one more call, and how long the call has to wait if it is one too many. -/
def call (l : RateLimit) (now : Binary64) : RateLimit × Option Binary64 :=
  let left := l.remaining now
  let l := if left.le .zero then { l with made := 0, windowStart := now } else l
  let l := { l with made := l.made + 1 }
  (l, if l.calls < l.made then some left else none)

/-- The calls that may be refused before one is admitted. A wait ends the window, so that the
second call is admitted unless the sum of a start and a period is not exact. -/
def attempts : Nat := 64

/-- A call that is made again until it is admitted, and the time at which it was. -/
def enter (l : RateLimit) (now : Binary64) : Nat → RateLimit × Binary64
  | 0 => (l, now)
  | n + 1 =>
    match l.call now with
    | (l, none) => (l, now)
    | (l, some wait) => enter l (now.add wait) n

/-- One call under several limits, which it passes one after the other. -/
def enterAll : List RateLimit → Binary64 → List RateLimit × Binary64
  | [], now => ([], now)
  | l :: ls, now =>
    let (l, now) := l.enter now attempts
    let (ls, now) := enterAll ls now
    (l :: ls, now)

/-- A number of calls under several limits. -/
def enterMany (ls : List RateLimit) (now : Binary64) : Nat → List RateLimit × Binary64
  | 0 => (ls, now)
  | n + 1 =>
    let (ls, now) := enterAll ls now
    enterMany ls now n

end RateLimit

end OrderFlow
