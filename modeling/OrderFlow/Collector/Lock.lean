import OrderFlow.Settings.Basic

/-!
# Locks

Passes for one venue never overlap: a pass waits for the lock of its venue, and fails if it
does not get it in time. How long it waits is a setting, and not every setting is a time that
can be waited.
-/

namespace OrderFlow

/-- The venues whose lock another pass holds for longer than this one waits. -/
abbrev Locks := List VenueId

namespace Locks

/-- Nanoseconds of a second. -/
def second : Binary64 := .ofInt 1000000000

/-- The first wait in nanoseconds that is too long. -/
def tooLong : Binary64 := .ofInt 9223372036854775808

/-- A time that can be waited. -/
def checkWait (timeout : Binary64) : Except Failure Unit :=
  match timeout with
  | .nan => .error (.value .waitNotANumber)
  | x => if (x.mul second).lt tooLong then .ok () else .error .overflow

/-- The lock of a venue for the time of a pass. -/
def take (busy : Locks) (timeout : Binary64) (venue : VenueId) : Except Failure Unit := do
  checkWait timeout
  if busy.contains venue then throw (.inProgress venue.val)

end Locks

end OrderFlow
