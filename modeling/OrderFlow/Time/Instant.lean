import OrderFlow.Time.Calendar

/-!
# Instants

An instant is a microsecond of the years 1 to 9999 in UTC. Moving it by a duration may leave
those years, and then there is no result.
-/

namespace OrderFlow

/-- A length of time in microseconds. -/
abbrev Duration := Int

namespace Duration

/-- So many seconds. -/
def seconds (n : Int) : Duration := n * 1000000

/-- So many minutes. -/
def minutes (n : Int) : Duration := seconds (n * 60)

/-- So many days. -/
def days (n : Int) : Duration := seconds (n * 86400)

/-- The most days a duration may have in either direction. -/
def maxDays : Int := 999999999

/-- A duration that can be represented. -/
def Representable (d : Duration) : Prop :=
  days (-maxDays) ≤ d ∧ d < days (maxDays + 1)

instance (d : Duration) : Decidable (Representable d) :=
  inferInstanceAs (Decidable (_ ∧ _))

/-- A duration if it can be represented. -/
def representable? (d : Duration) : Option Duration :=
  if Representable d then some d else none

end Duration

/-- Microseconds of a day. -/
def dayMicros : Nat := 86400000000

/-- A microsecond of the years 1 to 9999, counted from zero. -/
structure Instant where
  micros : Nat
  inRange : micros < dayCount * dayMicros
deriving DecidableEq

namespace Instant

/-- The instant so many microseconds after the first one. -/
def ofMicros? (n : Int) : Option Instant :=
  if h : 0 ≤ n ∧ n.toNat < dayCount * dayMicros then some ⟨n.toNat, h.2⟩ else none

/-- An instant moved by a duration. -/
def add? (t : Instant) (d : Duration) : Option Instant :=
  -- reduction counts down the second part of a sum, and the duration may be a large figure
  ofMicros? (d + t.micros)

/-- The day of an instant. -/
def day (t : Instant) : Day :=
  ⟨t.micros / dayMicros, by
    have h := t.inRange
    exact Nat.div_lt_of_lt_mul (by rwa [Nat.mul_comm] at h)⟩

/-- The start of a day, moved by microseconds of the day. -/
def ofDay (d : Day) (micros : Fin dayMicros) : Instant :=
  ⟨d.number * dayMicros + micros, by
    have h := d.inRange
    have k := micros.isLt
    have : (d.number + 1) * dayMicros ≤ dayCount * dayMicros := Nat.mul_le_mul_right _ h
    rw [Nat.add_mul] at this
    omega⟩

/-- The earlier of two instants comes first. -/
def le (s t : Instant) : Bool :=
  s.micros ≤ t.micros

/-- The time between two instants. -/
def since (s t : Instant) : Duration :=
  (s.micros : Int) - t.micros

/-- The time of day with a fraction of six digits unless it is zero. -/
def timeText (t : Instant) : String :=
  let n := t.micros % dayMicros
  let s := n / 1000000
  let micros := n % 1000000
  Text.padded 2 (s / 3600) ++ ":" ++ Text.padded 2 (s / 60 % 60) ++ ":" ++ Text.padded 2 (s % 60)
    ++ (if micros = 0 then "" else "." ++ Text.padded 6 micros)

/-- The date and the time of day. -/
def text (t : Instant) : String :=
  t.day.text ++ "T" ++ t.timeText

/-- An instant with the mark of UTC. -/
def utcText (t : Instant) : String :=
  t.text ++ "Z"

end Instant

end OrderFlow
