import OrderFlow.Time.Instant

/-!
# Time stamps

A stamp is the reading of a wall clock, with the offset of the clock from UTC if it is known.
A reading without an offset is taken to be in UTC. `Stamp.read?` reads the usual form of date,
time and offset; `Stamp.text` writes it.
-/

namespace OrderFlow

open Text

/-- A reading of a clock and the clock's offset from UTC in seconds. -/
structure Stamp where
  wall : Instant
  offset : Option Int
deriving DecidableEq

namespace Stamp

/-- A clock in UTC. -/
def ofInstant (t : Instant) : Stamp :=
  ⟨t, some 0⟩

/-- Microseconds in UTC, which may lie outside the representable years. -/
def point (s : Stamp) : Int :=
  s.wall.micros - Duration.seconds (s.offset.getD 0)

/-- The instant of a stamp. -/
def utc? (s : Stamp) : Option Instant :=
  Instant.ofMicros? s.point

/-- A stamp moved by a duration on its own clock. -/
def add? (s : Stamp) (d : Duration) : Option Stamp :=
  (s.wall.add? d).map fun t => { s with wall := t }

/-- A stamp in UTC if it had no offset. -/
def assumeUtc (s : Stamp) : Stamp :=
  { s with offset := some (s.offset.getD 0) }

/-- An offset as its sign, hours and minutes, and seconds unless they are zero. -/
def offsetText (n : Int) : String :=
  let s := n.natAbs
  (if n < 0 then "-" else "+") ++ padded 2 (s / 3600) ++ ":" ++ padded 2 (s / 60 % 60)
    ++ (if s % 60 = 0 then "" else ":" ++ padded 2 (s % 60))

/-- The reading and the offset, if there is one. -/
def text (s : Stamp) : String :=
  s.wall.text ++ (match s.offset with
    | some n => offsetText n
    | none => "")

/-- The number that so many digits at the start write, and what follows them. -/
def digits? (count : Nat) (cs : List Char) : Option (Nat × List Char) :=
  let ds := cs.take count
  if ds.length = count ∧ ds.all Char.isDigit then some (natOfDigits ds, cs.drop count) else none

/-- The text behind an expected character. -/
def after? (c : Char) : List Char → Option (List Char)
  | [] => none
  | d :: cs => if c = d then some cs else none

/-- A date at the start of a text. -/
def date? (cs : List Char) : Option (Day × List Char) := do
  let (year, cs) ← digits? 4 cs
  let cs ← after? '-' cs
  let (month, cs) ← digits? 2 cs
  let cs ← after? '-' cs
  let (day, cs) ← digits? 2 cs
  return (← Day.ofDate? ⟨year, month, day⟩, cs)

/-- A fraction of a second behind its point, in microseconds; digits past six are dropped. -/
def fraction? : List Char → Option (Nat × List Char)
  | c :: cs =>
    if c = '.' ∨ c = ',' then
      let ds := cs.takeWhile Char.isDigit
      if ds.isEmpty then none
      else some (natOfDigits ((ds ++ List.replicate 6 '0').take 6), cs.dropWhile Char.isDigit)
    else some (0, c :: cs)
  | [] => some (0, [])

/-- Seconds and their fraction behind a colon; both may be left out. -/
def seconds? : List Char → Option (Nat × Nat × List Char)
  | ':' :: cs => do
    let (second, cs) ← digits? 2 cs
    let (micros, cs) ← fraction? cs
    return (second, micros, cs)
  | cs => some (0, 0, cs)

/-- A time of day at the start of a text, in microseconds. -/
def clock? (cs : List Char) : Option (Fin dayMicros × List Char) := do
  let (hour, cs) ← digits? 2 cs
  let cs ← after? ':' cs
  let (minute, cs) ← digits? 2 cs
  let (second, micros, cs) ← seconds? cs
  let total := ((hour * 60 + minute) * 60 + second) * 1000000 + micros
  if h : total < dayMicros ∧ minute < 60 ∧ second < 60 then
    return (⟨total, h.1⟩, cs)
  else none

/-- Hours, minutes and seconds of an offset; seconds only if asked for. -/
def offsetSize? (withSeconds : Bool) (cs : List Char) : Option (Nat × List Char) := do
  let (hour, cs) ← digits? 2 cs
  let cs := (after? ':' cs).getD cs
  let (minute, cs) ← digits? 2 cs
  let (second, cs) ←
    match withSeconds, cs with
    | true, ':' :: cs => digits? 2 cs
    | _, cs => some (0, cs)
  if hour < 24 ∧ minute < 60 ∧ second < 60 then
    return ((hour * 60 + minute) * 60 + second, cs)
  else none

/-- The offset that ends a text; nothing means that it is not known. -/
def offset? (withSeconds : Bool) : List Char → Option (Option Int)
  | [] => some none
  | ['Z'] => some (some 0)
  | ['z'] => some (some 0)
  | c :: cs =>
    if c = '+' ∨ c = '-' ∨ c = '\u2212' then
      match offsetSize? withSeconds cs with
      | some (n, []) => some (some (signed (c ≠ '+') n))
      | _ => none
    else none

/-- The characters that may stand between a date and a time. -/
def separators : List Char := ['T', 't', '_', ' ']

/-- A date, or a date and a time with an optional offset. -/
def read? (withSeconds : Bool) (cs : List Char) : Option Stamp := do
  let (day, rest) ← date? cs
  match rest with
  | [] => return ⟨.ofDay day ⟨0, by decide⟩, none⟩
  | c :: rest =>
    if separators.contains c then
      let (time, rest) ← clock? rest
      return ⟨.ofDay day time, ← offset? withSeconds rest⟩
    else none

end Stamp

end OrderFlow
