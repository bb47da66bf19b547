import OrderFlow.Check.Basic
import OrderFlow.Time.Stamp

/-!
# Checking times

A time is the text of a stamp, or a count of seconds since 1970 as a number or its text; a
count beyond `secondsLimit` is one of milliseconds.
-/

namespace OrderFlow.Check

open Text Checked

/-- Microseconds from the first instant to the start of 1970. -/
def unixEpoch : Int := 62135596800000000

/-- The greatest count that is one of seconds. -/
def secondsLimit : Nat := 20000000000

/-- The seconds since 1970 with which 1600 begins, the first year that a count can name. -/
def firstSecond : Int := -11676096000

/-- A stamp from seconds since 1970 and microseconds. -/
def unixStamp (seconds micros : Int) : Checked Stamp :=
  let total := seconds * 1000000 + micros
  if total < firstSecond * 1000000 then defect .timeUnreadable
  else
    match Instant.ofMicros? (unixEpoch + total) with
    | some t => accepted (.ofInstant t)
    | none => defect .timeUnreadable

/-- A stamp from a count and microseconds. -/
def countStamp (count micros : Int) : Checked Stamp :=
  if count.natAbs ≤ secondsLimit then unixStamp count micros
  else unixStamp (count / 1000) (count % 1000 * 1000 + micros)

/-- The microseconds of the fraction of a number, rounded to the nearest, a half up. -/
def fractionMicros (significand : Nat) (exponent : Int) : Nat :=
  let (n, d) := Binary64.fraction significand exponent
  match Binary64.mul (.ofRatio false (n % d) d) (.ofInt 1000000) with
  | .finite _ m e =>
    let (a, b) := Binary64.fraction m e
    roundDiv .up a b
  | _ => 0

/-- A stamp from a count with a fraction. -/
def floatStamp : Binary64 → Checked Stamp
  | .finite s m e =>
    match Binary64.floor? (.finite s m e) with
    | some n => countStamp n (fractionMicros m e)
    | none => defect .timeUnreadable
  | _ => defect .timeUnreadable

/-- A number with the digits behind its point added one after the other, each sum rounded; the
first digit counts so many parts of `unit`. -/
def addDigits (x unit : Binary64) : List Char → Binary64
  | [] => x
  | c :: cs =>
    addDigits (x.add ((Binary64.ofInt (natOfDigits [c])).div unit)) (unit.mul (.ofInt 10)) cs

/-- A stamp from the magnitude of a count with a fraction. The fraction of a negative count is
dropped after its whole part was rounded down. -/
def pointStamp (negative : Bool) : Binary64 → Checked Stamp
  | .finite _ m e =>
    match Binary64.floor? (.finite negative m e) with
    | some n => countStamp n (if negative then 0 else fractionMicros m e)
    | none => defect .timeUnreadable
  | _ => defect .timeUnreadable

/-- A stamp from the text of a count. -/
def countText (s : String) : Checked Stamp :=
  let (negative, rest) := splitSign s.toList
  let whole := rest.takeWhile Char.isDigit
  match whole, rest.dropWhile Char.isDigit with
  | [], _ => defect .timeUnreadable
  | _, [] => countStamp (signed negative (natOfDigits whole)) 0
  | _, '.' :: fraction =>
    if fraction.all Char.isDigit then
      pointStamp negative (addDigits (.ofInt (natOfDigits whole)) (.ofInt 10) fraction)
    else defect .timeUnreadable
  | _, _ => defect .timeUnreadable

/-- A stamp. -/
def time : Value → Checked Stamp
  | .str s =>
    match Stamp.read? false s.toList with
    | some t => accepted t
    | none => countText s
  | .int n =>
    match Binary64.ofInt n with
    | .infinite _ => defect .notATime
    | _ => countStamp n 0
  | .float x => floatStamp x
  | .decimal x => floatStamp (.ofNumber x)
  | .torn _ _ => defect .notUnicode
  | _ => defect .notATime

/-- An instant; a stamp without an offset is one in UTC. -/
def instant (v : Value) : Checked Instant :=
  (time v).andThen fun s =>
    match s.utc? with
    | some t => accepted t
    | none => aborted .overflow

end OrderFlow.Check
