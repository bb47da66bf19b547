import OrderFlow.Text.Integer

/-!
# Calendar days

A day is counted from the first of January of year 1 in the Gregorian calendar and lies in the
years 1 to 9999. Dates are computed in years that begin with March, where the leap day is the
last of the year and all months before it keep their places.
-/

namespace OrderFlow

open Text

/-- A year, a month and a day of the month. -/
structure Date where
  year : Nat
  month : Nat
  day : Nat
deriving DecidableEq

namespace Date

/-- A year with a leap day. -/
def isLeap (year : Nat) : Bool :=
  year % 4 == 0 && (year % 100 != 0 || year % 400 == 0)

/-- The length of a month. -/
def daysIn (year month : Nat) : Nat :=
  if month = 2 then if isLeap year then 29 else 28
  else if month = 4 ∨ month = 6 ∨ month = 9 ∨ month = 11 then 30
  else 31

/-- A date of the calendar in the years 1 to 9999. -/
def Valid (d : Date) : Prop :=
  1 ≤ d.year ∧ d.year ≤ 9999 ∧ 1 ≤ d.month ∧ d.month ≤ 12 ∧ 1 ≤ d.day
    ∧ d.day ≤ daysIn d.year d.month

instance (d : Date) : Decidable d.Valid :=
  inferInstanceAs (Decidable (_ ∧ _))

/-- Days from the first of March of year 0. -/
def marchDays (d : Date) : Nat :=
  let year := if d.month ≤ 2 then d.year - 1 else d.year
  let month := if d.month ≤ 2 then d.month + 9 else d.month - 3
  365 * year + year / 4 - year / 100 + year / 400 + (153 * month + 2) / 5 + d.day - 1

/-- The date so many days after the first of March of year 0. -/
def ofMarchDays (n : Nat) : Date :=
  let era := n / 146097
  let dayOfEra := n % 146097
  let yearOfEra := (dayOfEra - dayOfEra / 1460 + dayOfEra / 36524 - dayOfEra / 146096) / 365
  let dayOfYear := dayOfEra - (365 * yearOfEra + yearOfEra / 4 - yearOfEra / 100)
  let month := (5 * dayOfYear + 2) / 153
  let day := dayOfYear - (153 * month + 2) / 5 + 1
  let year := yearOfEra + era * 400
  if month < 10 then ⟨year, month + 3, day⟩ else ⟨year + 1, month - 9, day⟩

/-- Days from the first of March of year 0 to the first of January of year 1. -/
def epoch : Nat := 306

/-- A date as its year, month and day with four, two and two digits. -/
def text (d : Date) : String :=
  padded 4 d.year ++ "-" ++ padded 2 d.month ++ "-" ++ padded 2 d.day

end Date

/-- How many days the years 1 to 9999 have. -/
def dayCount : Nat := 3652059

/-- A day of the years 1 to 9999, counted from zero. -/
structure Day where
  number : Nat
  inRange : number < dayCount
deriving DecidableEq

namespace Day

/-- The date of a day. -/
def date (d : Day) : Date :=
  Date.ofMarchDays (d.number + Date.epoch)

/-- The day of a date. -/
def ofDate? (d : Date) : Option Day :=
  if d.Valid then
    let n := d.marchDays - Date.epoch
    if h : n < dayCount then some ⟨n, h⟩ else none
  else none

/-- A day as its date. -/
def text (d : Day) : String :=
  d.date.text

end Day

end OrderFlow
