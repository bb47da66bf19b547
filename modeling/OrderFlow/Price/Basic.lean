import OrderFlow.Decimal.Basic
import OrderFlow.Failure

/-!
# Prices

A price is a whole count of hundredths of at most 28 digits. `Price.ofNumber` rounds a number
that is not negative to the nearest hundredth, a half going up. Zero keeps the sign with which
it was written. An amount is a decimal; `toCents` and `ofCents` pass between amounts and
integers that count hundredths.
-/

namespace OrderFlow

/-- The first count of hundredths that has too many digits for a price. -/
abbrev priceLimit : Nat := 10000000000000000000000000000

/-- A price in hundredths. -/
structure Price where
  cents : Nat
  belowZero : Bool
  cents_lt : cents < priceLimit
  cents_eq_zero : belowZero = true → cents = 0
deriving DecidableEq

namespace Price

/-- A price as a decimal with two places. -/
def toDecimal (p : Price) : Decimal :=
  ⟨p.belowZero, p.cents, -2⟩

/-- A price as a number. -/
def toNumber (p : Price) : Number :=
  .finite p.toDecimal

/-- The magnitude of a decimal in hundredths, unless its leading digit is too far up. A
magnitude too far down is zero without a power of ten. -/
def hundredths? (x : Decimal) : Option Nat :=
  if x.coefficient = 0 then some 0
  else if 26 ≤ x.magnitude then none
  else if -2 ≤ x.exponent then some (x.coefficient * Nat.pow 10 (x.exponent + 2).toNat)
  else if x.magnitude < -4 then some 0
  else some (roundDiv .up x.coefficient (Nat.pow 10 (-2 - x.exponent).toNat))

/-- A decimal rounded to a price, unless it has too many digits. -/
def ofDecimal? (x : Decimal) : Option Price :=
  match hundredths? x with
  | none => none
  | some n =>
    if h : n < priceLimit then
      some ⟨n, x.negative && n == 0, h, by simp⟩
    else none

/-- The price of a number that is finite and not negative; zero has either sign. A message
shows the number as `shown`. -/
def ofNumber (shown : String) : Number → Except Refusal Price
  | .finite x =>
    if x.negative && !x.isZero then .error (.value (.price shown))
    else
      match ofDecimal? x with
      | some p => .ok p
      | none => .error (.abort .invalidOperation)
  | _ => .error (.value (.price shown))

end Price

/-- The value of a quantity traded at a price. -/
def notional (price : Decimal) (quantity : Int) : Decimal :=
  price.mul (.ofInt quantity)

/-- The greater of two prices; of equal ones the second. -/
def maxPrice (a b : Decimal) : Decimal :=
  if b.lt a then a else b

/-- The smaller of two prices; of equal ones the second. -/
def minPrice (a b : Decimal) : Decimal :=
  if a.lt b then a else b

/-- An amount in hundredths, a half going away from zero. -/
def toCents : Number → Except Failure Int
  | .finite x => .ok (x.mul (.ofInt 100)).nearest
  | .infinite _ => .error .overflow
  | .nan _ signaling _ =>
    .error (if signaling then .invalidOperation else .value .decimalNotANumber)

/-- The amount of so many hundredths. -/
def ofCents (n : Int) : Decimal :=
  Decimal.round ⟨n < 0, n.natAbs, -2⟩

end OrderFlow
