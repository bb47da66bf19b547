/-!
# Decimal numbers

A decimal number is a coefficient scaled by a power of ten; its exponent is part of it, so
that 1.0 and 1.00 are two decimals of one value. Sums, products and quotients are exact and
then rounded to `precision` digits, ties to the even neighbour. A number is a decimal, an
infinity or not a number.
-/

namespace OrderFlow

/-- Where a quotient halfway between two integers goes. -/
inductive Tie
  | up
  | even
deriving DecidableEq

/-- The integer nearest to `n / d`. -/
def roundDiv (tie : Tie) (n d : Nat) : Nat :=
  let q := n / d
  let r := n % d
  if d < 2 * r ∨ (2 * r = d ∧ (tie = .up ∨ q % 2 = 1)) then q + 1 else q

/-- How many decimal digits a number has; zero has one. -/
def digitCount (n : Nat) : Nat :=
  if n < 10 then 1 else digitCount (n / 10) + 1

/-- A finite decimal: `coefficient · 10 ^ exponent` behind a sign, which zero has too. -/
structure Decimal where
  negative : Bool
  coefficient : Nat
  exponent : Int
deriving DecidableEq

namespace Decimal

/-- Digits that the result of an operation may have. -/
def precision : Nat := 28

/-- An integer as a decimal. -/
def ofInt (n : Int) : Decimal :=
  ⟨n < 0, n.natAbs, 0⟩

/-- The coefficient with its sign. -/
def signedCoefficient (x : Decimal) : Int :=
  if x.negative then -(x.coefficient : Int) else x.coefficient

/-- Zero, with either sign and any exponent. -/
def isZero (x : Decimal) : Bool :=
  x.coefficient == 0

/-- The exponent of the leading digit. -/
def magnitude (x : Decimal) : Int :=
  x.exponent + digitCount x.coefficient - 1

/-- The coefficient of `x` written with the exponent `e`, which is at most its own. -/
def coefficientAt (x : Decimal) (e : Int) : Int :=
  x.signedCoefficient * (Nat.pow 10 (x.exponent - e).toNat : Nat)

/-- `x` rounded to `precision` digits. -/
def round (x : Decimal) : Decimal :=
  let extra := digitCount x.coefficient - precision
  if extra = 0 then x
  else
    let c := roundDiv .even x.coefficient (Nat.pow 10 extra)
    if digitCount c ≤ precision then ⟨x.negative, c, x.exponent + extra⟩
    else ⟨x.negative, c / 10, x.exponent + extra + 1⟩

/-- The sum; a zero sum is negative if both terms are. -/
def add (x y : Decimal) : Decimal :=
  let e := min x.exponent y.exponent
  let sum := x.coefficientAt e + y.coefficientAt e
  let negative := if sum = 0 then x.negative && y.negative else decide (sum < 0)
  round ⟨negative, sum.natAbs, e⟩

/-- The product. -/
def mul (x y : Decimal) : Decimal :=
  round ⟨x.negative != y.negative, x.coefficient * y.coefficient, x.exponent + y.exponent⟩

/-- Trailing zeros of a coefficient moved into the exponent, `n` of them at most. -/
def strip (negative : Bool) (coefficient : Nat) (exponent : Int) : Nat → Decimal
  | 0 => ⟨negative, coefficient, exponent⟩
  | n + 1 =>
    if coefficient % 10 = 0 ∧ coefficient ≠ 0 then
      strip negative (coefficient / 10) (exponent + 1) n
    else ⟨negative, coefficient, exponent⟩

/-- The quotient by a positive integer. An exact quotient has the exponent of the dividend,
or the greatest one below it that holds all digits. -/
def quotient (x : Decimal) (n : Nat) : Decimal :=
  if x.coefficient = 0 then x
  else
    let shift := digitCount n + precision
    let scaled := x.coefficient * Nat.pow 10 shift
    if scaled % n = 0 then round (strip x.negative (scaled / n) (x.exponent - shift) shift)
    else
      let extra := digitCount (scaled / n) - precision
      let c := roundDiv .even scaled (n * Nat.pow 10 extra)
      if digitCount c ≤ precision then ⟨x.negative, c, x.exponent - shift + extra⟩
      else ⟨x.negative, c / 10, x.exponent - shift + extra + 1⟩

/-- The order of two decimals by value. Unequal magnitudes decide without aligning the
coefficients, so that a far exponent costs nothing. -/
def compare (x y : Decimal) : Ordering :=
  let a := x.signedCoefficient
  let b := y.signedCoefficient
  if a.sign ≠ b.sign then Ord.compare a.sign b.sign
  else if a = 0 then .eq
  else if x.magnitude ≠ y.magnitude then
    if 0 < a then Ord.compare x.magnitude y.magnitude else Ord.compare y.magnitude x.magnitude
  else
    let e := min x.exponent y.exponent
    Ord.compare (x.coefficientAt e) (y.coefficientAt e)

/-- `x` is less than `y` as a number. -/
def lt (x y : Decimal) : Bool :=
  x.compare y == .lt

/-- The integer nearest to a magnitude, a half going away from zero. -/
def nearest (x : Decimal) : Int :=
  let n :=
    if 0 ≤ x.exponent then x.coefficient * Nat.pow 10 x.exponent.toNat
    else if digitCount x.coefficient < (-x.exponent).toNat then 0
    else roundDiv .up x.coefficient (Nat.pow 10 (-x.exponent).toNat)
  if x.negative then -(n : Int) else n

/-- The integer part of a magnitude, with its sign. -/
def truncate (x : Decimal) : Int :=
  let n :=
    if 0 ≤ x.exponent then x.coefficient * Nat.pow 10 x.exponent.toNat
    else if digitCount x.coefficient ≤ (-x.exponent).toNat then 0
    else x.coefficient / Nat.pow 10 (-x.exponent).toNat
  if x.negative then -(n : Int) else n

/-- A decimal without a fraction. -/
def isWhole (x : Decimal) : Bool :=
  x.compare (ofInt x.truncate) == .eq

end Decimal

/-- A decimal, an infinity, or not a number with a payload. -/
inductive Number
  | finite (value : Decimal)
  | infinite (negative : Bool)
  | nan (negative signaling : Bool) (payload : Nat)
deriving DecidableEq

namespace Number

/-- The decimal of a finite number. -/
def finite? : Number → Option Decimal
  | .finite x => some x
  | _ => none

/-- Equality as numbers: what is not a number equals nothing. -/
def eqv : Number → Number → Bool
  | .finite x, .finite y => x.compare y == .eq
  | .infinite a, .infinite b => a == b
  | _, _ => false

end Number

end OrderFlow
