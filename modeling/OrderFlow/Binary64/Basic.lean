import OrderFlow.Decimal.Basic

/-!
# Binary floating point

Numbers of the 64-bit binary format, as their sign, significand and exponent. Every operation
computes the exact rational result and rounds it once, to the nearest number of the format and
from halfway to the even one.
-/

namespace OrderFlow

/-- A number of the format: `significand · 2 ^ exponent` behind a sign, an infinity, or not a
number. -/
inductive Binary64
  | finite (negative : Bool) (significand : Nat) (exponent : Int)
  | infinite (negative : Bool)
  | nan
deriving DecidableEq

namespace Binary64

/-- The least exponent, that of the numbers nearest to zero. -/
def minExponent : Int := -1074

/-- The greatest exponent. -/
def maxExponent : Int := 971

/-- The least exponent `k` with `n / d < 2 ^ (k + 1)`, for positive `n` and `d`. -/
def binaryMagnitude (n d : Nat) : Int :=
  let k : Int := (n.log2 : Int) - d.log2
  if n * Nat.pow 2 (-k).toNat < d * Nat.pow 2 k.toNat then k - 1 else k

/-- The number nearest to `n / d`, for a positive `d`. -/
def ofRatio (negative : Bool) (n d : Nat) : Binary64 :=
  if n = 0 then .finite negative 0 minExponent
  else
    let e := max (binaryMagnitude n d - 52) minExponent
    let m := roundDiv .even (n * Nat.pow 2 (-e).toNat) (d * Nat.pow 2 e.toNat)
    let (m, e) := if m = Nat.pow 2 53 then (Nat.pow 2 52, e + 1) else (m, e)
    if maxExponent < e then .infinite negative else .finite negative m e

/-- The number nearest to an integer. -/
def ofInt (n : Int) : Binary64 :=
  ofRatio (n < 0) n.natAbs 1

/-- The number nearest to a decimal. A magnitude beyond the format needs no power of ten. -/
def ofDecimal (x : Decimal) : Binary64 :=
  if x.coefficient = 0 then .finite x.negative 0 minExponent
  else if 400 < x.magnitude then .infinite x.negative
  else if x.magnitude < -400 then .finite x.negative 0 minExponent
  else
    ofRatio x.negative (x.coefficient * Nat.pow 10 x.exponent.toNat)
      (Nat.pow 10 (-x.exponent).toNat)

/-- The number nearest to a decimal, an infinity, or not a number. -/
def ofNumber : Number → Binary64
  | .finite x => ofDecimal x
  | .infinite negative => .infinite negative
  | .nan _ _ _ => .nan

/-- Positive zero. -/
def zero : Binary64 := .finite false 0 minExponent

/-- The magnitude of a finite number as a fraction. -/
def fraction (significand : Nat) (exponent : Int) : Nat × Nat :=
  (significand * Nat.pow 2 exponent.toNat, Nat.pow 2 (-exponent).toNat)

/-- A significand with its sign, scaled to the exponent `e`, which is at most `exponent`. -/
def scaled (negative : Bool) (significand : Nat) (exponent e : Int) : Int :=
  let n : Int := (significand * Nat.pow 2 (exponent - e).toNat : Nat)
  if negative then -n else n

/-- The sum; a zero sum is negative if both terms are. -/
def add : Binary64 → Binary64 → Binary64
  | .finite s m e, .finite t n f =>
    let g := min e f
    let sum := scaled s m e g + scaled t n f g
    if sum = 0 then .finite (s && t) 0 minExponent
    else ofRatio (sum < 0) (sum.natAbs * Nat.pow 2 g.toNat) (Nat.pow 2 (-g).toNat)
  | .infinite s, .infinite t => if s = t then .infinite s else .nan
  | .infinite s, .finite _ _ _ => .infinite s
  | .finite _ _ _, .infinite t => .infinite t
  | .nan, _ => .nan
  | _, .nan => .nan

/-- The negation. -/
def neg : Binary64 → Binary64
  | .finite s m e => .finite (!s) m e
  | .infinite s => .infinite (!s)
  | .nan => .nan

/-- The quotient; only zero by zero and infinity by infinity have none. -/
def div : Binary64 → Binary64 → Binary64
  | .finite s m e, .finite t n f =>
    if n = 0 then if m = 0 then .nan else .infinite (s != t)
    else
      let (a, b) := fraction m e
      let (c, d) := fraction n f
      ofRatio (s != t) (a * d) (b * c)
  | .infinite s, .finite t _ _ => .infinite (s != t)
  | .finite s _ _, .infinite t => .finite (s != t) 0 minExponent
  | _, _ => .nan

/-- The product. -/
def mul : Binary64 → Binary64 → Binary64
  | .finite s m e, .finite t n f =>
    let (a, b) := fraction m e
    let (c, d) := fraction n f
    ofRatio (s != t) (a * c) (b * d)
  | .infinite s, .finite t n _ => if n = 0 then .nan else .infinite (s != t)
  | .finite s m _, .infinite t => if m = 0 then .nan else .infinite (s != t)
  | .infinite s, .infinite t => .infinite (s != t)
  | _, _ => .nan

/-- The order of two numbers; there is none with what is not a number. -/
def compare? : Binary64 → Binary64 → Option Ordering
  | .finite s m e, .finite t n f =>
    let g := min e f
    some (compare (scaled s m e g) (scaled t n f g))
  | .infinite s, .infinite t => some (compare t s)
  | .infinite s, .finite _ _ _ => some (if s then .lt else .gt)
  | .finite _ _ _, .infinite t => some (if t then .gt else .lt)
  | .nan, _ => none
  | _, .nan => none

/-- `x` is less than `y` as a number. -/
def lt (x y : Binary64) : Bool := x.compare? y == some .lt

/-- `x` is at most `y` as a number. -/
def le (x y : Binary64) : Bool := x.compare? y == some .lt || x.compare? y == some .eq

/-- The integer part of a finite number, with its sign. -/
def truncate? : Binary64 → Option Int
  | .finite s m e =>
    let (n, d) := fraction m e
    some (if s then -((n / d : Nat) : Int) else (n / d : Nat))
  | _ => none

/-- The greatest integer that is at most a finite number. -/
def floor? : Binary64 → Option Int
  | .finite s m e =>
    let (n, d) := fraction m e
    some (if s then -(((n + d - 1) / d : Nat) : Int) else (n / d : Nat))
  | _ => none

/-- The integer that a finite number is. -/
def whole? : Binary64 → Option Int
  | .finite s m e =>
    let (n, d) := fraction m e
    if n % d = 0 then some (if s then -((n / d : Nat) : Int) else (n / d : Nat)) else none
  | _ => none

end Binary64

end OrderFlow
