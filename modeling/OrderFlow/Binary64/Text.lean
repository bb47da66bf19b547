import OrderFlow.Binary64.Basic
import OrderFlow.Decimal.Text

/-!
# Floating point in text

A number is written with the fewest digits that read back as it, the nearest of those if
there are several. `shortest?` finds the digits by trying one, two, and more of them: on each
decimal grid only the two neighbours of the number can lie in the interval of what rounds to
it. Report columns have a fixed count of places instead.
-/

namespace OrderFlow.Binary64

open Text

/-- The least `k` with `n / d < 10 ^ k`, searched upwards from a start; `steps` bounds the
search. -/
def decimalPoint (n d : Nat) (k : Int) : Nat → Int
  | 0 => k
  | steps + 1 =>
    if n * Nat.pow 10 (-k).toNat < d * Nat.pow 10 k.toNat then k
    else decimalPoint n d (k + 1) steps

/-- The digits and the power of ten of a candidate that rounds to `target`. -/
def hit? (target : Binary64) (digits : Nat) (e : Int) : Option Decimal :=
  let x : Decimal := ⟨false, digits, e⟩
  if digits ≠ 0 ∧ ofDecimal x = target then some x else none

/-- The nearer to `n / d` of two neighbours on the grid of `10 ^ e` that both read back. -/
def nearer (n d : Nat) (e : Int) (low : Decimal) (high : Decimal) : Decimal :=
  let up := 2 * n * Nat.pow 10 (-e).toNat
  let down := d * (low.coefficient + high.coefficient) * Nat.pow 10 e.toNat
  if up < down ∨ (up = down ∧ low.coefficient % 2 = 0) then low else high

/-- The decimal with the fewest digits, `count` or more, that reads back as a positive number
`target` of value `n / d` below `10 ^ point`; `steps` bounds the count. -/
def shortest? (target : Binary64) (n d : Nat) (point : Int) (count : Nat) : Nat → Option Decimal
  | 0 => none
  | steps + 1 =>
    let e := point - count
    let low := n * Nat.pow 10 (-e).toNat / (d * Nat.pow 10 e.toNat)
    match hit? target low e, hit? target (low + 1) e with
    | some a, some b => some (nearer n d e a b)
    | some a, none => some a
    | none, some b => some b
    | none, none => shortest? target n d point (count + 1) steps

/-- The shortest digits of a positive finite number, and where its point stands. -/
def shortest (significand : Nat) (exponent : Int) : Decimal :=
  let (n, d) := fraction significand exponent
  let guess := ((n.log2 : Int) - d.log2) * 30103 / 100000 - 1
  let point := decimalPoint n d guess 4
  match shortest? (.finite false significand exponent) n d point 1 17 with
  | some x => Decimal.strip false x.coefficient x.exponent 400
  | none => ⟨false, n, 0⟩

/-- Where the positional notation of floating point numbers ends: the exponent of the leading
digit is below `exponentFrom` and at least `positionalFrom`. -/
def exponentFrom : Int := 16

/-- The least exponent of the leading digit in positional notation. -/
def positionalFrom : Int := -4

/-- The digits of a positive decimal in the notation of floating point numbers. -/
def notated (x : Decimal) : String :=
  let ds := Nat.toDigits 10 x.coefficient
  let lead := x.magnitude
  if positionalFrom ≤ lead ∧ lead < exponentFrom then
    if lead < 0 then
      "0." ++ String.ofList (List.replicate (-lead - 1).toNat '0' ++ ds)
    else
      let whole := (lead + 1).toNat
      let fraction := ds.drop whole
      String.ofList (ds.take whole ++ List.replicate (whole - ds.length) '0') ++ "."
        ++ (if fraction.isEmpty then "0" else String.ofList fraction)
  else
    String.ofList (ds.take 1) ++ (if ds.length = 1 then "" else "." ++ String.ofList ds.tail)
      ++ "e" ++ (if lead < 0 then "-" else "+") ++ padded 2 lead.natAbs

/-- The text of a number. -/
def text : Binary64 → String
  | .finite s m e =>
    Number.signText s ++ (if m = 0 then "0.0" else notated (shortest m e))
  | .infinite s => Number.signText s ++ "inf"
  | .nan => "nan"

/-- A number with a fixed count of places, rounded to the nearest and from halfway to even. -/
def fixed (places : Nat) : Binary64 → String
  | .finite s m e =>
    let (n, d) := fraction m e
    let unit := Nat.pow 10 places
    let c := roundDiv .even (n * unit) d
    Number.signText s ++ natText (c / unit) ++ "." ++ padded places (c % unit)
  | .infinite s => Number.signText s ++ "inf"
  | .nan => "nan"

/-- The decimal that the text of a number writes. -/
def toNumber : Binary64 → Number
  | .finite s m e =>
    if m = 0 then .finite ⟨s, 0, -1⟩
    else
      let x := shortest m e
      let lead := x.magnitude
      if positionalFrom ≤ lead ∧ lead < exponentFrom ∧ 0 ≤ x.exponent then
        .finite ⟨s, x.coefficient * Nat.pow 10 (x.exponent.toNat + 1), -1⟩
      else .finite { x with negative := s }
  | .infinite s => .infinite s
  | .nan => .nan false false 0

/-- The number that a plain decimal text writes. -/
def ofChars? (cs : List Char) : Option Binary64 :=
  let (negative, rest) := splitSign cs
  (Decimal.unsigned? negative rest).map ofDecimal

end OrderFlow.Binary64
