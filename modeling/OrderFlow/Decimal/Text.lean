import OrderFlow.Decimal.Basic
import OrderFlow.Text.Integer

/-!
# Decimal numbers in text

`Number.text` writes a number so that its digits and its exponent can be read back: in
positional form while the exponent is not positive and at most six zeros follow the point,
otherwise with an exponent. `Number.ofText?` reads that form and freer ones: blanks around,
underscores anywhere, digits of any script, letters of either case.
-/

namespace OrderFlow

open Text

namespace Decimal

/-- Exponents of a readable number: the least one, and the greatest of the leading digit. -/
def exponentBounds : Int × Int := (-1999999999999999997, 999999999999999999)

/-- A power of ten as a suffix, with its sign. -/
def exponentText (e : Int) : String :=
  "E" ++ (if e < 0 then "-" else "+") ++ natText e.natAbs

/-- The digits of a decimal. -/
def text (x : Decimal) : String :=
  let ds := Nat.toDigits 10 x.coefficient
  let sign := if x.negative then "-" else ""
  let point := x.exponent + ds.length
  if x.exponent ≤ 0 ∧ -6 < point then
    if x.exponent = 0 then sign ++ String.ofList ds
    else if point ≤ 0 then
      sign ++ "0." ++ String.ofList (List.replicate (-point).toNat '0' ++ ds)
    else
      sign ++ String.ofList (ds.take point.toNat) ++ "." ++ String.ofList (ds.drop point.toNat)
  else
    let fraction := if ds.length = 1 then "" else "." ++ String.ofList ds.tail
    sign ++ String.ofList (ds.take 1) ++ fraction ++ exponentText (point - 1)

/-- The exponent behind its mark: a sign and at least one digit; nothing stands for zero. -/
def exponentOf? : List Char → Option Int
  | [] => some 0
  | c :: cs =>
    if c = 'e' ∨ c = 'E' then
      let (negative, ds) := splitSign cs
      if ds.isEmpty ∨ !ds.all Char.isDigit then none
      else some (signed negative (natOfDigits ds))
    else none

/-- An unsigned decimal: digits with at most one point and at least one digit, and an
exponent. -/
def unsigned? (negative : Bool) (cs : List Char) : Option Decimal :=
  let whole := cs.takeWhile Char.isDigit
  let (fraction, rest) :=
    match cs.dropWhile Char.isDigit with
    | '.' :: rest => (rest.takeWhile Char.isDigit, rest.dropWhile Char.isDigit)
    | rest => ([], rest)
  if whole.isEmpty && fraction.isEmpty then none
  else
    (exponentOf? rest).map fun e =>
      ⟨negative, natOfDigits (whole ++ fraction), e - fraction.length⟩

/-- A decimal whose exponents are in bounds. -/
def inBounds (x : Decimal) : Bool :=
  decide (exponentBounds.1 ≤ x.exponent) && decide (x.magnitude ≤ exponentBounds.2)

end Decimal

namespace Number

/-- The sign of a number as a text. -/
def signText (negative : Bool) : String :=
  if negative then "-" else ""

/-- The text of a number. -/
def text : Number → String
  | .finite x => x.text
  | .infinite negative => signText negative ++ "Infinity"
  | .nan negative signaling payload =>
    signText negative ++ (if signaling then "sNaN" else "NaN")
      ++ (if payload = 0 then "" else natText payload)

/-- What is not a number: its mark and a payload of digits. -/
def nan? (negative : Bool) (cs : List Char) : Option Number :=
  let payload (signaling : Bool) (ds : List Char) : Option Number :=
    if ds.all Char.isDigit then some (.nan negative signaling (natOfDigits ds)) else none
  match cs with
  | 'n' :: 'a' :: 'n' :: ds => payload false ds
  | 's' :: 'n' :: 'a' :: 'n' :: ds => payload true ds
  | _ => none

/-- A number from characters without blanks and underscores, with ASCII digits. -/
def ofChars? (cs : List Char) : Option Number :=
  let (negative, rest) := splitSign cs
  let small := rest.map Char.toLower
  if small = "inf".toList ∨ small = "infinity".toList then some (.infinite negative)
  else
    match nan? negative small with
    | some x => some x
    | none =>
      match Decimal.unsigned? negative rest with
      | some x => if x.inBounds then some (.finite x) else none
      | none => none

/-- The number that a text writes. -/
def ofText? (s : String) : Option Number :=
  ofChars? (((trim isBlank s.toList).filter (· ≠ '_')).map asciiDigit)

end Number

end OrderFlow
