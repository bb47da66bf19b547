import OrderFlow.Text.Blank
import OrderFlow.Text.Digit

/-!
# Integers in text

`natText` and `intText` write an integer in the decimal system. Two grammars read one back:
`Literal.read` admits digits of every script, `numeral?` ASCII digits and a fraction of
zeros. Both admit a sign, single underscores between digits, and blanks around the whole.
-/

namespace OrderFlow.Text

/-- The decimal digits of a natural number, without leading zeros. -/
def natText (n : Nat) : String :=
  String.ofList (Nat.toDigits 10 n)

/-- The decimal digits of an integer behind its sign. -/
def intText (n : Int) : String :=
  if n < 0 then "-" ++ natText n.natAbs else natText n.natAbs

/-- A natural number written with at least `width` digits. -/
def padded (width n : Nat) : String :=
  let ds := Nat.toDigits 10 n
  String.ofList (List.replicate (width - ds.length) '0' ++ ds)

/-- The number that a list of ASCII digits writes. -/
def natOfDigits (ds : List Char) : Nat :=
  Nat.ofDigitChars 10 ds 0

/-- A leading sign, true for a minus, and the text behind it. -/
def splitSign : List Char → Bool × List Char
  | '-' :: cs => (true, cs)
  | '+' :: cs => (false, cs)
  | cs => (false, cs)

/-- An integer from its sign and its magnitude. -/
def signed (negative : Bool) (n : Nat) : Int :=
  if negative then -(n : Int) else n

/-- The digits of a nonempty run of ASCII digits in which single underscores may stand
between two digits. -/
def digitRun? : List Char → Option (List Char)
  | [] => none
  | [c] => if c.isDigit then some [c] else none
  | c :: '_' :: cs => if c.isDigit then (digitRun? cs).map (c :: ·) else none
  | c :: cs => if c.isDigit then (digitRun? cs).map (c :: ·) else none

/-- The most digits an integer literal may have. -/
def literalDigits : Nat := 4300

/-- What a text says as an integer literal. -/
inductive Literal
  | value (n : Int)
  | tooLong (digits : Nat)
  | malformed
deriving DecidableEq

/-- A literal: blanks around, a sign, digits of any script. -/
def Literal.read (s : String) : Literal :=
  let (negative, rest) := splitSign ((trim isBlank s.toList).map asciiDigit)
  match digitRun? rest with
  | none => .malformed
  | some ds =>
    if ds.length > literalDigits then .tooLong ds.length
    else .value (signed negative (natOfDigits ds))

end OrderFlow.Text
