import OrderFlow.Check.Basic
import OrderFlow.Identifier
import OrderFlow.Price.Basic

/-!
# Checking single values

The readings of a value as an integer, a truth value, a floating point number, a text, an
identifier, a quantity or a price. A value of a neighbouring type is taken if nothing is lost:
the text of an integer, a floating point number without a fraction, a truth value. A torn text is
taken for none of them.
-/

namespace OrderFlow.Check

open Text Checked

/-- A fraction that adds nothing: a point and at least one zero, or nothing. -/
def isNullFraction : List Char → Bool
  | [] => true
  | '.' :: zeros => !zeros.isEmpty && zeros.all (· == '0')
  | _ => false

/-- The integer that a text writes: white space around, a sign, ASCII digits with single
underscores between them, and a fraction of zeros. -/
def numeral (s : String) : Checked Int :=
  let (negative, rest) := splitSign (trim isSpace s.toList)
  let whole := rest.takeWhile (· ≠ '.')
  match digitRun? whole with
  | none => defect .integerUnreadable
  | some ds =>
    if !isNullFraction (rest.dropWhile (· ≠ '.')) then defect .integerUnreadable
    else if (ds.dropWhile (· == '0')).length > literalDigits then defect .integerTooLong
    else accepted (signed negative (natOfDigits ds))

/-- The first magnitude of a floating point number that is too great for an integer. -/
def wholeLimit : Nat := 9223372036854775808

/-- An integer. -/
def integer : Value → Checked Int
  | .int n => accepted n
  | .bool b => accepted (if b then 1 else 0)
  | .float x =>
    match x.truncate?, x.whole? with
    | some _, some n =>
      if n.natAbs < wholeLimit then accepted n else defect .integerTooLong
    | some _, none => defect .integerHasFraction
    | none, _ => defect .notFinite
  | .decimal (.finite x) =>
    if x.isWhole then accepted x.truncate else defect .integerHasFraction
  | .decimal _ => defect .notFinite
  | .str s => numeral s
  | .torn _ _ => defect .notUnicode
  | _ => defect .notAnInteger

/-- Words for false. -/
def noWords : List String := ["0", "off", "f", "false", "n", "no"]

/-- Words for true. -/
def yesWords : List String := ["1", "on", "t", "true", "y", "yes"]

/-- The truth value of an integer. -/
def truthOfInt (n : Int) : Checked Bool :=
  if n = 0 then accepted false
  else if n = 1 then accepted true
  else defect .truthValueUnreadable

/-- A truth value. -/
def truth : Value → Checked Bool
  | .bool b => accepted b
  | .int n => truthOfInt n
  | .float x =>
    match x.whole? with
    | some n => truthOfInt n
    | none => defect .notATruthValue
  | .decimal (.finite x) =>
    if x.isWhole then truthOfInt x.truncate else defect .notATruthValue
  | .str s =>
    if noWords.contains (lower s) then accepted false
    else if yesWords.contains (lower s) then accepted true
    else defect .truthValueUnreadable
  | .torn _ _ => defect .notUnicode
  | _ => defect .notATruthValue

/-- A text. -/
def text : Value → Checked String
  | .str s => accepted s
  | .torn _ _ => defect .notUnicode
  | _ => defect .notAText

/-- The words for numbers without digits, in small letters. -/
def floatWord? (negative : Bool) (cs : List Char) : Option Binary64 :=
  let word := String.ofList (cs.map Char.toLower)
  if word = "inf" ∨ word = "infinity" then some (.infinite negative)
  else if word = "nan" then some .nan
  else none

/-- A text without its underscores, if each stands between two other characters. -/
def withoutUnderscores (cs : List Char) : List Char :=
  if cs.head? = some '_' ∨ cs.getLast? = some '_' ∨ (cs.zip cs.tail).contains ('_', '_') then cs
  else cs.filter (· ≠ '_')

/-- The floating point number that a text writes. -/
def floatNumeral (s : String) : Checked Binary64 :=
  let cs := withoutUnderscores (trim isSpace s.toList)
  let (negative, rest) := splitSign cs
  match floatWord? negative rest with
  | some x => accepted x
  | none =>
    match Binary64.ofChars? cs with
    | some x => accepted x
    | none => defect .floatUnreadable

/-- A floating point number that an integer can be taken for. -/
def floatOfInt (n : Int) : Checked Binary64 :=
  match Binary64.ofInt n with
  | .infinite _ => defect .notAFloat
  | x => accepted x

/-- A floating point number. -/
def float : Value → Checked Binary64
  | .float x => accepted x
  | .int n => floatOfInt n
  | .bool b => floatOfInt (if b then 1 else 0)
  | .decimal (.nan _ true _) => defect .notAFloat
  | .decimal x => accepted (.ofNumber x)
  | .str s => floatNumeral s
  | .torn _ _ => defect .notUnicode
  | _ => defect .notAFloat

/-- A number for a price. -/
def number : Value → Checked Number
  | .int n => accepted (.finite (.ofInt n))
  | .float x => finite x.toNumber
  | .decimal x => finite x
  | .str s =>
    match Number.ofText? s with
    | some x => finite x
    | none => defect .decimalUnreadable
  | .torn _ _ => defect .decimalUnreadable
  | _ => defect .notADecimal
where
  /-- A number that is finite. -/
  finite : Number → Checked Number
    | .finite x => accepted (.finite x)
    | _ => defect .notFinite

/-- A price. -/
def price (v : Value) : Checked Price :=
  (number v).andThen fun x => ofRefusable (Price.ofNumber x.text x)

/-- An identifier. -/
def id (kind : IdKind) (v : Value) : Checked (Id kind) :=
  (integer v).andThen fun n => ofRule (Id.ofInt kind n)

/-- A quantity. -/
def quantity (v : Value) : Checked Nat :=
  (integer v).andThen fun n => ofRule (Quantity.ofInt n)

end OrderFlow.Check
