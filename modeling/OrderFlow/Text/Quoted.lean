import OrderFlow.Text.Integer
import OrderFlow.Text.Printable

/-!
# Quoted text

A text inside a message stands between quotes, with what is not printable escaped. The quote
is the single one unless the text holds single quotes only.
-/

namespace OrderFlow.Text

/-- A number in the hexadecimal system with at least `width` digits. -/
def hexText (width n : Nat) : String :=
  let ds := Nat.toDigits 16 n
  String.ofList (List.replicate (width - ds.length) '0' ++ ds)

/-- The quote that a text is written between. -/
def quoteFor (cs : List Char) : Char :=
  if cs.contains '\x27' && !cs.contains '\x22' then '\x22' else '\x27'

/-- A character as it stands between the given quotes. -/
def escaped (quote c : Char) : String :=
  if c = quote ∨ c = '\\' then "\\" ++ c.toString
  else if c = '\t' then "\\t"
  else if c = '\n' then "\\n"
  else if c = '\r' then "\\r"
  else if isPrintable c then c.toString
  else if c.toNat < 0x100 then "\\x" ++ hexText 2 c.toNat
  else if c.toNat < 0x10000 then "\\u" ++ hexText 4 c.toNat
  else "\\U" ++ hexText 8 c.toNat

/-- A text between quotes. -/
def quoted (s : String) : String :=
  let cs := s.toList
  let quote := quoteFor cs
  quote.toString ++ String.join (cs.map (escaped quote)) ++ quote.toString

/-- A code point that is a character. -/
def character? (n : Nat) : Option Char :=
  if n.isValidChar then some (Char.ofNat n) else none

/-- Code points between quotes; those that are no characters are escaped by their numbers. -/
def quotedPoints (points : List Nat) : String :=
  let quote := quoteFor (points.filterMap character?)
  let shown (n : Nat) : String :=
    match character? n with
    | some c => escaped quote c
    | none => "\\u" ++ hexText 4 n
  quote.toString ++ String.join (points.map shown) ++ quote.toString

/-- The first `n` characters of a text. -/
def cut (n : Nat) (s : String) : String :=
  String.ofList (s.toList.take n)

end OrderFlow.Text
