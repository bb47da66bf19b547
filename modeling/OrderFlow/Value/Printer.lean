import OrderFlow.Value.Basic

/-!
# Writing documents

The text of a value as a document on one line. It has ASCII characters only: all others are
escaped, those beyond 16 bits as surrogate pairs. Decimals are written as texts, since a
document has no decimals.
-/

namespace OrderFlow.Document

open Text

/-- The letter that escapes a code point. -/
def escapeLetter? : Nat → Option Char
  | 0x22 => some '\x22'
  | 0x5c => some '\\'
  | 8 => some 'b'
  | 12 => some 'f'
  | 10 => some 'n'
  | 13 => some 'r'
  | 9 => some 't'
  | _ => none

/-- A code unit as an escape with four hexadecimal digits. -/
def unitText (unit : Nat) : List Char :=
  let digit (place : Nat) : Char := Nat.digitChar (unit / place % 16)
  ['\\', 'u', digit 4096, digit 256, digit 16, digit 1]

/-- A code point inside a text of a document. -/
def pointText (n : Nat) : List Char :=
  match escapeLetter? n with
  | some letter => ['\\', letter]
  | none =>
    if 32 ≤ n ∧ n < 127 then [Char.ofNat n]
    else if n < 0x10000 then unitText n
    else unitText (0xd800 + (n - 0x10000) / 1024) ++ unitText (0xdc00 + (n - 0x10000) % 1024)

/-- Code points between quotes. -/
def pointsText (points : List Nat) : String :=
  String.ofList ('\x22' :: points.flatMap pointText ++ ['\x22'])

/-- A text between its quotes. -/
def textOf (s : String) : String :=
  pointsText (s.toList.map Char.toNat)

/-- A floating point number; the words for what has no digits are those of `read`. -/
def floatText : Binary64 → String
  | .infinite negative => Number.signText negative ++ "Infinity"
  | .nan => "NaN"
  | x => x.text

mutual

/-- The text of a value. -/
def write : Value → String
  | .null => "null"
  | .bool b => if b then "true" else "false"
  | .int n => intText n
  | .float x => floatText x
  | .decimal x => textOf x.text
  | .str s => textOf s
  | .torn points _ => pointsText points
  | .arr items => "[" ++ ", ".intercalate (writeItems items) ++ "]"
  | .obj fields => "\x7b" ++ ", ".intercalate (writeFields fields) ++ "\x7d"

/-- The texts of the items of a list. -/
def writeItems : List Value → List String
  | [] => []
  | v :: vs => write v :: writeItems vs

/-- The texts of the fields of an object. -/
def writeFields : List (String × Value) → List String
  | [] => []
  | (name, v) :: rest => (textOf name ++ ": " ++ write v) :: writeFields rest

end

end OrderFlow.Document
