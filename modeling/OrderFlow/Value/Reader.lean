import OrderFlow.Value.Obstacle

/-!
# Reading documents

`Document.read` reads one value from the text of a document. A number without fraction and
exponent is an integer of any size up to the digits that a literal may have, every other
number is a floating point number, and the three words for infinities and not-a-number are
numbers too. Texts admit no control characters; half of a surrogate pair makes a text a torn one.
Lists and objects may be nested as deep as there is room.
-/

namespace OrderFlow

open Text

namespace Document

/-- Why a text is not read: it is no document, or one with an obstacle. -/
inductive Fault
  | malformed
  | stopped (obstacle : Obstacle)
deriving DecidableEq

/-- White space of a document. -/
def isGap (c : Char) : Bool :=
  c == ' ' || c == '\t' || c == '\n' || c == '\r'

/-- A text from its first character that is not white space on. -/
def skipGap (cs : List Char) : List Char :=
  cs.dropWhile isGap

/-- The value of a hexadecimal digit. -/
def hexDigit? (c : Char) : Option Nat :=
  if c.isDigit then some (c.toNat - 48)
  else if 'a' ≤ c ∧ c ≤ 'f' then some (c.toNat - 87)
  else if 'A' ≤ c ∧ c ≤ 'F' then some (c.toNat - 55)
  else none

/-- The value of four hexadecimal digits. -/
def hexUnit? (a b c d : Char) : Option Nat := do
  return ((← hexDigit? a) * 16 + (← hexDigit? b)) * 256
    + (← hexDigit? c) * 16 + (← hexDigit? d)

/-- The character of an escape of one letter. -/
def shortEscape? : Char → Option Nat
  | '\x22' => some 0x22
  | '\\' => some 0x5c
  | '/' => some 0x2f
  | 'b' => some 8
  | 'f' => some 12
  | 'n' => some 10
  | 'r' => some 13
  | 't' => some 9
  | _ => none

/-- The code units of a text up to its closing quote, in reverse, and what follows it. -/
def units? : List Char → List Nat → Option (List Nat × List Char)
  | [], _ => none
  | '\x22' :: cs, acc => some (acc, cs)
  | '\\' :: 'u' :: a :: b :: c :: d :: cs, acc =>
    match hexUnit? a b c d with
    | some n => units? cs (n :: acc)
    | none => none
  | '\\' :: e :: cs, acc =>
    match shortEscape? e with
    | some n => units? cs (n :: acc)
    | none => none
  | c :: cs, acc => if c.toNat < 32 ∨ c = '\\' then none else units? cs (c.toNat :: acc)

/-- The second half of a surrogate pair. -/
def isLow (unit : Nat) : Bool :=
  decide (0xdc00 ≤ unit) && decide (unit ≤ 0xdfff)

/-- The first half of a surrogate pair. -/
def isHigh (unit : Nat) : Bool :=
  decide (0xd800 ≤ unit) && decide (unit ≤ 0xdbff)

/-- Code units in reverse as code points, a pair of surrogates as one. -/
def joinUnits : List Nat → List Nat → List Nat
  | low :: high :: rest, acc =>
    if isLow low && isHigh high then
      joinUnits rest ((0x10000 + (high - 0xd800) * 1024 + (low - 0xdc00)) :: acc)
    else joinUnits (high :: rest) (low :: acc)
  | [unit], acc => unit :: acc
  | [], acc => acc

/-- The code points of the text behind an opening quote. -/
def readText (cs : List Char) : Except Fault (List Nat × List Char) :=
  match units? cs [] with
  | some (units, rest) => .ok (joinUnits units [], rest)
  | none => .error .malformed

/-- The fraction of a number: a point and at least one digit. -/
def fraction : List Char → List Char × List Char
  | '.' :: cs =>
    let ds := cs.takeWhile Char.isDigit
    if ds.isEmpty then ([], '.' :: cs) else ('.' :: ds, cs.dropWhile Char.isDigit)
  | cs => ([], cs)

/-- The exponent of a number: its mark, a sign, and at least one digit. -/
def exponent (cs : List Char) : List Char × List Char :=
  match cs with
  | e :: rest =>
    if e = 'e' ∨ e = 'E' then
      let (sign, rest) :=
        match rest with
        | '+' :: r => (['+'], r)
        | '-' :: r => (['-'], r)
        | r => ([], r)
      let ds := rest.takeWhile Char.isDigit
      if ds.isEmpty then ([], cs) else (e :: sign ++ ds, rest.dropWhile Char.isDigit)
    else ([], cs)
  | [] => ([], [])

/-- The digits before the point: a zero alone, or digits that start with another. -/
def whole (cs : List Char) : List Char × List Char :=
  match cs with
  | '0' :: rest => (['0'], rest)
  | _ => (cs.takeWhile Char.isDigit, cs.dropWhile Char.isDigit)

/-- An unsigned number. -/
def readNumber (negative : Bool) (cs : List Char) : Except Fault (Value × List Char) :=
  let (ds, rest) := whole cs
  if ds.isEmpty then .error .malformed
  else
    let (frac, rest) := fraction rest
    let (exp, rest) := exponent rest
    if frac.isEmpty && exp.isEmpty then
      if ds.length > literalDigits then .error (.stopped (.integerTooLong ds.length))
      else .ok (.int (signed negative (natOfDigits ds)), rest)
    else
      match Decimal.unsigned? negative (ds ++ frac ++ exp) with
      | some x => .ok (.float (Binary64.ofDecimal x), rest)
      | none => .error .malformed

/-- A word with its value. -/
def words : List (List Char × Value) :=
  [("null".toList, .null), ("true".toList, .bool true), ("false".toList, .bool false),
   ("NaN".toList, .float .nan), ("Infinity".toList, .float (.infinite false)),
   ("-Infinity".toList, .float (.infinite true))]

/-- A word or a number. -/
def readScalar (cs : List Char) : Except Fault (Value × List Char) :=
  match words.findSome? fun word => (word.1.isPrefixOf? cs).map fun rest => (word.2, rest) with
  | some found => .ok found
  | none =>
    match cs with
    | '-' :: rest => readNumber true rest
    | _ => readNumber false cs

mutual

/-- The value that a text starts with, where lists and objects may be nested so many levels deep;
`fuel` bounds the values and separators read. -/
def readValue (levels : Nat) (cs : List Char) : Nat → Except Fault (Value × List Char)
  | 0 => .error .malformed
  | fuel + 1 =>
    match cs with
    | '\x22' :: rest => (readText rest).map fun (points, rest) => (.ofPoints points, rest)
    | '[' :: rest =>
      if levels = 0 then .error (.stopped .tooDeep)
      else
        match skipGap rest with
        | ']' :: rest => .ok (.arr [], rest)
        | rest => readItems (levels - 1) rest [] fuel
    | '\x7b' :: rest =>
      if levels = 0 then .error (.stopped .tooDeep)
      else
        match skipGap rest with
        | '\x7d' :: rest => .ok (.obj [], rest)
        | rest => readFields (levels - 1) rest [] fuel
    | _ => readScalar cs

/-- The items of a list up to its end, after those read before, which are in reverse. -/
def readItems (levels : Nat) (cs : List Char) (before : List Value) :
    Nat → Except Fault (Value × List Char)
  | 0 => .error .malformed
  | fuel + 1 => do
    let (v, rest) ← readValue levels cs fuel
    match skipGap rest with
    | ',' :: rest => readItems levels (skipGap rest) (v :: before) fuel
    | ']' :: rest => .ok (.arr (v :: before).reverse, rest)
    | _ => .error .malformed

/-- The fields of an object up to its end, after those read before. Names are mended where they
are torn, since no record has a field of such a name. -/
def readFields (levels : Nat) (cs : List Char) (before : List (String × Value)) :
    Nat → Except Fault (Value × List Char)
  | 0 => .error .malformed
  | fuel + 1 =>
    match cs with
    | '\x22' :: rest => do
      let (name, rest) ← readText rest
      match skipGap rest with
      | ':' :: rest =>
        let (v, rest) ← readValue levels (skipGap rest) fuel
        let fields := Value.setField before (Value.mended name) v
        match skipGap rest with
        | ',' :: rest => readFields levels (skipGap rest) fields fuel
        | '\x7d' :: rest => .ok (.obj fields, rest)
        | _ => .error .malformed
      | _ => .error .malformed
    | _ => .error .malformed

end

/-- The value of a document, with nothing but white space around it. -/
def read (room : Room) (s : String) : Except Fault Value :=
  let cs := s.toList
  match readValue room.levels (skipGap cs) (cs.length + 1) with
  | .ok (v, rest) => if (skipGap rest).isEmpty then .ok v else .error .malformed
  | .error fault => .error fault

end Document

end OrderFlow
