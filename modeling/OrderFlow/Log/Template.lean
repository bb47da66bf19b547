import OrderFlow.Value.Basic

/-!
# Templates

The text of a record is a template whose places are filled with arguments. A place begins with
a percent sign; it may name the field that fills it, and it says how the argument is written and
in how many columns. `Template.fill` reads a template as pieces and fills them in order, each
place with an argument of its own; there is no text if arguments are left over or missing.
-/

namespace OrderFlow.Log

open Text

/-- How an argument is written. -/
inductive Style
  | shown
  | quoted
  | integer
  | radix (base : Nat) (mark : String) (capital : Bool)
  | places
  | percent

/-- The style that a letter stands for. -/
def Style.ofLetter? : Char → Option Style
  | 's' => some shown
  | 'r' => some quoted
  | 'd' => some integer
  | 'i' => some integer
  | 'u' => some integer
  | 'o' => some (radix 8 "0o" false)
  | 'x' => some (radix 16 "0x" false)
  | 'X' => some (radix 16 "0X" true)
  | 'f' => some places
  | 'F' => some places
  | '%' => some percent
  | _ => none

/-- A place: the field that fills it, marks, the least width, digits or characters, and the
style. -/
structure Place where
  key : Option String
  marks : List Char
  width : Nat
  precision : Option Nat
  style : Style

/-- A piece of a template. -/
inductive Piece
  | literal (c : Char)
  | place (p : Place)

/-- What the places of a template are filled with: values in turn, or the fields of an object,
which can fill the first place as a whole. -/
inductive Supply
  | listed (vs : List Value)
  | named (fields : List (String × Value)) (whole : Option Value)

namespace Template

/-- A character that is a mark of a place. -/
def isMark (c : Char) : Bool :=
  ['-', '+', ' ', '0', '#'].contains c

/-- A character that says how wide a number is stored, which does not matter. -/
def isSize (c : Char) : Bool :=
  ['h', 'l', 'L'].contains c

/-- The name of a field in round brackets, and what follows. -/
def key? : List Char → Option (Option String × List Char)
  | '(' :: cs =>
    match cs.dropWhile (· ≠ ')') with
    | _ :: rest => some (some (String.ofList (cs.takeWhile (· ≠ ')'))), rest)
    | [] => none
  | cs => some (none, cs)

/-- The digits behind a point, and what follows. -/
def precision (cs : List Char) : Option Nat × List Char :=
  match cs with
  | '.' :: cs => (some (natOfDigits (cs.takeWhile Char.isDigit)), cs.dropWhile Char.isDigit)
  | _ => (none, cs)

/-- The place at the start of a text, behind its percent sign, and what follows. -/
def place? (cs : List Char) : Option (Place × List Char) := do
  let (key, cs) ← key? cs
  let marks := cs.takeWhile isMark
  let cs := cs.dropWhile isMark
  let width := natOfDigits (cs.takeWhile Char.isDigit)
  let (precision, cs) := precision (cs.dropWhile Char.isDigit)
  let cs := match cs with
    | c :: rest => if isSize c then rest else cs
    | [] => cs
  match cs with
  | c :: cs => return (⟨key, marks, width, precision, ← Style.ofLetter? c⟩, cs)
  | [] => none

/-- The pieces of a template. -/
def pieces? : List Char → Option (List Piece)
  | [] => some []
  | '%' :: cs => do
    let (p, rest) ← place? cs
    return .place p :: (← pieces? (cs.drop (cs.length - rest.length)))
  | c :: cs => (pieces? cs).map (.literal c :: ·)
termination_by cs => cs.length
decreasing_by all_goals simp only [List.length_drop, List.length_cons]; omega

/-- The integer that a value is, with its fraction dropped. -/
def integer? : Value → Option Int
  | .int n => some n
  | .bool b => some (if b then 1 else 0)
  | .float x => x.truncate?
  | .decimal (.finite x) => some x.truncate
  | _ => none

/-- The whole number that a value is. -/
def whole? : Value → Option Int
  | .int n => some n
  | .bool b => some (if b then 1 else 0)
  | _ => none

/-- The floating point number nearest to a value. -/
def float? : Value → Option Binary64
  | .float x => some x
  | .decimal x => some (.ofNumber x)
  | v => (whole? v).bind fun n =>
    match Binary64.ofInt n with
    | .infinite _ => none
    | x => some x

/-- A text of at least so many columns, aligned to the right unless a mark says otherwise. -/
def aligned (p : Place) (s : String) : String :=
  let blanks := String.ofList (List.replicate (p.width - s.length) ' ')
  if p.marks.contains '-' then s ++ blanks else blanks ++ s

/-- The sign of a number as the marks want it. -/
def signOf (p : Place) (negative : Bool) : String :=
  if negative then "-"
  else if p.marks.contains '+' then "+"
  else if p.marks.contains ' ' then " "
  else ""

/-- A number behind its sign, with zeros between the two if a mark says so. -/
def number (p : Place) (negative : Bool) (mark digits : String) : String :=
  let sign := signOf p negative ++ mark
  let zeros :=
    if p.marks.contains '0' && !p.marks.contains '-' then
      List.replicate (p.width - sign.length - digits.length) '0'
    else []
  aligned p (sign ++ String.ofList zeros ++ digits)

/-- The digits of a natural number, as many as a place wants. -/
def digits (p : Place) (base n : Nat) : String :=
  let ds := Nat.toDigits base n
  String.ofList (List.replicate (p.precision.getD 1 - ds.length) '0' ++ ds)

/-- How many decimals are written if a place does not tell. -/
def defaultPlaces : Nat := 6

/-- A floating point number with a fixed count of decimals. -/
def decimals (p : Place) (x : Binary64) : String :=
  let s := x.fixed (p.precision.getD defaultPlaces)
  match s.toList with
  | '-' :: cs => number p true "" (String.ofList cs)
  | _ => number p false "" s

/-- The part of a text that a place has room for. -/
def excerpt (p : Place) (s : String) : String :=
  aligned p (match p.precision with
    | some n => cut n s
    | none => s)

/-- An argument as a place writes it, if it is of the place's kind. -/
def write? (p : Place) (v : Value) : Option String :=
  match p.style with
  | .shown => some (excerpt p v.shown)
  | .quoted => some (excerpt p v.inner)
  | .integer => (integer? v).map fun n => number p (n < 0) "" (digits p 10 n.natAbs)
  | .radix base mark capital => (whole? v).map fun n =>
    let ds := digits p base n.natAbs
    number p (n < 0) (if p.marks.contains '#' then mark else "")
      (if capital then ds.map Char.toUpper else ds)
  | .places => (float? v).map (decimals p)
  | .percent => some "%"

/-- The argument for a place, and what is left for the places behind it. -/
def next? (p : Place) : Supply → Option (Value × Supply)
  | .listed vs =>
    match p.key, vs with
    | none, v :: vs => some (v, .listed vs)
    | _, _ => none
  | .named fields whole =>
    match p.key with
    | some key => (fields.lookup key).map fun v => (v, .named fields none)
    | none => whole.map fun v => (v, .named fields none)

/-- Nothing is left over. Fields need not be used. -/
def isSpent : Supply → Bool
  | .listed vs => vs.isEmpty
  | .named _ _ => true

/-- Pieces filled in order. -/
def fillPieces : List Piece → Supply → Option String
  | [], supply => if isSpent supply then some "" else none
  | .literal c :: pieces, supply => (fillPieces pieces supply).map (c.toString ++ ·)
  | .place p :: pieces, supply =>
    match p.style with
    | .percent => (fillPieces pieces supply).map ("%" ++ ·)
    | _ => do
      let (v, supply) ← next? p supply
      let s ← write? p v
      return s ++ (← fillPieces pieces supply)

/-- What arguments fill: an object with fields that comes alone fills places by name. -/
def supplyOf : List Value → Supply
  | [.obj (field :: fields)] => .named (field :: fields) (some (.obj (field :: fields)))
  | vs => .listed vs

/-- A template filled with arguments; one without arguments stands for itself. -/
def fill (template : String) (args : List Value) : Option String :=
  if args.isEmpty then some template
  else do fillPieces (← pieces? template.toList) (supplyOf args)

end Template

end OrderFlow.Log
