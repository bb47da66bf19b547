import OrderFlow.Price.Basic
import OrderFlow.Value.Basic

/-!
# Prices from values

Integers, truth values, floating point numbers by their text, numeric texts, decimals, and
decimals in three parts are numbers; nothing else is.
-/

namespace OrderFlow

namespace Number

/-- A list of digits. -/
def digits? : List Value → Option (List Char)
  | [] => some []
  | v :: vs =>
    match v with
    | .int n =>
      if 0 ≤ n ∧ n ≤ 9 then (digits? vs).map (Text.digitChar n.toNat :: ·) else none
    | .bool b => (digits? vs).map ((if b then '1' else '0') :: ·)
    | _ => none

/-- A sign: zero or one. -/
def sign? : Value → Option Bool
  | .int 0 => some false
  | .int 1 => some true
  | .bool b => some b
  | _ => none

/-- The exponents that fit a machine word. -/
def wordExponent (n : Int) : Bool :=
  decide (-9223372036854775808 ≤ n) && decide (n ≤ 9223372036854775807)

/-- A number from its sign, its digits and its exponent, or a mark in place of that. -/
def ofParts (sign digits exponent : Value) : Except Failure Number := do
  let refuse {α : Type} (rule : String) : Except Failure α :=
    .error (.value (.decimalParts rule))
  let some negative := sign? sign
    | refuse "sign must be an integer with the value 0 or 1"
  let notAMark := "string argument in the third position must be 'F', 'n' or 'N'"
  let mark : Option (List Char) ← match exponent with
    | .str "F" => pure (some "inf".toList)
    | .str "n" => pure (some "nan".toList)
    | .str "N" => pure (some "snan".toList)
    | .str _ => refuse notAMark
    | .torn _ _ => refuse notAMark
    | .int n => if wordExponent n then pure none else .error .overflow
    | .bool _ => pure none
    | _ => refuse "exponent must be an integer"
  let some ds := (match digits with
      | .arr items => digits? items
      | _ => none)
    | refuse "coefficient must be a tuple of digits"
  match mark with
  | some name =>
    let payload := if name = "inf".toList then [] else ds
    match Number.ofChars? ((if negative then ['-'] else []) ++ name ++ payload) with
    | some x => return x
    | none => .error .invalidOperation
  | none =>
    let e := match exponent with
      | .int n => n
      | .bool true => 1
      | _ => 0
    let x : Decimal := ⟨negative, Text.natOfDigits ds, e⟩
    if x.inBounds then return .finite x else .error .invalidOperation

/-- The number that a value is. -/
def ofValue : Value → Except Failure Number
  | .null => .error .mistyped
  | .bool b => .ok (.finite (.ofInt (if b then 1 else 0)))
  | .int n => .ok (.finite (.ofInt n))
  | .float x => .ok x.toNumber
  | .decimal x => .ok x
  | .str s =>
    match Number.ofText? s with
    | some x => .ok x
    | none => .error .invalidOperation
  | .torn _ _ => .error .invalidOperation
  | .arr [sign, digits, exponent] => ofParts sign digits exponent
  | .arr _ => .error (.value (.decimalParts "argument must be a sequence of length 3"))
  | .obj _ => .error .mistyped

end Number

/-- The price that a value is. -/
def Price.ofValue (v : Value) : Except Failure Price := do
  let x ← Number.ofValue v
  (Price.ofNumber v.shown x).mapError .ofRefusal

end OrderFlow
