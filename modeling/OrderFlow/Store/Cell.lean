import OrderFlow.Binary64.Basic

/-!
# Cells

A cell of a table holds a 64-bit integer. A sum that does not fit becomes a floating point
number, and a later sum that is an integer in range becomes an integer again.
-/

namespace OrderFlow

/-- A number in a table. -/
inductive Cell
  | int (n : Int)
  | real (x : Binary64)
deriving DecidableEq

namespace Cell

/-- An integer of 64 bits. -/
def Fits (n : Int) : Prop :=
  -9223372036854775808 ≤ n ∧ n ≤ 9223372036854775807

instance (n : Int) : Decidable (Fits n) :=
  inferInstanceAs (Decidable (_ ∧ _))

/-- A floating point number as it is kept: as an integer if it is one strictly inside the
integers that fit. -/
def ofReal (x : Binary64) : Cell :=
  match x.whole? with
  | some n => if -9223372036854775808 < n ∧ n < 9223372036854775807 then int n else real x
  | none => real x

/-- A cell as a floating point number. -/
def toReal : Cell → Binary64
  | int n => .ofInt n
  | real x => x

/-- The sum, exact as long as it fits. -/
def add : Cell → Cell → Cell
  | int a, int b =>
    if Fits (a + b) then int (a + b) else ofReal ((Binary64.ofInt a).add (.ofInt b))
  | a, b => ofReal (a.toReal.add b.toReal)

/-- A cell as an integer; a fraction is dropped. -/
def toInt : Cell → Int
  | int n => n
  | real x => x.truncate?.getD 0

/-- A cell as a number of which only the sign and the magnitude matter; an integer keeps all
of its digits. -/
def exact : Cell → Binary64
  | int n => .finite (n < 0) n.natAbs 0
  | real x => x

/-- A cell that is less than another one as a number. -/
def lt (a b : Cell) : Bool :=
  a.exact.lt b.exact

end Cell

end OrderFlow
