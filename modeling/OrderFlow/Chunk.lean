import OrderFlow.Failure

/-!
# Chunks

A list cut into pieces of one size; only the last piece may be shorter.
-/

namespace OrderFlow

/-- The pieces of a list; `size` is one less than their length. -/
def piecesOf {α : Type} (size : Nat) : List α → List (List α)
  | [] => []
  | x :: xs => (x :: xs.take size) :: piecesOf size (xs.drop size)
termination_by xs => xs.length
decreasing_by
  simp only [List.length_drop, List.length_cons]
  omega

/-- The pieces of a list, for a positive size. -/
def chunks {α : Type} (size : Int) (xs : List α) : Except Failure (List (List α)) :=
  if size ≤ 0 then .error (.value (.chunkSize size)) else .ok (piecesOf (size.toNat - 1) xs)

end OrderFlow
