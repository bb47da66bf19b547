import OrderFlow.Proofs.Binary64.Bounds
import OrderFlow.Store.Cell

/-!
# Totals in cells

A cell `Tracks` a total: it holds the total as long as it fits, and once the total is too great
the cell is a floating point number of at least 2⁶³. Adding a count that is not negative keeps
this (`Tracks.add`), so that a cell which does not exceed the integers that fit holds its total
exactly, whatever happened before (`Tracks.eq_of_within`).
-/

namespace OrderFlow.Cell

/-- A cell is not greater than the greatest integer that fits. -/
def Within (c : Cell) : Prop :=
  lt (.int 9223372036854775807) c = false

/-- A cell holds a total, or it is out of range because the total is. -/
inductive Tracks (c : Cell) (n : Int) : Prop
  | within (fits : Fits n) (eq : c = .int n)
  | beyond (large : 9223372036854775807 < n) (x : Binary64) (eq : c = .real x)
      (reach : x.Reaches (2 ^ 63))

/-- Integers compare as such. -/
theorem lt_int (a b : Int) : lt (.int a) (.int b) = decide (a < b) := by
  have scaled (n : Int) : Binary64.scaled (n < 0) n.natAbs 0 0 = n := by
    have whole : n.natAbs * Nat.pow 2 ((0 : Int) - 0).toNat = n.natAbs := Nat.mul_one _
    rw [Binary64.scaled, whole]
    by_cases negative : n < 0
    · rw [decide_eq_true negative, if_pos rfl]
      omega
    · rw [decide_eq_false negative, if_neg Bool.false_ne_true]
      omega
  rw [lt, exact, exact, Binary64.lt, Binary64.compare?, Int.min_self, scaled, scaled]
  by_cases less : a < b
  · rw [Int.compare_eq_lt.2 less, decide_eq_true less]
    rfl
  · have other : compare a b ≠ .lt := fun h => less (Int.compare_eq_lt.1 h)
    rw [decide_eq_false less, beq_eq_false_iff_ne]
    exact fun same => other (Option.some.inj same)

variable {x : Binary64}

/-- A number beyond the integers that fit stays a floating point number. -/
theorem ofReal_of_reaches (h : x.Reaches (2 ^ 63)) : ofReal x = .real x := by
  cases x with
  | nan => rfl
  | infinite s => rfl
  | finite s m e =>
    obtain ⟨rfl, hm⟩ := h
    unfold ofReal
    split
    · rename_i n hn
      have large : ¬ n < 9223372036854775807 := by
        simp only [Binary64.whole?, Binary64.fraction, Nat.pow_eq, Bool.false_eq_true,
          if_false] at hn
        split at hn
        · obtain rfl := Option.some.inj hn
          have := (Nat.le_div_iff_mul_le (Nat.two_pow_pos (-e).toNat)).2 hm
          omega
        · cases hn
      rw [if_neg fun h => large h.2]
    · rfl

theorem not_within_of_reaches (h : x.Reaches (2 ^ 63)) : ¬ Within (.real x) := by
  cases x with
  | nan => exact h.elim
  | infinite s =>
    obtain rfl : s = false := h
    simp [Within, lt, exact, Binary64.lt, Binary64.compare?]
  | finite s m e =>
    obtain ⟨rfl, hm⟩ := h
    have greater : 9223372036854775807 * 2 ^ (0 - min 0 e).toNat < m * 2 ^ (e - min 0 e).toNat := by
      rcases Int.le_total 0 e with he | he
      · rw [show (0 - min 0 e).toNat = 0 by omega, show e - min 0 e = e by omega]
        rw [show (-e).toNat = 0 by omega] at hm
        omega
      · rw [show 0 - min 0 e = -e by omega, show (e - min 0 e).toNat = 0 by omega]
        rw [show e.toNat = 0 by omega] at hm
        have := Nat.two_pow_pos (-e).toNat
        omega
    have less : (9223372036854775807 * 2 ^ (0 - min 0 e).toNat : Nat) <
        ((m * 2 ^ (e - min 0 e).toNat : Nat) : Int) := Int.ofNat_lt.2 greater
    rw [Within, lt, exact, exact, Binary64.lt, Binary64.compare?]
    simp only [Binary64.scaled, Nat.pow_eq, Int.reduceLT, decide_false, Bool.false_eq_true,
      if_false]
    rw [show Int.natAbs 9223372036854775807 = 9223372036854775807 from rfl,
      Int.compare_eq_lt.2 less]
    decide

namespace Tracks

variable {c : Cell} {m n : Int}

/-- A sum is tracked through every addition, in range or not. -/
theorem add (h : c.Tracks m) (nonneg : 0 ≤ n) (fits : Fits n) :
    (c.add (.int n)).Tracks (m + n) := by
  obtain ⟨k, rfl⟩ := Int.eq_ofNat_of_zero_le nonneg
  unfold Fits at *
  obtain ⟨hm, rfl⟩ | ⟨large, x, rfl, reach⟩ := h
  · rw [Cell.add]
    split
    · rename_i hs
      exact .within hs rfl
    · rename_i hs
      unfold Fits at *
      obtain ⟨j, rfl⟩ := Int.eq_ofNat_of_zero_le (show 0 ≤ m by omega)
      have reach := Binary64.add_ofInt_reaches (a := j) (b := k) (by omega) (by omega) (by omega)
      exact .beyond (by omega) _ (ofReal_of_reaches reach) reach
  · have zero : (Binary64.ofInt k).Reaches 0 := by
      rw [Binary64.ofInt_natCast]
      exact Binary64.ofRatio_reaches_zero k 1
    have reach := Binary64.add_reaches_pow reach zero
    exact .beyond (by omega) _ (ofReal_of_reaches reach) reach

/-- A cell in range holds its total. -/
theorem eq_of_within (h : c.Tracks n) (hc : c.Within) : c = .int n ∧ Fits n := by
  obtain ⟨fits, rfl⟩ | ⟨-, x, rfl, reach⟩ := h
  · exact ⟨rfl, fits⟩
  · exact absurd hc (not_within_of_reaches reach)

theorem eq_of_le (h : c.Tracks n) (hn : n ≤ 9223372036854775807) : c = .int n := by
  obtain ⟨-, rfl⟩ | ⟨large, -⟩ := h
  · rfl
  · omega

end Tracks

end OrderFlow.Cell
