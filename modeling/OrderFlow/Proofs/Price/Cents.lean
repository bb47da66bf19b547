import Mathlib.Algebra.Order.Group.Unbundled.Int
import OrderFlow.Proofs.Price.Basic

/-!
# Amounts in hundredths and back

An amount with two places and at most 28 digits passes to hundredths and back unchanged, and so does
a count of hundredths that passes to an amount and back. `toCents` multiplies by a hundred at 28
digits, so that the product of a great amount is rounded; but then it is zeros that are dropped
(`Decimal.toCents_hundredths`). What a quantity is worth at a price is therefore the same whether it
is counted in amounts or in hundredths (`amounts_as_cents`).
-/

namespace OrderFlow

namespace Decimal

variable {x y : Decimal}

theorem natAbs_signedCoefficient (x : Decimal) : x.signedCoefficient.natAbs = x.coefficient := by
  rw [signedCoefficient]
  split
  · rw [Int.natAbs_neg, Int.natAbs_natCast]
  · rw [Int.natAbs_natCast]

/-- Decimals of one exponent and one signed coefficient are equal as numbers. -/
theorem compare_of_same (places : x.exponent = y.exponent)
    (same : x.signedCoefficient = y.signedCoefficient) : x.compare y = .eq := by
  have coefficient : x.coefficient = y.coefficient := by
    rw [← x.natAbs_signedCoefficient, ← y.natAbs_signedCoefficient, same]
  have magnitude : x.magnitude = y.magnitude := by
    rw [Decimal.magnitude, Decimal.magnitude, places, coefficient]
  have aligned (e : ℤ) : x.coefficientAt e = y.coefficientAt e := by
    unfold coefficientAt
    rw [same, places]
  unfold compare
  rw [if_neg (not_not_intro (congrArg Int.sign same)), if_neg (not_not_intro magnitude)]
  split
  · rfl
  · exact Int.compare_eq_eq.2 (aligned _)

/-- The hundredths of an amount with two places are its coefficient. -/
theorem toCents_of_twoPlaces (places : x.exponent = -2) (few : x.coefficient < 10 ^ 28) :
    toCents (.finite x) = .ok x.signedCoefficient := by
  obtain ⟨negative, c, e⟩ := x
  obtain rfl : e = -2 := places
  exact toCents_hundredths few

end Decimal

open Decimal

variable {c q : ℤ} {x : Decimal} {p : Price}

/-- A count of hundredths of at most 28 digits is not rounded. -/
theorem ofCents_of_few (few : c.natAbs < 10 ^ 28) : ofCents c = ⟨c < 0, c.natAbs, -2⟩ :=
  round_of_lt few

theorem signedCoefficient_ofCents (few : c.natAbs < 10 ^ 28) :
    (ofCents c).signedCoefficient = c := by
  rw [ofCents_of_few few, signedCoefficient]
  simp only [decide_eq_true_eq]
  split <;> omega

theorem value_ofCents (few : c.natAbs < 10 ^ 28) : (ofCents c).value = c / 100 := by
  have places : (ofCents c).exponent = -2 := by rw [ofCents_of_few few]
  rw [value, signedCoefficient_ofCents few, places, div_eq_mul_inv]
  norm_num

theorem toCents_ofCents (few : c.natAbs < 10 ^ 28) : toCents (.finite (ofCents c)) = .ok c := by
  have amount := ofCents_of_few few
  have read := toCents_of_twoPlaces (x := ofCents c) (by rw [amount]) (by rw [amount]; exact few)
  rwa [signedCoefficient_ofCents few] at read

/-- An amount is what its hundredths are read back as; only zero loses its sign. -/
theorem ofCents_signedCoefficient (places : x.exponent = -2) (few : x.coefficient < 10 ^ 28) :
    ofCents x.signedCoefficient = ⟨x.negative && !x.isZero, x.coefficient, -2⟩ := by
  obtain ⟨negative, n, e⟩ := x
  obtain rfl : e = -2 := places
  have count : signedCoefficient ⟨negative, n, -2⟩ = if negative then -(n : ℤ) else n := rfl
  have size : (signedCoefficient ⟨negative, n, -2⟩).natAbs = n := natAbs_signedCoefficient _
  have sign : decide (signedCoefficient ⟨negative, n, -2⟩ < 0) = (negative && !(n == 0)) := by
    rw [count]
    cases negative with
    | false => simp
    | true =>
      rcases Nat.eq_zero_or_pos n with rfl | positive
      · rfl
      · have below : -(n : ℤ) < 0 := by omega
        rw [if_pos rfl, decide_eq_true below]
        simp [positive.ne']
  rw [ofCents_of_few (size.symm ▸ few), size, sign]
  rfl

/-- A quantity at a price is worth the product, which is not rounded as long as its digits
suffice. -/
theorem toCents_notional (few : |(p.cents : ℤ) * q| < 10 ^ 28) :
    toCents (.finite (notional p.toDecimal q)) = .ok (p.cents * q) := by
  have small : p.cents * q.natAbs < 10 ^ 28 := by
    rw [abs_mul, Int.abs_eq_natAbs q, Nat.abs_cast] at few
    exact_mod_cast few
  have exact : notional p.toDecimal q = ⟨p.belowZero != decide (q < 0), p.cents * q.natAbs, -2⟩ :=
    round_of_lt small
  have signed : (notional p.toDecimal q).signedCoefficient = p.cents * q := by
    rw [exact, signedCoefficient]
    cases zero : p.belowZero with
    | true => simp [p.cents_eq_zero zero]
    | false =>
      rcases lt_or_ge q 0 with negative | nonneg
      · simp [negative, Int.ofNat_natAbs_of_nonpos negative.le]
      · simp [not_lt.2 nonneg, Int.natAbs_of_nonneg nonneg]
  rw [← signed]
  refine toCents_of_twoPlaces ?_ ?_
  · rw [exact]
  · rw [exact]
    exact small

/-- **Amounts are the same in hundredths.** An amount with two places and fewer than 29 digits is
read back from its hundredths as an equal number, and as it is unless it is a zero with a sign. A
count of fewer than 10 ^ 28 hundredths is read back from its amount. The hundredths of a quantity at
a price are the quantity times those of the price, as long as the product is below 10 ^ 28. -/
theorem amounts_as_cents :
    (∀ x : Decimal, x.exponent = -2 → digitCount x.coefficient < 29 →
      ∃ c, toCents (.finite x) = .ok c ∧ (Number.finite (ofCents c)).eqv (.finite x) = true ∧
        ((x.negative && x.isZero) = false → ofCents c = x)) ∧
    (∀ c : ℤ, |c| < 10 ^ 28 → toCents (.finite (ofCents c)) = .ok c) ∧
    ∀ (p : Price) (q : ℤ), |(p.cents : ℤ) * q| < 10 ^ 28 →
      ∃ unit, toCents p.toNumber = .ok unit ∧
        toCents (.finite (notional p.toDecimal q)) = .ok (unit * q) := by
  refine ⟨?_, ?_, ?_⟩
  · intro x places digits
    have few : x.coefficient < 10 ^ 28 := (digitCount_le_iff (by decide)).1 (by omega)
    have back := ofCents_signedCoefficient places few
    refine ⟨_, toCents_of_twoPlaces places few, ?_, ?_⟩
    · have size : x.signedCoefficient.natAbs < 10 ^ 28 := by
        rwa [natAbs_signedCoefficient]
      have equal := compare_of_same (x := ofCents x.signedCoefficient) (y := x)
        (by rw [back, places]) (signedCoefficient_ofCents size)
      rw [Number.eqv, equal]
      rfl
    · intro plain
      rw [back]
      obtain ⟨negative, n, e⟩ := x
      obtain rfl : e = -2 := places
      cases negative with
      | false => rfl
      | true => simpa using plain
  · intro c few
    rw [Int.abs_eq_natAbs] at few
    exact toCents_ofCents (by exact_mod_cast few)
  · intro p q few
    refine ⟨p.cents, ?_, toCents_notional few⟩
    have read := toCents_of_twoPlaces (x := p.toDecimal) rfl p.cents_lt
    rwa [p.signedCoefficient_toDecimal] at read

namespace Sample

/-- A third of the greatest amount. -/
def third : Price :=
  ⟨3333333333333333333333333333, false, by decide, by decide⟩

/-- The greatest amount of 28 digits passes in both directions, with either sign, and as a
product. -/
theorem greatest_amount :
    (∃ c, toCents (.finite ⟨true, 9999999999999999999999999999, -2⟩) = .ok c ∧
      ofCents c = ⟨true, 9999999999999999999999999999, -2⟩) ∧
    toCents (.finite (ofCents (-9999999999999999999999999999))) =
      .ok (-9999999999999999999999999999) ∧
    ∃ unit, toCents third.toNumber = .ok unit ∧
      toCents (.finite (notional third.toDecimal 3)) = .ok (unit * 3) := by
  obtain ⟨amounts, counts, products⟩ := amounts_as_cents
  refine ⟨?_, counts _ (by decide), products third 3 (by decide)⟩
  have digits : digitCount 9999999999999999999999999999 ≤ 28 :=
    (digitCount_le_iff (by decide)).2 (by decide)
  obtain ⟨c, read, -, back⟩ := amounts ⟨true, 9999999999999999999999999999, -2⟩ rfl
    (Nat.lt_succ_of_le digits)
  exact ⟨c, read, back (by decide)⟩

end Sample

end OrderFlow
