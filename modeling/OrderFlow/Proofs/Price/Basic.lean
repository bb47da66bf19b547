import OrderFlow.Proofs.Decimal.Quotient

/-!
# Comparing prices

Prices compare as their counts of hundredths do (`lt_toDecimal`), whichever sign a zero has. The
greater and the smaller of two prices are prices, too.
-/

namespace OrderFlow

theorem maxPrice_cases (a b : Decimal) : maxPrice a b = a ∨ maxPrice a b = b := by
  unfold maxPrice
  split
  · exact .inl rfl
  · exact .inr rfl

theorem minPrice_cases (a b : Decimal) : minPrice a b = a ∨ minPrice a b = b := by
  unfold minPrice
  split
  · exact .inl rfl
  · exact .inr rfl

theorem digitCount_mono {m n : Nat} (h : m ≤ n) : digitCount m ≤ digitCount n :=
  (digitCount_le_iff (digitCount_pos n)).2 (Nat.lt_of_le_of_lt h (Decimal.lt_pow_digitCount n))

namespace Price

variable (p q : Price)

@[simp] theorem signedCoefficient_toDecimal : p.toDecimal.signedCoefficient = p.cents := by
  unfold Decimal.signedCoefficient toDecimal
  split
  · rename_i h
    simp [p.cents_eq_zero h]
  · rfl

/-- A price holds its hundredths. -/
theorem holds_toDecimal : p.toDecimal.Holds p.cents :=
  .exact p.cents_lt rfl rfl p.cents_eq_zero

theorem value_toDecimal : p.toDecimal.value = p.cents / 100 :=
  p.holds_toDecimal.value_eq p.cents_lt

theorem value_le_iff : p.toDecimal.value ≤ q.toDecimal.value ↔ p.cents ≤ q.cents := by
  rw [value_toDecimal, value_toDecimal, div_le_div_iff_of_pos_right (by norm_num), Nat.cast_le]

theorem compare_toDecimal : p.toDecimal.compare q.toDecimal = compare p.cents q.cents := by
  unfold Decimal.compare
  simp only [signedCoefficient_toDecimal, Decimal.coefficientAt]
  have natCompare (m n : Nat) : compare (m : Int) n = compare m n := by
    rcases Nat.lt_trichotomy m n with h | h | h
    · rw [Nat.compare_eq_lt.2 h, Int.compare_eq_lt.2 (by omega)]
    · rw [Nat.compare_eq_eq.2 h, Int.compare_eq_eq.2 (by omega)]
    · rw [Nat.compare_eq_gt.2 h, Int.compare_eq_gt.2 (by omega)]
  by_cases hsign : (p.cents : Int).sign = (q.cents : Int).sign
  · rw [if_neg (fun h => h hsign)]
    by_cases hp : p.cents = 0
    · have hq : q.cents = 0 := by
        rw [hp] at hsign
        have := Int.sign_eq_zero_iff_zero.1 hsign.symm
        omega
      simp [hp, hq]
    · rw [if_neg (by omega)]
      by_cases hm : p.toDecimal.magnitude = q.toDecimal.magnitude
      · rw [if_neg (fun h => h hm)]
        simp [toDecimal, natCompare]
      · rw [if_pos hm, if_pos (by omega)]
        unfold Decimal.magnitude at *
        simp only [toDecimal] at *
        rcases Nat.lt_trichotomy p.cents q.cents with h | h | h
        · have := digitCount_mono (Nat.le_of_lt h)
          rw [Nat.compare_eq_lt.2 h, Int.compare_eq_lt.2 (by omega)]
        · exact absurd (by rw [h]) hm
        · have := digitCount_mono (Nat.le_of_lt h)
          rw [Nat.compare_eq_gt.2 h, Int.compare_eq_gt.2 (by omega)]
  · rw [if_pos hsign]
    have sign_pos {n : Nat} (h : 0 < n) : (n : Int).sign = 1 := Int.sign_eq_one_of_pos (by omega)
    rcases Nat.eq_zero_or_pos p.cents with hp | hp <;>
      rcases Nat.eq_zero_or_pos q.cents with hq | hq
    · exact absurd (by rw [hp, hq]) hsign
    · rw [sign_pos hq, hp, Nat.compare_eq_lt.2 hq]
      rfl
    · rw [sign_pos hp, hq, Nat.compare_eq_gt.2 hp]
      rfl
    · exact absurd ((sign_pos hp).trans (sign_pos hq).symm) hsign

theorem lt_toDecimal : p.toDecimal.lt q.toDecimal = decide (p.cents < q.cents) := by
  unfold Decimal.lt
  rw [compare_toDecimal]
  rcases Nat.lt_trichotomy p.cents q.cents with h | h | h
  · rw [Nat.compare_eq_lt.2 h, decide_eq_true h]
    rfl
  · rw [Nat.compare_eq_eq.2 h, decide_eq_false (by omega)]
    rfl
  · rw [Nat.compare_eq_gt.2 h, decide_eq_false (by omega)]
    rfl

theorem maxPrice_toDecimal :
    ∃ r : Price, maxPrice p.toDecimal q.toDecimal = r.toDecimal ∧
      r.cents = max p.cents q.cents := by
  unfold maxPrice
  rw [lt_toDecimal]
  by_cases h : q.cents < p.cents
  · exact ⟨p, by simp [h], by omega⟩
  · exact ⟨q, by simp [h], by omega⟩

theorem minPrice_toDecimal :
    ∃ r : Price, minPrice p.toDecimal q.toDecimal = r.toDecimal ∧
      r.cents = min p.cents q.cents := by
  unfold minPrice
  rw [lt_toDecimal]
  by_cases h : p.cents < q.cents
  · exact ⟨p, by simp [h], by omega⟩
  · exact ⟨q, by simp [h], by omega⟩

end Price

end OrderFlow
