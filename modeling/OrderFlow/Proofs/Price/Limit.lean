import OrderFlow.Proofs.Decimal.Quotient

/-!
# Numbers that are too large for a price

A number counts as hundredths that differ from it by half of one at most
(`Price.near_of_hundredths?`), so that it is too large for a price exactly from half a hundredth
below 10 ^ 26 on (`Price.ofDecimal?_eq_none_iff`).
-/

namespace OrderFlow

/-- Rounding to the nearest integer, with halves going up, is off by half a unit at most. -/
theorem two_mul_roundDiv_up (n : Nat) {d : Nat} (hd : 0 < d) :
    2 * (roundDiv .up n d * d) ≤ 2 * n + d ∧ 2 * n < 2 * (roundDiv .up n d * d) + d := by
  have parts := Nat.div_add_mod n d
  have rest := Nat.mod_lt n hd
  rw [Nat.mul_comm] at parts
  unfold roundDiv
  simp only
  split
  · rename_i half
    rw [Nat.add_mul, Nat.one_mul]
    omega
  · rename_i half
    have less : ¬ 2 * (n % d) = d := fun same => half (.inr ⟨same, .inl trivial⟩)
    omega

/-- The leading digit of a number counts as one at least. -/
theorem pow_digitCount_pred_le {n : Nat} (h : 0 < n) : 10 ^ (digitCount n - 1) ≤ n := by
  have digits := digitCount_pos n
  rcases Nat.eq_or_lt_of_le (Nat.zero_le (digitCount n - 1)) with one | more
  · rw [← one]
    exact h
  · exact pow_le_of_lt_digitCount (by omega) more

theorem Decimal.value_nonpos {x : Decimal} (h : x.negative = true) : x.value ≤ 0 := by
  have nonneg : (0 : ℚ) ≤ x.coefficient * 10 ^ x.exponent := by positivity
  simp only [value, signedCoefficient, if_pos h]
  push_cast
  linarith

namespace Price

open Decimal

variable {c n : Nat} {e : Int} {x : Decimal}

/-- A number is not less than its leading digit stands for. -/
theorem pow_magnitude_le (h : 0 < c) : (10 : ℚ) ^ magnitude ⟨false, c, e⟩ ≤ c * 10 ^ e := by
  have least := digitCount_pos c
  have digits : (10 : ℚ) ^ (digitCount c - 1) ≤ c := by exact_mod_cast pow_digitCount_pred_le h
  calc (10 : ℚ) ^ magnitude ⟨false, c, e⟩ = 10 ^ ((digitCount c - 1 : Nat) + e) := by
        congr 1
        simp only [magnitude]
        omega
    _ = 10 ^ (digitCount c - 1) * 10 ^ e := by rw [zpow_add₀ (by norm_num), zpow_natCast]
    _ ≤ c * 10 ^ e := by gcongr

theorem lt_pow_magnitude_succ (c : Nat) (e : Int) :
    (c : ℚ) * 10 ^ e < 10 ^ (magnitude ⟨false, c, e⟩ + 1) := by
  have digits : (c : ℚ) < 10 ^ digitCount c := by exact_mod_cast lt_pow_digitCount c
  calc (c : ℚ) * 10 ^ e < 10 ^ digitCount c * 10 ^ e := by gcongr
    _ = 10 ^ ((digitCount c : Int) + e) := by rw [zpow_add₀ (by norm_num), zpow_natCast]
    _ = 10 ^ (magnitude ⟨false, c, e⟩ + 1) := by
      congr 1
      simp only [magnitude]
      omega

/-- A number differs by half a hundredth at most from the hundredths that it counts as. -/
theorem near_of_hundredths? (h : hundredths? ⟨false, c, e⟩ = some n) :
    (n : ℚ) / 100 - 1 / 200 ≤ c * 10 ^ e ∧ (c : ℚ) * 10 ^ e < n / 100 + 1 / 200 := by
  simp only [hundredths?, Nat.pow_eq] at h
  have nonneg : (0 : ℚ) ≤ c * 10 ^ e := by positivity
  split at h
  · rename_i zero
    cases h
    simp [zero]
  split at h
  · cases h
  split at h
  · cases h
    obtain ⟨k, hk⟩ := Int.eq_ofNat_of_zero_le (show 0 ≤ e + 2 by omega)
    have scale : (10 : ℚ) ^ e = 10 ^ k / 100 := by
      rw [show e = k - 2 by omega, zpow_sub₀ (by norm_num), zpow_natCast]
      norm_num
    rw [scale, hk, Int.toNat_natCast]
    push_cast
    constructor <;> linarith
  split at h
  · rename_i tiny
    cases h
    have small := lt_pow_magnitude_succ c e
    have less : (10 : ℚ) ^ (magnitude ⟨false, c, e⟩ + 1) ≤ 10 ^ (-4 : Int) :=
      zpow_le_zpow_right₀ (by norm_num) (by omega)
    have bound : (10 : ℚ) ^ (-4 : Int) = 1 / 10000 := by norm_num
    rw [bound] at less
    rw [Nat.cast_zero]
    constructor <;> linarith
  · cases h
    obtain ⟨k, hk⟩ := Int.eq_ofNat_of_zero_le (show 0 ≤ -2 - e by omega)
    have scale : (10 : ℚ) ^ e = 1 / 100 / 10 ^ k := by
      rw [show e = -2 - (k : Int) by omega, zpow_sub₀ (by norm_num), zpow_natCast]
      norm_num
    obtain ⟨above, below⟩ := two_mul_roundDiv_up c (Nat.pow_pos (n := k) (show 0 < 10 by decide))
    have above : 2 * ((roundDiv .up c (10 ^ k) : ℚ) * 10 ^ k) ≤ 2 * c + 10 ^ k := by
      exact_mod_cast above
    have below : (2 : ℚ) * c < 2 * ((roundDiv .up c (10 ^ k) : ℚ) * 10 ^ k) + 10 ^ k := by
      exact_mod_cast below
    have unit : (0 : ℚ) < 10 ^ k := by positivity
    rw [scale, hk, Int.toNat_natCast, div_div, mul_one_div, le_div_iff₀ (by positivity),
      div_lt_iff₀ (by positivity)]
    constructor <;> linarith

/-- A number that is not negative is too large for a price exactly from half a hundredth below
10 ^ 26 on. -/
theorem ofDecimal?_eq_none_iff (sign : (x.negative && !x.isZero) = false) :
    ofDecimal? x = none ↔ (10 : ℚ) ^ 26 - 1 / 200 ≤ x.value := by
  obtain ⟨negative, c, e⟩ := x
  by_cases zero : c = 0
  · subst zero
    have none : ofDecimal? ⟨negative, 0, e⟩ ≠ none := by simp [ofDecimal?, hundredths?]
    have small : ¬ (10 : ℚ) ^ 26 - 1 / 200 ≤ value ⟨negative, 0, e⟩ := by
      simp only [value, signedCoefficient]
      norm_num
    exact iff_of_false none small
  obtain rfl : negative = false := by
    cases negative
    · rfl
    · simp [isZero, zero] at sign
  rw [value_mk_false]
  have nonzero := Nat.pos_of_ne_zero zero
  cases hn : hundredths? ⟨false, c, e⟩ with
  | none =>
    have leading : 26 ≤ magnitude ⟨false, c, e⟩ := by
      simp only [hundredths?, if_neg zero] at hn
      split at hn
      · assumption
      · split at hn
        · cases hn
        · split at hn <;> cases hn
    have large : (10 : ℚ) ^ (26 : Int) ≤ 10 ^ magnitude ⟨false, c, e⟩ :=
      zpow_le_zpow_right₀ (by norm_num) leading
    have large : (10 : ℚ) ^ 26 ≤ c * 10 ^ e := (zpow_ofNat (10 : ℚ) 26 ▸ large).trans
      (pow_magnitude_le nonzero)
    have none : ofDecimal? ⟨false, c, e⟩ = none := by simp only [ofDecimal?, hn]
    exact iff_of_true none (by linarith)
  | some n =>
    obtain ⟨above, below⟩ := near_of_hundredths? hn
    have limit : ofDecimal? ⟨false, c, e⟩ = none ↔ 10 ^ 28 ≤ n := by
      simp only [ofDecimal?, hn]
      split
      · rename_i few
        exact iff_of_false (by simp) (Nat.not_le.2 few)
      · rename_i many
        exact iff_of_true rfl (Nat.not_lt.1 many)
    rw [limit]
    constructor
    · intro many
      have many : (10 : ℚ) ^ 28 ≤ n := by exact_mod_cast many
      linarith
    · intro large
      have many : (10 ^ 28 : Nat) < (n + 1 : Nat) := by
        have : (10 : ℚ) ^ 28 < n + 1 := by linarith
        exact_mod_cast this
      omega

end Price

end OrderFlow
