import Mathlib.Algebra.Order.Field.Power
import Mathlib.Data.Nat.Cast.Field
import Mathlib.Tactic.FieldSimp
import Mathlib.Tactic.Linarith
import Mathlib.Tactic.Positivity
import Mathlib.Tactic.Ring
import OrderFlow.Proofs.Decimal.Exact

/-!
# Bounds on rounded quotients

The `value` of a decimal is the number that it stands for. A result is rounded to the nearest
multiple of a power of ten, and a count of hundredths with at most 28 digits is such a multiple
unless it is far away, so that a result does not pass it (`le_rounded`, `rounded_le`). The quotient
of an amount by a quantity stays between prices for this reason (`quotient_between`).
-/

namespace OrderFlow

/-- What is at least an integer is not rounded below it. -/
theorem le_roundDiv_of_mul_le (tie : Tie) {n d k : Nat} (hd : 0 < d) (h : k * d ≤ n) :
    k ≤ roundDiv tie n d :=
  Nat.le_trans ((Nat.le_div_iff_mul_le hd).2 h) (div_le_roundDiv tie n d)

/-- What is at most an integer is not rounded above it. -/
theorem roundDiv_le_of_le_mul (tie : Tie) {n d k : Nat} (hd : 0 < d) (h : n ≤ k * d) :
    roundDiv tie n d ≤ k := by
  rcases Nat.eq_or_lt_of_le h with rfl | less
  · rw [roundDiv_mul tie k hd]
  · have below : n / d < k := (Nat.div_lt_iff_lt_mul hd).2 less
    have := roundDiv_le tie n d
    omega

namespace Decimal

/-- The number that a decimal stands for. -/
def value (x : Decimal) : ℚ :=
  x.signedCoefficient * 10 ^ x.exponent

@[simp] theorem value_mk_false (c : Nat) (e : Int) : value ⟨false, c, e⟩ = c * 10 ^ e := by
  simp [value, signedCoefficient]

/-- A decimal that holds few enough hundredths is that number. -/
theorem Holds.value_eq {x : Decimal} {n : Nat} (h : x.Holds n) (small : n < 10 ^ 28) :
    x.value = n / 100 := by
  have signed := h.signedCoefficient_eq
  obtain ⟨-, exponent, coefficient, -⟩ | ⟨large, -⟩ := h
  · rw [value, signed, exponent, coefficient, div_eq_mul_inv]
    norm_num
  · omega

/-- A trailing zero of a coefficient may as well be in the exponent. -/
theorem value_shift (negative : Bool) (c : Nat) (e : Int) :
    value ⟨negative, c, e + 1⟩ = value ⟨negative, c * 10, e⟩ := by
  unfold value signedCoefficient
  rw [zpow_add_one₀ (by norm_num)]
  cases negative <;> simp <;> ring

theorem value_strip (negative : Bool) (c : Nat) (e : Int) (n : Nat) :
    value (strip negative c e n) = value ⟨negative, c, e⟩ := by
  induction n generalizing c e with
  | zero => rfl
  | succ n ih =>
    rw [strip]
    split
    · rename_i h
      rw [ih, value_shift, Nat.div_mul_cancel (Nat.dvd_of_mod_eq_zero h.1)]
    · rfl

theorem strip_negative (negative : Bool) (c : Nat) (e : Int) (n : Nat) :
    (strip negative c e n).negative = negative := by
  induction n generalizing c e with
  | zero => rfl
  | succ n ih =>
    rw [strip]
    split
    · exact ih ..
    · rfl

/-! ## Rounding to the nearest multiple -/

section Rounded

variable {num den extra k : Nat} {e : Int}

/-- So many hundredths in units of a smaller power of ten. -/
theorem exists_multiple (k : Nat) {g : Int} (hg : g ≤ -2) :
    ∃ m : Nat, (k : ℚ) / 100 = m * 10 ^ g := by
  obtain ⟨j, hj⟩ := Int.le.dest hg
  refine ⟨k * 10 ^ j, ?_⟩
  have split : (10 : ℚ) ^ (-2 : Int) = 10 ^ g * 10 ^ j := by
    rw [← hj, zpow_add₀ (by norm_num), zpow_natCast]
  have hundred : (1 : ℚ) / 100 = 10 ^ (-2 : Int) := by norm_num
  rw [div_eq_mul_one_div, hundred, split]
  push_cast
  ring

/-- What is left of a quotient has its first 28 digits. -/
theorem pow_mul_le (hden : 0 < den) (hcount : digitCount (num / den) = 28 + extra) :
    10 ^ 27 * (den * 10 ^ extra) ≤ num := by
  have large := pow_le_of_lt_digitCount (n := num / den) (k := 27 + extra) (by omega) (by omega)
  rw [Nat.le_div_iff_mul_le hden, Nat.pow_add] at large
  calc 10 ^ 27 * (den * 10 ^ extra) = 10 ^ 27 * 10 ^ extra * den := by ac_rfl
    _ ≤ num := large

theorem rounded_le_pow (hcount : digitCount (num / den) = 28 + extra) :
    roundDiv .even num (den * 10 ^ extra) ≤ 10 ^ 28 := by
  have small : num / den < 10 ^ (28 + extra) := (digitCount_le_iff (by omega)).1 (by omega)
  have floor : num / (den * 10 ^ extra) < 10 ^ 28 := by
    rw [← Nat.div_div_eq_div_mul, Nat.div_lt_iff_lt_mul (Nat.pow_pos (by decide)), ← Nat.pow_add]
    exact small
  have := roundDiv_le .even num (den * 10 ^ extra)
  omega

/-- A quotient in units of the digits that are kept. -/
theorem quotient_units (num den extra : Nat) (e : Int) :
    (num : ℚ) / den * 10 ^ e = num / (den * 10 ^ extra : Nat) * 10 ^ (e + extra) := by
  have pos : (10 : ℚ) ^ extra ≠ 0 := by positivity
  rw [zpow_add₀ (by norm_num), zpow_natCast, Nat.cast_mul, ← div_div]
  push_cast
  field_simp

/-- Fewer than 10²⁸ hundredths are fewer than 10²⁷ units of a tenth or more. -/
theorem hundredths_lt_units {g : Int} (hg : -1 ≤ g) (few : k < 10 ^ 28) :
    (k : ℚ) / 100 < 10 ^ 27 * 10 ^ g := by
  have unit : (10 : ℚ) ^ (-1 : Int) ≤ 10 ^ g := zpow_le_zpow_right₀ (by norm_num) hg
  have hundredths : (k : ℚ) < 10 ^ 28 := by exact_mod_cast few
  have tenth : (10 : ℚ) ^ (-1 : Int) = 1 / 10 := by norm_num
  rw [tenth] at unit
  linarith

/-- A quotient that is at least so many hundredths is not rounded below them. -/
theorem le_rounded (hden : 0 < den) (hcount : digitCount (num / den) = 28 + extra)
    (few : k < 10 ^ 28) (h : (k : ℚ) / 100 ≤ num / den * 10 ^ e) :
    (k : ℚ) / 100 ≤ roundDiv .even num (den * 10 ^ extra) * 10 ^ (e + extra) := by
  have unit : (0 : ℚ) < 10 ^ (e + extra : Int) := by positivity
  have pos : 0 < den * 10 ^ extra := by positivity
  rw [quotient_units num den extra e] at h
  rcases Int.lt_or_le (-2) (e + extra) with coarse | fine
  · have least : (10 ^ 27 : ℚ) ≤ roundDiv .even num (den * 10 ^ extra) := by
      exact_mod_cast le_roundDiv_of_mul_le .even pos (pow_mul_le hden hcount)
    calc (k : ℚ) / 100 ≤ 10 ^ 27 * 10 ^ (e + extra : Int) :=
          le_of_lt (hundredths_lt_units (by omega) few)
      _ ≤ _ := by gcongr
  · obtain ⟨m, hm⟩ := exists_multiple k fine
    rw [hm, mul_le_mul_iff_left₀ unit, le_div_iff₀ (by exact_mod_cast pos)] at h
    have kept := le_roundDiv_of_mul_le .even pos (k := m) (n := num) (by exact_mod_cast h)
    rw [hm]
    gcongr

/-- A quotient that is at most so many hundredths is not rounded above them. -/
theorem rounded_le (hden : 0 < den) (hcount : digitCount (num / den) = 28 + extra)
    (few : k < 10 ^ 28) (h : (num : ℚ) / den * 10 ^ e ≤ k / 100) :
    (roundDiv .even num (den * 10 ^ extra) : ℚ) * 10 ^ (e + extra) ≤ k / 100 := by
  have unit : (0 : ℚ) < 10 ^ (e + extra : Int) := by positivity
  have pos : 0 < den * 10 ^ extra := by positivity
  rw [quotient_units num den extra e] at h
  rcases Int.lt_or_le (-2) (e + extra) with coarse | fine
  · -- a quotient of 28 digits is too great for so coarse a unit
    have least : (10 ^ 27 : ℚ) ≤ num / (den * 10 ^ extra : Nat) := by
      rw [le_div_iff₀ (by exact_mod_cast pos)]
      exact_mod_cast pow_mul_le hden hcount
    have far := hundredths_lt_units (g := e + extra) (by omega) few
    have near := mul_le_mul_of_nonneg_right least unit.le
    linarith
  · obtain ⟨m, hm⟩ := exists_multiple k fine
    rw [hm, mul_le_mul_iff_left₀ unit, div_le_iff₀ (by exact_mod_cast pos)] at h
    have kept := roundDiv_le_of_le_mul .even pos (k := m) (n := num) (by exact_mod_cast h)
    rw [hm]
    gcongr

/-- What rounding to 28 digits gives: the nearest multiple, or, where the last digit carries
through, the same number with an exponent greater by one. -/
theorem value_carry {c : Nat} (e : Int) (h : c ≤ 10 ^ 28) :
    value (if digitCount c ≤ precision then ⟨false, c, e⟩ else ⟨false, c / 10, e + 1⟩) =
      c * 10 ^ e := by
  split
  · exact value_mk_false c e
  · rename_i many
    have full : c = 10 ^ 28 := by
      have := digitCount_le_iff (n := c) (k := 28) (by decide)
      rw [precision] at many
      omega
    rw [value_shift, value_mk_false, full, show 10 ^ 28 / 10 * 10 = 10 ^ 28 from rfl]

/-- A quotient of more than 28 digits that lies between two counts of hundredths lies between them
when it is rounded. -/
theorem rounded_between {low high : Nat} (hden : 0 < den)
    (hcount : digitCount (num / den) = 28 + extra) (fewLow : low < 10 ^ 28)
    (fewHigh : high < 10 ^ 28) (hlow : (low : ℚ) / 100 ≤ num / den * 10 ^ e)
    (hhigh : (num : ℚ) / den * 10 ^ e ≤ high / 100) :
    let c := roundDiv .even num (den * 10 ^ extra)
    let x : Decimal := if digitCount c ≤ precision then ⟨false, c, e + extra⟩
      else ⟨false, c / 10, e + extra + 1⟩
    (low : ℚ) / 100 ≤ x.value ∧ x.value ≤ high / 100 := by
  intro c x
  have carried : x.value = c * 10 ^ (e + extra : Int) := value_carry _ (rounded_le_pow hcount)
  rw [carried]
  exact ⟨le_rounded hden hcount fewLow hlow, rounded_le hden hcount fewHigh hhigh⟩

end Rounded

section Between

variable {low high : Nat}

/-- Rounding does not pass a count of hundredths. -/
theorem round_between {c : Nat} {e : Int} (fewLow : low < 10 ^ 28) (fewHigh : high < 10 ^ 28)
    (hlow : (low : ℚ) / 100 ≤ value ⟨false, c, e⟩) (hhigh : value ⟨false, c, e⟩ ≤ high / 100) :
    (low : ℚ) / 100 ≤ (round ⟨false, c, e⟩).value ∧
      (round ⟨false, c, e⟩).value ≤ high / 100 := by
  rcases Nat.lt_or_ge c (10 ^ 28) with few | many
  · rw [round_of_lt few]
    exact ⟨hlow, hhigh⟩
  · have count := digitCount_le_iff (n := c) (k := 28) (by decide)
    have precise : precision = 28 := rfl
    have digits : digitCount (c / 1) = 28 + (digitCount c - precision) := by
      rw [Nat.div_one]
      omega
    have exact : value ⟨false, c, e⟩ = c / (1 : Nat) * 10 ^ e := by simp
    rw [exact] at hlow hhigh
    have between := rounded_between Nat.one_pos digits fewLow fewHigh hlow hhigh
    rw [Nat.one_mul] at between
    have extra : ¬ digitCount c - precision = 0 := by omega
    simp only [round]
    rw [if_neg extra]
    exact between

/-- A quotient of hundredths, with as many more digits as it is scaled by. -/
theorem hundredths_scaled (c n shift : Nat) :
    (c : ℚ) / n / 100 = (c * 10 ^ shift : Nat) / n * 10 ^ (-2 - shift : Int) := by
  have pos : (10 : ℚ) ^ shift ≠ 0 := by positivity
  rw [zpow_sub₀ (by norm_num), zpow_natCast]
  push_cast
  field_simp
  norm_num

/-- A dividend is scaled so far that its quotient has more digits than are kept. -/
theorem pow_le_scaled {c n : Nat} (hc : 0 < c) (hn : 0 < n) :
    10 ^ 28 ≤ c * 10 ^ (digitCount n + precision) / n := by
  rw [Nat.le_div_iff_mul_le hn, Nat.pow_add]
  calc 10 ^ 28 * n ≤ 10 ^ digitCount n * 10 ^ precision := by
        rw [Nat.mul_comm]
        exact Nat.mul_le_mul_right _ (Nat.le_of_lt (lt_pow_digitCount n))
    _ ≤ c * (10 ^ digitCount n * 10 ^ precision) := Nat.le_mul_of_pos_left _ hc

/-- The quotient of an amount by a quantity lies between any prices that the amount lies between
when they are paid for the quantity. -/
theorem quotient_between {c n : Nat} (hn : 0 < n) (fewLow : low < 10 ^ 28)
    (fewHigh : high < 10 ^ 28) (hlow : low * n ≤ c) (hhigh : c ≤ high * n) :
    (low : ℚ) / 100 ≤ (quotient ⟨false, c, -2⟩ n).value ∧
      (quotient ⟨false, c, -2⟩ n).value ≤ high / 100 := by
  have pos : (0 : ℚ) < n := by exact_mod_cast hn
  have exactLow : (low : ℚ) / 100 ≤ c / n / 100 := by
    gcongr
    rw [le_div_iff₀ pos]
    exact_mod_cast hlow
  have exactHigh : (c : ℚ) / n / 100 ≤ high / 100 := by
    gcongr
    rw [div_le_iff₀ pos]
    exact_mod_cast hhigh
  unfold quotient
  simp only [Nat.pow_eq]
  split
  · rename_i zero
    rw [zero] at exactLow exactHigh ⊢
    simpa using And.intro exactLow exactHigh
  · rename_i nonzero
    generalize hshift : digitCount n + precision = shift
    rw [hundredths_scaled c n shift] at exactLow exactHigh
    -- an exact quotient loses its zeros before it is rounded, any other one is rounded as it is
    split
    · rename_i whole
      have stripped := value_strip false (c * 10 ^ shift / n) (-2 - shift) shift
      rw [value_mk_false, Nat.cast_div (Nat.dvd_of_mod_eq_zero whole) pos.ne'] at stripped
      have sign := strip_negative false (c * 10 ^ shift / n) (-2 - shift) shift
      generalize strip false (c * 10 ^ shift / n) (-2 - shift) shift = x at stripped sign
      obtain ⟨negative, c', e⟩ := x
      obtain rfl : negative = false := sign
      rw [← stripped] at exactLow exactHigh
      exact round_between fewLow fewHigh exactLow exactHigh
    · have large := hshift ▸ pow_le_scaled (Nat.pos_of_ne_zero nonzero) hn
      have count := digitCount_le_iff (n := c * 10 ^ shift / n) (k := 28) (by decide)
      have precise : precision = 28 := rfl
      exact rounded_between hn (by omega) fewLow fewHigh exactLow exactHigh

end Between

end Decimal

end OrderFlow
