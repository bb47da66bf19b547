import Mathlib.Data.Rat.Floor
import OrderFlow.Price.Reading
import OrderFlow.Proofs.Price.Limit
import OrderFlow.Proofs.Price.Text

/-!
# Numbers rounded to prices

`IsNearest` says which count of hundredths a number is rounded to, without digits and exponents:
none is nearer, and of two that are equally near it is the greater one. There is one for each number
(`exists_isNearest`, `IsNearest.unique`), and it does not fall as the number rises
(`IsNearest.mono`). A number becomes a price exactly as this says (`Price.rounded_correctly`).
-/

namespace OrderFlow

/-! ## The nearest hundredth -/

/-- The count of hundredths nearest to a number; of two that are equally near it is the greater
one. -/
def IsNearest (x : ℚ) (n : ℤ) : Prop :=
  ∀ k : ℤ, k ≠ n → |x - n / 100| < |x - k / 100| ∨ |x - n / 100| = |x - k / 100| ∧ k < n

section Nearest

variable {x y : ℚ} {m n : ℤ}

/-- A number has its nearest hundredth half of one above it at most, and less than that below. -/
theorem isNearest_iff : IsNearest x n ↔ (n : ℚ) / 100 - 1 / 200 ≤ x ∧ x < n / 100 + 1 / 200 := by
  constructor
  · intro nearest
    have below := nearest (n - 1) (by omega)
    have above := nearest (n + 1) (by omega)
    push_cast at below above
    have upper : |x - n / 100| ≤ |x - (n - 1) / 100| := by
      rcases below with less | ⟨same, -⟩
      · exact less.le
      · exact same.le
    have lower : |x - n / 100| < |x - (n + 1) / 100| := by
      rcases above with less | ⟨-, order⟩
      · exact less
      · omega
    constructor
    · by_contra far
      rw [abs_of_neg (by linarith)] at upper
      rcases abs_cases (x - (n - 1) / 100) with ⟨eq, -⟩ | ⟨eq, -⟩ <;> linarith
    · by_contra far
      rw [abs_of_pos (by linarith)] at lower
      rcases abs_cases (x - (n + 1) / 100) with ⟨eq, -⟩ | ⟨eq, -⟩ <;> linarith
  · rintro ⟨lower, upper⟩ k other
    rcases lt_or_gt_of_ne other with less | greater
    · have gap : (k : ℚ) + 1 ≤ n := by exact_mod_cast less
      rw [abs_of_pos (show 0 < x - k / 100 by linarith)]
      have near : |x - n / 100| ≤ x - k / 100 := abs_le.2 ⟨by linarith, by linarith⟩
      exact near.lt_or_eq.imp id fun same => ⟨same, less⟩
    · have gap : (n : ℚ) + 1 ≤ k := by exact_mod_cast greater
      rw [abs_of_neg (show x - k / 100 < 0 by linarith)]
      exact .inl (abs_lt.2 ⟨by linarith, by linarith⟩)

theorem exists_isNearest (x : ℚ) : ∃ n, IsNearest x n := by
  refine ⟨⌊100 * x + 1 / 2⌋, isNearest_iff.2 ⟨?_, ?_⟩⟩
  · have floor := Int.floor_le (100 * x + 1 / 2)
    linarith
  · have floor := Int.lt_floor_add_one (100 * x + 1 / 2)
    linarith

/-- Rounding keeps the order of numbers. -/
theorem IsNearest.mono (hx : IsNearest x m) (hy : IsNearest y n) (le : x ≤ y) : m ≤ n := by
  obtain ⟨lower, -⟩ := isNearest_iff.1 hx
  obtain ⟨-, upper⟩ := isNearest_iff.1 hy
  have less : (m : ℚ) < n + 1 := by linarith
  have less : m < n + 1 := by exact_mod_cast less
  omega

theorem IsNearest.unique (hm : IsNearest x m) (hn : IsNearest x n) : m = n :=
  le_antisymm (hm.mono hn le_rfl) (hn.mono hm le_rfl)

theorem IsNearest.abs_sub_le (h : IsNearest x n) : |n / 100 - x| ≤ 1 / 200 := by
  obtain ⟨lower, upper⟩ := isNearest_iff.1 h
  exact abs_le.2 ⟨by linarith, by linarith⟩

end Nearest

/-! ## The price of a number -/

namespace Decimal

/-- An integer is the number that it stands for. -/
theorem value_ofInt (n : ℤ) : (ofInt n).value = n := by
  have signed : (ofInt n).signedCoefficient = n := by
    rw [signedCoefficient, ofInt]
    simp only [decide_eq_true_eq]
    split <;> omega
  rw [value, signed, ofInt, zpow_zero, mul_one]

/-- A decimal is below zero exactly if it has a sign and is not zero. -/
theorem value_neg_iff {x : Decimal} : x.value < 0 ↔ (x.negative && !x.isZero) = true := by
  have unit : (0 : ℚ) < 10 ^ x.exponent := by positivity
  have scaled : x.value < 0 ↔ x.signedCoefficient < 0 := by
    rw [value, mul_neg_iff]
    simp [unit, not_lt.2 unit.le]
  rw [scaled, signedCoefficient, isZero]
  cases x.negative with
  | false => simp
  | true =>
    simp
    omega

theorem not_below_of_nonneg {x : Decimal} (nonneg : 0 ≤ x.value) :
    (x.negative && !x.isZero) = false := by
  rw [← Bool.not_eq_true, ← value_neg_iff]
  exact not_lt.2 nonneg

end Decimal

namespace Price

open Decimal

variable {x y : Decimal} {v w : Value} {p q : Price} {n : ℤ}

/-- A number that is small enough becomes the nearest price, and zero keeps its sign. -/
theorem isNearest_of_ofDecimal? (sign : 0 ≤ x.value) (h : ofDecimal? x = some p) :
    IsNearest x.value p.cents ∧ p.belowZero = x.negative := by
  have accepted := not_below_of_nonneg sign
  obtain ⟨negative, c, e⟩ := x
  unfold ofDecimal? at h
  cases counted : hundredths? ⟨negative, c, e⟩ with
  | none =>
    rw [counted] at h
    cases h
  | some n =>
    simp only [counted] at h
    split at h
    case isFalse => cases h
    cases h
    have near : IsNearest (value ⟨false, c, e⟩) n :=
      isNearest_iff.2 (by rw [value_mk_false, Int.cast_natCast]; exact near_of_hundredths? counted)
    cases negative with
    | false => exact ⟨near, rfl⟩
    | true =>
      -- only a zero may have a sign
      obtain rfl : c = 0 := by simpa [isZero] using accepted
      obtain rfl : n = 0 := by simpa [hundredths?, eq_comm] using counted
      have zero : value ⟨true, 0, e⟩ = value ⟨false, 0, e⟩ := by simp [value, signedCoefficient]
      exact ⟨zero ▸ near, rfl⟩

/-- A number is too large for a price exactly if its nearest hundredth is. -/
theorem ofDecimal?_eq_none_iff_isNearest (sign : 0 ≤ x.value) (nearest : IsNearest x.value n) :
    ofDecimal? x = none ↔ (10 : ℚ) ^ 26 ≤ n / 100 := by
  have accepted := not_below_of_nonneg sign
  obtain ⟨lower, upper⟩ := isNearest_iff.1 nearest
  rw [ofDecimal?_eq_none_iff accepted]
  constructor
  · intro large
    have many : (10 : ℚ) ^ 28 < n + 1 := by linarith
    have many : (10 : ℤ) ^ 28 < n + 1 := by exact_mod_cast many
    have many : (10 : ℤ) ^ 28 ≤ n := by omega
    have many : (10 : ℚ) ^ 28 ≤ n := by exact_mod_cast many
    linarith
  · intro large
    linarith

/-- What a number becomes as a price: it is refused unless it is finite and not below zero, it is
too large if its nearest hundredth has more than 26 digits before the point, and otherwise it is
this hundredth. Zero keeps its sign. -/
structure RoundsTo (x : Number) (outcome : Except Failure Price) : Prop where
  refused : (∃ fault, outcome = .error (.value fault)) ↔
    x.finite? = none ∨ ∃ d, x = .finite d ∧ d.value < 0
  tooLarge : outcome = .error .invalidOperation ↔
    ∃ d n, x = .finite d ∧ 0 ≤ d.value ∧ IsNearest d.value n ∧ (10 : ℚ) ^ 26 ≤ n / 100
  rounded : ∀ d n, x = .finite d → 0 ≤ d.value → IsNearest d.value n → (n : ℚ) / 100 < 10 ^ 26 →
    ∃ p, outcome = .ok p ∧ p.toDecimal.value = n / 100 ∧ p.belowZero = d.negative

/-- The price of a value is that of its number. -/
theorem ofValue_eq {x : Number} (h : Number.ofValue v = .ok x) :
    ofValue v = (ofNumber v.shown x).mapError .ofRefusal := by
  rw [ofValue, h]
  rfl

theorem roundsTo_of_not_finite {x : Number} (infinite : x.finite? = none) (shown : String) :
    RoundsTo x ((ofNumber shown x).mapError .ofRefusal) := by
  have refused : ofNumber shown x = .error (.value (.price shown)) := by
    cases x with
    | finite d => cases infinite
    | infinite _ => rfl
    | nan _ _ _ => rfl
  have unequal (d : Decimal) : x ≠ .finite d := by
    rintro rfl
    cases infinite
  rw [refused]
  refine ⟨iff_of_true ⟨_, rfl⟩ (.inl infinite), iff_of_false nofun ?_, ?_⟩
  · rintro ⟨d, -, same, -⟩
    exact unequal d same
  · intro d _ same
    exact absurd same (unequal d)

theorem roundsTo_of_neg (negative : x.value < 0) (shown : String) :
    RoundsTo (.finite x) ((ofNumber shown (.finite x)).mapError .ofRefusal) := by
  have refused : ofNumber shown (.finite x) = .error (.value (.price shown)) :=
    if_pos (value_neg_iff.1 negative)
  rw [refused]
  refine ⟨iff_of_true ⟨_, rfl⟩ (.inr ⟨x, rfl, negative⟩), iff_of_false nofun ?_, ?_⟩
  · rintro ⟨_, -, ⟨⟩, nonneg, -⟩
    exact not_lt.2 nonneg negative
  · rintro _ _ ⟨⟩ nonneg
    exact absurd negative (not_lt.2 nonneg)

theorem roundsTo_of_nonneg (nonneg : 0 ≤ x.value) (shown : String) :
    RoundsTo (.finite x) ((ofNumber shown (.finite x)).mapError .ofRefusal) := by
  have notBelow : ¬ (x.negative && !x.isZero) = true :=
    Bool.eq_false_iff.1 (not_below_of_nonneg nonneg)
  have notRefused : ¬ (Number.finite? (.finite x) = none ∨ ∃ d, Number.finite x = .finite d ∧
      d.value < 0) := by
    rintro (⟨⟨⟩⟩ | ⟨_, ⟨⟩, negative⟩)
    exact not_lt.2 nonneg negative
  cases found : ofDecimal? x with
  | none =>
    have outcome : ofNumber shown (.finite x) = .error (.abort .invalidOperation) := by
      rw [ofNumber, if_neg notBelow, found]
    rw [outcome]
    have large {n : ℤ} (nearest : IsNearest x.value n) : (10 : ℚ) ^ 26 ≤ n / 100 :=
      (ofDecimal?_eq_none_iff_isNearest nonneg nearest).1 found
    refine ⟨iff_of_false ?_ notRefused, iff_of_true rfl ?_, ?_⟩
    · rintro ⟨_, ⟨⟩⟩
    · obtain ⟨n, nearest⟩ := exists_isNearest x.value
      exact ⟨x, n, rfl, nonneg, nearest, large nearest⟩
    · rintro _ n ⟨⟩ - nearest small
      exact absurd (large nearest) (not_le.2 small)
  | some p =>
    have outcome : ofNumber shown (.finite x) = .ok p := by
      rw [ofNumber, if_neg notBelow, found]
    rw [outcome]
    obtain ⟨nearest, sign⟩ := isNearest_of_ofDecimal? nonneg found
    refine ⟨iff_of_false ?_ notRefused, iff_of_false ?_ ?_, ?_⟩
    · rintro ⟨_, ⟨⟩⟩
    · rintro ⟨⟩
    · rintro ⟨_, n, ⟨⟩, -, other, large⟩
      have none := (ofDecimal?_eq_none_iff_isNearest nonneg other).2 large
      rw [found] at none
      cases none
    · rintro _ n ⟨⟩ - other -
      refine ⟨p, rfl, ?_, sign⟩
      rw [value_toDecimal, other.unique nearest, Int.cast_natCast]

theorem roundsTo_ofValue {x : Number} (h : Number.ofValue v = .ok x) : RoundsTo x (ofValue v) := by
  rw [ofValue_eq h]
  cases infinite : x.finite? with
  | none => exact roundsTo_of_not_finite infinite v.shown
  | some d =>
    obtain rfl : x = .finite d := by
      cases x with
      | finite _ => exact congrArg Number.finite (Option.some.inj infinite)
      | infinite _ => cases infinite
      | nan _ _ _ => cases infinite
    rcases lt_or_ge d.value 0 with negative | nonneg
    · exact roundsTo_of_neg negative v.shown
    · exact roundsTo_of_nonneg nonneg v.shown

/-- A number that became a price is not below zero, and the price is its nearest hundredth. -/
theorem isNearest_of_ofValue (h : Number.ofValue v = .ok (.finite x)) (hp : ofValue v = .ok p) :
    IsNearest x.value p.cents := by
  obtain ⟨refused, tooLarge, rounded⟩ := roundsTo_ofValue h
  rw [hp] at refused tooLarge rounded
  have nonneg : 0 ≤ x.value := by
    by_contra negative
    obtain ⟨fault, failed⟩ := refused.2 (.inr ⟨x, rfl, not_le.1 negative⟩)
    cases failed
  obtain ⟨n, nearest⟩ := exists_isNearest x.value
  have small : (n : ℚ) / 100 < 10 ^ 26 := by
    by_contra large
    cases tooLarge.2 ⟨x, n, rfl, nonneg, nearest, not_lt.1 large⟩
  obtain ⟨_, ⟨⟩, value, -⟩ := rounded x n rfl nonneg nearest small
  have same : (p.cents : ℚ) = n := by
    rw [value_toDecimal] at value
    linarith
  have same : (p.cents : ℤ) = n := by exact_mod_cast same
  rwa [same]

/-- **Numbers are rounded correctly.** Decimals and integers are the numbers that they stand for,
and every number, of whatever digits and exponent, becomes a price as `RoundsTo` says. A price is
its own rounding, rounding keeps the order of numbers, and it changes none by more than half a
hundredth. -/
theorem rounded_correctly :
    (∀ x : Number, Number.ofValue (.decimal x) = .ok x) ∧
    (∀ n : ℤ, Number.ofValue (.int n) = .ok (.finite (.ofInt n)) ∧ (ofInt n).value = n) ∧
    (∀ v x, Number.ofValue v = .ok x → RoundsTo x (ofValue v)) ∧
    (∀ p : Price, ofValue (.decimal p.toNumber) = .ok p) ∧
    ∀ v w x y p q, Number.ofValue v = .ok (.finite x) → Number.ofValue w = .ok (.finite y) →
      ofValue v = .ok p → ofValue w = .ok q →
      |p.toDecimal.value - x.value| ≤ 1 / 200 ∧
        (x.value ≤ y.value → p.toDecimal.value ≤ q.toDecimal.value) := by
  refine ⟨fun _ => rfl, fun n => ⟨rfl, value_ofInt n⟩, fun _ _ => roundsTo_ofValue, ?_, ?_⟩
  · intro p
    rw [ofValue_eq rfl, ofNumber_toNumber]
    rfl
  · intro v w x y p q hx hy hp hq
    have nearest := isNearest_of_ofValue hx hp
    constructor
    · rw [value_toDecimal, ← Int.cast_natCast]
      exact nearest.abs_sub_le
    · intro le
      rw [value_le_iff]
      exact_mod_cast nearest.mono (isNearest_of_ofValue hy hq) le

end Price

namespace Sample

/-- The number that is half a hundredth below 10 ^ 26. -/
def almost : Decimal :=
  ⟨false, 99999999999999999999999999995, -3⟩

/-- Half a hundredth becomes a whole one, and what is half a hundredth below 10 ^ 26 becomes too
large. -/
theorem halves_go_up :
    Price.ofValue (.decimal (.finite almost)) = .error .invalidOperation ∧
    ∃ p, Price.ofValue (.decimal (.finite ⟨false, 5, -3⟩)) = .ok p ∧
      p.toDecimal.value = 1 / 100 ∧ p.belowZero = false := by
  obtain ⟨decimals, -, rounds, -⟩ := Price.rounded_correctly
  constructor
  · refine (rounds _ _ (decimals _)).tooLarge.2 ⟨almost, 10 ^ 28, rfl, ?_, isNearest_iff.2 ?_, ?_⟩
    · rw [almost, Decimal.value_mk_false]
      positivity
    · rw [almost, Decimal.value_mk_false]
      norm_num
    · norm_num
  · have value : Decimal.value ⟨false, 5, -3⟩ = 1 / 200 := by
      rw [Decimal.value_mk_false]
      norm_num
    have cent : ((1 : ℤ) : ℚ) / 100 = 1 / 100 := by norm_num
    have nearest : IsNearest (Decimal.value ⟨false, 5, -3⟩) 1 := by
      rw [isNearest_iff, value]
      norm_num
    have rounded := (rounds _ _ (decimals _)).rounded _ 1 rfl (by rw [value]; norm_num) nearest
      (by norm_num)
    rwa [cent] at rounded

end Sample

end OrderFlow
