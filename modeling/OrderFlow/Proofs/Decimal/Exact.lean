import Mathlib.Algebra.Group.Nat.Defs
import OrderFlow.Price.Basic

/-!
# Exact amounts

Rounding to `precision` digits changes nothing while the digits suffice, and never falls below a
power of ten. A decimal that `Holds` a count of hundredths is therefore exact up to 28 digits and
stays out of range from there on. Products of a price and a quantity and sums of amounts hold
what they should (`Holds.notional`, `Holds.add`), and `toCents` reads it back.
-/

namespace OrderFlow

/-! ## Digits and quotients -/

theorem digitCount_pos (n : Nat) : 0 < digitCount n := by
  rw [digitCount]
  split <;> omega

/-- A number has at most `k` digits if it is below `10 ^ k`. -/
theorem digitCount_le_iff {n k : Nat} (hk : 0 < k) : digitCount n ≤ k ↔ n < 10 ^ k := by
  induction n using Nat.strongRecOn generalizing k with
  | ind n ih =>
    rw [digitCount]
    obtain ⟨k, rfl⟩ : ∃ j, k = j + 1 := ⟨k - 1, by omega⟩
    have hp := Nat.pow_succ (n := 10) (m := k)
    have hpos : 0 < 10 ^ k := Nat.pow_pos (by decide)
    split
    · omega
    · rename_i h
      cases k with
      | zero =>
        have := digitCount_pos (n / 10)
        omega
      | succ k =>
        have := ih (n / 10) (by omega) (Nat.succ_pos k)
        omega

theorem pow_le_of_lt_digitCount {n k : Nat} (h : k < digitCount n) (hk : 0 < k) : 10 ^ k ≤ n := by
  have := digitCount_le_iff (n := n) hk
  omega

theorem div_le_roundDiv (tie : Tie) (n d : Nat) : n / d ≤ roundDiv tie n d := by
  simp only [roundDiv]
  split <;> omega

theorem roundDiv_le (tie : Tie) (n d : Nat) : roundDiv tie n d ≤ n / d + 1 := by
  simp only [roundDiv]
  split <;> omega

/-- An integer is not rounded. -/
theorem roundDiv_mul (tie : Tie) (q : Nat) {d : Nat} (hd : 0 < d) : roundDiv tie (q * d) d = q := by
  simp only [roundDiv, Nat.mul_mod_left, Nat.mul_div_cancel _ hd]
  rw [if_neg (by omega)]

namespace Decimal

/-! ## Rounding -/

/-- A decimal whose digits suffice is not rounded. -/
theorem round_of_lt {x : Decimal} (h : x.coefficient < 10 ^ 28) : x.round = x := by
  have hd := (digitCount_le_iff (n := x.coefficient) (k := 28) (by decide)).2 h
  rw [round, if_pos (by rw [precision]; omega)]

/-- The magnitude of a decimal with at most two places in hundredths. -/
def hundredths (x : Decimal) : Nat :=
  x.coefficient * 10 ^ (x.exponent + 2).toNat

/-- What becomes of a decimal with too many digits: some digits are dropped at the right end, and
one more if the last one carries through. -/
theorem round_of_le {x : Decimal} (h : 10 ^ 28 ≤ x.coefficient) :
    ∃ extra c, 0 < extra ∧ digitCount x.coefficient = 28 + extra ∧
      c = roundDiv .even x.coefficient (10 ^ extra) ∧
      (c < 10 ^ 28 ∧ x.round = ⟨x.negative, c, x.exponent + extra⟩ ∨
        c = 10 ^ 28 ∧ x.round = ⟨x.negative, 10 ^ 27, x.exponent + extra + 1⟩) := by
  have hd := digitCount_le_iff (n := x.coefficient) (k := 28) (by decide)
  obtain ⟨extra, hextra⟩ : ∃ e, digitCount x.coefficient = 28 + e :=
    ⟨digitCount x.coefficient - 28, by omega⟩
  refine ⟨extra, _, by omega, hextra, rfl, ?_⟩
  have hpos : 0 < 10 ^ extra := Nat.pow_pos (by decide)
  have hlt : x.coefficient < 10 ^ (28 + extra) := (digitCount_le_iff (by omega)).1 (by omega)
  have hdiv : x.coefficient / 10 ^ extra < 10 ^ 28 :=
    (Nat.div_lt_iff_lt_mul hpos).2 (by rwa [← Nat.pow_add])
  have hle := roundDiv_le .even x.coefficient (10 ^ extra)
  have hcount := digitCount_le_iff (n := roundDiv .even x.coefficient (10 ^ extra)) (k := 28)
    (by decide)
  rw [round]
  simp only [precision, hextra, Nat.add_sub_cancel_left, Nat.pow_eq]
  rw [if_neg (by omega)]
  by_cases hc : roundDiv .even x.coefficient (10 ^ extra) < 10 ^ 28
  · left
    rw [if_pos (hcount.2 hc)]
    exact ⟨hc, rfl⟩
  · right
    have eq : roundDiv .even x.coefficient (10 ^ extra) = 10 ^ 28 := by omega
    rw [if_neg (fun h => hc (hcount.1 h)), eq]
    exact ⟨rfl, rfl⟩

theorem round_coefficient_lt (x : Decimal) : x.round.coefficient < 10 ^ 28 := by
  by_cases h : x.coefficient < 10 ^ 28
  · rwa [round_of_lt h]
  · obtain ⟨extra, c, -, -, -, ⟨hc, hr⟩ | ⟨-, hr⟩⟩ := round_of_le (Nat.not_lt.1 h)
    · rwa [hr]
    · rw [hr]
      show 10 ^ 27 < 10 ^ 28
      decide

@[simp] theorem round_negative (x : Decimal) : x.round.negative = x.negative := by
  by_cases h : x.coefficient < 10 ^ 28
  · rw [round_of_lt h]
  · obtain ⟨extra, c, -, -, -, ⟨-, hr⟩ | ⟨-, hr⟩⟩ := round_of_le (Nat.not_lt.1 h) <;> rw [hr]

theorem exponent_le_round (x : Decimal) : x.exponent ≤ x.round.exponent := by
  by_cases h : x.coefficient < 10 ^ 28
  · exact Int.le_of_eq (by rw [round_of_lt h])
  · obtain ⟨extra, c, -, -, -, ⟨-, hr⟩ | ⟨-, hr⟩⟩ := round_of_le (Nat.not_lt.1 h) <;> rw [hr] <;>
      simp only <;> omega

/-- Dropping digits does not lead below a power of ten, which needs none of them. -/
theorem pow_le_drop {c extra s k : Nat} (hc : 10 ^ extra ≤ c) (h : 10 ^ k ≤ c * 10 ^ s) :
    10 ^ k ≤ c / 10 ^ extra * 10 ^ (s + extra) := by
  have hpos : 0 < 10 ^ extra := Nat.pow_pos (by decide)
  rcases Nat.le_total k (s + extra) with hk | hk
  · have one : 1 ≤ c / 10 ^ extra := (Nat.le_div_iff_mul_le hpos).2 (by simpa using hc)
    calc 10 ^ k ≤ 10 ^ (s + extra) := Nat.pow_le_pow_right (by decide) hk
      _ ≤ c / 10 ^ extra * 10 ^ (s + extra) := Nat.le_mul_of_pos_left _ one
  · obtain ⟨j, rfl⟩ := Nat.exists_eq_add_of_le hk
    have hj : 10 ^ j ≤ c / 10 ^ extra := by
      apply (Nat.le_div_iff_mul_le hpos).2
      have hs : 0 < 10 ^ s := Nat.pow_pos (by decide)
      refine Nat.le_of_mul_le_mul_right ?_ hs
      calc 10 ^ j * 10 ^ extra * 10 ^ s = 10 ^ (s + extra + j) := by
            rw [← Nat.pow_add, ← Nat.pow_add]
            congr 1
            omega
        _ ≤ c * 10 ^ s := h
    calc 10 ^ (s + extra + j) = 10 ^ j * 10 ^ (s + extra) := by rw [← Nat.pow_add, Nat.add_comm]
      _ ≤ c / 10 ^ extra * 10 ^ (s + extra) := Nat.mul_le_mul_right _ hj

/-- Rounding does not lead below a power of ten. -/
theorem pow_le_hundredths_round {x : Decimal} {k : Nat} (he : -2 ≤ x.exponent)
    (h : 10 ^ k ≤ x.hundredths) : 10 ^ k ≤ x.round.hundredths := by
  by_cases hc : x.coefficient < 10 ^ 28
  · rwa [round_of_lt hc]
  · obtain ⟨extra, c, hextra, hcount, hround, hcases⟩ := round_of_le (Nat.not_lt.1 hc)
    have hlarge : 10 ^ extra ≤ x.coefficient := by
      refine pow_le_of_lt_digitCount ?_ hextra
      omega
    have floor := pow_le_drop hlarge h
    have up : x.coefficient / 10 ^ extra ≤ c := hround ▸ div_le_roundDiv ..
    have bound : 10 ^ k ≤ c * 10 ^ ((x.exponent + 2).toNat + extra) :=
      Nat.le_trans floor (Nat.mul_le_mul_right _ up)
    rcases hcases with ⟨-, hr⟩ | ⟨rfl, hr⟩
    · rw [hr, hundredths]
      simp only
      rwa [show (x.exponent + extra + 2).toNat = (x.exponent + 2).toNat + extra by omega]
    · rw [hr, hundredths]
      simp only
      rw [show (x.exponent + extra + 1 + 2).toNat = (x.exponent + 2).toNat + extra + 1 by omega,
        Nat.pow_succ]
      calc 10 ^ k ≤ 10 ^ 28 * 10 ^ ((x.exponent + 2).toNat + extra) := bound
        _ = 10 ^ 27 * (10 ^ ((x.exponent + 2).toNat + extra) * 10) := by
          rw [show 10 ^ 28 = 10 ^ 27 * 10 from rfl]
          ac_rfl

/-! ## Amounts in hundredths -/

/-- A decimal that holds a count of hundredths: exactly if the count has at most 28 digits. A
greater count may have been rounded, but what holds it has more digits as well. -/
inductive Holds (x : Decimal) (n : Nat) : Prop
  | exact (small : n < 10 ^ 28) (exponent : x.exponent = -2) (coefficient : x.coefficient = n)
      (sign : x.negative = true → n = 0)
  | beyond (large : 10 ^ 28 ≤ n) (positive : x.negative = false) (exponent : -2 ≤ x.exponent)
      (stays : 10 ^ 28 ≤ x.hundredths)

namespace Holds

variable {x y : Decimal} {m n : Nat}

theorem exponent_le (h : x.Holds n) : -2 ≤ x.exponent := by
  cases h with
  | exact _ he _ _ => omega
  | beyond _ _ he _ => exact he

theorem hundredths_eq (small : n < 10 ^ 28) (h : x.Holds n) : x.hundredths = n := by
  cases h with
  | exact _ he hc _ => simp [hundredths, he, hc]
  | beyond large _ _ _ => omega

theorem min_le_hundredths (h : x.Holds n) : min n (10 ^ 28) ≤ x.hundredths := by
  cases h with
  | exact small he hc hs => rw [hundredths_eq small (.exact small he hc hs)]; omega
  | beyond _ _ _ stays => omega

theorem signedCoefficient_eq (h : x.Holds n) : x.signedCoefficient = x.coefficient := by
  cases h with
  | exact _ _ hc hs =>
    unfold signedCoefficient
    split
    · rename_i hn
      have := hs hn
      omega
    · rfl
  | beyond _ hn _ _ => simp [signedCoefficient, hn]

/-- What holds a count before it is rounded holds it afterwards. -/
theorem round (h : x.Holds n) : x.round.Holds n := by
  cases h with
  | exact small he hc hs =>
    rw [round_of_lt (hc ▸ small)]
    exact .exact small he hc hs
  | beyond large hn he stays =>
    refine .beyond large (by rw [round_negative, hn]) (Int.le_trans he (exponent_le_round _)) ?_
    exact pow_le_hundredths_round he stays

/-- A sum holds the sum of the counts. -/
theorem add (hx : x.Holds m) (hy : y.Holds n) : (x.add y).Holds (m + n) := by
  have ex := hx.exponent_le
  have ey := hy.exponent_le
  rw [Decimal.add]
  simp only [coefficientAt, hx.signedCoefficient_eq, hy.signedCoefficient_eq, Nat.pow_eq]
  generalize hmin : min x.exponent y.exponent = e
  have e_le : -2 ≤ e := by omega
  rw [← Int.natCast_mul, ← Int.natCast_mul, ← Int.natCast_add]
  generalize hsum : x.coefficient * 10 ^ (x.exponent - e).toNat +
    y.coefficient * 10 ^ (y.exponent - e).toNat = sum
  have scaled : sum * 10 ^ (e + 2).toNat = x.hundredths + y.hundredths := by
    rw [← hsum, Nat.add_mul, Nat.mul_assoc, Nat.mul_assoc, ← Nat.pow_add, ← Nat.pow_add]
    rw [show (x.exponent - e).toNat + (e + 2).toNat = (x.exponent + 2).toNat by omega,
      show (y.exponent - e).toNat + (e + 2).toNat = (y.exponent + 2).toNat by omega]
    rfl
  apply round
  by_cases small : m + n < 10 ^ 28
  · obtain ⟨-, hex, hcx, -⟩ | _ := hx
    · obtain ⟨-, hey, hcy, -⟩ | _ := hy
      · have he : e = -2 := by omega
        have hs : sum = m + n := by
          rw [← hsum, hex, hey, hcx, hcy, he]
          simp
        refine .exact small he (by simp only [hs, Int.natAbs_natCast]) ?_
        intro hneg
        by_cases hz : sum = 0
        · omega
        · simp only [Int.natCast_eq_zero, hz, if_false, decide_eq_true_eq] at hneg
          omega
      · omega
    · omega
  · have large : 10 ^ 28 ≤ x.hundredths + y.hundredths := by
      have := hx.min_le_hundredths
      have := hy.min_le_hundredths
      omega
    have nonzero : sum ≠ 0 := by
      rintro rfl
      omega
    refine .beyond (Nat.not_lt.1 small) ?_ e_le ?_
    · simp [nonzero]
    · rw [Decimal.hundredths]
      simp only [Int.natAbs_natCast]
      omega

/-- The value of a quantity holds the price times the quantity. -/
theorem notional (hx : x.Holds m) (small : m < 10 ^ 28) (q : Nat) :
    (OrderFlow.notional x q).Holds (m * q) := by
  obtain ⟨-, he, hc, hs⟩ | ⟨large, -⟩ := hx
  · apply round
    have positive : ((x.negative != (ofInt q).negative) = true) → m * q = 0 := by
      intro hneg
      have hq : (ofInt q).negative = false := decide_eq_false (Int.not_lt.2 (Int.natCast_nonneg q))
      rw [hq, Bool.bne_false] at hneg
      rw [hs hneg, Nat.zero_mul]
    by_cases hq : m * q < 10 ^ 28
    · exact .exact hq (by simp [he, ofInt]) (by simp [hc, ofInt]) positive
    · refine .beyond (Nat.not_lt.1 hq) ?_ (by simp [he, ofInt]) ?_
      · rw [← Bool.not_eq_true]
        intro hneg
        have := positive hneg
        omega
      · simp [Decimal.hundredths, he, hc, ofInt]
        omega
  · omega

end Holds

/-! ## Reading hundredths -/

theorem lt_pow_digitCount (n : Nat) : n < 10 ^ digitCount n :=
  (digitCount_le_iff (digitCount_pos n)).1 (Nat.le_refl _)

/-- Digits that are zero behind the point do not count. -/
theorem nearest_mul_pow (negative : Bool) (k j : Nat) :
    nearest ⟨negative, k * 10 ^ j, -(j : Int)⟩ = if negative then -(k : Int) else k := by
  have hpos : 0 < 10 ^ j := Nat.pow_pos (by decide)
  unfold nearest
  simp only [Nat.pow_eq, Int.neg_neg, Int.toNat_natCast, roundDiv_mul .up k hpos]
  cases j with
  | zero => simp
  | succ j =>
    have few (h : digitCount (k * 10 ^ (j + 1)) < j + 1) : k = 0 := by
      have lt := Nat.lt_of_lt_of_le (lt_pow_digitCount (k * 10 ^ (j + 1)))
        (Nat.pow_le_pow_right (by decide) (Nat.le_of_lt h))
      rcases Nat.eq_zero_or_pos k with hk | hk
      · exact hk
      · have := Nat.le_mul_of_pos_left (10 ^ (j + 1)) hk
        omega
    have magnitude : (if 0 ≤ -((j + 1 : Nat) : Int) then
        k * 10 ^ (j + 1) * 10 ^ (-((j + 1 : Nat) : Int)).toNat
        else if digitCount (k * 10 ^ (j + 1)) < j + 1 then 0 else k) = k := by
      rw [if_neg (by omega)]
      split
      · rename_i h
        exact (few h).symm
      · rfl
    rw [magnitude]

theorem nearest_natCast (c j : Nat) : nearest ⟨false, c, (j : Int)⟩ = (c * 10 ^ j : Nat) := by
  unfold nearest
  simp

/-- Hundredths with at most 28 digits are read back as they are, with their sign. -/
theorem toCents_hundredths {negative : Bool} {n : Nat} (small : n < 10 ^ 28) :
    toCents (.finite ⟨negative, n, -2⟩) = .ok (if negative then -(n : Int) else n) := by
  have hmul : mul ⟨negative, n, -2⟩ (.ofInt 100) = Decimal.round ⟨negative, n * 100, -2⟩ := by
    simp [mul, ofInt]
  rw [toCents, hmul]
  congr 1
  by_cases h28 : n * 100 < 10 ^ 28
  · rw [round_of_lt h28]
    exact nearest_mul_pow negative n 2
  · obtain ⟨extra, c, hextra, hcount, hround, hcases⟩ :=
      round_of_le (x := ⟨negative, n * 100, -2⟩) (Nat.not_lt.1 h28)
    simp only at hcount hround hcases
    have h30 : digitCount (n * 100) ≤ 30 := (digitCount_le_iff (by decide)).2 (by omega)
    have whole (j : Nat) (hj : j + extra = 2) (hk : c = n * 10 ^ j) :
        nearest ⟨negative, c, -2 + extra⟩ = if negative then -(n : Int) else n := by
      rw [hk, show (-2 : Int) + extra = -(j : Int) by omega]
      exact nearest_mul_pow negative n j
    have cases : c < 10 ^ 28 ∧ ∃ j, j + extra = 2 ∧ c = n * 10 ^ j := by
      obtain rfl | rfl : extra = 1 ∨ extra = 2 := by omega
      · have hc : c = n * 10 := by
          rw [hround, show n * 100 = n * 10 * 10 ^ 1 by omega]
          exact roundDiv_mul _ _ (by decide)
        have h29 : n * 100 < 10 ^ 29 := (digitCount_le_iff (by decide)).1 (by omega)
        exact ⟨by omega, 1, rfl, hc⟩
      · have hc : c = n := by
          rw [hround]
          exact roundDiv_mul _ _ (by decide)
        exact ⟨by omega, 0, rfl, by omega⟩
    obtain ⟨hlt, j, hj, hc⟩ := cases
    rcases hcases with ⟨-, hr⟩ | ⟨h28, -⟩
    · rw [hr]
      exact whole j hj hc
    · omega

theorem toCents_of_lt {x : Decimal} {n : Nat} (h : x.Holds n) (small : n < 10 ^ 28) :
    toCents (.finite x) = .ok (n : Int) := by
  obtain ⟨-, he, hc, hs⟩ | ⟨large, -⟩ := h
  · obtain ⟨negative, c, e⟩ := x
    obtain rfl : e = -2 := he
    obtain rfl : c = n := hc
    rw [toCents_hundredths small]
    split
    · rename_i hn
      rw [hs hn]
      rfl
    · rfl
  · omega

/-- A count with too many digits is not read as one with fewer. -/
theorem le_toCents_of_holds {x : Decimal} {n : Nat} (h : x.Holds n) (large : 10 ^ 28 ≤ n) :
    ∃ k : Nat, toCents (.finite x) = .ok (k : Int) ∧ 10 ^ 28 ≤ k := by
  obtain ⟨small, -⟩ | ⟨-, hn, he, stays⟩ := h
  · omega
  · have hmul : x.mul (.ofInt 100) = Decimal.round ⟨false, x.coefficient * 100, x.exponent⟩ := by
      simp [mul, ofInt, hn]
    have raw : 10 ^ 30 ≤ Decimal.hundredths ⟨false, x.coefficient * 100, x.exponent⟩ := by
      rw [hundredths] at stays ⊢
      simp only
      rw [Nat.mul_right_comm]
      omega
    have bound := pow_le_hundredths_round (x := ⟨false, x.coefficient * 100, x.exponent⟩) he raw
    have few := round_coefficient_lt ⟨false, x.coefficient * 100, x.exponent⟩
    have sign := round_negative ⟨false, x.coefficient * 100, x.exponent⟩
    rw [toCents, hmul]
    generalize Decimal.round ⟨false, x.coefficient * 100, x.exponent⟩ = y at bound few sign
    obtain ⟨negative, c, e⟩ := y
    obtain rfl : negative = false := sign
    simp only [hundredths] at bound few
    have far : 3 ≤ (e + 2).toNat := by
      apply Nat.le_of_not_lt
      intro h
      have := Nat.pow_le_pow_right (show 0 < 10 by decide) (Nat.le_of_lt_succ h)
      have := Nat.mul_le_mul_left c this
      omega
    obtain ⟨j, rfl⟩ : ∃ j : Nat, e = j := ⟨e.toNat, by omega⟩
    refine ⟨c * 10 ^ j, by rw [nearest_natCast], ?_⟩
    rw [show ((j : Int) + 2).toNat = j + 2 by omega, Nat.pow_add, ← Nat.mul_assoc] at bound
    omega

end Decimal

end OrderFlow
