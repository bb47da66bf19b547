import OrderFlow.Binary64.Basic
import OrderFlow.Proofs.Decimal.Exact

/-!
# Lower bounds of floating point numbers

`Reaches x v` says that a floating point number is at least the natural number `v`. Rounding
does not lead below a number of the format (`ofRatio_reaches`), and the last number of the format
below 2⁶³ is so far from it that sums of two integers which do not fit into 63 bits reach 2⁶³
although both were rounded first (`add_ofInt_reaches`).
-/

namespace OrderFlow.Binary64

/-- A floating point number is at least `v`. -/
def Reaches (x : Binary64) (v : Nat) : Prop :=
  match x with
  | .finite negative m e => negative = false ∧ v * 2 ^ (-e).toNat ≤ m * 2 ^ e.toNat
  | .infinite negative => negative = false
  | .nan => False

/-- The binary magnitude of a quotient that is at least one. -/
theorem binaryMagnitude_eq {n d k : Nat} (hd : 0 < d) (lo : d * 2 ^ k ≤ n)
    (hi : n < d * 2 ^ (k + 1)) : binaryMagnitude n d = k := by
  have hn : n ≠ 0 := by
    have := Nat.mul_pos hd (Nat.two_pow_pos k)
    omega
  have hd' : d ≠ 0 := by omega
  have n_le := Nat.log2_self_le hn
  have n_lt := Nat.lt_log2_self (n := n)
  have d_le := Nat.log2_self_le hd'
  have d_lt := Nat.lt_log2_self (n := d)
  have low : d.log2 + k < n.log2 + 1 := by
    apply (Nat.pow_lt_pow_iff_right (a := 2) (by decide)).1
    calc 2 ^ (d.log2 + k) = 2 ^ d.log2 * 2 ^ k := Nat.pow_add ..
      _ ≤ d * 2 ^ k := Nat.mul_le_mul_right _ d_le
      _ < 2 ^ (n.log2 + 1) := Nat.lt_of_le_of_lt lo n_lt
  have high : n.log2 < d.log2 + 1 + (k + 1) := by
    apply (Nat.pow_lt_pow_iff_right (a := 2) (by decide)).1
    calc 2 ^ n.log2 ≤ n := n_le
      _ < d * 2 ^ (k + 1) := hi
      _ ≤ 2 ^ (d.log2 + 1) * 2 ^ (k + 1) := Nat.mul_le_mul_right _ (Nat.le_of_lt d_lt)
      _ = 2 ^ (d.log2 + 1 + (k + 1)) := (Nat.pow_add ..).symm
  obtain ⟨j, hj⟩ : ∃ j : Nat, n.log2 = d.log2 + j := ⟨n.log2 - d.log2, by omega⟩
  have diff : (n.log2 : Int) - d.log2 = j := by omega
  unfold binaryMagnitude
  simp only [diff, Nat.pow_eq, Int.toNat_natCast, Int.toNat_neg_natCast, Nat.pow_zero, Nat.mul_one]
  obtain rfl | rfl : j = k ∨ j = k + 1 := by omega
  · rw [if_neg (by omega)]
  · rw [if_pos hi]
    omega

theorem exists_magnitude {n d : Nat} (hd : 0 < d) (h : d ≤ n) :
    ∃ k, d * 2 ^ k ≤ n ∧ n < d * 2 ^ (k + 1) := by
  have hq : n / d ≠ 0 := by
    have := Nat.div_pos h hd
    omega
  refine ⟨(n / d).log2, ?_, ?_⟩
  · calc d * 2 ^ (n / d).log2 ≤ d * (n / d) := Nat.mul_le_mul_left _ (Nat.log2_self_le hq)
      _ ≤ n := Nat.mul_div_le n d
  · calc n < d * (n / d + 1) := Nat.lt_mul_div_succ n hd
      _ ≤ d * 2 ^ ((n / d).log2 + 1) := Nat.mul_le_mul_left _ Nat.lt_log2_self

/-- A significand that is large enough before the rounding is large enough after it. -/
theorem ofRatio_reaches_of_le {n d k v : Nat} (hd : 0 < d) (lo : d * 2 ^ k ≤ n)
    (hi : n < d * 2 ^ (k + 1))
    (hv : v * 2 ^ (52 - k) ≤
      roundDiv .even (n * 2 ^ (52 - k)) (d * 2 ^ (k - 52)) * 2 ^ (k - 52)) :
    (ofRatio false n d).Reaches v := by
  have hn : n ≠ 0 := by
    have := Nat.mul_pos hd (Nat.two_pow_pos k)
    omega
  have he : max (binaryMagnitude n d - 52) minExponent = (k : Int) - 52 := by
    rw [binaryMagnitude_eq hd lo hi, minExponent]
    omega
  have up : ((k : Int) - 52).toNat = k - 52 := by omega
  have down : (-((k : Int) - 52)).toNat = 52 - k := by omega
  rw [ofRatio, if_neg hn]
  simp only [he, up, down, Nat.pow_eq]
  generalize hm : roundDiv .even (n * 2 ^ (52 - k)) (d * 2 ^ (k - 52)) = m at hv ⊢
  by_cases carry : m = 2 ^ 53
  · rw [if_pos carry]
    simp only
    split
    · rfl
    · refine ⟨rfl, ?_⟩
      rcases Nat.lt_or_ge k 52 with small | large
      · obtain ⟨i, hi⟩ : ∃ i, 52 - k = i + 1 := ⟨52 - k - 1, by omega⟩
        rw [show (-((k : Int) - 52 + 1)).toNat = i by omega,
          show ((k : Int) - 52 + 1).toNat = 0 by omega]
        rw [hi, show k - 52 = 0 by omega, carry, Nat.pow_succ, ← Nat.mul_assoc] at hv
        omega
      · rw [show (-((k : Int) - 52 + 1)).toNat = 0 by omega,
          show ((k : Int) - 52 + 1).toNat = k - 52 + 1 by omega, Nat.pow_succ]
        rw [show 52 - k = 0 by omega, carry] at hv
        omega
  · rw [if_neg carry]
    simp only
    split
    · rfl
    · exact ⟨rfl, by rw [down, up]; exact hv⟩

theorem le_roundDiv {n d q : Nat} (hd : 0 < d) (h : q * d ≤ n) : q ≤ roundDiv .even n d :=
  Nat.le_trans ((Nat.le_div_iff_mul_le hd).2 h) (div_le_roundDiv ..)

/-- Rounding does not lead below a number of the format. -/
theorem ofRatio_reaches {n d c j : Nat} (hd : 0 < d) (hc : c ≤ 2 ^ 53) (pos : 0 < c)
    (h : c * 2 ^ j * d ≤ n) : (ofRatio false n d).Reaches (c * 2 ^ j) := by
  have hdn : d ≤ n :=
    Nat.le_trans (Nat.le_mul_of_pos_left _ (Nat.mul_pos pos (Nat.two_pow_pos j))) h
  obtain ⟨k, lo, hi⟩ := exists_magnitude hd hdn
  apply ofRatio_reaches_of_le hd lo hi
  have hD : 0 < d * 2 ^ (k - 52) := Nat.mul_pos hd (Nat.two_pow_pos _)
  rcases Nat.le_total k 52 with small | large
  · -- Nothing is cut off: the bound itself is an integer at the exponent of the result.
    rw [show k - 52 = 0 by omega, Nat.pow_zero, Nat.mul_one] at hD ⊢
    rw [Nat.mul_one]
    apply le_roundDiv hD
    rw [Nat.mul_right_comm]
    exact Nat.mul_le_mul_right _ h
  · rw [show 52 - k = 0 by omega, Nat.pow_zero, Nat.mul_one, Nat.mul_one]
    rcases Nat.le_total (k - 52) j with aligned | below
    · have split : 2 ^ j = 2 ^ (j - (k - 52)) * 2 ^ (k - 52) := by
        rw [← Nat.pow_add, Nat.sub_add_cancel aligned]
      rw [split, ← Nat.mul_assoc]
      refine Nat.mul_le_mul_right _ (le_roundDiv hD ?_)
      calc c * 2 ^ (j - (k - 52)) * (d * 2 ^ (k - 52)) = c * 2 ^ j * d := by rw [split]; ac_rfl
        _ ≤ n := h
    · -- The bound is at most `2 ^ k`, and the significand is at least `2 ^ 52`.
      have least : 2 ^ 52 ≤ roundDiv .even n (d * 2 ^ (k - 52)) := by
        apply le_roundDiv hD
        calc 2 ^ 52 * (d * 2 ^ (k - 52)) = d * 2 ^ (52 + (k - 52)) := by rw [Nat.pow_add]; ac_rfl
          _ = d * 2 ^ k := by rw [Nat.add_sub_cancel' large]
          _ ≤ n := lo
      rcases Nat.eq_or_lt_of_le below with rfl | strict
      · refine Nat.mul_le_mul_right _ (le_roundDiv hD ?_)
        calc c * (d * 2 ^ (k - 52)) = c * 2 ^ (k - 52) * d := by ac_rfl
          _ ≤ n := h
      · calc c * 2 ^ j ≤ 2 ^ 53 * 2 ^ j := Nat.mul_le_mul_right _ hc
          _ = 2 ^ 52 * 2 ^ (j + 1) := by rw [Nat.pow_succ 2 j]; omega
          _ ≤ 2 ^ 52 * 2 ^ (k - 52) :=
            Nat.mul_le_mul_left _ (Nat.pow_le_pow_right (by decide) strict)
          _ ≤ roundDiv .even n (d * 2 ^ (k - 52)) * 2 ^ (k - 52) := Nat.mul_le_mul_right _ least

/-! ## Sums beyond 63 bits -/

@[simp] theorem ofInt_natCast (n : Nat) : ofInt n = ofRatio false n 1 := by
  rw [ofInt, Int.natAbs_natCast, decide_eq_false (by omega)]

theorem ofRatio_reaches_zero (n d : Nat) : (ofRatio false n d).Reaches 0 := by
  rw [ofRatio]
  simp only
  split
  · exact ⟨rfl, by simp⟩
  · split <;> simp only <;> split <;> first | rfl | exact ⟨rfl, by simp⟩

/-- A sum reaches whatever the rounding of every quotient that is large enough does. -/
theorem add_reaches {x y : Binary64} {u v w : Nat} (hx : x.Reaches u) (hy : y.Reaches v)
    (pos : 0 < u + v)
    (hw : ∀ n d, 0 < d → (u + v) * d ≤ n → (ofRatio false n d).Reaches w) :
    (x.add y).Reaches w := by
  cases x with
  | nan => exact hx.elim
  | infinite s =>
    obtain rfl : s = false := hx
    cases y with
    | nan => exact hy.elim
    | infinite t =>
      obtain rfl : t = false := hy
      rfl
    | finite t n f => rfl
  | finite s m e =>
    obtain ⟨rfl, hm⟩ := hx
    cases y with
    | nan => exact hy.elim
    | infinite t => exact hy
    | finite t n f =>
      obtain ⟨rfl, hn⟩ := hy
      rw [add]
      generalize hg : min e f = g
      simp only [scaled, Bool.false_eq_true, if_false, Nat.pow_eq]
      rw [← Int.natCast_add]
      generalize hsum : m * 2 ^ (e - g).toNat + n * 2 ^ (f - g).toNat = sum
      -- Both summands are brought to the smaller exponent `g`.
      have align {k : Nat} {h : Int} {b : Nat} (hgh : g ≤ h)
          (hb : b * 2 ^ (-h).toNat ≤ k * 2 ^ h.toNat) :
          b * 2 ^ (-g).toNat ≤ k * 2 ^ (h - g).toNat * 2 ^ g.toNat := by
        have two : 0 < 2 ^ (-h).toNat := Nat.two_pow_pos _
        refine Nat.le_of_mul_le_mul_right ?_ two
        calc b * 2 ^ (-g).toNat * 2 ^ (-h).toNat = b * 2 ^ (-h).toNat * 2 ^ (-g).toNat := by ac_rfl
          _ ≤ k * 2 ^ h.toNat * 2 ^ (-g).toNat := Nat.mul_le_mul_right _ hb
          _ = k * 2 ^ (h - g).toNat * 2 ^ g.toNat * 2 ^ (-h).toNat := by
            simp only [Nat.mul_assoc, ← Nat.pow_add]
            congr 2
            omega
      have bound : (u + v) * 2 ^ (-g).toNat ≤ sum * 2 ^ g.toNat := by
        rw [← hsum, Nat.add_mul, Nat.add_mul]
        exact Nat.add_le_add (align (by omega) hm) (align (by omega) hn)
      have nonzero : sum ≠ 0 := by
        rintro rfl
        have := Nat.mul_pos pos (Nat.two_pow_pos (-g).toNat)
        omega
      rw [if_neg (by omega), decide_eq_false (by omega), Int.natAbs_natCast]
      exact hw _ _ (Nat.two_pow_pos _) bound

/-- Halfway between 2⁶³ and the number before it, rounding goes up to the even one. -/
theorem ofRatio_reaches_pow {n d : Nat} (hd : 0 < d) (h : (2 ^ 63 - 512) * d ≤ n) :
    (ofRatio false n d).Reaches (2 ^ 63) := by
  rcases Nat.lt_or_ge n (2 ^ 63 * d) with lt | ge
  · apply ofRatio_reaches_of_le (k := 62) hd (by omega) (by omega)
    have up : 2 ^ 53 ≤ roundDiv .even (n * 2 ^ (52 - 62)) (d * 2 ^ (62 - 52)) := by
      have hq : n / (d * 1024) = 2 ^ 53 - 1 := by
        rw [Nat.div_eq_iff (by omega)]
        omega
      have hr := Nat.div_add_mod n (d * 1024)
      rw [hq] at hr
      simp only [roundDiv, Nat.reduceSub, Nat.reducePow, Nat.mul_one, hq]
      generalize n % (d * 1024) = r at hr ⊢
      have upper : d * 1024 < 2 * r ∨ 2 * r = d * 1024 := by omega
      exact Nat.le_of_eq (if_pos (upper.imp_right fun half => ⟨half, .inr trivial⟩)).symm
    omega
  · have := ofRatio_reaches (n := n) (d := d) (c := 1) (j := 63) hd (by decide) (by decide)
    simp only [Nat.one_mul] at this
    exact this ge

/-- The distance of an integer of 63 bits from the number nearest to it is at most 512. -/
theorem ofRatio_one_reaches {a : Nat} (lo : 2 ^ 62 ≤ a) (hi : a < 2 ^ 63) :
    ∃ m, a ≤ m * 1024 + 512 ∧ (ofRatio false a 1).Reaches (m * 1024) := by
  refine ⟨roundDiv .even a 1024, ?_, ?_⟩
  · simp only [roundDiv]
    split <;> omega
  · exact ofRatio_reaches_of_le (k := 62) (by decide) (by omega) (by omega) (by simp)

/-- What the greater of two integers misses through its rounding, the other one supplies: it
holds the multiple of 512 that is needed, and such a multiple is a number of the format. -/
theorem exists_reaches_of_add {a b : Nat} (ha : a < 2 ^ 63) (hb : b < 2 ^ 63) (le : b ≤ a)
    (h : 2 ^ 63 ≤ a + b) :
    ∃ u v, (ofInt a).Reaches u ∧ (ofInt b).Reaches v ∧ 2 ^ 63 - 512 ≤ u + v := by
  obtain ⟨m, near, reach⟩ := ofRatio_one_reaches (a := a) (by omega) ha
  rw [ofInt_natCast, ofInt_natCast]
  rcases Nat.lt_or_ge (m * 1024) (2 ^ 63 - 512) with short | enough
  · obtain ⟨c, hc⟩ : ∃ c, c + m * 2 = 2 ^ 54 - 1 := ⟨2 ^ 54 - 1 - m * 2, by omega⟩
    have supplied : c * 2 ^ 9 * 1 ≤ b := by omega
    refine ⟨m * 1024, c * 2 ^ 9, reach, ?_, by omega⟩
    exact ofRatio_reaches (by decide) (by omega) (by omega) supplied
  · exact ⟨m * 1024, 0, reach, ofRatio_reaches_zero b 1, by rwa [Nat.add_zero]⟩

/-- Two integers whose sum does not fit into 63 bits have a rounded sum that does not fit. -/
theorem add_ofInt_reaches {a b : Nat} (ha : a < 2 ^ 63) (hb : b < 2 ^ 63) (h : 2 ^ 63 ≤ a + b) :
    ((ofInt a).add (ofInt b)).Reaches (2 ^ 63) := by
  obtain ⟨u, v, hu, hv, enough⟩ :
      ∃ u v, (ofInt a).Reaches u ∧ (ofInt b).Reaches v ∧ 2 ^ 63 - 512 ≤ u + v := by
    rcases Nat.le_total b a with le | le
    · exact exists_reaches_of_add ha hb le h
    · obtain ⟨u, v, hu, hv, enough⟩ := exists_reaches_of_add hb ha le (by omega)
      exact ⟨v, u, hv, hu, by omega⟩
  exact add_reaches hu hv (by omega) fun n d hd hn =>
    ofRatio_reaches_pow hd (Nat.le_trans (Nat.mul_le_mul_right d enough) hn)

/-- What reaches 2⁶³ does so with a number added that is not negative. -/
theorem add_reaches_pow {x y : Binary64} (hx : x.Reaches (2 ^ 63)) (hy : y.Reaches 0) :
    (x.add y).Reaches (2 ^ 63) :=
  add_reaches hx hy (by decide) fun n d hd hn =>
    ofRatio_reaches_pow hd (Nat.le_trans (Nat.mul_le_mul_right d (by decide)) hn)

end OrderFlow.Binary64
