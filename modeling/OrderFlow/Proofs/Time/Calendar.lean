import OrderFlow.Time.Calendar

/-!
# Days and dates

The date of a day is one of the calendar, and its day is the one it came from
(`Day.ofDate?_date`). Days are divided into eras of 400 years that begin in March; the leap days
of an era are taken out of its days to find the year (`commonDays_div`).
-/

namespace OrderFlow

namespace Date

/-- Days before a year of an era that begins in March. -/
def yearStart (y : Nat) : Nat :=
  365 * y + y / 4 - y / 100 + y / 400

/-- The days of an era without those that leap years add. -/
def commonDays (n : Nat) : Nat :=
  n - n / 1460 + n / 36524 - n / 146096

theorem commonDays_mono {m n : Nat} (h : m ≤ n) : commonDays m ≤ commonDays n := by
  have step (k : Nat) : commonDays k ≤ commonDays (k + 1) := by
    have leap : k - k / 1460 ≤ k + 1 - (k + 1) / 1460 := by omega
    have century : k / 36524 ≤ (k + 1) / 36524 := Nat.div_le_div_right (Nat.le_succ k)
    have quarter (n : Nat) : n / 146096 = n / 36524 / 4 := by rw [Nat.div_div_eq_div_mul]
    unfold commonDays
    rw [quarter, quarter]
    generalize k - k / 1460 = a, k + 1 - (k + 1) / 1460 = b at leap ⊢
    generalize k / 36524 = c, (k + 1) / 36524 = d at century ⊢
    omega
  induction h with
  | refl => exact Nat.le_refl _
  | step _ ih => exact Nat.le_trans ih (step _)

theorem commonDays_yearStart : ∀ y < 400,
    365 * y ≤ commonDays (yearStart y) ∧ commonDays (yearStart (y + 1) - 1) < 365 * (y + 1) := by
  decide +kernel

theorem exists_year {n k : Nat} (h : n < yearStart k) :
    ∃ y < k, yearStart y ≤ n ∧ n < yearStart (y + 1) := by
  induction k with
  | zero => exact absurd h (Nat.not_lt_zero n)
  | succ k ih =>
    rcases Nat.lt_or_ge n (yearStart k) with lt | ge
    · obtain ⟨y, hy, bounds⟩ := ih lt
      exact ⟨y, Nat.lt_succ_of_lt hy, bounds⟩
    · exact ⟨k, Nat.lt_succ_self k, ge, h⟩

/-- The year of a day of an era. -/
theorem commonDays_div {n : Nat} (h : n < 146097) :
    commonDays n / 365 < 400 ∧ yearStart (commonDays n / 365) ≤ n ∧
      n < yearStart (commonDays n / 365 + 1) := by
  obtain ⟨y, hy, lo, hi⟩ := exists_year (k := 400) h
  obtain ⟨least, greatest⟩ := commonDays_yearStart y hy
  have above := commonDays_mono lo
  have below := commonDays_mono (show n ≤ yearStart (y + 1) - 1 by omega)
  have year : commonDays n / 365 = y := by omega
  rw [year]
  exact ⟨hy, lo, hi⟩

theorem isLeap_add (y era : Nat) : isLeap (y + era * 400) = isLeap y := by
  unfold isLeap
  rw [show (y + era * 400) % 4 = y % 4 by omega, show (y + era * 400) % 100 = y % 100 by omega,
    show (y + era * 400) % 400 = y % 400 by omega]

theorem yearStart_succ : ∀ y < 400,
    yearStart (y + 1) = yearStart y + 365 + if isLeap (y + 1) then 1 else 0 := by
  decide +kernel

/-- The parts of a day of the calendar: its era, the year of the era, and the day of the year. -/
theorem exists_parts (n : Nat) : ∃ era y doy, y < 400 ∧ n = era * 146097 + yearStart y + doy ∧
    doy < 365 + (if isLeap (y + 1) then 1 else 0) ∧
    ofMarchDays n =
      let month := (5 * doy + 2) / 153
      let day := doy - (153 * month + 2) / 5 + 1
      let year := y + era * 400
      if month < 10 then ⟨year, month + 3, day⟩ else ⟨year + 1, month - 9, day⟩ := by
  obtain ⟨hy, lo, hi⟩ := commonDays_div (Nat.mod_lt n (show 0 < 146097 by decide))
  have next := yearStart_succ _ hy
  have hn := Nat.div_add_mod n 146097
  refine ⟨n / 146097, commonDays (n % 146097) / 365,
    n % 146097 - yearStart (commonDays (n % 146097) / 365), hy, by omega, by omega, ?_⟩
  have start : 365 * (commonDays (n % 146097) / 365) + commonDays (n % 146097) / 365 / 4
      - commonDays (n % 146097) / 365 / 100 = yearStart (commonDays (n % 146097) / 365) := by
    unfold yearStart
    omega
  rw [← start]
  rfl

/-- Counting the days of a date gives back the days that it was made of. -/
theorem marchDays_ofMarchDays (n : Nat) : (ofMarchDays n).marchDays = n := by
  obtain ⟨era, y, doy, hy, hn, hdoy, hdate⟩ := exists_parts n
  have short : doy < 366 := by split at hdoy <;> omega
  have quarter : (y + era * 400) / 4 = y / 4 + era * 100 := by omega
  have century : (y + era * 400) / 100 = y / 100 + era * 4 := by omega
  have fourth : (y + era * 400) / 400 = era := by omega
  unfold yearStart at hn
  rw [hdate]
  simp only
  split
  · simp only [marchDays]
    rw [if_neg (by omega), if_neg (by omega), quarter, century, fourth]
    omega
  · simp only [marchDays]
    rw [if_pos (by omega), if_pos (by omega), Nat.add_sub_cancel, quarter, century, fourth]
    omega

/-- All months but the last one of a year that begins in March have their lengths from a formula. -/
theorem daysIn_march (year : Nat) : ∀ m < 11,
    daysIn year (if m < 10 then m + 3 else m - 9) =
      (153 * (m + 1) + 2) / 5 - (153 * m + 2) / 5 := by
  have other (month : Nat) (h : month ≠ 2) : daysIn year month = daysIn 1 month := by
    rw [daysIn, daysIn, if_neg h, if_neg h]
  have table : ∀ m < 11, (if m < 10 then m + 3 else m - 9) ≠ 2 ∧
      daysIn 1 (if m < 10 then m + 3 else m - 9) =
        (153 * (m + 1) + 2) / 5 - (153 * m + 2) / 5 := by decide
  intro m hm
  rw [other _ (table m hm).1, (table m hm).2]

/-- The days that are counted have dates of the calendar. -/
theorem valid_ofMarchDays {n : Nat} (lo : epoch ≤ n) (hi : n < epoch + dayCount) :
    (ofMarchDays n).Valid := by
  obtain ⟨era, y, doy, hy, hn, hdoy, hdate⟩ := exists_parts n
  have leap := isLeap_add (y + 1) era
  have length := daysIn_march (y + era * 400)
  have lengthNext := daysIn_march (y + era * 400 + 1)
  unfold epoch dayCount at *
  unfold yearStart at hn
  have short : doy < 366 := by split at hdoy <;> omega
  rw [hdate]
  simp only
  generalize hm : (5 * doy + 2) / 153 = m at *
  split
  · rename_i early
    have last := length m (by omega)
    rw [if_pos early] at last
    refine ⟨?_, ?_, ?_, ?_, ?_, ?_⟩ <;> simp only <;> omega
  · rename_i late
    refine ⟨by simp only; omega, by simp only; omega, by simp only; omega, by simp only; omega,
      by simp only; omega, ?_⟩
    simp only
    rcases Nat.lt_or_ge m 11 with january | february
    · have last := lengthNext m january
      rw [if_neg late] at last
      omega
    · obtain rfl : m = 11 := by omega
      rw [daysIn, if_pos rfl, show y + era * 400 + 1 = y + 1 + era * 400 by omega, leap]
      split at hdoy
      · rename_i h
        rw [if_pos h]
        omega
      · rename_i h
        rw [if_neg h]
        omega

end Date

namespace Day

/-- A day is read back from its date. -/
theorem ofDate?_date (d : Day) : ofDate? d.date = some d := by
  have valid := Date.valid_ofMarchDays (n := d.number + Date.epoch) (by omega)
    (by have := d.inRange; omega)
  unfold ofDate? date
  simp only [if_pos valid, Date.marchDays_ofMarchDays, Nat.add_sub_cancel, d.inRange, dif_pos]

end Day

end OrderFlow
