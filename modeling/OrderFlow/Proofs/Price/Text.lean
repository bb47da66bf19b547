import OrderFlow.Decimal.Text
import OrderFlow.Proofs.Price.Basic
import OrderFlow.Proofs.Text.Digits

/-!
# Prices that are read back

The text of a price is a sign, digits, a point and two digits (`Price.exists_text`). The reader of
numbers finds the price in it again (`Price.ofText?_text`), and a price is its own rounding
(`Price.ofNumber_toNumber`).
-/

namespace OrderFlow

open Text

/-! ## Plain texts -/

/-- A character of the text of a price. -/
def Text.IsPlain (c : Char) : Prop :=
  c = '-' ∨ c = '.' ∨ c.isDigit = true

namespace Text

variable {c : Char} {cs : List Char}

theorem toNat_of_isDigit (h : c.isDigit = true) : 48 ≤ c.toNat ∧ c.toNat ≤ 57 :=
  Char.isDigit_iff_toNat.1 h

theorem IsPlain.toNat (h : IsPlain c) : 45 ≤ c.toNat ∧ c.toNat ≤ 57 := by
  rcases h with rfl | rfl | h
  · decide
  · decide
  · have := toNat_of_isDigit h
    omega

theorem IsPlain.not_blank (h : IsPlain c) : isBlank c = false := by
  have := h.toNat
  simp only [isBlank, isSpace, Bool.or_eq_false_iff, Bool.and_eq_false_iff, decide_eq_false_iff_not,
    beq_eq_false_iff_ne]
  omega

theorem IsPlain.asciiDigit (h : IsPlain c) : asciiDigit c = c := by
  have := h.toNat
  unfold Text.asciiDigit digit?
  simp only
  rw [if_pos (by omega)]
  by_cases hd : 48 ≤ c.toNat ∧ c.toNat ≤ 57
  · simp [digitChar, hd, Nat.add_sub_cancel' hd.1]
  · simp [hd]

theorem IsPlain.ne_underscore (h : IsPlain c) : c ≠ '_' := by
  rintro rfl
  have := h.toNat
  simp at this

theorem dropWhile_eq_self {p : Char → Bool} (h : ∀ c ∈ cs, p c = false) : cs.dropWhile p = cs := by
  cases cs with
  | nil => rfl
  | cons c cs => rw [List.dropWhile_cons_of_neg (by simp [h c List.mem_cons_self])]

theorem trim_eq_self {p : Char → Bool} (h : ∀ c ∈ cs, p c = false) : trim p cs = cs := by
  rw [trim, dropWhile_eq_self h, dropWhile_eq_self fun c hc => h c (List.mem_reverse.1 hc),
    List.reverse_reverse]

theorem ne_of_isDigit (h : c.isDigit = true) {d : Char} (hd : d.isDigit = false) : c ≠ d := by
  rintro rfl
  rw [h] at hd
  cases hd

theorem splitSign_of_isDigit (h : c.isDigit = true) : splitSign (c :: cs) = (false, c :: cs) := by
  have minus := ne_of_isDigit h (d := '-') rfl
  have plus := ne_of_isDigit h (d := '+') rfl
  unfold splitSign
  split <;> simp_all

theorem toLower_of_isDigit (h : c.isDigit = true) : c.toLower = c := by
  have small := (toNat_of_isDigit h).2
  apply dif_neg
  intro capital
  have large : 65 ≤ c.toNat := UInt32.le_iff_toNat_le.1 capital.1
  omega

end Text

namespace Number

/-- A text that starts with a digit is not one of the words. -/
theorem ofChars?_of_digits {negative : Bool} {cs rest : List Char} {c : Char}
    (hcs : splitSign cs = (negative, c :: rest)) (hc : c.isDigit = true) :
    ofChars? cs = match Decimal.unsigned? negative (c :: rest) with
      | some x => if x.inBounds then some (.finite x) else none
      | none => none := by
  have lower := toLower_of_isDigit hc
  have i := ne_of_isDigit hc (d := 'i') rfl
  have n := ne_of_isDigit hc (d := 'n') rfl
  have s := ne_of_isDigit hc (d := 's') rfl
  have word : ¬ ((c :: rest).map Char.toLower = "inf".toList ∨
      (c :: rest).map Char.toLower = "infinity".toList) := by
    rw [List.map_cons, lower]
    rintro (e | e)
    · exact i (List.cons.inj e).1
    · exact i (List.cons.inj e).1
  have mark : nan? negative ((c :: rest).map Char.toLower) = none := by
    rw [List.map_cons, lower]
    unfold nan?
    split <;> simp_all
  unfold ofChars?
  simp only [hcs]
  rw [if_neg word]
  cases Decimal.unsigned? negative (c :: rest) <;> simp only [mark]

/-- Blanks, underscores and foreign digits are looked for in vain. -/
theorem ofText?_of_plain {s : String} (h : ∀ c ∈ s.toList, IsPlain c) :
    ofText? s = ofChars? s.toList := by
  unfold ofText?
  rw [trim_eq_self fun c hc => (h c hc).not_blank,
    List.filter_eq_self.2 fun c hc => decide_eq_true (h c hc).ne_underscore]
  rw [List.map_congr_left fun c hc => (h c hc).asciiDigit, List.map_id']

end Number

theorem Decimal.unsigned?_of_digits (negative : Bool) {whole fraction : List Char}
    (hw : ∀ c ∈ whole, c.isDigit = true) (hf : ∀ c ∈ fraction, c.isDigit = true)
    (nonempty : whole ≠ []) :
    unsigned? negative (whole ++ '.' :: fraction) =
      some ⟨negative, natOfDigits (whole ++ fraction), -(fraction.length : Int)⟩ := by
  have taken : (whole ++ '.' :: fraction).takeWhile Char.isDigit = whole := by
    rw [List.takeWhile_append_of_pos hw]
    simp
  have left : (whole ++ '.' :: fraction).dropWhile Char.isDigit = '.' :: fraction := by
    rw [List.dropWhile_append_of_pos hw]
    rfl
  have all : (fraction ++ []).takeWhile Char.isDigit = fraction := by
    rw [List.takeWhile_append_of_pos hf, List.takeWhile_nil, List.append_nil]
  have none : (fraction ++ []).dropWhile Char.isDigit = [] := by
    rw [List.dropWhile_append_of_pos hf, List.dropWhile_nil]
  rw [List.append_nil] at all none
  have some : whole.isEmpty = false := by
    cases whole with
    | nil => exact absurd rfl nonempty
    | cons c cs => rfl
  unfold unsigned?
  simp [taken, left, all, none, some, exponentOf?]

namespace Price

variable (p : Price)

/-- The characters of the sign of a price. -/
def signChars : List Char :=
  if p.belowZero then ['-'] else []

/-- The text of a price: digits, a point and two digits behind its sign. -/
theorem exists_text : ∃ whole fraction : List Char,
    p.toDecimal.text.toList = p.signChars ++ (whole ++ '.' :: fraction) ∧ whole ≠ [] ∧
      (∀ c ∈ whole, c.isDigit = true) ∧ (∀ c ∈ fraction, c.isDigit = true) ∧
      fraction.length = 2 ∧ natOfDigits (whole ++ fraction) = p.cents := by
  have digits : ∀ c ∈ Nat.toDigits 10 p.cents, c.isDigit = true := fun c => isDigit_of_mem_toDigits
  have value := natOfDigits_toDigits p.cents
  have positive : 0 < (Nat.toDigits 10 p.cents).length := Nat.length_toDigits_pos
  have sign : (if p.belowZero then "-" else "").toList = p.signChars := by
    unfold signChars
    split <;> rfl
  unfold Decimal.text toDecimal
  simp only
  generalize Nat.toDigits 10 p.cents = ds at *
  rw [if_pos (by omega), if_neg (by decide)]
  rcases Nat.lt_or_ge 2 ds.length with long | short
  · refine ⟨ds.take (ds.length - 2), ds.drop (ds.length - 2), ?_, ?_, ?_, ?_, ?_, ?_⟩
    · rw [if_neg (by omega), show (-2 + (ds.length : Int)).toNat = ds.length - 2 by omega]
      simp [sign]
    · intro empty
      have := congrArg List.length empty
      simp at this
      omega
    · exact fun c hc => digits c (List.mem_of_mem_take hc)
    · exact fun c hc => digits c (List.mem_of_mem_drop hc)
    · rw [List.length_drop]
      omega
    · rw [List.take_append_drop, value]
  · refine ⟨['0'], List.replicate (2 - ds.length) '0' ++ ds, ?_, by simp, by simp, ?_, ?_, ?_⟩
    · rw [if_pos (by omega), show (-(-2 + (ds.length : Int))).toNat = 2 - ds.length by omega]
      simp [sign]
    · intro c hc
      rcases List.mem_append.1 hc with hc | hc
      · obtain ⟨-, rfl⟩ := List.mem_replicate.1 hc
        rfl
      · exact digits c hc
    · rw [List.length_append, List.length_replicate]
      omega
    · rw [← List.append_assoc, show ['0'] ++ List.replicate (2 - ds.length) '0' =
        List.replicate (2 - ds.length + 1) '0' from rfl, natOfDigits_replicate_append, value]

theorem inBounds_toDecimal : p.toDecimal.inBounds = true := by
  have few := (digitCount_le_iff (n := p.cents) (k := 28) (by decide)).2 p.cents_lt
  unfold Decimal.inBounds Decimal.magnitude Decimal.exponentBounds toDecimal
  simp only [Bool.and_eq_true, decide_eq_true_eq]
  omega

/-- A price is read back from its text. -/
theorem ofText?_text : Number.ofText? p.toDecimal.text = some p.toNumber := by
  obtain ⟨whole, fraction, text, nonempty, hw, hf, two, value⟩ := p.exists_text
  have plain : ∀ c ∈ p.toDecimal.text.toList, IsPlain c := by
    intro c hc
    rw [text, signChars] at hc
    rcases List.mem_append.1 hc with hc | hc
    · split at hc
      · exact .inl (List.mem_singleton.1 hc)
      · cases hc
    · rcases List.mem_append.1 hc with hc | hc
      · exact .inr (.inr (hw c hc))
      · rcases List.mem_cons.1 hc with rfl | hc
        · exact .inr (.inl rfl)
        · exact .inr (.inr (hf c hc))
  obtain ⟨c, rest, hwhole⟩ := List.exists_cons_of_ne_nil nonempty
  have first : c.isDigit = true := hw c (hwhole ▸ List.mem_cons_self)
  have split : splitSign p.toDecimal.text.toList =
      (p.belowZero, c :: (rest ++ '.' :: fraction)) := by
    rw [text, signChars, hwhole]
    cases p.belowZero with
    | true => rfl
    | false => exact splitSign_of_isDigit first
  have number := Decimal.unsigned?_of_digits p.belowZero hw hf nonempty
  rw [value, two] at number
  rw [Number.ofText?_of_plain plain, Number.ofChars?_of_digits split first, ← List.cons_append,
    ← hwhole, number]
  exact if_pos p.inBounds_toDecimal

/-- A price is its own rounding. -/
theorem ofNumber_toNumber (shown : String) : ofNumber shown p.toNumber = .ok p := by
  have few := (digitCount_le_iff (n := p.cents) (k := 28) (by decide)).2 p.cents_lt
  have accepted : ¬ ((p.toDecimal.negative && !p.toDecimal.isZero) = true) := by
    rw [show p.toDecimal.negative = p.belowZero from rfl]
    cases hneg : p.belowZero with
    | false => simp
    | true => simp [Decimal.isZero, toDecimal, p.cents_eq_zero hneg]
  have magnitude : ¬ 26 ≤ p.toDecimal.magnitude := by
    unfold Decimal.magnitude toDecimal
    simp only
    omega
  have hundredths : hundredths? p.toDecimal = some p.cents := by
    unfold hundredths?
    rw [if_neg magnitude]
    by_cases zero : p.cents = 0 <;> simp [toDecimal, zero]
  have rounded : ofDecimal? p.toDecimal = some p := by
    have sign : (p.belowZero && p.cents == 0) = p.belowZero := by
      cases hneg : p.belowZero with
      | false => rfl
      | true => simp [p.cents_eq_zero hneg]
    unfold ofDecimal?
    rw [hundredths]
    simp only [p.cents_lt, dif_pos, toDecimal, sign]
  rw [toNumber, ofNumber, if_neg accepted, rounded]

end Price

end OrderFlow
