import Mathlib.Data.List.Induction
import OrderFlow.Value.Printer
import OrderFlow.Value.Reader

/-!
# Texts of documents that are read back

A text between its quotes is read back point by point, whatever it holds
(`Document.readText_textOf`). The writer makes one or two code units of each character, the reader
joins pairs of surrogates again. No character is a surrogate itself, so that no other two units are
joined.
-/

namespace OrderFlow.Document

open Text

variable {unit low high n : Nat} {c : Char} {cs rest : List Char} {acc : List Nat}

/-! ## Escapes -/

/-- A hexadecimal digit has its value. -/
theorem hexDigit?_digitChar : ∀ value < 16, hexDigit? (Nat.digitChar value) = some value := by
  decide

/-- The four digits of a code unit. -/
theorem hexUnit?_digits (small : unit < 0x10000) :
    hexUnit? (Nat.digitChar (unit / 4096 % 16)) (Nat.digitChar (unit / 256 % 16))
      (Nat.digitChar (unit / 16 % 16)) (Nat.digitChar (unit / 1 % 16)) = some unit := by
  have digit (place : Nat) : hexDigit? (Nat.digitChar (unit / place % 16)) =
      some (unit / place % 16) := hexDigit?_digitChar _ (Nat.mod_lt _ (by decide))
  simp only [hexUnit?, digit]
  refine congrArg some ?_
  omega

theorem units?_unitText (small : unit < 0x10000) (rest : List Char) (acc : List Nat) :
    units? (unitText unit ++ rest) acc = units? rest (unit :: acc) := by
  simp only [unitText, List.cons_append, List.nil_append, units?, hexUnit?_digits small]

/-- The letter of an escape has the code point that it stands for, and starts no unit. -/
theorem shortEscape?_of_letter {letter : Char} (h : escapeLetter? n = some letter) :
    letter ≠ 'u' ∧ shortEscape? letter = some n ∧ n < 0x10000 := by
  unfold escapeLetter? at h
  split at h
  case h_8 => cases h
  all_goals
    obtain rfl := Option.some.inj h
    exact ⟨by decide, rfl, by decide⟩

theorem units?_letter {letter : Char} (h : escapeLetter? n = some letter) (rest : List Char)
    (acc : List Nat) : units? ('\\' :: letter :: rest) acc = units? rest (n :: acc) := by
  obtain ⟨notUnit, escape, -⟩ := shortEscape?_of_letter h
  rw [units?]
  · rw [escape]
  · rintro a b c d cs rfl
    exact absurd rfl notUnit

/-- A character that needs no escape is read as it is. -/
theorem units?_plain (none : escapeLetter? c.toNat = none) (visible : 32 ≤ c.toNat)
    (rest : List Char) (acc : List Nat) :
    units? (c :: rest) acc = units? rest (c.toNat :: acc) := by
  have quote : c ≠ '\x22' := by
    rintro rfl
    cases none
  have slash : c ≠ '\\' := by
    rintro rfl
    cases none
  have other := units?.eq_5 acc c rest quote (fun _ _ _ _ _ h => absurd h slash)
    fun _ _ h => absurd h slash
  rw [other, if_neg]
  rintro (control | rfl)
  · omega
  · exact slash rfl

/-! ## Units of a character -/

/-- The code units of a character: one, or a pair of surrogates. -/
def unitsOf (c : Char) : List Nat :=
  if c.toNat < 0x10000 then [c.toNat]
  else [0xd800 + (c.toNat - 0x10000) / 1024, 0xdc00 + (c.toNat - 0x10000) % 1024]

theorem toNat_lt (c : Char) : c.toNat < 0x110000 := by
  have valid : c.toNat.isValidChar := c.valid
  unfold Nat.isValidChar at valid
  omega

/-- A character is read from its text as its units. -/
theorem units?_pointText (c : Char) (rest : List Char) (acc : List Nat) :
    units? (pointText c.toNat ++ rest) acc = units? rest ((unitsOf c).reverse ++ acc) := by
  unfold pointText unitsOf
  cases letter : escapeLetter? c.toNat with
  | some e =>
    obtain ⟨-, -, small⟩ := shortEscape?_of_letter letter
    simp only [if_pos small]
    exact units?_letter letter rest acc
  | none =>
    simp only
    split
    · rename_i visible
      have small : c.toNat < 0x10000 := by omega
      rw [if_pos small, Char.ofNat_toNat]
      exact units?_plain letter visible.1 rest acc
    split
    · rename_i small
      exact units?_unitText small rest acc
    · have large := toNat_lt c
      rw [List.append_assoc, units?_unitText (by omega), units?_unitText (by omega)]
      rfl

theorem units?_points (cs rest : List Char) (acc : List Nat) :
    units? ((cs.map Char.toNat).flatMap pointText ++ '\x22' :: rest) acc =
      some ((cs.flatMap unitsOf).reverse ++ acc, rest) := by
  induction cs generalizing acc with
  | nil => simp [units?]
  | cons c cs ih =>
    rw [List.map_cons, List.flatMap_cons, List.append_assoc, units?_pointText, ih,
      List.flatMap_cons, List.reverse_append, List.append_assoc]

/-! ## Pairs of surrogates -/

theorem not_isLow (c : Char) : isLow c.toNat = false := by
  have valid : c.toNat.isValidChar := c.valid
  unfold Nat.isValidChar at valid
  simp only [isLow, Bool.and_eq_false_iff, decide_eq_false_iff_not]
  omega

theorem joinUnits_single (alone : isLow unit = false) (units acc : List Nat) :
    joinUnits (unit :: units) acc = joinUnits units (unit :: acc) := by
  cases units with
  | nil => rfl
  | cons before units => rw [joinUnits, alone, Bool.false_and, if_neg Bool.false_ne_true]

theorem joinUnits_pair (hlow : isLow low = true) (hhigh : isHigh high = true)
    (units acc : List Nat) : joinUnits (low :: high :: units) acc =
      joinUnits units ((0x10000 + (high - 0xd800) * 1024 + (low - 0xdc00)) :: acc) := by
  rw [joinUnits, hlow, hhigh, Bool.and_self, if_pos rfl]

/-- The units of a character, in reverse, are joined to its code point. -/
theorem joinUnits_unitsOf (c : Char) (units acc : List Nat) :
    joinUnits ((unitsOf c).reverse ++ units) acc = joinUnits units (c.toNat :: acc) := by
  unfold unitsOf
  split
  · exact joinUnits_single (not_isLow c) units acc
  · have large := toNat_lt c
    have low : isLow (0xdc00 + (c.toNat - 0x10000) % 1024) = true := by
      simp only [isLow, Bool.and_eq_true, decide_eq_true_eq]
      omega
    have high : isHigh (0xd800 + (c.toNat - 0x10000) / 1024) = true := by
      simp only [isHigh, Bool.and_eq_true, decide_eq_true_eq]
      omega
    have point : 0x10000 + (0xd800 + (c.toNat - 0x10000) / 1024 - 0xd800) * 1024 +
        (0xdc00 + (c.toNat - 0x10000) % 1024 - 0xdc00) = c.toNat := by omega
    refine (joinUnits_pair low high units acc).trans ?_
    rw [point]

/-- Units in reverse are joined to the code points that they came from. -/
theorem joinUnits_reverse (cs : List Char) (acc : List Nat) :
    joinUnits (cs.flatMap unitsOf).reverse acc = cs.map Char.toNat ++ acc := by
  -- on the last character, since the units come in reverse
  induction cs using List.reverseRecOn generalizing acc with
  | nil => rfl
  | append_singleton cs c ih =>
    rw [List.flatMap_append, List.flatMap_singleton, List.reverse_append, joinUnits_unitsOf, ih,
      List.map_append, List.append_assoc]
    rfl

/-! ## Texts -/

/-- A text is read back from between its quotes. -/
theorem readText_textOf (s : String) (rest : List Char) :
    readText ((s.toList.map Char.toNat).flatMap pointText ++ '\x22' :: rest) =
      .ok (s.toList.map Char.toNat, rest) := by
  simp only [readText, units?_points, List.append_nil, joinUnits_reverse]

theorem mended_toNat (s : String) : Value.mended (s.toList.map Char.toNat) = s := by
  have same : (fun n => (character? n).getD (Char.ofNat 0xfffd)) ∘ Char.toNat = id := by
    funext c
    have valid : c.toNat.isValidChar := c.valid
    simp only [Function.comp_apply, character?, if_pos valid, Option.getD_some, Char.ofNat_toNat,
      id_eq]
  rw [Value.mended, List.map_map, same, List.map_id, String.ofList_toList]

/-- The code points of a text make that text. -/
theorem ofPoints_toNat (s : String) : Value.ofPoints (s.toList.map Char.toNat) = .str s := by
  have whole : ∀ n ∈ s.toList.map Char.toNat, n.isValidChar := by
    intro n hn
    obtain ⟨c, -, rfl⟩ := List.mem_map.1 hn
    exact c.valid
  rw [Value.ofPoints, dif_pos whole, mended_toNat]

end OrderFlow.Document
