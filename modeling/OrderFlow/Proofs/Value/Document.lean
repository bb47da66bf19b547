import Mathlib.Data.List.Basic
import OrderFlow.Proofs.Text.Digits
import OrderFlow.Proofs.Value.Text

/-!
# Documents that are read back

`Exact v` says that a document keeps all of `v`: it holds no decimals, no floating point numbers and
no torn texts, and its objects name no field twice. The text of such a value is read back as that
value if there is no obstacle in it, and otherwise its first obstacle is what stops the reader
(`Document.read_write`). The fuel of the reader is compared with the length of the text: every value
and every separator takes at least one character.
-/

namespace OrderFlow.Document

open Text

/-- A value of which a document keeps everything. -/
inductive Exact : Value → Prop
  | null : Exact .null
  | bool (b : Bool) : Exact (.bool b)
  | int (n : Int) : Exact (.int n)
  | str (s : String) : Exact (.str s)
  | arr {items : List Value} (each : ∀ v ∈ items, Exact v) : Exact (.arr items)
  | obj {fields : List (String × Value)} (distinct : (fields.map Prod.fst).Nodup)
      (each : ∀ field ∈ fields, Exact field.2) : Exact (.obj fields)

/-- What is read of a text that holds something up to its rest, or the obstacle that is met. -/
def upTo {α : Type} (a : α) (rest : List Char) : Option Obstacle → Except Fault (α × List Char)
  | some obstacle => .error (.stopped obstacle)
  | none => .ok (a, rest)

/-- A text that starts with what may stand behind a value, or with nothing. -/
def Ends (rest : List Char) : Prop :=
  ∀ c ∈ rest.head?, c = ',' ∨ c = ']' ∨ c = '\x7d'

theorem ends_nil : Ends [] :=
  fun _ h => nomatch h

theorem ends_comma (rest : List Char) : Ends (',' :: rest) := by
  simp [Ends]

theorem ends_bracket (rest : List Char) : Ends (']' :: rest) := by
  simp [Ends]

theorem ends_brace (rest : List Char) : Ends ('\x7d' :: rest) := by
  simp [Ends]

/-- A text that is read back as a value, whatever stands behind it. -/
def ReadsBack (v : Value) : Prop :=
  ∀ (levels fuel : Nat) (rest : List Char), (write v).toList.length ≤ fuel → Ends rest →
    readValue levels ((write v).toList ++ rest) fuel = upTo v rest (obstacle? v levels)

section Integers

variable {n : Nat} {rest : List Char}

theorem fraction_of_ends (h : Ends rest) : fraction rest = ([], rest) := by
  cases rest with
  | nil => rfl
  | cons c cs =>
    rcases h c rfl with rfl | rfl | rfl <;> rfl

theorem exponent_of_ends (h : Ends rest) : exponent rest = ([], rest) := by
  cases rest with
  | nil => rfl
  | cons c cs =>
    rcases h c rfl with rfl | rfl | rfl <;> rfl

theorem not_isDigit_of_ends (h : Ends rest) : ∀ c ∈ rest.head?, c.isDigit = false := by
  intro c hc
  rcases h c hc with rfl | rfl | rfl <;> rfl

theorem takeWhile_digits (h : Ends rest) :
    (Nat.toDigits 10 n ++ rest).takeWhile Char.isDigit = Nat.toDigits 10 n ∧
      (Nat.toDigits 10 n ++ rest).dropWhile Char.isDigit = rest := by
  have digits : ∀ c ∈ Nat.toDigits 10 n, c.isDigit = true := fun c hc => isDigit_of_mem_toDigits hc
  rw [List.takeWhile_append_of_pos digits, List.dropWhile_append_of_pos digits]
  cases rest with
  | nil => simp
  | cons c cs => simp [not_isDigit_of_ends h c rfl]

/-- The digits of a number are read to their end. -/
theorem whole_toDigits (h : Ends rest) : whole (Nat.toDigits 10 n ++ rest) =
    (Nat.toDigits 10 n, rest) := by
  obtain ⟨taken, dropped⟩ := takeWhile_digits (n := n) h
  -- a leading zero is read by itself, so that only zero may start with one
  rcases Nat.eq_zero_or_pos n with rfl | positive
  · rfl
  · have first := head?_toDigits_ne positive
    rw [whole, taken, dropped]
    intro cs start
    cases digits : Nat.toDigits 10 n with
    | nil => exact absurd digits Nat.toDigits_ne_nil
    | cons d ds =>
      rw [digits] at first start
      exact first (by rw [(List.cons.inj start).1]; rfl)

theorem digitCount_signed (negative : Bool) (n : Nat) :
    digitCount (signed negative n) = (Nat.toDigits 10 n).length := by
  rw [digitCount, signed]
  split
  · rw [Int.natAbs_neg, Int.natAbs_natCast]
  · rw [Int.natAbs_natCast]

theorem readNumber_toDigits (negative : Bool) (h : Ends rest) (levels : Nat) :
    readNumber negative (Nat.toDigits 10 n ++ rest) =
      upTo (.int (signed negative n)) rest (obstacle? (.int (signed negative n)) levels) := by
  have some : (Nat.toDigits 10 n).isEmpty = false := by
    rw [List.isEmpty_eq_false_iff]
    exact Nat.toDigits_ne_nil
  simp only [readNumber, whole_toDigits h, some, fraction_of_ends h, exponent_of_ends h,
    natOfDigits_toDigits, obstacle?, digitCount_signed]
  by_cases few : (Nat.toDigits 10 n).length ≤ literalDigits
  · simp [upTo, few, Nat.not_lt.2 few]
  · simp [upTo, few, Nat.not_le.1 few]

/-- No word starts with a digit, nor anything but a number. -/
theorem ne_of_isDigit {d : Char} (digit : d.isDigit = true) :
    'n' ≠ d ∧ 't' ≠ d ∧ 'f' ≠ d ∧ 'N' ≠ d ∧ 'I' ≠ d ∧ '-' ≠ d ∧
      '\x22' ≠ d ∧ '[' ≠ d ∧ ']' ≠ d ∧ '\x7b' ≠ d := by
  refine ⟨?_, ?_, ?_, ?_, ?_, ?_, ?_, ?_, ?_, ?_⟩ <;>
    rintro rfl <;> cases digit

theorem readScalar_digit {d : Char} (digit : d.isDigit = true) (cs : List Char) :
    readScalar (d :: cs) = readNumber false (d :: cs) := by
  obtain ⟨hn, ht, hf, hN, hI, hminus, -⟩ := ne_of_isDigit digit
  simp only [readScalar, Document.words]
  simp only [String.reduceToList, List.findSome?_cons, List.findSome?_nil, List.isPrefixOf?,
    beq_iff_eq, hn, ht, hf, hN, hI, hminus, if_false, Option.map_none]
  split
  · rename_i start
    exact absurd (List.cons.inj start).1.symm hminus
  · rfl

theorem readScalar_minus {d : Char} (digit : d.isDigit = true) (cs : List Char) :
    readScalar ('-' :: d :: cs) = readNumber true (d :: cs) := by
  obtain ⟨-, -, -, -, hI, -⟩ := ne_of_isDigit digit
  simp [readScalar, Document.words, List.isPrefixOf?, hI]

/-- Digits are read as a number, with or without a minus in front of them. -/
theorem readScalar_toDigits (h : Ends rest) (levels : Nat) :
    readScalar (Nat.toDigits 10 n ++ rest) = upTo (.int n) rest (obstacle? (.int n) levels) ∧
      readScalar ('-' :: (Nat.toDigits 10 n ++ rest)) =
        upTo (.int (-n)) rest (obstacle? (.int (-n)) levels) := by
  have plain := readNumber_toDigits (n := n) false h levels
  have minus := readNumber_toDigits (n := n) true h levels
  cases digits : Nat.toDigits 10 n with
  | nil => exact absurd digits Nat.toDigits_ne_nil
  | cons d ds =>
    have digit : d.isDigit = true := isDigit_of_mem_toDigits (digits ▸ List.mem_cons_self)
    rw [digits] at plain minus
    rw [List.cons_append] at plain minus ⊢
    exact ⟨(readScalar_digit digit _).trans plain, (readScalar_minus digit _).trans minus⟩

end Integers

section Texts

variable {cs rest : List Char} {v : Value}

/-- A text that starts with a character at which a value, and no list's end, may start. -/
def Opens (cs : List Char) : Prop :=
  ∃ c tail, cs = c :: tail ∧ isGap c = false ∧ c ≠ ']'

theorem Opens.append (h : Opens cs) (rest : List Char) : Opens (cs ++ rest) := by
  obtain ⟨c, tail, rfl, gap, bracket⟩ := h
  exact ⟨c, tail ++ rest, rfl, gap, bracket⟩

theorem Opens.skipGap (h : Opens cs) : skipGap cs = cs := by
  obtain ⟨c, tail, rfl, gap, -⟩ := h
  simp [Document.skipGap, gap]

theorem opens_toDigits (n : Nat) : Opens (Nat.toDigits 10 n) := by
  cases digits : Nat.toDigits 10 n with
  | nil => exact absurd digits Nat.toDigits_ne_nil
  | cons d ds =>
    have digit : d.isDigit = true := isDigit_of_mem_toDigits (digits ▸ List.mem_cons_self)
    refine ⟨d, ds, rfl, ?_, ?_⟩
    · simp only [isGap, Bool.or_eq_false_iff, beq_eq_false_iff_ne]
      refine ⟨⟨⟨?_, ?_⟩, ?_⟩, ?_⟩ <;> rintro rfl <;> cases digit
    · rintro rfl
      cases digit

theorem toList_textOf (s : String) (rest : List Char) : (textOf s).toList ++ rest =
    '\x22' :: ((s.toList.map Char.toNat).flatMap pointText ++ '\x22' :: rest) := by
  simp [textOf, pointsText]

theorem toList_intText (n : Int) :
    (intText n).toList =
      if n < 0 then '-' :: Nat.toDigits 10 n.natAbs else Nat.toDigits 10 n.natAbs := by
  unfold intText natText
  split <;> simp

/-- The text of the items of a list. -/
def itemsText (items : List Value) : List Char :=
  (", ".intercalate (writeItems items)).toList

/-- The text of the fields of an object. -/
def fieldsText (fields : List (String × Value)) : List Char :=
  (", ".intercalate (writeFields fields)).toList

theorem toList_arr (items : List Value) (rest : List Char) :
    (write (.arr items)).toList ++ rest =
      '[' :: (itemsText items ++ ']' :: rest) := by
  simp [write, itemsText]

theorem toList_obj (fields : List (String × Value)) (rest : List Char) :
    (write (.obj fields)).toList ++ rest =
      '\x7b' :: (fieldsText fields ++ '\x7d' :: rest) := by
  simp [write, fieldsText]

theorem length_write_arr (items : List Value) :
    (write (.arr items)).toList.length = (itemsText items).length + 2 := by
  rw [← List.append_nil (write _).toList, toList_arr, List.length_cons, List.length_append,
    List.length_singleton]

theorem length_write_obj (fields : List (String × Value)) :
    (write (.obj fields)).toList.length = (fieldsText fields).length + 2 := by
  rw [← List.append_nil (write _).toList, toList_obj, List.length_cons, List.length_append,
    List.length_singleton]

theorem opens_write (h : Exact v) : Opens (write v).toList := by
  cases h with
  | null => exact ⟨_, _, rfl, rfl, by decide⟩
  | bool b => cases b <;> exact ⟨_, _, rfl, rfl, by decide⟩
  | int n =>
    rw [write, toList_intText]
    split
    · exact ⟨_, _, rfl, rfl, by decide⟩
    · exact opens_toDigits _
  | str s =>
    rw [write, ← List.append_nil (textOf s).toList, toList_textOf]
    exact ⟨_, _, rfl, rfl, by decide⟩
  | arr each =>
    rw [← List.append_nil (write _).toList, toList_arr]
    exact ⟨_, _, rfl, rfl, by decide⟩
  | obj distinct each =>
    rw [← List.append_nil (write _).toList, toList_obj]
    exact ⟨_, _, rfl, rfl, by decide⟩

end Texts

section Parts

theorem itemsText_singleton (v : Value) : itemsText [v] = (write v).toList := by
  simp [itemsText, writeItems]

theorem itemsText_cons (v w : Value) (vs : List Value) :
    itemsText (v :: w :: vs) = (write v).toList ++ ',' :: ' ' :: itemsText (w :: vs) := by
  simp [itemsText, writeItems, String.intercalate_cons_cons]

theorem fieldsText_singleton (field : String × Value) :
    fieldsText [field] = (textOf field.1).toList ++ ':' :: ' ' :: (write field.2).toList := by
  simp [fieldsText, writeFields]

theorem fieldsText_cons (field next : String × Value) (fields : List (String × Value)) :
    fieldsText (field :: next :: fields) =
      (textOf field.1).toList ++ ':' :: ' ' :: ((write field.2).toList ++
        ',' :: ' ' :: fieldsText (next :: fields)) := by
  simp [fieldsText, writeFields, String.intercalate_cons_cons]

theorem opens_itemsText {v : Value} (h : Exact v) (vs : List Value) :
    Opens (itemsText (v :: vs)) := by
  cases vs with
  | nil => exact itemsText_singleton v ▸ opens_write h
  | cons w vs => exact itemsText_cons v w vs ▸ (opens_write h).append _

/-- The fields of an object start with the quote of a name. -/
theorem exists_fieldsText (field : String × Value) (fields : List (String × Value)) :
    ∃ tail, fieldsText (field :: fields) = '\x22' :: tail := by
  cases fields with
  | nil => exact ⟨_, by rw [fieldsText_singleton, toList_textOf]⟩
  | cons next fields => exact ⟨_, by rw [fieldsText_cons, toList_textOf]⟩

theorem opens_fieldsText (field : String × Value) (fields : List (String × Value)) :
    Opens (fieldsText (field :: fields)) := by
  obtain ⟨tail, text⟩ := exists_fieldsText field fields
  exact ⟨_, _, text, rfl, by decide⟩

theorem readItems_error {cs : List Char} {levels fuel : Nat} {fault : Fault}
    (h : readValue levels cs fuel = .error fault) (before : List Value) :
    readItems levels cs before (fuel + 1) = .error fault := by
  rw [readItems, h]
  rfl

theorem readItems_comma {cs rest : List Char} {v : Value} {levels fuel : Nat}
    (h : readValue levels cs fuel = .ok (v, ',' :: rest)) (before : List Value) :
    readItems levels cs before (fuel + 1) =
      readItems levels (skipGap rest) (v :: before) fuel := by
  rw [readItems, h]
  rfl

theorem readItems_bracket {cs rest : List Char} {v : Value} {levels fuel : Nat}
    (h : readValue levels cs fuel = .ok (v, ']' :: rest)) (before : List Value) :
    readItems levels cs before (fuel + 1) = .ok (.arr (v :: before).reverse, rest) := by
  rw [readItems, h]
  rfl

theorem skipGap_space {cs : List Char} (h : Opens cs) : skipGap (' ' :: cs) = cs :=
  h.skipGap

/-- What is read of a field is what is read of its value, under its name. -/
theorem readFields_value {cs : List Char} (opens : Opens cs) (levels fuel : Nat) (name : String)
    (before : List (String × Value)) :
    readFields levels ((textOf name).toList ++ ':' :: ' ' :: cs) before (fuel + 1) =
      (readValue levels cs fuel).bind fun (v, rest) =>
        let fields := Value.setField before name v
        match skipGap rest with
        | ',' :: rest => readFields levels (skipGap rest) fields fuel
        | '\x7d' :: rest => .ok (.obj fields, rest)
        | _ => .error .malformed := by
  rw [toList_textOf, readFields, readText_textOf]
  show (readValue levels (skipGap (' ' :: cs)) fuel).bind _ = _
  rw [skipGap_space opens]
  have kept := mended_toNat name
  generalize name.toList.map Char.toNat = points at kept ⊢
  subst kept
  rfl

/-- A field of a new name is set behind the others. -/
theorem setField_of_notMem {fields : List (String × Value)} {name : String} (v : Value)
    (h : name ∉ fields.map Prod.fst) :
    Value.setField fields name v = fields ++ [(name, v)] := by
  refine if_neg ?_
  simp only [List.any_eq_true, beq_iff_eq, not_exists, not_and]
  exact fun field mem same => h (same ▸ List.mem_map_of_mem mem)

theorem notMem_of_nodup {before fields : List (String × Value)} {field : String × Value}
    (distinct : ((before ++ field :: fields).map Prod.fst).Nodup) :
    field.1 ∉ before.map Prod.fst := by
  rw [List.map_append, List.nodup_append] at distinct
  exact fun mem => distinct.2.2 _ mem _ List.mem_cons_self rfl

/-- The items of a list are read one after the other, up to the first obstacle. -/
theorem readItems_itemsText {v : Value} {vs : List Value} (kept : ∀ w ∈ v :: vs, Exact w)
    (each : ∀ w ∈ v :: vs, ReadsBack w) (before : List Value) {fuel : Nat} (levels : Nat)
    (rest : List Char) (enough : (itemsText (v :: vs)).length < fuel) :
    readItems levels (itemsText (v :: vs) ++ ']' :: rest) before fuel =
      upTo (.arr (before.reverse ++ v :: vs)) rest (itemsObstacle? (v :: vs) levels) := by
  obtain ⟨fuel, rfl⟩ : ∃ n, fuel = n + 1 := Nat.exists_eq_add_one.2 (by omega)
  -- on the items behind the first one: each takes one unit of fuel and at least one character
  induction vs generalizing v before fuel with
  | nil =>
    rw [itemsText_singleton] at enough ⊢
    have first := each v List.mem_cons_self levels fuel (']' :: rest) (by omega)
      (ends_bracket rest)
    cases stop : obstacle? v levels with
    | some obstacle =>
      rw [stop] at first
      rw [readItems_error first, itemsObstacle?, stop]
      rfl
    | none =>
      rw [stop] at first
      rw [readItems_bracket first, itemsObstacle?, stop, List.reverse_cons]
      rfl
  | cons w vs ih =>
    rw [itemsText_cons] at enough ⊢
    simp only [List.length_append, List.length_cons] at enough
    have first := each v List.mem_cons_self levels fuel
      (',' :: ' ' :: (itemsText (w :: vs) ++ ']' :: rest)) (by omega) (ends_comma _)
    rw [List.append_assoc, List.cons_append, List.cons_append]
    cases stop : obstacle? v levels with
    | some obstacle =>
      rw [stop] at first
      rw [readItems_error first, itemsObstacle?, stop]
      rfl
    | none =>
      rw [stop] at first
      have keptTail : ∀ u ∈ w :: vs, Exact u := fun u hu => kept u (List.mem_cons_of_mem _ hu)
      have opens := (opens_itemsText (keptTail w List.mem_cons_self) vs).append (']' :: rest)
      obtain ⟨fuel, rfl⟩ : ∃ n, fuel = n + 1 := Nat.exists_eq_add_one.2 (by omega)
      rw [readItems_comma first, skipGap_space opens,
        ih keptTail (fun u hu => each u (List.mem_cons_of_mem _ hu)) _ fuel (by omega),
        List.reverse_cons, List.append_assoc]
      show _ = upTo _ rest ((obstacle? v levels).or (itemsObstacle? (w :: vs) levels))
      rw [stop]
      rfl

/-- The fields of an object are read one after the other, each under a new name, up to the first
obstacle. -/
theorem readFields_fieldsText {field : String × Value} {fields : List (String × Value)}
    (kept : ∀ f ∈ field :: fields, Exact f.2) (each : ∀ f ∈ field :: fields, ReadsBack f.2)
    (before : List (String × Value)) {fuel : Nat} (levels : Nat) (rest : List Char)
    (distinct : ((before ++ field :: fields).map Prod.fst).Nodup)
    (enough : (fieldsText (field :: fields)).length < fuel) :
    readFields levels (fieldsText (field :: fields) ++ '\x7d' :: rest) before fuel =
      upTo (.obj (before ++ field :: fields)) rest
        (fieldsObstacle? (field :: fields) levels) := by
  obtain ⟨fuel, rfl⟩ : ∃ n, fuel = n + 1 := Nat.exists_eq_add_one.2 (by omega)
  induction fields generalizing field before fuel with
  | nil =>
    have opens := (opens_write (kept field List.mem_cons_self)).append ('\x7d' :: rest)
    have fresh := notMem_of_nodup distinct
    rw [fieldsText_singleton] at enough ⊢
    simp only [List.length_append, List.length_cons] at enough
    have first := each field List.mem_cons_self levels fuel ('\x7d' :: rest) (by omega)
      (ends_brace rest)
    rw [List.append_assoc, List.cons_append, List.cons_append, readFields_value opens, first,
      fieldsObstacle?]
    cases stop : obstacle? field.2 levels with
    | some obstacle => rfl
    | none =>
      show Except.ok (Value.obj (Value.setField before field.1 field.2), rest) = _
      rw [setField_of_notMem field.2 fresh]
      rfl
  | cons next fields ih =>
    have opens := (opens_write (kept field List.mem_cons_self)).append
      (',' :: ' ' :: (fieldsText (next :: fields) ++ '\x7d' :: rest))
    have fresh := notMem_of_nodup distinct
    rw [fieldsText_cons] at enough ⊢
    simp only [List.length_append, List.length_cons] at enough
    have first := each field List.mem_cons_self levels fuel
      (',' :: ' ' :: (fieldsText (next :: fields) ++ '\x7d' :: rest)) (by omega) (ends_comma _)
    simp only [List.append_assoc, List.cons_append]
    rw [readFields_value opens, first, fieldsObstacle?]
    cases stop : obstacle? field.2 levels with
    | some obstacle => rfl
    | none =>
      have keptTail : ∀ f ∈ next :: fields, Exact f.2 := fun f hf =>
        kept f (List.mem_cons_of_mem _ hf)
      have opensTail := (opens_fieldsText next fields).append ('\x7d' :: rest)
      rw [List.append_cons] at distinct
      obtain ⟨fuel, rfl⟩ : ∃ n, fuel = n + 1 := Nat.exists_eq_add_one.2 (by omega)
      have others := ih keptTail (fun f hf => each f (List.mem_cons_of_mem _ hf)) _ distinct fuel
        (by omega)
      show readFields levels (skipGap (' ' :: (fieldsText (next :: fields) ++ '\x7d' :: rest)))
        (Value.setField before field.1 field.2) (fuel + 1) = _
      rw [skipGap_space opensTail, setField_of_notMem _ fresh, others, Option.none_or,
        ← List.append_cons]

/-- A value is read back if it is by the fuel that its own text asks for. -/
theorem ReadsBack.intro {v : Value} (opens : Opens (write v).toList)
    (h : ∀ (levels fuel : Nat) (rest : List Char), (write v).toList.length ≤ fuel + 1 →
      Ends rest → readValue levels ((write v).toList ++ rest) (fuel + 1) =
        upTo v rest (obstacle? v levels)) : ReadsBack v := by
  intro levels fuel rest enough ends
  obtain ⟨c, tail, text, -⟩ := opens
  obtain ⟨fuel, rfl⟩ : ∃ n, fuel = n + 1 := by
    rw [text, List.length_cons] at enough
    exact Nat.exists_eq_add_one.2 (by omega)
  exact h levels fuel rest enough ends

/-- What opens no text, list or object is a scalar. -/
theorem readValue_scalar {c : Char} {cs : List Char} (levels fuel : Nat) (text : '\x22' ≠ c)
    (list : '[' ≠ c) (object : '\x7b' ≠ c) :
    readValue levels (c :: cs) (fuel + 1) = readScalar (c :: cs) := by
  rw [readValue]
  all_goals
    rintro rest start
    first | exact text (List.cons.inj start).1.symm | exact list (List.cons.inj start).1.symm
          | exact object (List.cons.inj start).1.symm

theorem readValue_list {cs : List Char} (opens : Opens cs) (levels fuel : Nat) :
    readValue (levels + 1) ('[' :: cs) (fuel + 1) = readItems levels cs [] fuel := by
  have skipped := opens.skipGap
  obtain ⟨c, tail, rfl, -, bracket⟩ := opens
  rw [readValue, if_neg (Nat.succ_ne_zero levels), skipped]
  split
  · rename_i start
    exact absurd (List.cons.inj start).1 bracket
  · rfl

theorem readValue_object (cs : List Char) (levels fuel : Nat) :
    readValue (levels + 1) ('\x7b' :: '\x22' :: cs) (fuel + 1) =
      readFields levels ('\x22' :: cs) [] fuel := by
  rfl

/-- A value is read back from its text, whatever stands behind it. -/
theorem readsBack {v : Value} (h : Exact v) : ReadsBack v := by
  refine .intro (opens_write h) ?_
  induction h with
  | null =>
    intro levels fuel rest _ _
    simp [write, readValue, readScalar, Document.words, List.isPrefixOf?, obstacle?, upTo]
  | bool b =>
    intro levels fuel rest _ _
    cases b <;>
      simp [write, readValue, readScalar, Document.words, List.isPrefixOf?, obstacle?, upTo]
  | int n =>
    intro levels fuel rest _ ends
    obtain ⟨plain, minus⟩ := readScalar_toDigits (n := n.natAbs) ends levels
    rw [write, toList_intText]
    split
    · rw [Int.ofNat_natAbs_of_nonpos (by omega), Int.neg_neg] at minus
      rw [List.cons_append, readValue_scalar levels fuel (by decide) (by decide) (by decide),
        minus]
    · rw [Int.natAbs_of_nonneg (by omega)] at plain
      cases digits : Nat.toDigits 10 n.natAbs with
      | nil => exact absurd digits Nat.toDigits_ne_nil
      | cons d ds =>
        obtain ⟨-, -, -, -, -, -, text, list, -, object⟩ :=
          ne_of_isDigit (isDigit_of_mem_toDigits (digits ▸ List.mem_cons_self))
        rw [List.cons_append, readValue_scalar levels fuel text list object, ← List.cons_append,
          ← digits, plain]
  | str s =>
    intro levels fuel rest _ _
    rw [write, toList_textOf, readValue, readText_textOf]
    show Except.ok (Value.ofPoints (s.toList.map Char.toNat), rest) = _
    rw [ofPoints_toNat]
    rfl
  | @arr items kept each =>
    intro levels fuel rest enough _
    rw [length_write_arr] at enough
    rw [toList_arr]
    cases levels with
    | zero => rfl
    | succ levels =>
      cases items with
      | nil => rfl
      | cons v vs =>
        have readEach : ∀ w ∈ v :: vs, ReadsBack w := fun w hw =>
          .intro (opens_write (kept w hw)) (each w hw)
        have opens := (opens_itemsText (kept v List.mem_cons_self) vs).append (']' :: rest)
        exact (readValue_list opens levels fuel).trans
          (readItems_itemsText kept readEach [] levels rest (by omega))
  | @obj fields distinct kept each =>
    intro levels fuel rest enough _
    rw [length_write_obj] at enough
    rw [toList_obj]
    cases levels with
    | zero => rfl
    | succ levels =>
      cases fields with
      | nil => rfl
      | cons f fs =>
        have readEach : ∀ g ∈ f :: fs, ReadsBack g.2 := fun g hg =>
          .intro (opens_write (kept g hg)) (each g hg)
        have enough : (fieldsText (f :: fs)).length < fuel := by omega
        have fields := readFields_fieldsText kept readEach [] levels rest distinct enough
        obtain ⟨tail, text⟩ := exists_fieldsText f fs
        rw [text, List.cons_append] at fields ⊢
        exact (readValue_object _ levels fuel).trans fields

end Parts

/-- A document is read back if there is no obstacle in it, and its first one stops the reader
otherwise. -/
theorem read_write {v : Value} (h : Exact v) (room : Room) :
    read room (write v) =
      match obstacle? v room.levels with
      | some obstacle => .error (.stopped obstacle)
      | none => .ok v := by
  have gap : skipGap (write v).toList = (write v).toList := (opens_write h).skipGap
  have whole := readsBack h room.levels ((write v).toList.length + 1) [] (by omega) ends_nil
  rw [List.append_nil] at whole
  simp only [read, gap, whole]
  cases obstacle? v room.levels <;> rfl

end OrderFlow.Document
