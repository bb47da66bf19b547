import OrderFlow.Order.Document
import OrderFlow.Proofs.Check.Ends
import OrderFlow.Proofs.Price.Limit

/-!
# Records in range

Only two fields can end the check of an order at once: a price that is too large and a time of issue
outside the representable years in UTC. The check comes to its end exactly if the record is
`InRange` (`Order.ends_check_iff`), and that of a list of records if all of them are
(`Order.ends_checkPage_iff`).
-/

namespace OrderFlow

/-- The check of a price comes to its end exactly if the number is small enough. -/
theorem Check.ends_price_iff {v : Value} : (price v).Ends ↔
    ∀ d, number v = .accepted (.finite d) → d.value < (10 : ℚ) ^ 26 - 1 / 200 := by
  have rounds (d : Decimal) : (Checked.ofRefusable
      (Price.ofNumber (Number.finite d).text (.finite d))).Ends ↔
        d.value < (10 : ℚ) ^ 26 - 1 / 200 := by
    rw [Price.ofNumber]
    split
    · rename_i below
      have nonpos := Decimal.value_nonpos (Bool.and_eq_true_iff.1 below).1
      exact iff_of_true trivial (by linarith)
    · rename_i sign
      rw [← not_le, ← Price.ofDecimal?_eq_none_iff (Bool.eq_false_iff.2 sign)]
      cases Price.ofDecimal? d <;> simp [Checked.ofRefusable]
  rw [price, Checked.ends_andThen_iff, and_iff_right (ends_number v)]
  constructor
  · intro h d hd
    exact (rounds d).1 (h _ hd)
  · intro h x hx
    cases x with
    | finite d => exact (rounds d).2 (h d hx)
    | infinite _ => exact Checked.ends_defect _
    | nan _ _ _ => exact Checked.ends_defect _

namespace Order

open Check Checked

/-- A record whose price has 26 digits at most before its point when it is rounded, and whose time
of issue can be told in UTC, as far as they can be read at all. -/
structure InRange (v : Value) : Prop where
  price : ∀ x d, v.field? "price" = some x → number x = .accepted (.finite d) →
    d.value < (10 : ℚ) ^ 26 - 1 / 200
  issued : ∀ x s, v.field? "issued" = some x → time x = .accepted s → s.utc?.isSome

/-- The check of an order comes to its end exactly if its record is in range, whatever else is wrong
with it. -/
theorem ends_check_iff {v : Value} : (check v).Ends ↔ InRange v := by
  have parts : (check v).Ends ↔
      (∀ x, v.field? "price" = some x → (Check.price x).Ends) ∧
        ∀ x, v.field? "issued" = some x → (instant x).Ends := by
    cases v with
    | obj fields =>
      have location (v : Value) : (nullable integer v).Ends := ends_nullable ends_integer v
      simp [check, ends_required_iff, ends_optional_iff, location]
    | _ => simp [check, Value.field?]
  rw [parts]
  constructor
  · rintro ⟨price, issued⟩
    exact ⟨fun x d hx => ends_price_iff.1 (price x hx) d,
      fun x s hx => ends_instant_iff.1 (issued x hx) s⟩
  · rintro ⟨price, issued⟩
    exact ⟨fun x hx => ends_price_iff.2 fun d => price x d hx,
      fun x hx => ends_instant_iff.2 fun s => issued x s hx⟩

/-- The check of a page comes to its end exactly if all of its records are in range. -/
theorem ends_checkPage_iff {v : Value} :
    (checkPage v).Ends ↔ ∀ items, v = .arr items → ∀ item ∈ items, InRange item := by
  cases v with
  | arr items =>
    simp only [checkPage, list, ends_items_iff, ends_check_iff, Value.arr.injEq, forall_eq']
  | _ => simp [checkPage, list]

end Order

end OrderFlow
