import OrderFlow.Order.Document

/-!
# Orders that passed their check

A check is accepted if all of its parts are. An order that was accepted from some record is
`Validated`, and then it is sound (`Validated.sound`).
-/

namespace OrderFlow

namespace Checked

variable {α β : Type}

@[simp] theorem map_eq_accepted_iff {f : α → β} {x : Checked α} {b : β} :
    f <$> x = accepted b ↔ ∃ a, x = accepted a ∧ f a = b := by
  show map f x = accepted b ↔ _
  cases x <;> simp [map]

@[simp] theorem seq_eq_accepted_iff {f : Checked (α → β)} {x : Checked α} {b : β} :
    f <*> x = accepted b ↔ ∃ g a, f = accepted g ∧ x = accepted a ∧ g a = b := by
  show both f (fun _ => x) = accepted b ↔ _
  cases f <;> cases x <;> simp [both, map]

@[simp] theorem under_eq_accepted_iff {step : PathStep} {x : Checked α} {a : α} :
    x.under step = accepted a ↔ x = accepted a := by
  cases x <;> simp [under]

/-- The items of a list that was accepted were accepted one by one. -/
theorem accepted_of_items {check : Value → Checked α} {n : Nat} {vs : List Value} {as : List α}
    (h : items check n vs = accepted as) : ∀ a ∈ as, ∃ v, check v = accepted a := by
  induction vs generalizing n as with
  | nil =>
    cases h
    simp
  | cons v vs ih =>
    rw [items] at h
    obtain ⟨cons, rest, hcons, hrest, rfl⟩ := seq_eq_accepted_iff.1 h
    obtain ⟨first, hfirst, rfl⟩ := map_eq_accepted_iff.1 hcons
    intro a ha
    rcases List.mem_cons.1 ha with rfl | ha
    · exact ⟨v, under_eq_accepted_iff.1 hfirst⟩
    · exact ih hrest a ha

theorem toExcept_eq_ok_iff {invalid : List Issue → Failure} {x : Checked α} {a : α} :
    x.toExcept invalid = .ok a ↔ x = accepted a := by
  cases x <;> simp [toExcept]

end Checked

namespace Order

/-- An order that was accepted from some record. -/
def Validated (o : Order) : Prop :=
  ∃ v, check v = .accepted o

theorem sound_ofParts (id : OrderId) (item : ItemId) (isBuy : Bool) (price : Price)
    (remaining total : Nat) (issued : Instant) (duration minimum : Int) (range : String)
    (location : Option Int) :
    (ofParts id item isBuy price remaining total issued duration minimum range location).Sound :=
  ⟨⟨price, rfl⟩, Int.natCast_nonneg _, Int.natCast_nonneg _⟩

theorem Validated.sound {o : Order} (h : o.Validated) : o.Sound := by
  obtain ⟨v, h⟩ := h
  cases v with
  | obj fields =>
    simp only [check, Checked.seq_eq_accepted_iff, Checked.map_eq_accepted_iff] at h
    obtain ⟨_, _, ⟨_, _, ⟨_, _, ⟨_, _, ⟨_, _, ⟨_, _, ⟨_, _, ⟨_, _, ⟨_, _, ⟨_, _, ⟨_, -, rfl⟩, -, rfl⟩,
      -, rfl⟩, -, rfl⟩, -, rfl⟩, -, rfl⟩, -, rfl⟩, -, rfl⟩, -, rfl⟩, -, rfl⟩, -, rfl⟩ := h
    exact sound_ofParts ..
  | _ => cases h

end Order

end OrderFlow
