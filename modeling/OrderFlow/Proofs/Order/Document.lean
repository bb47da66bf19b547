import OrderFlow.Proofs.Order.Check
import OrderFlow.Proofs.Price.Text
import OrderFlow.Proofs.Time.Stamp

/-!
# Orders that are read back

A sound order that was written as a record passes its check as that order (`Order.check_toValue`).
There is no obstacle in the record of an order that is legible (`Order.obstacle?_toValue`).
-/

namespace OrderFlow

namespace Check

theorem id_val {kind : IdKind} (i : Id kind) : id kind (.int i.val) = .accepted i := by
  have positive : (0 : Int) < i.val := by
    have := i.pos
    omega
  have same : Id.ofInt kind i.val = .ok i := dif_pos positive
  rw [id, integer, Checked.andThen, same, Checked.ofRule]

theorem quantity_ofNat {n : Int} (h : 0 ≤ n) : quantity (.int n) = .accepted n.toNat := by
  have same : Quantity.ofInt n = .ok n.toNat := if_neg (Int.not_lt.2 h)
  rw [quantity, integer, Checked.andThen, same, Checked.ofRule]

theorem number_of_text {s : String} {x : Decimal} (h : Number.ofText? s = some (.finite x)) :
    number (.str s) = .accepted (.finite x) := by
  simp only [number, h, number.finite]

theorem price_of_text {s : String} {p : Price} (h : Number.ofText? s = some p.toNumber) :
    price (.str s) = .accepted p := by
  rw [price, number_of_text h, Checked.andThen, ← Price.toNumber, p.ofNumber_toNumber,
    Checked.ofRefusable]

theorem instant_of_text {s : String} {t : Instant}
    (h : Stamp.read? false s.toList = some (.ofInstant t)) : instant (.str s) = .accepted t := by
  simp only [instant, time, h, Checked.andThen, Stamp.utc?_ofInstant]

theorem location_ofOption (location : Option Int) :
    Checked.nullable integer (Value.ofOption .int location) = .accepted location := by
  cases location <;> rfl

end Check

namespace Checked

variable {α : Type} {record v : Value} {name : String} {a : α} {check : Value → Checked α}

theorem required_of_field (hf : record.field? name = some v) (hc : check v = accepted a) :
    required record name check = accepted a := by
  rw [required, hf]
  exact under_eq_accepted_iff.2 hc

theorem optional_of_field {absent : α} (hf : record.field? name = some v)
    (hc : check v = accepted a) : optional record name absent check = accepted a := by
  rw [optional, hf]
  exact under_eq_accepted_iff.2 hc

end Checked

namespace Order

open Checked

/-- A sound order is read back from its record. -/
theorem check_toValue {o : Order} (h : o.Sound) : check o.toValue = .accepted o := by
  obtain ⟨⟨p, hp⟩, hremaining, htotal⟩ := h
  obtain ⟨id, item, isBuy, price, remaining, total, issued, duration, minimum, range, location⟩ := o
  obtain rfl : price = some p.toNumber := hp
  have text : Value.ofOption (fun x : Number => .str x.text) (some p.toNumber) =
      .str p.toDecimal.text := rfl
  have read := Check.price_of_text p.ofText?_text
  have time := Check.instant_of_text (Stamp.read?_utcText issued)
  unfold check toValue
  simp only [text]
  have flag : Check.truth (.bool isBuy) = .accepted isBuy := rfl
  have days : Check.integer (.int duration) = .accepted duration := rfl
  have least : Check.integer (.int minimum) = .accepted minimum := rfl
  rw [required_of_field (by simp [Value.field?]) (Check.id_val id),
    required_of_field (by simp [Value.field?, List.lookup_cons]) (Check.id_val item),
    required_of_field (by simp [Value.field?, List.lookup_cons]) flag,
    required_of_field (by simp [Value.field?, List.lookup_cons]) read,
    required_of_field (by simp [Value.field?, List.lookup_cons]) (Check.quantity_ofNat hremaining),
    required_of_field (by simp [Value.field?, List.lookup_cons]) (Check.quantity_ofNat htotal),
    required_of_field (by simp [Value.field?, List.lookup_cons]) time,
    required_of_field (by simp [Value.field?, List.lookup_cons]) days,
    optional_of_field (by simp [Value.field?, List.lookup_cons]) least,
    optional_of_field (v := .str range) (a := range) (by simp [Value.field?, List.lookup_cons]) rfl,
    optional_of_field (by simp [Value.field?, List.lookup_cons]) (Check.location_ofOption location)]
  show accepted (ofParts ..) = _
  simp only [ofParts, Int.toNat_of_nonneg hremaining, Int.toNat_of_nonneg htotal]

/-- The record of a legible order is read where there is room for one level. -/
theorem obstacle?_toValue {o : Order} (h : o.Legible) (levels : Nat) :
    Document.obstacle? o.toValue (levels + 1) = none := by
  unfold Legible at h
  simp only [List.cons_append, List.nil_append, List.mem_cons, forall_eq_or_imp] at h
  obtain ⟨id, item, remaining, total, duration, minimum, location⟩ := h
  have price : Document.obstacle? (.ofOption (fun x : Number => .str x.text) o.price) levels =
      none := by
    cases o.price <;> rfl
  have place : Document.obstacle? (.ofOption .int o.location) levels = none := by
    cases here : o.location with
    | none => rfl
    | some n => exact if_pos (location n (by simp [here]))
  simp [toValue, Document.obstacle?, Document.fieldsObstacle?, *]

end Order

/-! ## Orders of a venue -/

namespace Sample

/-- A venue. -/
def venue : VenueId := ⟨7, by decide⟩

/-- The time at which the venue is observed. -/
def now : Instant := ⟨1000000000000000, by decide⟩

/-- The item that is traded there. -/
def item : ItemId := ⟨34, by decide⟩

/-- An order that is filled in part. -/
def filled : OrderId := ⟨101, by decide⟩

/-- An order that vanishes. -/
def vanished : OrderId := ⟨102, by decide⟩

/-- A selling order at the price 2.50. -/
def order (id : OrderId) (remaining : Int) : Order where
  id := id
  item := item
  isBuy := false
  price := some (.finite ⟨false, 250, -2⟩)
  remaining := remaining
  total := 10
  issued := now
  duration := 90
  minimum := 1
  range := "region"
  location := none

/-- Both orders. -/
def early : List Order :=
  [order filled 10, order vanished 4]

/-- One order with three units less, and the other one gone. -/
def late : List Order :=
  [order filled 7]

/-- An order at this price passes its check. -/
theorem sound_of_price {o : Order} (price : o.price = some (.finite ⟨false, 250, -2⟩))
    (remaining : 0 ≤ o.remaining) (total : 0 ≤ o.total) : o.Sound :=
  ⟨⟨⟨250, false, by decide, by decide⟩, price⟩, remaining, total⟩

theorem check_order {id : OrderId} {remaining : Int} (h : 0 ≤ remaining) :
    Order.check (order id remaining).toValue = .accepted (order id remaining) :=
  Order.check_toValue (sound_of_price rfl h (show (0 : Int) ≤ 10 by decide))

theorem validated_order (id : OrderId) (remaining : Nat) : (order id remaining).Validated :=
  ⟨_, check_order (Int.natCast_nonneg remaining)⟩

end Sample

end OrderFlow
