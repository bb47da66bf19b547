import Mathlib.Algebra.Order.Ring.Int
import OrderFlow.Proofs.Trade.Totals

/-!
# The mean price

Totals are `Balanced` if their value is that of their amount at some mean price between low and
high. Totals of single events are balanced, and merging keeps this: the value of each part lies
between what the whole range of prices makes of its amount (`balanced_of_ledger`).
-/

namespace OrderFlow

namespace Totals

/-- Totals of at least one event of at least one unit each, at prices between low and high. -/
structure Balanced (a : Totals) : Prop where
  events_pos : 1 ≤ a.events
  events_le : a.events ≤ a.amount
  low_nonneg : 0 ≤ a.low
  low_le : a.low ≤ a.high
  value_ge : a.low * a.amount ≤ a.value
  value_le : a.value ≤ a.high * a.amount

theorem balanced_ofDelta {d : TradeDelta} (single : d.events = 1) : (ofDelta d).Balanced := by
  have units := d.quantity_pos
  constructor <;> simp only [ofDelta, single, Nat.cast_mul, Int.le_refl] <;> omega

variable {a b : Totals}

/-- A wider range of prices holds the value of an amount, too. -/
theorem Balanced.widen (h : a.Balanced) {low high : Int} (hlow : low ≤ a.low)
    (hhigh : a.high ≤ high) : low * a.amount ≤ a.value ∧ a.value ≤ high * a.amount := by
  have units : 0 ≤ a.amount := by
    have := h.events_pos
    have := h.events_le
    omega
  constructor
  · calc low * a.amount ≤ a.low * a.amount := Int.mul_le_mul_of_nonneg_right hlow units
      _ ≤ a.value := h.value_ge
  · calc a.value ≤ a.high * a.amount := h.value_le
      _ ≤ high * a.amount := Int.mul_le_mul_of_nonneg_right hhigh units

theorem Balanced.merge (ha : a.Balanced) (hb : b.Balanced) : (a.merge b).Balanced := by
  obtain ⟨age, ale⟩ := ha.widen (Int.min_le_left a.low b.low) (Int.le_max_left a.high b.high)
  obtain ⟨bge, ble⟩ := hb.widen (Int.min_le_right a.low b.low) (Int.le_max_right a.high b.high)
  obtain ⟨apos, aevents, alow, ahigh, -, -⟩ := ha
  obtain ⟨bpos, bevents, blow, bhigh, -, -⟩ := hb
  -- with the products of sums taken apart, what is left is linear in the products
  constructor <;> simp only [Totals.merge, Int.mul_add] <;> omega

end Totals

/-- The totals of single events are balanced for each key. -/
theorem balanced_of_ledger {ds : List TradeDelta} (single : ∀ d ∈ ds, d.events = 1)
    {key : TradeKey} {a : Totals} (h : ledger ds key = some a) : a.Balanced :=
  Totals.ofDeltas_induction
    (fun d hd => Totals.balanced_ofDelta (single d (List.mem_filter.1 hd).1))
    (fun _ _ => Totals.Balanced.merge) h

end OrderFlow
