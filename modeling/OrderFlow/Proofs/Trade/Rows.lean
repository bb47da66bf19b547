import Mathlib.Algebra.BigOperators.Ring.Finset
import Mathlib.Data.Prod.Lex
import Mathlib.Data.String.Basic
import OrderFlow.Proofs.Trade.Tally

/-!
# Rows add up exactly

A tally adds up in decimals of 28 digits. As long as what the deltas of a key are worth has no more
digits than that (`TradeDelta.WithinDigits`), nothing is rounded, and the row of the key is the sum
of its deltas (`TradeRow.AddsUp`). High and low are prices of the deltas, which `Tally.Holds` alone
does not say (`attained_of_mem`). Rows are listed by the rank of their keys (`TradeKey.ranked`).
-/

namespace OrderFlow

namespace TradeKey

/-- A key as its parts, in the order in which they decide. -/
def ranked (k : TradeKey) : ℕ ×ₗ ℕ ×ₗ ℕ ×ₗ String ×ₗ Bool :=
  toLex (k.day.number, toLex (k.venue.val, toLex (k.item.val,
    toLex (k.side.text, k.bound.isUpper))))

/-- Buying is listed first, as its text is the smaller one. -/
theorem compare_isBuy (s t : Side) : compare t.isBuy s.isBuy = compare s.text t.text := by
  cases s <;> cases t <;> decide

/-- Keys are ordered by their parts. -/
theorem le_iff_ranked {a b : TradeKey} : a.le b = true ↔ a.ranked ≤ b.ranked := by
  have last (x y : Bool) : (compare x y).isLE = true ↔ x ≤ y := by
    cases x <;> cases y <;> decide
  simp only [le, order, ranked, compare_isBuy, Ordering.isLE_then_iff_or, Prod.Lex.toLex_le_toLex,
    compare_lt_iff_lt, compare_eq_iff_eq, last]

/-- No two keys have the same rank. -/
theorem ranked_injective : Function.Injective ranked := by
  intro a b h
  obtain ⟨⟨_, _⟩, ⟨_, _⟩, ⟨_, _⟩, side, bound⟩ := a
  obtain ⟨⟨_, _⟩, ⟨_, _⟩, ⟨_, _⟩, side', bound'⟩ := b
  simp only [ranked, EmbeddingLike.apply_eq_iff_eq, Prod.mk.injEq] at h
  obtain ⟨rfl, rfl, rfl, hside, hbound⟩ := h
  have sides : side = side' := by
    cases side <;> cases side' <;> first | rfl | exact absurd hside (by decide)
  have bounds : bound = bound' := by
    cases bound <;> cases bound' <;> first | rfl | exact absurd hbound (by decide)
  rw [sides, bounds]

end TradeKey

namespace TradeDelta

/-- The number that the value of a delta stands for. -/
def worth (d : TradeDelta) : ℚ :=
  d.price.value * d.quantity

/-- What the deltas of each key are worth has at most 28 digits when it is counted in hundredths. -/
def WithinDigits (ds : List TradeDelta) : Prop :=
  ∀ key, 100 * ((ds.filter (·.key = key)).map worth).sum < 10 ^ 28

/-- Only keys that occur can have too many digits. -/
theorem withinDigits_iff {ds : List TradeDelta} : WithinDigits ds ↔
    ∀ d ∈ ds, 100 * ((ds.filter (·.key = d.key)).map worth).sum < 10 ^ 28 := by
  constructor
  · intro within d _
    exact within d.key
  · intro within key
    by_cases occurs : ∃ d ∈ ds, d.key = key
    · obtain ⟨d, hd, rfl⟩ := occurs
      exact within d hd
    · have none : ds.filter (·.key = key) = [] := by
        simpa [List.filter_eq_nil_iff] using occurs
      rw [none]
      norm_num

instance (ds : List TradeDelta) : Decidable (WithinDigits ds) :=
  decidable_of_iff _ withinDigits_iff.symm

end TradeDelta

namespace Totals

variable {ds : List TradeDelta} {a : Totals}

/-- The value of totals is that of the deltas, in hundredths. -/
theorem value_of_ofDeltas (priced : ∀ d ∈ ds, d.Priced) (h : ofDeltas ds = some a) :
    (a.value : ℚ) = 100 * (ds.map TradeDelta.worth).sum := by
  have each (d : TradeDelta) (hd : d ∈ ds) : ((ofDelta d).value : ℚ) = 100 * d.worth := by
    obtain ⟨p, hp⟩ := priced d hd
    rw [TradeDelta.worth, ofDelta, hp, p.value_toDecimal, Price.toDecimal]
    push_cast
    ring
  rw [sum_of_ofDeltas (f := Totals.value) (fun _ _ => rfl) h, Int.cast_list_sum, List.map_map,
    ← List.sum_map_mul_left]
  exact congrArg List.sum (List.map_congr_left each)

end Totals

/-- A row that adds deltas up exactly: its figures are sums, and its high and low are prices that no
other price exceeds or undercuts. -/
structure TradeRow.AddsUp (r : TradeRow) (ds : List TradeDelta) : Prop where
  amount : r.amount = (ds.map fun d => (d.quantity : Int)).sum
  events : r.events = (ds.map fun d => (d.events : Int)).sum
  value : ∃ x, r.value = .finite x ∧ x.value = (ds.map TradeDelta.worth).sum
  high : ∃ d ∈ ds, d.price = r.high
  le_high : ∀ d ∈ ds, d.price.value ≤ r.high.value
  low : ∃ d ∈ ds, d.price = r.low
  low_le : ∀ d ∈ ds, r.low.value ≤ d.price.value

section Aggregate

variable {ds : List TradeDelta} {key : TradeKey}

/-- The rows are in strictly ascending order of their keys. -/
theorem aggregate_ascending (priced : ∀ d ∈ ds, d.Priced) :
    (aggregate ds).Pairwise fun r s => r.key.ranked < s.key.ranked := by
  have sorted : (aggregate ds).Pairwise fun r s => r.key.le s.key = true := by
    apply List.pairwise_mergeSort
    · intro r s t
      rw [TradeKey.le_iff_ranked, TradeKey.le_iff_ranked, TradeKey.le_iff_ranked]
      exact le_trans
    · intro r s
      rw [Bool.or_eq_true, TradeKey.le_iff_ranked, TradeKey.le_iff_ranked]
      exact le_total _ _
  have distinct := List.pairwise_map.1 (aggregate_distinct priced)
  refine (sorted.and distinct).imp ?_
  rintro r s ⟨le, ne⟩
  exact lt_of_le_of_ne (TradeKey.le_iff_ranked.1 le) fun same => ne (TradeKey.ranked_injective same)

/-- The keys of the rows are those of the deltas. -/
theorem exists_row_iff (priced : ∀ d ∈ ds, d.Priced) :
    (∃ r ∈ aggregate ds, r.key = key) ↔ ∃ d ∈ ds, d.key = key := by
  have occurs : (∃ d ∈ ds, d.key = key) ↔ ledger ds key ≠ none := by
    rw [Ne, ledger_eq_none_iff]
    push Not
    rfl
  rw [occurs, Option.ne_none_iff_exists']
  constructor
  · rintro ⟨r, hr, rfl⟩
    obtain ⟨totals, total, -⟩ := holds_aggregate priced hr
    exact ⟨totals, total⟩
  · rintro ⟨totals, total⟩
    exact exists_row priced total

/-- High and low are prices of deltas of the key. -/
theorem attained_of_mem (priced : ∀ d ∈ ds, d.Priced) {r : TradeRow} (hr : r ∈ aggregate ds) :
    (∃ d ∈ ds.filter (·.key = r.key), d.price = r.high) ∧
      ∃ d ∈ ds.filter (·.key = r.key), d.price = r.low := by
  obtain ⟨key, e, mem, rfl⟩ := mem_aggregate.1 hr
  have found := (Tally.holds_empty.addAll priced).distinct.get?_eq_some_iff.2 mem
  -- adding a delta keeps the extreme price, or takes that of the delta
  refine Tally.addAll_induction (P := fun key e =>
    (∃ d ∈ ds.filter (·.key = key), d.price = e.high) ∧
      ∃ d ∈ ds.filter (·.key = key), d.price = e.low) ?_ ?_ found
  · intro d hd
    have own : d ∈ ds.filter (·.key = d.key) := by simpa using hd
    exact ⟨⟨d, own, rfl⟩, ⟨d, own, rfl⟩⟩
  · rintro d hd e ⟨high, low⟩
    have own : d ∈ ds.filter (·.key = d.key) := by simpa using hd
    constructor
    · rw [TallyEntry.add]
      rcases maxPrice_cases e.high d.price with same | same
      · rwa [same]
      · exact ⟨d, own, same.symm⟩
    · rw [TallyEntry.add]
      rcases minPrice_cases e.low d.price with same | same
      · rwa [same]
      · exact ⟨d, own, same.symm⟩

/-- The price of each delta is between low and high. -/
theorem TradeRow.Holds.between {r : TradeRow} {a : Totals} (holds : r.Holds a)
    (total : Totals.ofDeltas ds = some a) (priced : ∀ d ∈ ds, d.Priced) :
    ∀ d ∈ ds, r.low.value ≤ d.price.value ∧ d.price.value ≤ r.high.value := by
  intro d hd
  obtain ⟨p, hp⟩ := priced d hd
  obtain ⟨top, high, htop⟩ := holds.high
  obtain ⟨bottom, low, hbottom⟩ := holds.low
  have under := Totals.under_of_mem total hd
  have le_high := under.high
  have low_le := under.low
  rw [high, Totals.ofDelta, hp] at le_high
  rw [low, Totals.ofDelta, hp] at low_le
  rw [hp, htop, hbottom, Price.value_le_iff, Price.value_le_iff]
  exact ⟨Int.ofNat_le.1 low_le, Int.ofNat_le.1 le_high⟩

/-- The value is not rounded as long as its digits suffice. -/
theorem TradeRow.Holds.value_eq {r : TradeRow} {a : Totals} (holds : r.Holds a)
    (total : Totals.ofDeltas ds = some a) (priced : ∀ d ∈ ds, d.Priced)
    (few : 100 * (ds.map TradeDelta.worth).sum < 10 ^ 28) :
    ∃ x, r.value = .finite x ∧ x.value = (ds.map TradeDelta.worth).sum := by
  obtain ⟨cents, value, x, hx, held⟩ := holds.value
  have worth := Totals.value_of_ofDeltas priced total
  rw [value, Int.cast_natCast] at worth
  have small : cents < 10 ^ 28 := by
    rw [← worth] at few
    exact_mod_cast few
  refine ⟨x, hx, ?_⟩
  rw [held.value_eq small, worth]
  ring

/-- A row adds up the deltas of its key. -/
theorem addsUp_of_mem (priced : ∀ d ∈ ds, d.Priced) (within : TradeDelta.WithinDigits ds)
    {r : TradeRow} (hr : r ∈ aggregate ds) : r.AddsUp (ds.filter (·.key = r.key)) := by
  obtain ⟨a, total, holds⟩ := holds_aggregate priced hr
  obtain ⟨high, low⟩ := attained_of_mem priced hr
  have pricedOwn : ∀ d ∈ ds.filter (·.key = r.key), d.Priced := fun d hd =>
    priced d (List.mem_filter.1 hd).1
  have between := holds.between total pricedOwn
  constructor
  · rw [← holds.amount]
    exact Totals.sum_of_ofDeltas (fun _ _ => rfl) total
  · rw [← holds.events]
    exact Totals.sum_of_ofDeltas (fun _ _ => rfl) total
  · exact holds.value_eq total pricedOwn (within r.key)
  · exact high
  · exact fun d hd => (between d hd).2
  · exact low
  · exact fun d hd => (between d hd).1

/-- **Rows add deltas up exactly.** As long as nothing is worth more than 28 digits can say, there
is one row for each key of the deltas, in strictly ascending order of day, venue, item, side and
bound. It has the sums of their quantities, events and values, unrounded, with their highest and
lowest price. -/
theorem aggregate_exact (priced : ∀ d ∈ ds, d.Priced) (within : TradeDelta.WithinDigits ds) :
    ((aggregate ds).Pairwise fun r s => r.key.ranked < s.key.ranked) ∧
      (∀ key, (∃ r ∈ aggregate ds, r.key = key) ↔ ∃ d ∈ ds, d.key = key) ∧
      ∀ r ∈ aggregate ds, r.AddsUp (ds.filter (·.key = r.key)) :=
  ⟨aggregate_ascending priced, fun _ => exists_row_iff priced, fun _ => addsUp_of_mem priced within⟩

end Aggregate

namespace Sample

/-- A delta of an item that somebody bought or sold for so many hundredths each. -/
def lot (side : Side) (cents quantity : Nat) (h : 0 < quantity) : TradeDelta where
  key := ⟨⟨19, by decide⟩, ⟨9, by decide⟩, ⟨36, by decide⟩, side, .liberal⟩
  quantity := quantity
  events := 1
  price := ⟨false, cents, -2⟩
  quantity_pos := h

/-- What is sold of this is worth all that 28 digits can say. -/
def lots : List TradeDelta :=
  [lot .sell 4999999999999999999999999999 2 (by decide), lot .buy 250 12 (by decide),
    lot .sell 1 1 (by decide)]

theorem lots_within : TradeDelta.WithinDigits lots := by
  decide +kernel

theorem lots_add_up : (∀ d ∈ lots, d.Priced) ∧ TradeDelta.WithinDigits lots ∧
    ((aggregate lots).Pairwise fun r s => r.key.ranked < s.key.ranked) ∧
    ∀ r ∈ aggregate lots, r.AddsUp (lots.filter (·.key = r.key)) := by
  have priced : ∀ d ∈ lots, d.Priced := by
    have price (side : Side) (cents quantity : Nat) (h : 0 < quantity) (few : cents < priceLimit) :
        (lot side cents quantity h).Priced := ⟨⟨cents, false, few, nofun⟩, rfl⟩
    simp only [lots, List.forall_mem_cons]
    exact ⟨price _ _ _ _ (by decide), price _ _ _ _ (by decide), price _ _ _ _ (by decide), by simp⟩
  obtain ⟨ascending, -, sums⟩ := aggregate_exact priced lots_within
  exact ⟨priced, lots_within, ascending, sums⟩

end Sample

end OrderFlow
