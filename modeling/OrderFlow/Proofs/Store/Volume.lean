import Mathlib.Algebra.BigOperators.Group.Finset.Piecewise
import Mathlib.Algebra.Order.Ring.Int
import OrderFlow.Proofs.Store.Daily
import OrderFlow.Proofs.Trade.Estimate

/-!
# Stored volume

The amounts that are stored for a venue and a bound, over all days, items and sides. In tables that
track the ledger of deltas this is what the deltas of the venue and bound trade
(`Tables.stored_eq_traded`): each delta counts in the one row of its key.
-/

namespace OrderFlow

open TradeDelta

/-- What the deltas of a key trade. -/
def TradeDelta.amountOf (ds : List TradeDelta) (key : TradeKey) : Int :=
  ((ds.filter (·.key = key)).map fun d => (d.quantity : Int)).sum

theorem amount_of_ledger {ds : List TradeDelta} {key : TradeKey} {a : Totals}
    (h : ledger ds key = some a) : a.amount = amountOf ds key :=
  Totals.sum_of_ofDeltas (fun _ _ => rfl) h

/-- Deltas that are summed up by key trade what they trade one by one, if all of their keys are
taken, and only keys of the venue and bound. -/
theorem TradeDelta.sum_amountOf {venue : VenueId} {bound : Bound} {keys : Finset TradeKey}
    {ds : List TradeDelta} (only : ∀ key ∈ keys, key.venue = venue ∧ key.bound = bound)
    (all : ∀ d ∈ ds, d.key.venue = venue ∧ d.key.bound = bound → d.key ∈ keys) :
    ∑ key ∈ keys, amountOf ds key = traded venue bound ds := by
  induction ds with
  | nil => simp [amountOf]
  | cons d ds ih =>
    have head (key : TradeKey) : amountOf (d :: ds) key =
        (if d.key = key then (d.quantity : Int) else 0) + amountOf ds key := by
      unfold amountOf
      by_cases h : d.key = key <;> simp [h]
    have counted : d.key ∈ keys ↔ d.key.venue = venue ∧ d.key.bound = bound :=
      ⟨only d.key, all d List.mem_cons_self⟩
    rw [Finset.sum_congr rfl fun key _ => head key, Finset.sum_add_distrib, Finset.sum_ite_eq,
      ih fun e he => all e (List.mem_cons_of_mem _ he), traded_cons]
    simp only [counted]

namespace Tables

/-- The rows of a venue and a bound. -/
def rowsOf (t : Tables) (venue : VenueId) (bound : Bound) : Keyed TradeKey DailyFigures :=
  t.daily.filter fun e => e.1.venue = venue ∧ e.1.bound = bound

/-- The amounts that are stored for a venue and a bound. -/
def stored (t : Tables) (venue : VenueId) (bound : Bound) : Int :=
  ((t.rowsOf venue bound).map fun e => e.2.amount.toInt).sum

variable {t : Tables} {ds : List TradeDelta} {venue : VenueId} {bound : Bound}
  {e : TradeKey × DailyFigures}

theorem mem_rowsOf : e ∈ t.rowsOf venue bound ↔
    e ∈ t.daily ∧ e.1.venue = venue ∧ e.1.bound = bound := by
  rw [rowsOf, List.mem_filter, decide_eq_true_iff]

/-- The key of a delta has a row. -/
theorem Tracks.exists_row (tracks : t.Tracks (ledger ds)) {d : TradeDelta} (hd : d ∈ ds) :
    ∃ f, (d.key, f) ∈ t.daily := by
  cases total : ledger ds d.key with
  | none => exact absurd rfl (ledger_eq_none_iff.1 total d hd)
  | some a =>
    obtain ⟨f, hf, -⟩ := tracks.exists_figures total
    exact ⟨f, Keyed.mem_of_get?_eq_some hf⟩

theorem stored_eq_traded (distinct : Keyed.Distinct t.daily) (tracks : t.Tracks (ledger ds))
    (within : ∀ e ∈ t.daily, e.1.venue = venue → e.2.amount.Within) :
    t.stored venue bound = traded venue bound ds := by
  have amount (e : TradeKey × DailyFigures) (he : e ∈ t.rowsOf venue bound) :
      e.2.amount.toInt = amountOf ds e.1 := by
    obtain ⟨mem, hvenue, -⟩ := mem_rowsOf.1 he
    obtain ⟨a, ha, tracked⟩ := tracks.exists_totals (distinct.get?_eq_some_iff.2 mem)
    rw [(tracked.amount.eq_of_within (within e mem hvenue)).1, Cell.toInt, amount_of_ledger ha]
  have byKey : t.stored venue bound =
      (((t.rowsOf venue bound).map Prod.fst).map (amountOf ds)).sum := by
    rw [stored, List.map_congr_left amount, List.map_map]
    rfl
  have nodup : ((t.rowsOf venue bound).map Prod.fst).Nodup :=
    (List.filter_sublist.map Prod.fst).nodup distinct
  rw [byKey, ← List.sum_toFinset _ nodup]
  apply sum_amountOf
  · intro key hkey
    obtain ⟨e, he, rfl⟩ := List.mem_map.1 (List.mem_toFinset.1 hkey)
    exact (mem_rowsOf.1 he).2
  · intro d hd selected
    obtain ⟨f, hf⟩ := tracks.exists_row hd
    exact List.mem_toFinset.2 (List.mem_map.2 ⟨(d.key, f), mem_rowsOf.2 ⟨hf, selected⟩, rfl⟩)

end Tables

end OrderFlow
