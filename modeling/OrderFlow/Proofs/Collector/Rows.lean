import OrderFlow.Proofs.Collector.Bounds
import OrderFlow.Proofs.Price.Cents
import OrderFlow.Proofs.Trade.Balance
import OrderFlow.Store.Daily

/-!
# Rows of reachable stores

In every reachable state a daily row has the totals of single events, which are balanced, so that
the average of its price lies between its low and its high. A pass takes no row away, and what it
adds to a row is never less than nothing (`Reachable.rows_balanced`).
-/

namespace OrderFlow

theorem ofCents_of_lt {n : Nat} (few : n < 10 ^ 28) : ofCents n = ⟨false, n, -2⟩ := by
  have positive : decide ((n : Int) < 0) = false := decide_eq_false (by omega)
  rw [ofCents_of_few (by rwa [Int.natAbs_natCast]), positive, Int.natAbs_natCast]

/-- A row whose average is a number between its low and its high. -/
def TradeRow.AverageBetween (r : TradeRow) : Prop :=
  ∃ x, r.average = .ok (.finite x) ∧ r.low.value ≤ x.value ∧ x.value ≤ r.high.value

/-- The average price of balanced totals lies between their low and their high. -/
theorem DailyFigures.Shows.average_between {f : DailyFigures} {a : Totals} (h : f.Shows a)
    (fits : a.Fits) (proper : a.Proper) (balanced : a.Balanced) (key : TradeKey) :
    (f.toRow key).AverageBetween := by
  have events := balanced.events_pos
  have units := balanced.events_le
  have small := fits.value.2
  have range := proper.high
  have highest := proper.value
  -- totals are counts, and those of hundredths are few enough for a decimal
  obtain ⟨n, amount⟩ := Int.eq_ofNat_of_zero_le proper.amount
  obtain ⟨low, lowest⟩ := Int.eq_ofNat_of_zero_le proper.low
  obtain ⟨high, top⟩ := Int.eq_ofNat_of_zero_le (show 0 ≤ a.high by omega)
  obtain ⟨c, value⟩ := Int.eq_ofNat_of_zero_le proper.value_nonneg
  have ge := balanced.value_ge
  have le := balanced.value_le
  rw [lowest, amount, value] at ge
  rw [top, amount, value] at le
  have between := Decimal.quotient_between (n := n) (by omega) (show low < 10 ^ 28 by omega)
    (show high < 10 ^ 28 by omega) (by exact_mod_cast ge) (by exact_mod_cast le)
  refine ⟨(⟨false, c, -2⟩ : Decimal).quotient n, ?_, ?_⟩
  · rw [TradeRow.average, toRow]
    simp only [h.amount, h.value, Cell.toInt, amount, value]
    rw [if_neg (by omega), ofCents_of_lt (by omega), Int.toNat_natCast]
  · rw [toRow]
    simp only [h.low, h.high, lowest, top]
    rwa [value_ofCents (by omega), value_ofCents (by omega), Int.cast_natCast, Int.cast_natCast]

/-- What is added to the totals of a key does not make them less. -/
theorem ledger_append_under {ds : List TradeDelta} {key : TradeKey} {a : Totals}
    (h : ledger ds key = some a) (es : List TradeDelta) :
    ∃ b, ledger (ds ++ es) key = some b ∧ a.Under b := by
  rw [ledger_append, h]
  cases added : ledger es key with
  | none => exact ⟨a, Option.merge_none_right, .refl a⟩
  | some b =>
    exact ⟨a.merge b, Option.merge_some_some, Totals.under_merge_left (proper_of_ledger added) a⟩

namespace Store

variable {s : Store} {t t' : Tables}

/-- A pass takes no row away, and the totals of each are at least what they were. -/
theorem Reachable.rows_grow (reachable : s.Reachable) (ht : s.tables = some t) {a : Attempt}
    (ht' : (a.on s).1.tables = some t') {key : TradeKey} {f : DailyFigures}
    (row : (key, f) ∈ t.daily) (within : f.Within) :
    ∃ g, (key, g) ∈ t'.daily ∧ (g.Within → ∃ a b, f.Shows a ∧ g.Shows b ∧ a.Under b) := by
  obtain ⟨t₀, ds, ht₀, accounted⟩ := reachable.accounted
  obtain rfl := Option.some.inj (ht.symm.trans ht₀)
  obtain ⟨a₀, total, tracked⟩ :=
    accounted.tracks.exists_totals (accounted.distinct.get?_eq_some_iff.2 row)
  -- an attempt that fails keeps the tables, and any other one adds to the ledger
  obtain ⟨failure, failed⟩ | ⟨_, _, _, _, after, done, -, -, -, step⟩ := a.on_cases ht
  · rw [failed] at ht'
    obtain rfl := Option.some.inj (ht.symm.trans ht')
    exact ⟨f, row, fun _ => ⟨a₀, a₀, tracked.shows within, tracked.shows within, .refl a₀⟩⟩
  · rw [done] at ht'
    obtain rfl := Option.some.inj ht'
    obtain ⟨es, adds, infers⟩ := step.daily
    obtain ⟨b, sum, under⟩ := ledger_append_under total es
    obtain ⟨g, found, grown⟩ := (accounted.step step adds infers).tracks.exists_figures sum
    exact ⟨g, Keyed.mem_of_get?_eq_some found,
      fun inside => ⟨a₀, b, tracked.shows within, grown.shows inside, under⟩⟩

/-- What a query gives are rows of the table. -/
theorem mem_of_dailyRows {q : DailyQuery} {r : TradeRow} (h : r ∈ t.dailyRows q) :
    ∃ e ∈ t.daily, r = e.2.toRow e.1 := by
  obtain ⟨e, he, rfl⟩ := List.mem_map.1 h
  have taken := List.mem_of_mem_take (List.mem_mergeSort.1 he)
  have selected : e ∈ t.selected q := List.mem_mergeSort.1 taken
  unfold Tables.selected at selected
  refine ⟨e, ?_, rfl⟩
  split at selected
  · exact (List.mem_filter.1 (List.mem_mergeSort.1 selected)).1
  · exact (List.mem_filter.1 selected).1

theorem daily_of_fits {q : DailyQuery} (ht : s.tables = some t) (hq : q.Fits) :
    s.daily q = .ok (t.dailyRows q) := by
  unfold Store.daily
  rw [Store.reading, ht]
  simp only [bind, Except.bind, if_pos hq]
  rfl

/-- **What holds of the rows of a reachable store.** As long as no running total exceeds the
integers that fit, the columns of each row are balanced totals, and its average as it is reported
lies between its low and its high. A query gives such rows. No attempt takes a row away, or makes
one less. -/
theorem Reachable.rows_balanced (reachable : s.Reachable) (ht : s.tables = some t)
    (within : ∀ e ∈ t.daily, e.2.Within) :
    (∀ e ∈ t.daily, (∃ a, e.2.Shows a ∧ a.Balanced) ∧ (e.2.toRow e.1).AverageBetween) ∧
      (∀ q : DailyQuery, q.Fits → ∃ rows, s.daily q = .ok rows ∧ ∀ r ∈ rows, r.AverageBetween) ∧
      ∀ (a : Attempt) (t' : Tables), (a.on s).1.tables = some t' →
        ∀ key f, (key, f) ∈ t.daily → ∃ g, (key, g) ∈ t'.daily ∧
          (g.Within → ∃ b c, f.Shows b ∧ g.Shows c ∧ b.Under c) := by
  obtain ⟨t₀, ds, ht₀, accounted⟩ := reachable.accounted
  obtain rfl := Option.some.inj (ht.symm.trans ht₀)
  have totals (e : TradeKey × DailyFigures) (he : e ∈ t.daily) :
      ∃ a, e.2.Shows a ∧ a.Fits ∧ a.Proper ∧ a.Balanced := by
    obtain ⟨a, ha, tracked⟩ :=
      accounted.tracks.exists_totals (accounted.distinct.get?_eq_some_iff.2 he)
    have inside := within e he
    exact ⟨a, tracked.shows inside, tracked.fits inside, proper_of_ledger ha,
      balanced_of_ledger accounted.single ha⟩
  have average (e : TradeKey × DailyFigures) (he : e ∈ t.daily) :
      (e.2.toRow e.1).AverageBetween := by
    obtain ⟨a, shows, fits, proper, balanced⟩ := totals e he
    exact shows.average_between fits proper balanced e.1
  refine ⟨?_, ?_, ?_⟩
  · intro e he
    obtain ⟨a, shows, -, -, balanced⟩ := totals e he
    exact ⟨⟨a, shows, balanced⟩, average e he⟩
  · intro q hq
    refine ⟨_, daily_of_fits ht hq, fun r hr => ?_⟩
    obtain ⟨e, he, rfl⟩ := mem_of_dailyRows hr
    exact average e he
  · intro a t' ht' key f row
    exact reachable.rows_grow ht ht' row (within _ row)

end Store

namespace Sample

/-- What may have been traded on the day of the sample passes. -/
def query : DailyQuery :=
  ⟨venue, now.day, none, .liberal, none, DailyQuery.defaultLimit⟩

/-- The two rows of the sample passes are balanced, a query gives the liberal one, and they are
still there when a pass of the same book comes next. -/
theorem rows_of_late :
    (∀ e ∈ daily, (∃ a, e.2.Shows a ∧ a.Balanced) ∧ (e.2.toRow e.1).AverageBetween) ∧
    (stored late daily).daily query = .ok [row .liberal 7 2 1750] ∧
    (row .liberal 7 2 1750).AverageBetween ∧
    ∀ t, ((attempt late).on (stored late daily)).1.tables = some t →
      ∃ g, (key .liberal, g) ∈ t.daily := by
  obtain ⟨balanced, averages, kept⟩ := reachable_late.rows_balanced rfl within_daily
  have given : (stored late daily).daily query = .ok [row .liberal 7 2 1750] := by
    with_unfolding_all rfl
  obtain ⟨rows, same, between⟩ := averages query (by decide)
  obtain rfl := Except.ok.inj (given.symm.trans same)
  refine ⟨balanced, given, between _ List.mem_cons_self, fun t ht => ?_⟩
  obtain ⟨g, row, -⟩ := kept (attempt late) t ht (key .liberal) (figures 7 2 1750) (by simp [daily])
  exact ⟨g, row⟩

end Sample

end OrderFlow
