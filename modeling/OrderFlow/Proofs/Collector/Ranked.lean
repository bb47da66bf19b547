import OrderFlow.Proofs.Collector.Rows
import OrderFlow.Proofs.Store.Ranking

/-!
# The rows of a day

A query for the rows of a day gives the first of all rows that its filters admit, and each of them
reports what was recorded for its key (`Store.Recorded.daily_top`). The stores that passes lead to
are recorded ones (`Store.Reachable.recorded`).
-/

namespace OrderFlow

open TradeRow

namespace DailyQuery

variable {q : DailyQuery} {key : TradeKey}

/-- A key that all filters of a query admit. -/
structure Admits (q : DailyQuery) (key : TradeKey) : Prop where
  venue : key.venue = q.venue
  day : key.day = q.day
  bound : key.bound = q.bound
  side : ∀ side ∈ q.side, key.side = side
  item : ∀ item ∈ q.item, key.item = item

theorem selects_iff : q.selects key = true ↔ q.Admits key := by
  simp only [selects, Bool.and_eq_true, beq_iff_eq, Option.all_eq_true, decide_eq_true_eq]
  constructor
  · rintro ⟨⟨⟨⟨venue, day⟩, bound⟩, side⟩, item⟩
    exact ⟨venue, day, bound, side, item⟩
  · rintro ⟨venue, day, bound, side, item⟩
    exact ⟨⟨⟨⟨venue, day⟩, bound⟩, side⟩, item⟩

/-- The rows that match a query: one for each recorded key that its filters admit, with what was
recorded for this key. -/
structure Matches (q : DailyQuery) (recorded matching : List TradeRow) : Prop where
  distinct : (matching.map (·.key)).Nodup
  keys : ∀ key, key ∈ matching.map (·.key) ↔ q.Admits key ∧ ∃ r ∈ recorded, r.key = key
  reports : ∀ r ∈ matching, r.Reports (recorded.filter (·.key = r.key))

/-- The first of all matching rows: as many as the limit admits, of higher values first and then of
smaller items, and none that is left out has a higher value. -/
structure Top (limit : ℕ) (matching rows : List TradeRow) : Prop where
  length : rows.length = min limit matching.length
  sorted : rows.Pairwise fun a b =>
    b.worth < a.worth ∨ b.worth = a.worth ∧ a.key.item.val ≤ b.key.item.val
  rest : ∃ rest, (rows ++ rest).Perm matching ∧ ∀ a ∈ rows, ∀ b ∈ rest, b.worth ≤ a.worth

theorem top_top (limit : ℕ) (matching : List TradeRow) :
    Top limit matching (TradeRow.top limit matching) where
  length := length_top limit matching
  sorted := (pairwise_top limit matching).imp rank_le_iff.1
  rest := by
    obtain ⟨rest, perm, below⟩ := exists_rest_of_top limit matching
    refine ⟨rest, perm, fun a ha b hb => ?_⟩
    obtain less | ⟨same, -⟩ := rank_le_iff.1 (below a ha b hb)
    · exact less.le
    · exact same.le

end DailyQuery

namespace Tables.Tallies

variable {t : Tables} {rows : List TradeRow}

/-- The figures of an entry are totals of the rows of its key. -/
theorem shows (h : t.Tallies rows) (limited : ∀ key, Limited (rows.filter (·.key = key)))
    {e : TradeKey × DailyFigures} (he : e ∈ t.daily) :
    ∃ a : Totals, e.2.Shows a ∧ a.Sums (rows.filter (·.key = e.1)) := by
  have entry := h.entry e.1
  rw [h.distinct.get?_eq_some_iff.2 he] at entry
  cases entry with
  | some tracks sums => exact ⟨_, tracks.shows_of_limited sums (limited e.1), sums⟩

/-- There is an entry for each key that was recorded. -/
theorem mem_keys_iff (h : t.Tallies rows) {key : TradeKey} :
    key ∈ t.daily.map (·.1) ↔ ∃ r ∈ rows, r.key = key := by
  have entry := h.entry key
  constructor
  · intro mem
    cases found : Keyed.get? key t.daily with
    | none => exact absurd mem (Keyed.get?_eq_none_iff.1 found)
    | some f =>
      rw [found] at entry
      cases entry with
      | some _ sums =>
        obtain ⟨⟨r, hr, -⟩, -⟩ := sums.high
        obtain ⟨mem, same⟩ := List.mem_filter.1 hr
        exact ⟨r, mem, of_decide_eq_true same⟩
  · rintro ⟨r, hr, same⟩
    by_contra absent
    rw [Keyed.get?_eq_none_iff.2 absent] at entry
    generalize own : rows.filter (·.key = key) = ofKey at entry
    cases entry
    have mem : r ∈ rows.filter (·.key = key) := List.mem_filter.2 ⟨hr, decide_eq_true same⟩
    rw [own] at mem
    cases mem

/-- The rows that a query selects match it. -/
theorem matches_query (h : t.Tallies rows) (limited : ∀ key, Limited (rows.filter (·.key = key)))
    (q : DailyQuery) : q.Matches rows (t.matching q) := by
  have keys : (t.matching q).map (·.key) = (t.selected q).map (·.1) := by
    rw [matching, List.map_map]
    rfl
  have mem_selected (e : TradeKey × DailyFigures) :
      e ∈ t.selected q ↔ e ∈ t.daily ∧ q.Admits e.1 := by
    rw [(t.selected_perm q).mem_iff, List.mem_filter, DailyQuery.selects_iff]
  constructor
  · rw [keys, ((t.selected_perm q).map _).nodup_iff]
    exact h.distinct.sublist (List.filter_sublist.map _)
  · intro key
    rw [keys, ← h.mem_keys_iff, List.mem_map, List.mem_map]
    constructor
    · rintro ⟨e, he, rfl⟩
      obtain ⟨stored, admits⟩ := (mem_selected e).1 he
      exact ⟨admits, e, stored, rfl⟩
    · rintro ⟨admits, e, stored, rfl⟩
      exact ⟨e, (mem_selected e).2 ⟨stored, admits⟩, rfl⟩
  · intro r hr
    obtain ⟨e, he, rfl⟩ := List.mem_map.1 hr
    obtain ⟨a, shows, sums⟩ := h.shows limited ((mem_selected e).1 he).1
    exact shows.reports sums (limited e.1) e.1

end Tables.Tallies

/-- A pass records the rows of what it infers, or nothing. -/
theorem Attempt.recorded_on {s : Store} {rows : List TradeRow} (h : s.Recorded rows)
    (a : Attempt) : ∃ more, (a.on s).1.Recorded (rows ++ more) := by
  obtain ⟨f, failed⟩ | ⟨after, report, done⟩ := a.outcome_cases s
  · rw [failed]
    exact ⟨[], (List.append_nil rows).symm ▸ h⟩
  · obtain ⟨venue, -, absorbed⟩ := on_ok done
    obtain ⟨orders, harvest, -, harvested, committed, -⟩ := Store.absorb_ok absorbed
    obtain ⟨-, previous, hprevious, _, _, _, estimated⟩ := Harvest.eq_of_ok harvested
    have sound : ∀ o ∈ Store.previousOrders previous, o.Sound := fun o ho =>
      (Store.validated_of_snapshot hprevious o ho).sound
    obtain ⟨-, infers⟩ := Estimate.infers_between sound estimated
    rw [done]
    exact ⟨_, h.commit (Store.counted_of_commit infers.priced committed) committed⟩

namespace Store

variable {s : Store} {rows : List TradeRow}

/-- What passes lead to is a store of recorded rows. -/
theorem Reachable.recorded (h : s.Reachable) : ∃ rows, s.Recorded rows := by
  induction h with
  | empty chunkSize room => exact ⟨[], .empty chunkSize room⟩
  | attempt a _ ih =>
    obtain ⟨rows, recorded⟩ := ih
    obtain ⟨more, written⟩ := Attempt.recorded_on recorded a
    exact ⟨_, written⟩

/-- **A query gives the first of the right rows.** Let the rows that commits wrote to a store have
totals below 2⁶³ for each key. A query whose venue, item and limit fit into 64 bits gives as many as
its limit admits of the rows that match it, sorted by value and then by item. Each of them has the
totals of the recorded rows of its key, and none that is left out has a higher value. Without a side
these are, up to rows of the same value and item, what the results for both sides are when they are
merged. Any other query fails. -/
theorem Recorded.daily_top (recorded : s.Recorded rows)
    (limited : ∀ key, Limited (rows.filter (·.key = key))) (q : DailyQuery) :
    (q.Fits → ∃ matching out, q.Matches rows matching ∧ s.daily q = .ok out ∧
      DailyQuery.Top (max q.limit 0).toNat matching out ∧
      (q.side = none → ∃ buys sells, s.daily { q with side := some .buy } = .ok buys ∧
        s.daily { q with side := some .sell } = .ok sells ∧
        out.map rank = ((buys.merge sells fun a b => decide (a.rank ≤ b.rank)).take
          (max q.limit 0).toNat).map rank)) ∧
    (¬ q.Fits → s.daily q = .error .overflow) := by
  obtain ⟨t, ht, tallies⟩ := recorded.tallies
  have counts (e : TradeKey × DailyFigures) (he : e ∈ t.daily) : e.2.Counts := by
    obtain ⟨a, shows, sums⟩ := tallies.shows limited he
    have small := sums.value_lt (limited e.1)
    have nonneg := sums.counts.value
    exact ⟨a.value, shows.value, by omega, by omega⟩
  have limit : (max q.limit 0).toNat = q.limit.toNat := by omega
  have gives (q : DailyQuery) (fits : q.Fits) :
      s.daily q = .ok (TradeRow.top q.limit.toNat (t.matching q)) := by
    rw [daily_of_fits ht fits, Tables.dailyRows_eq counts]
  rw [limit]
  constructor
  · intro fits
    refine ⟨_, _, tallies.matches_query limited q, gives q fits, DailyQuery.top_top _ _, ?_⟩
    intro both
    exact ⟨_, _, gives { q with side := some .buy } fits, gives { q with side := some .sell } fits,
      map_rank_top_merge _ (t.matching_perm both)⟩
  · intro misfits
    rw [daily, reading, ht]
    exact if_neg misfits

end Store

namespace Sample

/-- Five units that were bought. -/
def bought : TradeRow :=
  { row .liberal 5 1 1250 with key := { key .liberal with side := .buy } }

/-- A store to which rows were written in two commits. -/
def exchanged : Store :=
  let first := (Store.empty.commit venue (.ofInstant now) [] false [row .liberal 3 1 750]).1
  (first.commit venue (.ofInstant now) [] false [row .liberal 4 1 1000, bought]).1

theorem counted_row {r : TradeRow}
    (hr : r ∈ [row .liberal 3 1 750, row .liberal 4 1 1000, bought]) : r.Counted := by
  have price : ∃ p : Price, (⟨false, 250, -2⟩ : Decimal) = p.toDecimal :=
    ⟨⟨250, false, by decide, by decide⟩, rfl⟩
  simp only [List.mem_cons, List.not_mem_nil, or_false] at hr
  rcases hr with rfl | rfl | rfl
  · exact ⟨by decide, by decide, ⟨750, _, rfl, rfl, by decide, rfl⟩, price, price⟩
  · exact ⟨by decide, by decide, ⟨1000, _, rfl, rfl, by decide, rfl⟩, price, price⟩
  · exact ⟨by decide, by decide, ⟨1250, _, rfl, rfl, by decide, rfl⟩, price, price⟩

theorem recorded_exchanged :
    exchanged.Recorded [row .liberal 3 1 750, row .liberal 4 1 1000, bought] := by
  have first :
      (Store.empty.commit venue (.ofInstant now) [] false [row .liberal 3 1 750]).1.Recorded
        ([] ++ [row .liberal 3 1 750]) :=
    Store.Recorded.commit (.empty Store.defaultChunkSize .standard)
      (fun r hr => counted_row (List.mem_append_left _ hr))
      (Prod.ext rfl (by with_unfolding_all rfl))
  have second : exchanged.Recorded
      ([row .liberal 3 1 750] ++ [row .liberal 4 1 1000, bought]) :=
    first.commit (fun r hr => counted_row (List.mem_append_right [_] hr))
      (Prod.ext rfl (by with_unfolding_all rfl))
  exact second

/-- A query for a single row of the day. -/
def single : DailyQuery :=
  { query with limit := 1 }

/-- A single row of the day is the first one of both sides, and of the first ones of each. -/
theorem first_row_of_day : ∃ matching out,
    single.Matches [row .liberal 3 1 750, row .liberal 4 1 1000, bought] matching ∧
    exchanged.daily single = .ok out ∧ DailyQuery.Top 1 matching out ∧
    ∃ buys sells, exchanged.daily { single with side := some .buy } = .ok buys ∧
      exchanged.daily { single with side := some .sell } = .ok sells ∧
      out.map rank =
        ((buys.merge sells fun a b => decide (a.rank ≤ b.rank)).take 1).map rank := by
  have limited : Limited [row .liberal 3 1 750, row .liberal 4 1 1000, bought] := by
    constructor
    · decide
    · decide
    · simp [worth, row, bought, Decimal.value, Decimal.signedCoefficient]
      norm_num
  obtain ⟨matching, out, matched, given, top, merged⟩ := (recorded_exchanged.daily_top
    (fun _ => limited.filter (fun _ => counted_row) _) single).1 (by decide)
  exact ⟨matching, out, matched, given, top, merged rfl⟩

/-- A limit of 2⁶³ fails, although it does not cut anything. -/
theorem limit_out_of_range :
    exchanged.daily { query with limit := 9223372036854775808 } = .error .overflow := by
  with_unfolding_all rfl

end Sample

end OrderFlow
