import Mathlib.Order.Bounds.Basic
import OrderFlow.Proofs.Price.Cents
import OrderFlow.Proofs.Store.Sums

/-!
# What was recorded

A store has `Recorded` the rows of all commits that succeeded, from empty tables on. What it has for
a key are the totals of the recorded rows of that key, whichever commits they came in and whatever
failed in between (`Recorded.tallies`). While these totals stay below 2⁶³ the stored figures report
them as numbers: counts and values added up, the greatest high and the least low
(`Tallies.reports`).
-/

namespace OrderFlow

/-- The value of a row as a number; what is not finite counts as zero. -/
def TradeRow.worth (r : TradeRow) : ℚ :=
  match r.value with
  | .finite x => x.value
  | _ => 0

namespace TradeRow

/-- A row of counts, with a value of two places and with prices. -/
structure Counted (r : TradeRow) : Prop where
  amount : 0 ≤ r.amount
  events : 0 ≤ r.events
  value : ∃ cents : ℕ, r.value.IsCents cents
  high : ∃ p : Price, r.high = p.toDecimal
  low : ∃ p : Price, r.low = p.toDecimal

/-- A row that has what others amount to. -/
structure Reports (r : TradeRow) (rows : List TradeRow) : Prop where
  amount : r.amount = (rows.map (·.amount)).sum
  events : r.events = (rows.map (·.events)).sum
  value : ∃ x, r.value = .finite x ∧ x.value = (rows.map worth).sum
  high : IsGreatest {x | ∃ s ∈ rows, s.high.value = x} r.high.value
  low : IsLeast {x | ∃ s ∈ rows, s.low.value = x} r.low.value

/-- Rows whose totals stay below 2⁶³, those of the value in hundredths. -/
structure Limited (rows : List TradeRow) : Prop where
  amount : (rows.map (·.amount)).sum < 2 ^ 63
  events : (rows.map (·.events)).sum < 2 ^ 63
  value : (rows.map worth).sum * 100 < 2 ^ 63

end TradeRow

open TradeRow

namespace Totals

variable {a b : Totals} {rows more : List TradeRow}

/-- Totals of rows; value, high and low count hundredths. -/
structure Sums (a : Totals) (rows : List TradeRow) : Prop where
  amount : a.amount = (rows.map (·.amount)).sum
  events : a.events = (rows.map (·.events)).sum
  value : (a.value : ℚ) / 100 = (rows.map worth).sum
  high : IsGreatest {x | ∃ r ∈ rows, r.high.value = x} ((a.high : ℚ) / 100)
  low : IsLeast {x | ∃ r ∈ rows, r.low.value = x} ((a.low : ℚ) / 100)
  counts : a.Counts
  highFits : Cell.Fits a.high
  lowFits : Cell.Fits a.low

/-- Totals of two parts are those of all their rows. -/
theorem Sums.merge (h : a.Sums rows) (h' : b.Sums more) : (a.merge b).Sums (rows ++ more) := by
  have both (f : TradeRow → ℚ) : {x | ∃ r ∈ rows ++ more, f r = x} =
      {x | ∃ r ∈ rows, f r = x} ∪ {x | ∃ r ∈ more, f r = x} := by
    ext x
    simp only [List.mem_append, or_and_right, exists_or, Set.mem_union, Set.mem_ofPred_eq]
  have hundredths : Monotone fun n : ℤ => (n : ℚ) / 100 := by
    intro m n le
    have cast : (m : ℚ) ≤ n := by exact_mod_cast le
    exact div_le_div_of_nonneg_right cast (by norm_num)
  constructor
  · rw [List.map_append, List.sum_append, ← h.amount, ← h'.amount]
    rfl
  · rw [List.map_append, List.sum_append, ← h.events, ← h'.events]
    rfl
  · rw [List.map_append, List.sum_append, ← h.value, ← h'.value, ← add_div]
    simp only [Totals.merge, Int.cast_add]
  · rw [both]
    have greatest := h.high.union h'.high
    rwa [← hundredths.map_max] at greatest
  · rw [both]
    have least := h.low.union h'.low
    rwa [← hundredths.map_min] at least
  · exact ⟨Int.add_nonneg h.counts.amount h'.counts.amount,
      Int.add_nonneg h.counts.events h'.counts.events,
      Int.add_nonneg h.counts.value h'.counts.value⟩
  · show Cell.Fits (max a.high b.high)
    rcases max_choice a.high b.high with same | same
    · rw [same]
      exact h.highFits
    · rw [same]
      exact h'.highFits
  · show Cell.Fits (min a.low b.low)
    rcases min_choice a.low b.low with same | same
    · rw [same]
      exact h.lowFits
    · rw [same]
      exact h'.lowFits

theorem Sums.value_lt (h : a.Sums rows) (limited : Limited rows) : a.value < 2 ^ 63 := by
  have cents := limited.value
  rw [← h.value, div_mul_cancel₀ _ (by norm_num)] at cents
  exact_mod_cast cents

end Totals

namespace DailyFigures

variable {f : DailyFigures} {r : TradeRow} {now : Instant} {a : Totals} {rows : List TradeRow}

/-- The figures that are written for a row are its totals. -/
theorem exists_totals_of_ofRow (h : ofRow now r = .ok f) (fits : f.Fits) (counted : r.Counted) :
    ∃ a, f.Shows a ∧ a.Fits ∧ a.Sums [r] := by
  obtain ⟨amount, events, ⟨cents, hcents⟩, ⟨p, hp⟩, ⟨q, hq⟩⟩ := counted
  obtain ⟨_, high, low, _, -, hhigh, hlow, -, rfl⟩ := ofRow_eq_ok_iff.1 h
  obtain ⟨⟨-, amountFits⟩, ⟨-, eventsFits⟩, value, valueFits⟩ := columns_of_ofRow h fits hcents
  obtain ⟨-, -, -, highFits, lowFits⟩ := fits
  have price (p : Price) : toCents (.finite p.toDecimal) = .ok (p.cents : ℤ) :=
    Decimal.toCents_of_lt p.holds_toDecimal p.cents_lt
  have only (f : TradeRow → ℚ) : {x | ∃ s ∈ [r], f s = x} = {f r} := by
    ext x
    simp only [List.mem_singleton, exists_eq_left, Set.mem_ofPred_eq, Set.mem_singleton_iff]
    exact eq_comm
  obtain rfl : (p.cents : ℤ) = high := Except.ok.inj ((price p).symm.trans (hp ▸ hhigh))
  obtain rfl : (q.cents : ℤ) = low := Except.ok.inj ((price q).symm.trans (hq ▸ hlow))
  have worth : r.worth = cents / 100 := by
    obtain ⟨x, hx, places, -, signed⟩ := hcents
    rw [TradeRow.worth, hx]
    simp only [Decimal.value, places, signed, div_eq_mul_inv, Int.cast_natCast]
    norm_num
  refine ⟨⟨r.amount, r.events, cents, p.cents, q.cents⟩, ⟨rfl, rfl, value, rfl, rfl⟩,
    ⟨amountFits, eventsFits, valueFits⟩, ?_⟩
  constructor
  · simp
  · simp
  · simp [worth]
  · rw [only, hp, p.value_toDecimal, Int.cast_natCast]
    exact isGreatest_singleton
  · rw [only, hq, q.value_toDecimal, Int.cast_natCast]
    exact isLeast_singleton
  · exact ⟨amount, events, Int.natCast_nonneg cents⟩
  · exact highFits
  · exact lowFits

/-- The figures of a key, if there are any, and the rows that were written for it. -/
inductive Tallies : Option DailyFigures → List TradeRow → Prop
  | none : Tallies .none []
  | some {f : DailyFigures} {a : Totals} {rows : List TradeRow} (tracks : f.Tracks a)
      (sums : a.Sums rows) : Tallies (.some f) rows

theorem Tallies.merge {old : Option DailyFigures} (h : Tallies old rows) (shows : f.Shows a)
    (fits : a.Fits) (sums : a.Sums [r]) :
    Tallies (.some (old.elim f (·.merge f))) (rows ++ [r]) := by
  cases h with
  | none => exact .some (shows.tracks fits) sums
  | some tracks before =>
    exact .some (tracks.merge shows fits sums.counts) (before.merge sums)

/-- While the totals stay below 2⁶³, the figures are these totals. -/
theorem Tracks.shows_of_limited (h : f.Tracks a) (sums : a.Sums rows) (limited : Limited rows) :
    f.Shows a := by
  have amount := sums.amount ▸ limited.amount
  have events := sums.events ▸ limited.events
  have value := sums.value_lt limited
  exact ⟨h.amount.eq_of_le (by omega), h.events.eq_of_le (by omega), h.value.eq_of_le (by omega),
    h.high, h.low⟩

/-- The row of figures that are totals has these as numbers. -/
theorem Shows.reports (h : f.Shows a) (sums : a.Sums rows) (limited : Limited rows)
    (key : TradeKey) : (f.toRow key).Reports rows := by
  have few (n : ℤ) (fits : Cell.Fits n) : (ofCents n).value = n / 100 := by
    refine value_ofCents ?_
    unfold Cell.Fits at fits
    omega
  have value : Cell.Fits a.value := by
    have small := sums.value_lt limited
    have nonneg := sums.counts.value
    unfold Cell.Fits
    omega
  constructor
  · rw [toRow, h.amount]
    exact sums.amount
  · rw [toRow, h.events]
    exact sums.events
  · refine ⟨ofCents a.value, ?_, ?_⟩
    · rw [toRow, h.value]
      rfl
    · rw [few _ value, sums.value]
  · rw [toRow, h.high, few _ sums.highFits]
    exact sums.high
  · rw [toRow, h.low, few _ sums.lowFits]
    exact sums.low

end DailyFigures

namespace Tables

variable {t t' : Tables} {rows more : List TradeRow} {now : Instant}

/-- Tables that have, under distinct keys, the totals of rows. -/
structure Tallies (t : Tables) (rows : List TradeRow) : Prop where
  distinct : Keyed.Distinct t.daily
  entry : ∀ key, DailyFigures.Tallies (Keyed.get? key t.daily) (rows.filter (·.key = key))

theorem Tallies.congr (h : t.Tallies rows) (same : t'.daily = t.daily) : t'.Tallies rows := by
  constructor
  · rw [same]
    exact h.distinct
  · intro key
    rw [same]
    exact h.entry key

theorem tallies_empty : empty.Tallies [] :=
  ⟨List.nodup_nil, fun _ => .none⟩

/-- One more row is merged into the figures of its key. -/
theorem Tallies.mergeFigures (h : t.Tallies rows) {f : DailyFigures} {a : Totals} {r : TradeRow}
    (shows : f.Shows a) (fits : a.Fits) (sums : a.Sums [r]) :
    (t.mergeFigures r.key f).Tallies (rows ++ [r]) := by
  refine ⟨h.distinct.alter _, fun key => ?_⟩
  have before := h.entry key
  rw [Tables.mergeFigures, Keyed.get?_alter, List.filter_append]
  by_cases same : r.key = key
  · subst same
    rw [if_pos rfl, List.filter_cons_of_pos (by simp), List.filter_nil]
    exact before.merge shows fits sums
  · rw [if_neg same, List.filter_cons_of_neg (by simp [same]), List.filter_nil, List.append_nil]
    exact before

/-- So are several rows, one after the other, whatever their keys. -/
theorem Tallies.mergeEntries {entries : List (TradeKey × DailyFigures)} (h : t.Tallies rows)
    (counted : ∀ r ∈ more, r.Counted) (hmap : more.mapM (entryOf now) = .ok entries)
    (hfits : ∀ e ∈ entries, fits e.1 e.2 = true) :
    (t.mergeEntries entries).Tallies (rows ++ more) := by
  induction more generalizing t rows entries with
  | nil =>
    obtain rfl := Outcome.mapM_nil_eq_ok_iff.1 hmap
    rwa [List.append_nil]
  | cons r more ih =>
    obtain ⟨⟨k, f⟩, rest, he, hrest, rfl⟩ := Outcome.mapM_cons_eq_ok_iff.1 hmap
    obtain ⟨rfl, hf⟩ := entryOf_eq_ok_iff.1 he
    obtain ⟨first, others⟩ := List.forall_mem_cons.1 hfits
    obtain ⟨own, later⟩ := List.forall_mem_cons.1 counted
    obtain ⟨a, shows, small, sums⟩ :=
      DailyFigures.exists_totals_of_ofRow hf (decide_eq_true_iff.1 first).2.2 own
    rw [List.append_cons]
    exact ih (t := t.mergeFigures r.key f) (h.mergeFigures shows small sums) later hrest others

end Tables

namespace TradeRow

variable {r : TradeRow} {a : Totals}

/-- A row that holds totals of few enough digits counts. -/
theorem Holds.counted (h : r.Holds a) (counts : a.Counts) (few : a.value < 10 ^ 28) :
    r.Counted := by
  obtain ⟨amount, events, ⟨cents, hcents, x, hx, holds⟩, ⟨p, -, high⟩, ⟨q, -, low⟩⟩ := h
  have signed := holds.signedCoefficient_eq
  obtain ⟨small, places, coefficient, -⟩ | ⟨large, -⟩ := holds
  · refine ⟨amount ▸ counts.amount, events ▸ counts.events, ⟨cents, x, hx, places, ?_, ?_⟩,
      ⟨p, high⟩, ⟨q, low⟩⟩
    · rwa [coefficient]
    · rw [signed, coefficient]
  · omega

theorem Counted.worth_nonneg (h : r.Counted) : 0 ≤ r.worth := by
  obtain ⟨cents, x, hx, places, -, signed⟩ := h.value
  rw [worth, hx]
  simp only [Decimal.value, places, signed, Int.cast_natCast]
  positivity

/-- Rows that together stay below 2⁶³ do so in parts. -/
theorem Limited.filter {rows : List TradeRow} (h : Limited rows)
    (counted : ∀ r ∈ rows, r.Counted) (p : TradeRow → Bool) : Limited (rows.filter p) := by
  have le {α : Type} [AddCommMonoid α] [PartialOrder α] [IsOrderedAddMonoid α] {f : TradeRow → α}
      (nonneg : ∀ r ∈ rows, 0 ≤ f r) : ((rows.filter p).map f).sum ≤ (rows.map f).sum := by
    refine (List.filter_sublist.map f).sum_le_sum fun x hx => ?_
    obtain ⟨r, hr, rfl⟩ := List.mem_map.1 hx
    exact nonneg r hr
  have value := le fun r hr => (counted r hr).worth_nonneg
  exact ⟨(le fun r hr => (counted r hr).amount).trans_lt h.amount,
    (le fun r hr => (counted r hr).events).trans_lt h.events,
    (mul_le_mul_of_nonneg_right value (by norm_num)).trans_lt h.value⟩

end TradeRow

namespace Store

/-- The rows of deltas that a commit has accepted count. -/
theorem counted_of_commit {s after : Store} {fault : Option Nat} {venue : VenueId}
    {observedAt : Stamp} {orders : List Order} {unchanged : Bool} {ds : List TradeDelta}
    (priced : ∀ d ∈ ds, d.Priced)
    (done : s.commitUnder fault venue observedAt orders unchanged (aggregate ds) =
      (after, .ok ())) : ∀ r ∈ aggregate ds, r.Counted := by
  intro r hr
  obtain ⟨a, ha, holds⟩ := holds_aggregate priced hr
  obtain ⟨-, -, -, now, t, entries, -, -, -, hmap, hfits, -⟩ := commitUnder_ok_iff.1 done
  obtain ⟨e, mem, he⟩ := Outcome.exists_ok_of_mapM hmap r hr
  obtain ⟨-, hf⟩ := Tables.entryOf_eq_ok_iff.1 he
  have fits := (decide_eq_true_iff.1 (hfits e mem)).2.2
  have small := ((DailyFigures.shows_of_ofRow hf fits holds).fits_totals fits).value.2
  exact holds.counted (proper_of_ledger ha).counts (by omega)

/-- The rows that were written to a store: those of all commits that succeeded, in their order, from
empty tables on. A commit may be one of any rows that count, it may bring any book, and it may fail,
then whatever its rows are. -/
inductive Recorded : Store → List TradeRow → Prop
  | empty (chunkSize : Int) (room : Room) : Recorded ⟨some .empty, chunkSize, room⟩ []
  | commit {s after : Store} {rows more : List TradeRow} {fault : Option Nat} {venue : VenueId}
      {observedAt : Stamp} {orders : List Order} {unchanged : Bool} (h : s.Recorded rows)
      (counted : ∀ r ∈ more, r.Counted)
      (done : s.commitUnder fault venue observedAt orders unchanged more = (after, .ok ())) :
      Recorded after (rows ++ more)
  | failure {s after : Store} {rows more : List TradeRow} {fault : Option Nat} {venue : VenueId}
      {observedAt : Stamp} {orders : List Order} {unchanged : Bool} {f : Failure}
      (h : s.Recorded rows)
      (failed : s.commitUnder fault venue observedAt orders unchanged more = (after, .error f)) :
      Recorded after rows

/-- What a store has for a key are the totals of the rows that were recorded for it. -/
theorem Recorded.tallies {s : Store} {rows : List TradeRow} (h : s.Recorded rows) :
    ∃ t, s.tables = some t ∧ t.Tallies rows := by
  induction h with
  | empty => exact ⟨.empty, rfl, Tables.tallies_empty⟩
  | commit _ counted done ih =>
    obtain ⟨t, ht, tallies⟩ := ih
    obtain ⟨-, -, -, now, t₀, entries, -, ht₀, -, hmap, hfits, rfl⟩ := commitUnder_ok_iff.1 done
    obtain rfl := Option.some.inj (ht.symm.trans ht₀)
    exact ⟨_, rfl, (tallies.congr (Tables.daily_withBook ..)).mergeEntries counted hmap hfits⟩
  | failure _ failed ih =>
    have kept := commitUnder_error (congrArg Prod.snd failed)
    rw [failed] at kept
    cases kept
    exact ih

end Store

end OrderFlow
