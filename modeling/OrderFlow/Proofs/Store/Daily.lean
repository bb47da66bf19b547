import Mathlib.Algebra.Ring.Int.Defs
import OrderFlow.Proofs.Order.Document
import OrderFlow.Proofs.Outcome
import OrderFlow.Proofs.Store.Cell
import OrderFlow.Proofs.Store.Commit
import OrderFlow.Proofs.Trade.Tally

/-!
# Daily figures and the ledger

Stored figures `Track` the totals of their key: each of their cells does. Merging the figures of a
row keeps this (`Tracks.merge`). A commit of the rows of a list of deltas, whatever its chunks,
adds the ledger of the deltas to what the table tracks (`Store.commit_adds`). It succeeds where
its book is taken and the totals fit into cells (`Store.exists_commit`).
-/

namespace OrderFlow

/-- Totals whose counts and values fit into cells. -/
structure Totals.Fits (a : Totals) : Prop where
  amount : Cell.Fits a.amount
  events : Cell.Fits a.events
  value : Cell.Fits a.value

/-- Totals of which none that is added up is negative. -/
structure Totals.Counts (a : Totals) : Prop where
  amount : 0 ≤ a.amount
  events : 0 ≤ a.events
  value : 0 ≤ a.value

theorem Totals.Proper.counts {a : Totals} (h : a.Proper) : a.Counts :=
  ⟨h.amount, h.events, h.value_nonneg⟩

/-- The average of a finite value is a number. -/
theorem TradeRow.exists_average {r : TradeRow} {x : Decimal} (h : r.value = .finite x) :
    ∃ y, r.average = .ok y := by
  unfold average
  rw [h]
  split
  · exact ⟨_, rfl⟩
  · exact ⟨_, rfl⟩

namespace DailyFigures

/-- Figures that are certain totals, each of them an integer. -/
structure Shows (f : DailyFigures) (totals : Totals) : Prop where
  amount : f.amount = .int totals.amount
  events : f.events = .int totals.events
  value : f.value = .int totals.value
  high : f.high = totals.high
  low : f.low = totals.low

/-- Figures that track certain totals, in range or not. -/
structure Tracks (f : DailyFigures) (totals : Totals) : Prop where
  amount : f.amount.Tracks totals.amount
  events : f.events.Tracks totals.events
  value : f.value.Tracks totals.value
  high : f.high = totals.high
  low : f.low = totals.low

/-- Figures of which no running total exceeds the integers that fit. -/
structure Within (f : DailyFigures) : Prop where
  amount : f.amount.Within
  events : f.events.Within
  value : f.value.Within

variable {f old new : DailyFigures} {a b : Totals} {r : TradeRow} {now : Instant}

theorem Shows.fits (h : f.Shows a) (fits : a.Fits) (proper : a.Proper) : f.Fits := by
  obtain ⟨amount, events, value, high, low⟩ := h
  obtain ⟨-, -, hlow, hhigh, hvalue⟩ := proper
  have small := fits.value.2
  unfold DailyFigures.Fits
  rw [amount, events, value, high, low]
  refine ⟨fits.amount, fits.events, fits.value, ?_, ?_⟩ <;> constructor <;> omega

theorem Shows.fits_totals (h : f.Shows a) (fits : f.Fits) : a.Fits := by
  obtain ⟨amount, events, value, -, -⟩ := h
  obtain ⟨famount, fevents, fvalue, -, -⟩ := fits
  rw [amount] at famount
  rw [events] at fevents
  rw [value] at fvalue
  exact ⟨famount, fevents, fvalue⟩

theorem Shows.tracks (h : f.Shows a) (fits : a.Fits) : f.Tracks a :=
  ⟨.within fits.amount h.amount, .within fits.events h.events, .within fits.value h.value,
    h.high, h.low⟩

theorem Tracks.shows (h : f.Tracks a) (within : f.Within) : f.Shows a :=
  ⟨(h.amount.eq_of_within within.amount).1, (h.events.eq_of_within within.events).1,
    (h.value.eq_of_within within.value).1, h.high, h.low⟩

theorem Tracks.fits (h : f.Tracks a) (within : f.Within) : a.Fits :=
  ⟨(h.amount.eq_of_within within.amount).2, (h.events.eq_of_within within.events).2,
    (h.value.eq_of_within within.value).2⟩

theorem Tracks.shows_of_fits (h : f.Tracks a) (fits : a.Fits) : f.Shows a :=
  ⟨h.amount.eq_of_le fits.amount.2, h.events.eq_of_le fits.events.2, h.value.eq_of_le fits.value.2,
    h.high, h.low⟩

/-- Merging adds totals up. -/
theorem Tracks.merge (h : old.Tracks a) (hnew : new.Shows b) (fits : b.Fits) (counts : b.Counts) :
    (old.merge new).Tracks (a.merge b) := by
  obtain ⟨amount, events, value, high, low⟩ := hnew
  constructor
  · rw [DailyFigures.merge, amount]
    exact h.amount.add counts.amount fits.amount
  · rw [DailyFigures.merge, events]
    exact h.events.add counts.events fits.events
  · rw [DailyFigures.merge, value]
    exact h.value.add counts.value fits.value
  · rw [DailyFigures.merge, Totals.merge, h.high, high]
  · rw [DailyFigures.merge, Totals.merge, h.low, low]

/-- When the figures of a row can be computed, and what they are. -/
theorem ofRow_eq_ok_iff : ofRow now r = .ok f ↔ ∃ value high low average,
    toCents r.value = .ok value ∧ toCents (.finite r.high) = .ok high ∧
      toCents (.finite r.low) = .ok low ∧ r.average = .ok average ∧
      f = ⟨.int r.amount, .int r.events, .int value, high, low, .ofReal (.ofNumber average),
        now⟩ := by
  unfold ofRow
  simp only [Outcome.bind_eq_ok_iff, Outcome.pure_eq_ok_iff]
  constructor
  · rintro ⟨value, hvalue, high, hhigh, low, hlow, average, haverage, rfl⟩
    exact ⟨value, high, low, average, hvalue, hhigh, hlow, haverage, rfl⟩
  · rintro ⟨value, high, low, average, hvalue, hhigh, hlow, haverage, rfl⟩
    exact ⟨value, hvalue, high, hhigh, low, hlow, average, haverage, rfl⟩

/-- The figures of a row whose value has few enough digits are its totals. -/
theorem exists_ofRow (now : Instant) (h : r.Holds a) (few : a.value < 10 ^ 28) :
    ∃ f, ofRow now r = .ok f ∧ f.Shows a := by
  obtain ⟨amount, events, ⟨cents, hcents, x, hx, hvalue⟩, ⟨p, hp, high⟩, ⟨q, hq, low⟩⟩ := h
  obtain ⟨y, average⟩ := TradeRow.exists_average hx
  have value : toCents r.value = .ok (cents : Int) := hx ▸ Decimal.toCents_of_lt hvalue (by omega)
  have highCents := high ▸ Decimal.toCents_of_lt p.holds_toDecimal p.cents_lt
  have lowCents := low ▸ Decimal.toCents_of_lt q.holds_toDecimal q.cents_lt
  refine ⟨_, ofRow_eq_ok_iff.2 ⟨_, _, _, y, value, highCents, lowCents, average, rfl⟩, ?_⟩
  exact ⟨by rw [amount], by rw [events], by rw [hcents], hp.symm, hq.symm⟩

/-- Figures that fit into cells were not rounded. -/
theorem shows_of_ofRow (hf : ofRow now r = .ok f) (fits : f.Fits) (h : r.Holds a) : f.Shows a := by
  obtain ⟨cents, hcents, x, hx, hvalue⟩ := h.value
  rcases Nat.lt_or_ge cents (10 ^ 28) with few | many
  · obtain ⟨g, hg, shows⟩ := exists_ofRow now h (by omega)
    rw [hf] at hg
    exact Except.ok.inj hg ▸ shows
  · obtain ⟨k, hk, large⟩ := Decimal.le_toCents_of_holds hvalue many
    obtain ⟨_, _, _, _, read, -, -, -, rfl⟩ := ofRow_eq_ok_iff.1 hf
    rw [hx, hk] at read
    obtain rfl := Except.ok.inj read
    obtain ⟨-, -, fvalue, -, -⟩ := fits
    have small : (k : Int) ≤ 9223372036854775807 := fvalue.2
    omega

end DailyFigures

namespace Tables

variable {t : Tables} {now : Instant} {ds : List TradeDelta} {rows : List TradeRow}
  {entries : List (TradeKey × DailyFigures)} {totalsOf : TradeKey → Option Totals}

/-- Tables whose figures track certain totals at every key, and have no other keys. -/
def Tracks (t : Tables) (totalsOf : TradeKey → Option Totals) : Prop :=
  ∀ key, Option.Rel DailyFigures.Tracks (Keyed.get? key t.daily) (totalsOf key)

/-- Tables with the totals of deltas merged into those of other tables, key by key. The figures
that are merged show the ledger of the deltas. -/
structure Adds (t' t : Tables) (ds : List TradeDelta) : Prop where
  distinct : Keyed.Distinct t.daily → Keyed.Distinct t'.daily
  figures : ∀ key, ∃ entry,
    Option.Rel (fun f totals => f.Shows totals ∧ totals.Fits) entry (ledger ds key) ∧
      Keyed.get? key t'.daily = (Keyed.get? key t.daily).merge .merge entry

theorem Tracks.exists_totals (h : t.Tracks totalsOf) {key : TradeKey} {f : DailyFigures}
    (found : Keyed.get? key t.daily = some f) : ∃ a, totalsOf key = some a ∧ f.Tracks a := by
  have tracked := h key
  rw [found] at tracked
  generalize totalsOf key = totals at tracked ⊢
  cases tracked with
  | some tracked => exact ⟨_, rfl, tracked⟩

theorem Tracks.exists_figures (h : t.Tracks totalsOf) {key : TradeKey} {a : Totals}
    (total : totalsOf key = some a) : ∃ f, Keyed.get? key t.daily = some f ∧ f.Tracks a := by
  have tracked := h key
  rw [total] at tracked
  generalize Keyed.get? key t.daily = found at tracked ⊢
  cases tracked with
  | some tracked => exact ⟨_, rfl, tracked⟩

theorem tracks_empty : empty.Tracks fun _ => none :=
  fun _ => .none

@[simp] theorem daily_withBook (t : Tables) (venue : VenueId) (now : Instant)
    (orders : List Order) (unchanged : Bool) :
    (t.withBook venue now orders unchanged).daily = t.daily := by
  unfold withBook
  split <;> rfl

/-- Entries with distinct keys are each merged once. -/
theorem get?_mergeEntries (distinct : Keyed.Distinct entries) (key : TradeKey) :
    Keyed.get? key (t.mergeEntries entries).daily =
      (Keyed.get? key t.daily).merge .merge (Keyed.get? key entries) := by
  induction entries generalizing t with
  | nil => exact Option.merge_none_right.symm
  | cons e rest ih =>
    obtain ⟨k, f⟩ := e
    obtain ⟨fresh, distinct⟩ := List.nodup_cons.1 distinct
    rw [mergeEntries, List.foldl_cons]
    apply (ih distinct).trans
    rw [mergeFigures, Keyed.get?_alter, Keyed.get?]
    by_cases hk : k = key
    · subst hk
      rw [Keyed.get?_eq_none_iff.2 fresh, if_pos rfl, if_pos rfl, Option.merge_none_right]
      cases Keyed.get? k t.daily <;> rfl
    · rw [if_neg hk, if_neg hk]

theorem distinct_mergeEntries (h : Keyed.Distinct t.daily) :
    Keyed.Distinct (t.mergeEntries entries).daily := by
  induction entries generalizing t with
  | nil => exact h
  | cons e rest ih => exact ih (t := t.mergeFigures e.1 e.2) (h.alter _)

theorem entryOf_eq_ok_iff {r : TradeRow} {e : TradeKey × DailyFigures} :
    entryOf now r = .ok e ↔ e.1 = r.key ∧ DailyFigures.ofRow now r = .ok e.2 := by
  obtain ⟨key, f⟩ := e
  rw [entryOf, Outcome.bind_eq_ok_iff]
  simp only [Outcome.pure_eq_ok_iff, Prod.mk.injEq]
  constructor
  · rintro ⟨g, hg, rfl, rfl⟩
    exact ⟨rfl, hg⟩
  · rintro ⟨rfl, hf⟩
    exact ⟨f, hf, rfl, rfl⟩

theorem keys_of_entries (h : rows.mapM (entryOf now) = .ok entries) :
    entries.map (·.1) = rows.map (·.key) := by
  induction rows generalizing entries with
  | nil =>
    obtain rfl := Outcome.mapM_nil_eq_ok_iff.1 h
    rfl
  | cons r rows ih =>
    obtain ⟨e, rest, he, hrest, rfl⟩ := Outcome.mapM_cons_eq_ok_iff.1 h
    rw [List.map_cons, List.map_cons, ih hrest, (entryOf_eq_ok_iff.1 he).1]

/-- The entries of a commit show the ledger of its deltas. -/
theorem entries_show (priced : ∀ d ∈ ds, d.Priced)
    (h : (aggregate ds).mapM (entryOf now) = .ok entries)
    (hfits : ∀ e ∈ entries, fits e.1 e.2 = true) :
    Keyed.Distinct entries ∧
      ∀ key, Option.Rel (fun f totals => f.Shows totals ∧ totals.Fits) (Keyed.get? key entries)
        (ledger ds key) := by
  have distinct : Keyed.Distinct entries := by
    rw [Keyed.Distinct, keys_of_entries h]
    exact aggregate_distinct priced
  refine ⟨distinct, ?_⟩
  intro key
  cases found : Keyed.get? key entries with
  | none =>
    cases totals : ledger ds key with
    | none => exact .none
    | some a =>
      obtain ⟨r, hr, hkey⟩ := exists_row priced totals
      have absent := Keyed.get?_eq_none_iff.1 found
      rw [keys_of_entries h] at absent
      exact absurd (hkey ▸ List.mem_map_of_mem hr) absent
  | some f =>
    have mem := Keyed.mem_of_get?_eq_some found
    obtain ⟨r, hr, he⟩ := Outcome.exists_of_mapM h mem
    obtain ⟨rfl, hf⟩ := entryOf_eq_ok_iff.1 he
    obtain ⟨a, ha, holds⟩ := holds_aggregate priced hr
    have fit : f.Fits := (decide_eq_true_iff.1 (hfits _ mem)).2.2
    rw [ha]
    have shows := DailyFigures.shows_of_ofRow hf fit holds
    exact .some ⟨shows, shows.fits_totals fit⟩

variable {t' : Tables}

/-- Totals that are tracked stay tracked with the ledger of the deltas added. -/
theorem Adds.tracks (h : t'.Adds t ds) (ht : t.Tracks totalsOf) :
    t'.Tracks fun key => (totalsOf key).merge .merge (ledger ds key) := by
  intro key
  obtain ⟨entry, new, merged⟩ := h.figures key
  have old := ht key
  rw [merged]
  simp only
  generalize hledger : ledger ds key = added at new ⊢
  generalize Keyed.get? key t.daily = before, totalsOf key = sum at old
  cases new with
  | none => rwa [Option.merge_none_right, Option.merge_none_right]
  | some new =>
    obtain ⟨shows, fits⟩ := new
    cases old with
    | none => exact .some (shows.tracks fits)
    | some old => exact .some (old.merge shows fits (proper_of_ledger hledger).counts)

/-- A key of none of the deltas keeps its figures. -/
theorem Adds.untouched (h : t'.Adds t ds) {key : TradeKey} (hkey : ledger ds key = none) :
    Keyed.get? key t'.daily = Keyed.get? key t.daily := by
  obtain ⟨entry, new, merged⟩ := h.figures key
  rw [hkey] at new
  cases new with
  | none => rw [merged, Option.merge_none_right]

end Tables

namespace Store

variable {s after : Store} {fault : Option Nat} {venue : VenueId} {observedAt : Stamp}
  {orders : List Order} {unchanged : Bool} {ds : List TradeDelta}

/-- What a commit of the rows of deltas writes. -/
theorem commit_adds (priced : ∀ d ∈ ds, d.Priced)
    (h : commitUnder fault s venue observedAt orders unchanged (aggregate ds) = (after, .ok ())) :
    ∃ now t t', observedAt.utc? = some now ∧ s.tables = some t ∧
      after = { s with tables := some t' } ∧
      t'.books = (t.withBook venue now orders unchanged).books ∧ t'.Adds t ds := by
  obtain ⟨-, -, -, now, t, entries, hnow, ht, -, hmap, hfits, rfl⟩ := commitUnder_ok_iff.1 h
  obtain ⟨distinct, shown⟩ := Tables.entries_show priced hmap hfits
  refine ⟨now, t, _, hnow, ht, rfl, Tables.books_mergeEntries .., ?_, ?_⟩
  · intro ht
    exact Tables.distinct_mergeEntries (by rwa [Tables.daily_withBook])
  · intro key
    exact ⟨_, shown key, by rw [Tables.get?_mergeEntries distinct, Tables.daily_withBook]⟩

/-- A commit of deltas whose totals fit into cells succeeds if its book is taken. -/
theorem exists_commit (hsize : 0 < s.chunkSize) (hvenue : Cell.Fits venue.val) {now : Instant}
    (hnow : observedAt.utc? = some now) {t : Tables} (ht : s.tables = some t)
    (takes : t.Takes s.room venue orders unchanged) (priced : ∀ d ∈ ds, d.Priced)
    (hfits : ∀ key totals, ledger ds key = some totals → totals.Fits ∧
      Cell.Fits key.venue.val ∧ Cell.Fits key.item.val) :
    ∃ after, commit s venue observedAt orders unchanged (aggregate ds) = (after, .ok ()) := by
  have entry (r : TradeRow) (hr : r ∈ aggregate ds) :
      ∃ e, Tables.entryOf now r = .ok e ∧ Tables.fits e.1 e.2 = true := by
    obtain ⟨a, ha, holds⟩ := holds_aggregate priced hr
    obtain ⟨fits, hkey⟩ := hfits r.key a ha
    have few : a.value < 10 ^ 28 := by
      have := fits.value.2
      omega
    obtain ⟨f, hf, shows⟩ := DailyFigures.exists_ofRow now holds few
    refine ⟨(r.key, f), Tables.entryOf_eq_ok_iff.2 ⟨rfl, hf⟩, ?_⟩
    exact decide_eq_true ⟨hkey.1, hkey.2, shows.fits fits (proper_of_ledger ha)⟩
  obtain ⟨entries, hentries⟩ := Outcome.exists_mapM fun r hr => (entry r hr).imp fun _ h => h.1
  refine ⟨_, commitUnder_ok_iff.2 ⟨hvenue, hsize, Work.spares_none _, now, t, entries, hnow, ht,
    takes, hentries, ?_, rfl⟩⟩
  intro e he
  obtain ⟨r, hr, hre⟩ := Outcome.exists_of_mapM hentries he
  obtain ⟨e', he', fits⟩ := entry r hr
  exact Except.ok.inj (he'.symm.trans hre) ▸ fits

end Store

namespace Sample

/-- Figures of trades at the price 2.50. -/
def figures (amount events value : Int) : DailyFigures :=
  ⟨.int amount, .int events, .int value, 250, 250, .ofReal (.ofNumber (.finite ⟨false, 25, -1⟩)),
    now⟩

end Sample

end OrderFlow
