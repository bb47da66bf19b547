import OrderFlow.Proofs.Store.Rejection

/-!
# Sums in the table

Counts and values of a key are added up in cells, whose integers end at 64 bits. A commit that
succeeds adds to these columns what its rows count (`Tables.AddsTo`): a sum is exact if it and those
before it fit, and a sum that does not fit is not there, but something else. Whether a commit
succeeds does not depend on the sums (`Store.sums_of_commit`).
-/

namespace OrderFlow

namespace Cell

variable {a b : Cell} {m n : Int} {ns : List Int}

theorem fits_of_ofReal {x : Binary64} (h : ofReal x = .int n) : Fits n := by
  unfold ofReal at h
  split at h
  · split at h
    · rename_i inside
      obtain rfl := Cell.int.inj h
      unfold Fits
      omega
    · cases h
  · cases h

/-- A sum that is an integer fits, whatever was added. -/
theorem fits_of_add (h : a.add b = .int n) : Fits n := by
  unfold add at h
  split at h
  · split at h
    · rename_i fits
      exact Cell.int.inj h ▸ fits
    · exact fits_of_ofReal h
  · exact fits_of_ofReal h

theorem add_of_fits (h : Fits (m + n)) : add (.int m) (.int n) = .int (m + n) :=
  if_pos h

/-- A cell with integers added one after the other. -/
def addAll (c : Cell) (ns : List Int) : Cell :=
  ns.foldl (fun c n => c.add (int n)) c

theorem addAll_cons (c : Cell) (n : Int) (ns : List Int) :
    c.addAll (n :: ns) = (c.add (int n)).addAll ns :=
  rfl

/-- Integers are added exactly while their sums fit. -/
theorem addAll_of_fits (h : ∀ part, part <+: ns → Fits (n + part.sum)) :
    (int n).addAll ns = int (n + ns.sum) := by
  induction ns generalizing n with
  | nil => simp [addAll]
  | cons m ns ih =>
    have first : Fits (n + m) := by
      simpa using h [m] ⟨ns, rfl⟩
    have rest : (int (n + m)).addAll ns = int (n + m + ns.sum) := by
      refine ih fun part before => ?_
      have longer := h (m :: part) (List.cons_prefix_cons.2 ⟨rfl, before⟩)
      rwa [List.sum_cons, ← Int.add_assoc] at longer
    rw [addAll_cons, add_of_fits first, rest, List.sum_cons, Int.add_assoc]

theorem fits_of_addAll (fits : Fits n) (h : (int n).addAll ns = int m) : Fits m := by
  rcases List.eq_nil_or_concat ns with rfl | ⟨init, last, rfl⟩
  · exact Cell.int.inj h ▸ fits
  · rw [addAll, List.concat_eq_append, List.foldl_append] at h
    exact fits_of_add h

end Cell

/-- A value with two places and at most 28 digits, and how many hundredths it is. -/
def Number.IsCents (value : Number) (cents : Int) : Prop :=
  ∃ x, value = .finite x ∧ x.exponent = -2 ∧ x.coefficient < 10 ^ 28 ∧ x.signedCoefficient = cents

theorem Number.IsCents.toCents {value : Number} {cents : Int} (h : value.IsCents cents) :
    toCents value = .ok cents := by
  obtain ⟨⟨negative, n, e⟩, rfl, he, small, rfl⟩ := h
  obtain rfl : e = -2 := he
  exact Decimal.toCents_hundredths small

namespace DailyFigures

variable {now : Instant} {rows : List TradeRow}

/-- A column that is added up in merges, and what the rows count in it. -/
structure Sums (column : DailyFigures → Cell) (count : TradeRow → Int) (now : Instant)
    (rows : List TradeRow) : Prop where
  merges : ∀ old new, column (old.merge new) = (column old).add (column new)
  counts : ∀ r ∈ rows, ∀ f, ofRow now r = .ok f → f.Fits →
    column f = .int (count r) ∧ Cell.Fits (count r)

theorem columns_of_ofRow {r : TradeRow} {f : DailyFigures} {cents : Int}
    (h : ofRow now r = .ok f) (fits : f.Fits) (value : r.value.IsCents cents) :
    (f.amount = .int r.amount ∧ Cell.Fits r.amount) ∧
      (f.events = .int r.events ∧ Cell.Fits r.events) ∧
      f.value = .int cents ∧ Cell.Fits cents := by
  obtain ⟨_, _, _, _, read, -, -, -, rfl⟩ := ofRow_eq_ok_iff.1 h
  obtain rfl := Except.ok.inj (value.toCents.symm.trans read)
  exact ⟨⟨rfl, fits.1⟩, ⟨rfl, fits.2.1⟩, rfl, fits.2.2.1⟩

theorem sums_of_rows (now : Instant) {cents : TradeRow → Int}
    (twoPlaces : ∀ r ∈ rows, r.value.IsCents (cents r)) :
    Sums (·.amount) (·.amount) now rows ∧ Sums (·.events) (·.events) now rows ∧
      Sums (·.value) cents now rows := by
  have columns (r : TradeRow) (hr : r ∈ rows) (f : DailyFigures) (hf : ofRow now r = .ok f)
      (fits : f.Fits) := columns_of_ofRow hf fits (twoPlaces r hr)
  refine ⟨⟨fun _ _ => rfl, fun r hr f hf fits => ?_⟩, ⟨fun _ _ => rfl, fun r hr f hf fits => ?_⟩,
    ⟨fun _ _ => rfl, fun r hr f hf fits => ?_⟩⟩
  · exact (columns r hr f hf fits).1
  · exact (columns r hr f hf fits).2.1
  · exact (columns r hr f hf fits).2.2

end DailyFigures

namespace Tables

variable {column : DailyFigures → Cell} {count : TradeRow → Int} {rows : List TradeRow}
  {key : TradeKey} {t t' : Tables} {now : Instant} {entries : List (TradeKey × DailyFigures)}

/-- What a column has for a key, zero without a row. -/
def total (t : Tables) (column : DailyFigures → Cell) (key : TradeKey) : Cell :=
  (Keyed.get? key t.daily).elim (.int 0) column

/-- What the rows of a key count, one after the other. -/
def counts (count : TradeRow → Int) (rows : List TradeRow) (key : TradeKey) : List Int :=
  (rows.filter (·.key = key)).map count

/-- A column of `t'` has the integers of `t` with the counts of rows added: exactly if no sum on the
way leaves the integers that fit, and never where the last one does. -/
def AddsTo (t' t : Tables) (column : DailyFigures → Cell) (count : TradeRow → Int)
    (rows : List TradeRow) : Prop :=
  ∀ key n, t.total column key = .int n → Cell.Fits n →
    let added := counts count rows key
    ((∀ part, part <+: added → Cell.Fits (n + part.sum)) →
      t'.total column key = .int (n + added.sum)) ∧
    (t'.total column key = .int (n + added.sum) → Cell.Fits (n + added.sum))

/-- With a single row, the sum is exact just if it fits. -/
theorem AddsTo.iff_of_single (h : t'.AddsTo t column count rows) {r : TradeRow}
    (single : rows.filter (·.key = key) = [r]) {n : Int} (old : t.total column key = .int n)
    (fits : Cell.Fits n) :
    t'.total column key = .int (n + count r) ↔ Cell.Fits (n + count r) := by
  obtain ⟨exact, only⟩ := h key n old fits
  simp only [counts, single, List.map_cons, List.map_nil, List.sum_cons, List.sum_nil,
    Int.add_zero] at exact only
  refine ⟨only, fun sum => exact fun part before => ?_⟩
  obtain rfl | ⟨rest, rfl, none⟩ := List.prefix_cons_iff.1 before
  · simpa using fits
  · obtain rfl := List.prefix_nil.1 none
    simpa using sum

/-- A merge adds to the column of its key; to an absent row as if it were zero. -/
theorem total_mergeFigures
    (merges : ∀ old new, column (old.merge new) = (column old).add (column new))
    {f : DailyFigures} {n : Int} (hf : column f = .int n) (fits : Cell.Fits n) (t : Tables)
    (k : TradeKey) :
    (t.mergeFigures k f).total column key =
      if k = key then (t.total column key).add (.int n) else t.total column key := by
  unfold total mergeFigures
  rw [Keyed.get?_alter]
  split
  · rename_i same
    subst same
    cases Keyed.get? k t.daily with
    | none =>
      -- A first row is written as it is; it fits, so it is what zero and the row add up to.
      simp only [Option.elim_some, Option.elim_none, hf]
      rw [Cell.add_of_fits (by rwa [Int.zero_add]), Int.zero_add]
    | some old => simp only [Option.elim_some, merges, hf]
  · rfl

/-- Rows are added to the column of their keys, one after the other. -/
theorem total_mergeEntries (sums : DailyFigures.Sums column count now rows)
    (hmap : rows.mapM (entryOf now) = .ok entries)
    (hfits : ∀ e ∈ entries, fits e.1 e.2 = true) (t : Tables) (key : TradeKey) :
    (t.mergeEntries entries).total column key =
      (t.total column key).addAll (counts count rows key) := by
  induction rows generalizing entries t with
  | nil =>
    obtain rfl := Outcome.mapM_nil_eq_ok_iff.1 hmap
    rfl
  | cons r rows ih =>
    obtain ⟨⟨k, f⟩, rest, he, hrest, rfl⟩ := Outcome.mapM_cons_eq_ok_iff.1 hmap
    obtain ⟨rfl, hf⟩ := entryOf_eq_ok_iff.1 he
    obtain ⟨first, others⟩ := List.forall_mem_cons.1 hfits
    obtain ⟨own, later⟩ := List.forall_mem_cons.1 sums.counts
    obtain ⟨hcolumn, fit⟩ := own f hf (decide_eq_true_iff.1 first).2.2
    have merged := ih ⟨sums.merges, later⟩ hrest others (t.mergeFigures r.key f)
    rw [total_mergeFigures sums.merges hcolumn fit] at merged
    refine merged.trans ?_
    unfold counts
    rw [List.filter_cons]
    by_cases same : r.key = key
    · simp [same, Cell.addAll_cons]
    · simp [same]

/-- A row of a key that was merged is there. -/
theorem mem_keys_mergeEntries (h : key ∈ t.daily.map (·.1) ∨ key ∈ entries.map (·.1)) :
    key ∈ (t.mergeEntries entries).daily.map (·.1) := by
  induction entries generalizing t with
  | nil =>
    obtain before | merged := h
    · exact before
    · cases merged
  | cons e rest ih =>
    refine ih (t := t.mergeFigures e.1 e.2) ?_
    rw [mergeFigures, Keyed.keys_alter]
    obtain before | merged := h
    · left
      split
      · exact before
      · exact List.mem_append_left _ before
    · obtain rfl | later := List.mem_cons.1 merged
      · left
        split
        · assumption
        · exact List.mem_append_right _ (List.mem_singleton_self _)
      · exact .inr later

theorem addsTo_of_sums (sums : DailyFigures.Sums column count now rows)
    (hmap : rows.mapM (entryOf now) = .ok entries)
    (hfits : ∀ e ∈ entries, fits e.1 e.2 = true) {venue : VenueId} {orders : List Order}
    {unchanged : Bool} :
    ((t.withBook venue now orders unchanged).mergeEntries entries).AddsTo t column count rows := by
  intro key n old fit added
  have before : (t.withBook venue now orders unchanged).total column key = .int n := by
    rw [total, daily_withBook]
    exact old
  rw [total_mergeEntries sums hmap hfits, before]
  exact ⟨Cell.addAll_of_fits, Cell.fits_of_addAll fit⟩

end Tables

namespace Store

variable {s : Store} {fault : Option Nat} {venue : VenueId} {observedAt : Stamp}
  {orders : List Order} {unchanged : Bool} {rows : List TradeRow}

/-- **Sums are exact while they fit,** and only then. A commit of any rows whose values have two
places and at most 28 digits, onto any table and in chunks of any size, fails and leaves the store
as it was, or it succeeds and there is a row for each key. Then amount, events and value of a key
whose stored figures are integers are these with what the rows of the key count added, as long as no
sum leaves the integers of 64 bits; the last sum is not there if it does. A sound database accepts
all rows that can be given to it, whatever the sums are, together with a book that can be taken. -/
theorem sums_of_commit {cents : TradeRow → Int}
    (twoPlaces : ∀ r ∈ rows, r.value.IsCents (cents r)) :
    ((∃ f, s.commitUnder fault venue observedAt orders unchanged rows = (s, .error f)) ∨
      ∃ t t', s.tables = some t ∧
        s.commitUnder fault venue observedAt orders unchanged rows =
          ({ s with tables := some t' }, .ok ()) ∧
        (∀ r ∈ rows, r.key ∈ t'.daily.map (·.1)) ∧
        t'.AddsTo t (·.amount) (·.amount) rows ∧
        t'.AddsTo t (·.events) (·.events) rows ∧
        t'.AddsTo t (·.value) cents rows) ∧
      ∀ t, s.tables = some t → t.Takes s.room venue orders unchanged → 0 < s.chunkSize →
        Bindable venue observedAt rows →
          (s.commit venue observedAt orders unchanged rows).2 = .ok () := by
  have computed (now : Instant) (r : TradeRow) (hr : r ∈ rows) :
      ∃ f, DailyFigures.ofRow now r = .ok f := by
    obtain ⟨x, hx, -⟩ := twoPlaces r hr
    exact DailyFigures.exists_ofRow_of_finite now hx
  refine ⟨?_, fun _ => commit_of_bindable computed⟩
  generalize run : s.commitUnder fault venue observedAt orders unchanged rows = outcome
  obtain ⟨after, f | _⟩ := outcome
  · have kept := commitUnder_error (congrArg Prod.snd run)
    rw [run] at kept
    obtain rfl : after = s := kept
    exact .inl ⟨f, rfl⟩
  · obtain ⟨-, -, -, now, t, entries, -, ht, -, hmap, hfits, rfl⟩ := commitUnder_ok_iff.1 run
    obtain ⟨amount, events, value⟩ := DailyFigures.sums_of_rows now twoPlaces
    refine .inr ⟨t, _, ht, rfl, fun r hr => ?_, Tables.addsTo_of_sums amount hmap hfits,
      Tables.addsTo_of_sums events hmap hfits, Tables.addsTo_of_sums value hmap hfits⟩
    apply Tables.mem_keys_mergeEntries
    rw [Tables.keys_of_entries hmap]
    exact .inr (List.mem_map_of_mem hr)

end Store

namespace Sample

/-- A store with the figures of a single key. -/
def storeOf (figures : DailyFigures) : Store :=
  ⟨some ⟨[], [(key .liberal, figures)]⟩, Store.defaultChunkSize, .standard⟩

/-- A commit of a single row of that key. -/
def commitRow (amount events : Int) (value : Nat) (s : Store) : Store × Except Failure Unit :=
  s.commit venue (.ofInstant now) [] false [row .liberal amount events value]

/-- Five units are added to ten. -/
theorem fifteen_units :
    (∀ r ∈ [row .liberal 5 1 1250], r.value.IsCents 1250) ∧
    ∃ t', commitRow 5 1 1250 (storeOf (figures 10 2 2500)) =
        (⟨some t', Store.defaultChunkSize, .standard⟩, .ok ()) ∧
      t'.total (·.amount) (key .liberal) = .int 15 ∧ t'.total (·.events) (key .liberal) = .int 3 ∧
      t'.total (·.value) (key .liberal) = .int 3750 := by
  have cents : ∀ r ∈ [row .liberal 5 1 1250], r.value.IsCents 1250 := by
    intro r hr
    obtain rfl := List.mem_singleton.1 hr
    exact ⟨_, rfl, rfl, by decide, rfl⟩
  have bindable : Store.Bindable venue (.ofInstant now) [row .liberal 5 1 1250] := by
    refine ⟨rfl, by decide, fun r hr => ?_⟩
    obtain rfl := List.mem_singleton.1 hr
    exact bindable_row (by decide) (by decide) (by decide)
  refine ⟨cents, ?_⟩
  obtain ⟨⟨f, failed⟩ | ⟨t, t', ht, run, -, amount, events, value⟩, succeeds⟩ :=
    @Store.sums_of_commit (storeOf (figures 10 2 2500)) none venue (.ofInstant now) [] false _ _
      cents
  · have takes : Tables.Takes ⟨[], [(key .liberal, figures 10 2 2500)]⟩ .standard venue []
        false := fun _ => ⟨Tables.loads_of_absent rfl _, by simp⟩
    have success := succeeds _ rfl takes (by decide) bindable
    rw [Store.commit, failed] at success
    cases success
  · obtain rfl := Option.some.inj ht
    have single : [row .liberal 5 1 1250].filter (·.key = key .liberal) =
        [row .liberal 5 1 1250] := rfl
    refine ⟨t', run, ?_, ?_, ?_⟩
    · exact (amount.iff_of_single single (n := 10) rfl (by decide)).2 (by decide)
    · exact (events.iff_of_single single (n := 2) rfl (by decide)).2 (by decide)
    · exact (value.iff_of_single single (n := 2500) rfl (by decide)).2 (by decide)

/-- Two are added to the greatest integer of a cell: the commit succeeds, but no column has the
sum. -/
theorem sums_lost :
    let greatest := 9223372036854775807
    ∃ t', commitRow 2 2 2 (storeOf (figures greatest greatest greatest)) =
        (⟨some t', Store.defaultChunkSize, .standard⟩, .ok ()) ∧
      ∀ column ∈ [DailyFigures.amount, DailyFigures.events, DailyFigures.value],
        t'.total column (key .liberal) ≠ .int (greatest + 2) := by
  intro greatest
  refine ⟨_, by with_unfolding_all rfl, ?_⟩
  with_unfolding_all decide

end Sample

end OrderFlow
