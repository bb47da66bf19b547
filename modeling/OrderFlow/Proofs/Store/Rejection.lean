import OrderFlow.Proofs.Store.Daily
import OrderFlow.Proofs.Trade.Estimate

/-!
# Commits that are rejected

Work `FailsBy` a predicate if every failure of it has the predicate, whatever the tables are. All
that a commit does is put together from steps of this kind, behind one that looks at the tables
(`FailsOn`), so that each way in which it can fail is traced to its step: the database fails, an
integer does not fit into a cell or a document, there is no time in UTC, or the book that is stored
cannot be loaded (`Store.rejected_by_database`). Rows of deltas that were inferred from checked
orders can always be computed (`DailyFigures.exists_ofRow_of_finite`), and a sound database takes
all that can be given to it (`Store.commit_of_bindable`).
-/

namespace OrderFlow

namespace Work

variable {α β : Type} {P : Failure → Prop} {f : Failure} {work : Work α} {t : Tables}

/-- Work whose failures on certain tables all have a property. -/
def FailsOn (work : Work α) (t : Tables) (P : Failure → Prop) : Prop :=
  ∀ f, (work.runOn t).1 = .error f → P f

/-- Work whose failures all have a property. -/
def FailsBy (work : Work α) (P : Failure → Prop) : Prop :=
  ∀ t, work.FailsOn t P

theorem failsBy_pure (a : α) : FailsBy (pure a) P := by
  intro t f h
  cases h

theorem failsBy_throw (h : P f) : FailsBy (throw f : Work α) P := by
  intro t g failed
  cases failed
  exact h

theorem failsBy_lift {x : Except Failure α} (h : ∀ f, x = .error f → P f) :
    FailsBy (lift x) P :=
  fun _ f failed => h f failed

theorem failsBy_modify (g : Tables → Tables) : FailsBy (modify g) P := by
  intro t f h
  cases h

theorem failsBy_set (new : Tables) : FailsBy (set new : Work PUnit) P := by
  intro t f h
  cases h

theorem failsBy_require {c : Bool} (h : c = false → P f) : FailsBy (require c f) P := by
  cases c with
  | true => exact failsBy_pure ()
  | false => exact failsBy_throw (h rfl)

/-- The second of two pieces of work matters only after the first one has given its result. -/
theorem FailsOn.bind {next : α → Work β} (first : work.FailsOn t P)
    (second : ∀ a, (next a).FailsBy P) : (work >>= next).FailsOn t P := by
  intro f h
  rw [runOn_bind] at h
  unfold FailsOn at first
  generalize work.runOn t = run at h first
  obtain ⟨g | a, between⟩ := run
  · cases h
    exact first f rfl
  · exact second a between f h

theorem FailsBy.bind {next : α → Work β} (first : work.FailsBy P)
    (second : ∀ a, (next a).FailsBy P) : (work >>= next).FailsBy P :=
  fun t => (first t).bind second

/-- A condition that is required leaves the tables to the work behind it. -/
theorem failsOn_require_bind {c : Bool} {next : Unit → Work β} (h : c = false → P f)
    (second : (next ()).FailsOn t P) : (require c f >>= next).FailsOn t P := by
  cases c with
  | true => exact second
  | false =>
    intro g failed
    cases failed
    exact h rfl

/-- Work that looks at the tables. -/
theorem failsOn_get_bind {next : Tables → Work β} (h : (next t).FailsOn t P) :
    (get >>= next).FailsOn t P :=
  h

theorem isSome_of_strike {fault : Option Nat} (now : (fault != some 0) = false) :
    fault.isSome := by
  cases fault with
  | none => cases now
  | some n => rfl

/-- Statements fail as one of them does, or as the database does if it has a fault. -/
theorem failsBy_execute {works : List (Work Unit)} (h : ∀ work ∈ works, FailsBy work P)
    {fault : Option Nat} (database : fault.isSome → P broken) :
    FailsBy (execute fault works) P := by
  have strike {fault : Option Nat} (database : fault.isSome → P broken) :
      FailsBy (require (fault != some 0) broken) P :=
    failsBy_require fun now => database (isSome_of_strike now)
  induction works generalizing fault with
  | nil => exact strike database
  | cons work works ih =>
    obtain ⟨first, rest⟩ := List.forall_mem_cons.1 h
    refine (strike database).bind fun _ => first.bind fun _ => ih rest ?_
    rwa [Option.isSome_map]

/-- The first statement finds the tables as they are. -/
theorem failsOn_execute_cons {work : Work Unit} {works : List (Work Unit)}
    (first : work.FailsOn t P) (rest : ∀ work ∈ works, FailsBy work P) {fault : Option Nat}
    (database : fault.isSome → P broken) : (execute fault (work :: works)).FailsOn t P := by
  refine failsOn_require_bind (fun now => database (isSome_of_strike now)) ?_
  refine first.bind fun _ => failsBy_execute rest ?_
  rwa [Option.isSome_map]

theorem FailsOn.atomically (h : work.FailsOn t P) (failed : (work.atomically t).2 = .error f) :
    P f := by
  rw [atomically_eq] at failed
  unfold FailsOn at h
  generalize work.runOn t = run at failed h
  obtain ⟨g | a, after⟩ := run
  · cases failed
    exact h f rfl
  · cases failed

end Work

/-- A row whose identifiers and figures fit into cells. -/
structure TradeRow.Bindable (r : TradeRow) : Prop where
  venue : Cell.Fits r.key.venue.val
  item : Cell.Fits r.key.item.val
  amount : Cell.Fits r.amount
  events : Cell.Fits r.events
  value : ∀ cents, toCents r.value = .ok cents → Cell.Fits cents
  high : ∀ cents, toCents (.finite r.high) = .ok cents → Cell.Fits cents
  low : ∀ cents, toCents (.finite r.low) = .ok cents → Cell.Fits cents

namespace DailyFigures

variable {r : TradeRow} {now : Instant} {f : DailyFigures}

/-- The figures of a row whose value is a finite number can be computed. -/
theorem exists_ofRow_of_finite (now : Instant) {x : Decimal} (h : r.value = .finite x) :
    ∃ f, ofRow now r = .ok f := by
  obtain ⟨y, average⟩ := TradeRow.exists_average h
  exact ⟨_, ofRow_eq_ok_iff.2 ⟨_, _, _, y, by rw [h]; rfl, rfl, rfl, average, rfl⟩⟩

theorem fits_of_bindable (hf : ofRow now r = .ok f) (bindable : r.Bindable) :
    Tables.fits r.key f = true := by
  obtain ⟨value, high, low, _, hvalue, hhigh, hlow, -, rfl⟩ := ofRow_eq_ok_iff.1 hf
  exact decide_eq_true ⟨bindable.venue, bindable.item, bindable.amount, bindable.events,
    bindable.value value hvalue, bindable.high high hhigh, bindable.low low hlow⟩

end DailyFigures

namespace Store

/-- What a commit is given has a time in UTC, and all of its integers fit into cells. -/
structure Bindable (venue : VenueId) (observedAt : Stamp) (rows : List TradeRow) : Prop where
  time : observedAt.utc?.isSome
  venue : Cell.Fits venue.val
  rows : ∀ r ∈ rows, r.Bindable

/-- A database that fails: it has no tables, or a fault strikes it. -/
def Broken (s : Store) (fault : Option Nat) : Prop :=
  s.tables = none ∨ fault.isSome

/-- The ways in which a commit can fail: the database fails, an integer of an order has too many
digits for a document, an integer or the time is out of range, there is an obstacle in the book that
is stored, or the store has no chunk size to cut the rows by. -/
inductive Rejection (s : Store) (fault : Option Nat) (venue : VenueId) (observedAt : Stamp)
    (orders : List Order) (rows : List TradeRow) : Failure → Prop
  | database (broken : s.Broken fault) :
      Rejection s fault venue observedAt orders rows (.persistence .transaction)
  | document (illegible : ∃ o ∈ orders, ¬ o.Legible) :
      Rejection s fault venue observedAt orders rows (.persistence .statement)
  | range (unbindable : ¬ Bindable venue observedAt rows) :
      Rejection s fault venue observedAt orders rows .overflow
  | stored {t : Tables} {book : StoredBook} {obstacle : Obstacle} (tables : s.tables = some t)
      (there : t.book? venue = some book)
      (stops : Document.obstacle? book.payload s.room.levels = some obstacle) :
      Rejection s fault venue observedAt orders rows obstacle.failure
  | chunks (none : s.chunkSize ≤ 0) :
      Rejection s fault venue observedAt orders rows (.value (.chunkSize s.chunkSize))

end Store

namespace Tables

open Work

variable {now : Instant} {venue : VenueId} {P : Failure → Prop}

/-- Opening a book fails if its venue does not fit, or as the loading of the book does. -/
theorem failsOn_openBook {t : Tables} {room : Room} {unchanged : Bool}
    (range : ¬ Cell.Fits venue.val → P .overflow)
    (stored : ∀ book f, t.book? venue = some book → book.load room = .error f → P f) :
    (openBook room venue now unchanged).FailsOn t P := by
  refine failsOn_require_bind (fun misfit => range (of_decide_eq_false misfit)) ?_
  refine failsOn_get_bind ?_
  split
  · exact failsBy_set _ t
  · split
    · rename_i book there
      refine failsBy_lift (fun f failed => ?_) t
      exact stored book f there (Outcome.map_eq_error_iff.1 failed)
    · exact failsBy_pure () t

theorem failsBy_replaceBook {orders : List Order} {unchanged : Bool}
    (illegible : (∃ o ∈ orders, ¬ o.Legible) → P (.persistence .statement)) :
    FailsBy (replaceBook venue now orders unchanged) P := by
  intro t
  refine failsOn_get_bind ?_
  split
  · exact failsBy_pure () t
  · refine failsOn_require_bind (fun long => illegible ?_) (failsBy_set _ t)
    simpa using of_decide_eq_false long

theorem exists_entries {rows : List TradeRow}
    (computed : ∀ r ∈ rows, ∃ f, DailyFigures.ofRow now r = .ok f) :
    ∃ entries, rows.mapM (entryOf now) = .ok entries := by
  refine Outcome.exists_mapM fun r hr => ?_
  obtain ⟨f, hf⟩ := computed r hr
  exact ⟨(r.key, f), entryOf_eq_ok_iff.2 ⟨rfl, hf⟩⟩

/-- A statement on rows that can be computed fails only if one of them does not fit. -/
theorem failsBy_mergeRows {rows : List TradeRow}
    (computed : ∀ r ∈ rows, ∃ f, DailyFigures.ofRow now r = .ok f)
    (range : (∃ r ∈ rows, ¬ r.Bindable) → P .overflow) : FailsBy (mergeRows now rows) P := by
  obtain ⟨entries, hentries⟩ := exists_entries computed
  have known : mergeRows now rows = (lift (.ok entries) >>= fun entries => do
      require (entries.all fun e => fits e.1 e.2) .overflow
      modify fun t => entries.foldl (fun t e => t.mergeFigures e.1 e.2) t) := by
    rw [← hentries]
    rfl
  rw [known]
  intro t f failed
  have misfit : (entries.all fun e => fits e.1 e.2) = false → P .overflow := by
    intro h
    obtain ⟨e, he, out⟩ := List.all_eq_false.1 h
    obtain ⟨r, hr, hre⟩ := Outcome.exists_of_mapM hentries he
    obtain ⟨key, hf⟩ := entryOf_eq_ok_iff.1 hre
    refine range ⟨r, hr, fun bindable => out ?_⟩
    rw [key]
    exact DailyFigures.fits_of_bindable hf bindable
  exact (((failsBy_require misfit).bind fun _ => failsBy_modify _) : FailsBy _ P) t f failed

section Commit

variable {s : Store} {fault : Option Nat} {observedAt : Stamp} {orders : List Order}
  {unchanged : Bool} {rows : List TradeRow}

/-- The statements for rows are those of pieces of them. -/
theorem failsBy_rowStatements (computed : ∀ r ∈ rows, ∃ f, DailyFigures.ofRow now r = .ok f) :
    ∀ work ∈ rowStatements s.chunkSize now rows,
      FailsBy work (s.Rejection fault venue observedAt orders rows) := by
  unfold rowStatements chunks
  split
  · rename_i h
    split at h
    · cases h
    · obtain rfl := Except.ok.inj h
      intro work hwork
      obtain ⟨piece, hpiece, rfl⟩ := List.mem_map.1 hwork
      have among (r : TradeRow) (hr : r ∈ piece) : r ∈ rows := by
        rw [← flatten_piecesOf (s.chunkSize.toNat - 1) rows]
        exact List.mem_flatten.2 ⟨piece, hpiece, hr⟩
      exact failsBy_mergeRows (fun r hr => computed r (among r hr)) fun ⟨r, hr, out⟩ =>
        .range fun bindable => out (bindable.rows r (among r hr))
  · rename_i f h
    split at h
    · rename_i none
      obtain rfl := Except.error.inj h
      simpa using failsBy_throw (.chunks none)
    · cases h

/-- The statements of a commit are those for its rows between the two for its book. -/
theorem failsOn_execute_statements {t : Tables} (ht : s.tables = some t)
    (computed : ∀ r ∈ rows, ∃ f, DailyFigures.ofRow now r = .ok f) :
    (execute fault (statements s.room s.chunkSize venue now orders unchanged rows)).FailsOn t
      (s.Rejection fault venue observedAt orders rows) := by
  refine failsOn_execute_cons ?_ ?_ fun strikes => .database (.inr strikes)
  · refine failsOn_openBook (fun misfit => .range (misfit ·.venue)) fun book f there failed => ?_
    obtain ⟨obstacle, stops, rfl⟩ := StoredBook.load_eq_error_iff.1 failed
    exact .stored ht there stops
  · refine List.forall_mem_append.2 ⟨failsBy_rowStatements computed, ?_⟩
    exact List.forall_mem_singleton.2 (failsBy_replaceBook .document)

end Commit

end Tables

/-- A delta that is inferred from books of checked orders. -/
def TradeDelta.Inferred (d : TradeDelta) : Prop :=
  ∃ (before after : List Order) (previousAt nowAt : Stamp) (venue : VenueId) (window : Duration)
    (e : Estimate), (∀ o ∈ before ++ after, o.Validated) ∧
      Estimate.between before after previousAt nowAt venue window = .ok e ∧ d ∈ e.deltas

theorem TradeDelta.Inferred.priced {d : TradeDelta} (h : d.Inferred) : d.Priced := by
  obtain ⟨before, after, previousAt, nowAt, venue, window, e, validated, estimate, mem⟩ := h
  have sound : ∀ o ∈ before, o.Sound := fun o ho =>
    (validated o (List.mem_append_left after ho)).sound
  exact (Estimate.infers_between sound estimate).2.priced d mem

namespace Store

variable {s : Store} {fault : Option Nat} {venue : VenueId} {observedAt : Stamp}
  {orders : List Order} {unchanged : Bool} {rows : List TradeRow} {ds : List TradeDelta}
  {f : Failure}

/-- How a commit of rows that can be computed fails. -/
theorem rejection_of_error (computed : ∀ now, ∀ r ∈ rows, ∃ f, DailyFigures.ofRow now r = .ok f)
    (failed : (s.commitUnder fault venue observedAt orders unchanged rows).2 = .error f) :
    s.Rejection fault venue observedAt orders rows f := by
  cases hnow : observedAt.utc? with
  | none =>
    simp only [commitUnder, hnow] at failed
    obtain rfl := Except.error.inj failed
    refine .range fun bindable => ?_
    have time := bindable.time
    rw [hnow] at time
    cases time
  | some now =>
    cases ht : s.tables with
    | none =>
      simp only [commitUnder, hnow, ht] at failed
      obtain rfl := Except.error.inj failed
      exact .database (.inl ht)
    | some t =>
      rw [commitUnder_eq hnow ht] at failed
      exact (Tables.failsOn_execute_statements ht (computed now)).atomically failed

/-- What a sound database can be given is committed. -/
theorem commit_of_bindable (computed : ∀ now, ∀ r ∈ rows, ∃ f, DailyFigures.ofRow now r = .ok f)
    {t : Tables} (ht : s.tables = some t) (takes : t.Takes s.room venue orders unchanged)
    (positive : 0 < s.chunkSize) (bindable : Bindable venue observedAt rows) :
    (s.commit venue observedAt orders unchanged rows).2 = .ok () := by
  obtain ⟨now, hnow⟩ := Option.isSome_iff_exists.1 bindable.time
  obtain ⟨entries, hentries⟩ : ∃ entries, rows.mapM (Tables.entryOf now) = .ok entries :=
    Tables.exists_entries (computed now)
  have fits : ∀ e ∈ entries, Tables.fits e.1 e.2 = true := by
    intro e he
    obtain ⟨r, hr, hre⟩ := Outcome.exists_of_mapM hentries he
    obtain ⟨key, hf⟩ := Tables.entryOf_eq_ok_iff.1 hre
    rw [key]
    exact DailyFigures.fits_of_bindable hf (bindable.rows r hr)
  rw [commit, commitUnder_ok_iff.2 ⟨bindable.venue, positive, Work.spares_none _, now, t, entries,
    hnow, ht, takes, hentries, fits, rfl⟩]

/-- **A failed commit is a fault of the database,** or there was something that it could not be
given. Whatever the database does, a commit of rows that were inferred from checked orders leaves
the store as it was if it fails. The failure is one of persistence if the time can be told in UTC,
all identifiers and figures fit into cells, the store has a chunk size and the book that is there
can be loaded, and then the database has failed, or an order does not fit into a document. All other
failures are an overflow that one of the former is to blame for, an obstacle in the book, or a chunk
size that is not positive. -/
theorem rejected_by_database (inferred : ∀ d ∈ ds, d.Inferred)
    (failed : (s.commitUnder fault venue observedAt orders unchanged (aggregate ds)).2 = .error f) :
    (s.commitUnder fault venue observedAt orders unchanged (aggregate ds)).1 = s ∧
      s.Rejection fault venue observedAt orders (aggregate ds) f ∧
      (Bindable venue observedAt (aggregate ds) → 0 < s.chunkSize →
        (∀ t, s.tables = some t → t.Loads s.room venue) →
        (f = .persistence .transaction ∧ s.Broken fault) ∨
          (f = .persistence .statement ∧ ∃ o ∈ orders, ¬ o.Legible)) := by
  have rejection : s.Rejection fault venue observedAt orders (aggregate ds) f := by
    refine rejection_of_error (fun now r hr => ?_) failed
    obtain ⟨_, -, holds⟩ := holds_aggregate (fun d hd => (inferred d hd).priced) hr
    obtain ⟨_, -, x, hx, -⟩ := holds.value
    exact DailyFigures.exists_ofRow_of_finite now hx
  refine ⟨commitUnder_error failed, rejection, fun bindable positive loads => ?_⟩
  cases rejection with
  | database broken => exact .inl ⟨rfl, broken⟩
  | document illegible => exact .inr ⟨rfl, illegible⟩
  | range unbindable => exact absurd bindable unbindable
  | stored tables there stops =>
    have none := loads _ tables _ there
    rw [StoredBook.Loads, stops] at none
    cases none
  | chunks none => omega

end Store

namespace Sample

/-- What an order that is filled completely is estimated to have traded. -/
def soldOut (units : Int) : Except Failure Estimate :=
  Estimate.between [order filled units] [order filled 0] (.ofInstant now) (.ofInstant now) venue
    (.minutes 360)

/-- The deltas of ten units that were sold. -/
def tenUnits : List TradeDelta :=
  [Bound.conservative, Bound.liberal].map fun bound =>
    ⟨key bound, 10, 1, ⟨false, 250, -2⟩, by decide⟩

theorem inferred_soldOut {units : Int} (h : 0 ≤ units) {e : Estimate}
    (estimate : soldOut units = .ok e) : ∀ d ∈ e.deltas, d.Inferred := by
  intro d hd
  refine ⟨_, _, _, _, _, _, e, ?_, estimate, hd⟩
  have validated {units : Int} (h : 0 ≤ units) : (order filled units).Validated :=
    ⟨_, check_order h⟩
  simpa using ⟨validated h, validated (Int.le_refl 0)⟩

theorem rows_tenUnits :
    aggregate tenUnits = [row .conservative 10 1 2500, row .liberal 10 1 2500] := by
  rw [aggregate, Tally.rows, List.mergeSort_of_pairwise (by decide)]
  with_unfolding_all rfl

theorem bindable_row {bound : Bound} {amount events : Int} {value : Nat}
    (hamount : Cell.Fits amount) (hevents : Cell.Fits events) (hvalue : Cell.Fits value) :
    (row bound amount events value).Bindable := by
  have cents {n : Nat} (fits : Cell.Fits n) (c : Int)
      (h : toCents (.finite ⟨false, n, -2⟩) = .ok c) : Cell.Fits c := by
    have small : n < 10 ^ 28 := by
      have := fits.2
      omega
    rw [Decimal.toCents_hundredths small] at h
    exact Except.ok.inj h ▸ fits
  exact ⟨(by decide : Cell.Fits 7), (by decide : Cell.Fits 34), hamount, hevents, cents hvalue,
    cents (by decide), cents (by decide)⟩

theorem bindable_tenUnits : Store.Bindable venue (.ofInstant now) (aggregate tenUnits) := by
  refine ⟨rfl, by decide, fun r hr => ?_⟩
  rw [rows_tenUnits] at hr
  obtain rfl | rfl : r = row .conservative 10 1 2500 ∨ r = row .liberal 10 1 2500 := by
    simpa using hr
  · exact bindable_row (by decide) (by decide) (by decide)
  · exact bindable_row (by decide) (by decide) (by decide)

/-- The database fails behind the statement that wrote the book. -/
theorem rows_not_written : ∃ e, soldOut 10 = .ok e ∧
    let run := Store.empty.commitUnder (some 1) venue (.ofInstant now) [order filled 0] false
      (aggregate e.deltas)
    run.1 = .empty ∧ run.2 = .error (.persistence .transaction) := by
  obtain ⟨e, he, deltas⟩ : ∃ e, soldOut 10 = .ok e ∧ e.deltas = tenUnits :=
    ⟨_, by with_unfolding_all rfl, by with_unfolding_all rfl⟩
  obtain ⟨f, failed⟩ : ∃ f, (Store.empty.commitUnder (some 1) venue (.ofInstant now)
      [order filled 0] false (aggregate e.deltas)).2 = .error f := by
    rw [deltas, rows_tenUnits]
    exact ⟨_, by with_unfolding_all rfl⟩
  obtain ⟨kept, -, database⟩ :=
    Store.rejected_by_database (inferred_soldOut (by decide) he) failed
  have bindable := bindable_tenUnits
  rw [← deltas] at bindable
  have loads (t : Tables) (ht : Store.empty.tables = some t) :
      t.Loads Store.empty.room venue := by
    obtain rfl := Option.some.inj ht
    exact Tables.loads_of_absent rfl _
  have legible : ¬ ∃ o ∈ [order filled 0], ¬ o.Legible := by
    decide +kernel
  obtain ⟨rfl, -⟩ | ⟨-, illegible⟩ := database bindable (by decide) loads
  · exact ⟨e, he, kept, failed⟩
  · exact absurd illegible legible

/-- More units than a cell holds can be sold, but their rows cannot be given to the database, which
is no failure of persistence. -/
theorem units_out_of_range : ∃ e, soldOut 9223372036854775808 = .ok e ∧
    (∀ d ∈ e.deltas, d.Inferred) ∧
    (Store.empty.commit venue (.ofInstant now) [order filled 0] false (aggregate e.deltas)).2 =
      .error .overflow := by
  obtain ⟨e, he, overflows⟩ : ∃ e, soldOut 9223372036854775808 = .ok e ∧
      (Store.empty.commit venue (.ofInstant now) [order filled 0] false (aggregate e.deltas)).2 =
        .error .overflow := by
    refine ⟨_, by with_unfolding_all rfl, ?_⟩
    rw [aggregate, Tally.rows, List.mergeSort_of_pairwise (by decide)]
    with_unfolding_all rfl
  exact ⟨e, he, inferred_soldOut (by decide) he, overflows⟩

end Sample

end OrderFlow
