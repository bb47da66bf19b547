import OrderFlow.Proofs.Collector.Step
import OrderFlow.Proofs.Store.Skipping
import OrderFlow.Proofs.Venue.Pages

/-!
# Stores that can be read

Commits and documents of items in range that can be loaded lead from empty tables to `Written`
stores, and passes are commits (`Collector.written_pass`). Every book that is stored there can be
read (`Written.exists_snapshot`).
-/

namespace OrderFlow

namespace Tables

variable {t : Tables} {room : Room} {venue : VenueId} {now : Instant} {orders : List Order}
  {unchanged : Bool}

/-- Tables of which every book can be read. -/
def Readable (t : Tables) (room : Room) : Prop :=
  ∀ venue book, t.book? venue = some book →
    ∃ snapshot, Snapshot.ofBook room venue book = .ok snapshot

theorem Readable.putBook (h : t.Readable room) {book : StoredBook} {snapshot : Snapshot}
    (read : Snapshot.ofBook room venue book = .ok snapshot) :
    (t.putBook venue book).Readable room := by
  intro v stored found
  rw [book?_putBook] at found
  split at found
  · rename_i same
    cases found
    exact ⟨snapshot, same ▸ read⟩
  · exact h v stored found

theorem Readable.touchBook (h : t.Readable room) : (t.touchBook venue now).Readable room := by
  intro v stored found
  rw [book?_touchBook] at found
  obtain ⟨book, before, rfl⟩ := Option.map_eq_some_iff.1 found
  obtain ⟨snapshot, read⟩ := h v book before
  split
  · exact ⟨_, Snapshot.ofBook_at read now⟩
  · exact ⟨snapshot, read⟩

/-- A book that is taken can be read again. -/
theorem Readable.withBook (h : t.Readable room) (takes : t.Takes room venue orders unchanged)
    (now : Instant) (sound : ∀ o ∈ orders, o.Sound) :
    (t.withBook venue now orders unchanged).Readable room := by
  unfold Tables.withBook
  split
  · exact h.touchBook
  · rename_i replaced
    obtain ⟨-, legible⟩ := takes (Bool.eq_false_iff.2 replaced)
    exact h.putBook (Snapshot.ofBook_documentOf sound legible room venue now)

end Tables

namespace Store

variable {s : Store} {venue : VenueId}

/-- The states of a store that writing leads to from empty tables: commits of orders that passed
their check, with any rows and any fault of the database, and documents without an obstacle that
have any items in range, be they orders or not. -/
inductive Written : Store → Prop
  | empty (chunkSize : Int) (room : Room) : Written ⟨some .empty, chunkSize, room⟩
  | commit {s : Store} (h : Written s) (fault : Option Nat) (venue : VenueId) (observedAt : Stamp)
      {orders : List Order} (validated : ∀ o ∈ orders, o.Validated) (unchanged : Bool)
      (rows : List TradeRow) :
      Written (s.commitUnder fault venue observedAt orders unchanged rows).1
  | document {s : Store} (h : Written s) (venue : VenueId) (observedAt : Instant)
      {items : List Value} (inRange : ∀ v ∈ items, Order.InRange v)
      (loads : Document.obstacle? (.arr items) s.room.levels = none) :
      Written (s.putDocument venue observedAt (.arr items)).1

theorem Written.readable (h : s.Written) : ∃ t, s.tables = some t ∧ t.Readable s.room := by
  induction h with
  | empty =>
    refine ⟨.empty, rfl, ?_⟩
    intro venue book found
    cases found
  | @commit s _ fault venue observedAt orders validated unchanged rows ih =>
    obtain ⟨f, failed⟩ | ⟨after, done⟩ :=
      commitUnder_cases fault s venue observedAt orders unchanged rows
    · rwa [failed]
    · rw [done]
      obtain ⟨-, -, -, now, t, entries, -, ht, takes, -, -, rfl⟩ := commitUnder_ok_iff.1 done
      obtain ⟨t₀, ht₀, readable⟩ := ih
      obtain rfl := Option.some.inj (ht.symm.trans ht₀)
      refine ⟨_, rfl, ?_⟩
      have written := readable.withBook takes now fun o ho => (validated o ho).sound
      unfold Tables.Readable Tables.book? at *
      rwa [Tables.books_mergeEntries]
  | @document s _ venue observedAt items inRange loads ih =>
    obtain ⟨t, ht, readable⟩ := ih
    unfold putDocument
    rw [ht]
    by_cases fits : Cell.Fits venue.val
    · simp only [if_pos fits]
      have read : Snapshot.ofBook s.room venue ⟨observedAt, .arr items⟩ =
          .ok ⟨venue, observedAt, Snapshot.ordersIn items, Snapshot.skippedIn items⟩ :=
        Snapshot.ofBook_eq_ok_iff.2 ⟨loads, _, _, rfl, Snapshot.sift_of_inRange inRange, rfl⟩
      exact ⟨_, rfl, readable.putBook read⟩
    · simp only [if_neg fits]
      exact ⟨t, ht, readable⟩

/-- The book of a venue whose identifier fits can be read. -/
theorem Written.exists_snapshot (h : s.Written) (fits : Cell.Fits venue.val) :
    ∃ previous, s.snapshot? venue = .ok previous := by
  obtain ⟨t, ht, readable⟩ := h.readable
  simp only [snapshot?_eq_ok_iff ht]
  cases stored : t.book? venue with
  | none => exact ⟨none, fits, rfl⟩
  | some book =>
    obtain ⟨snapshot, read⟩ := readable venue book stored
    exact ⟨some snapshot, fits, snapshot, read, rfl⟩

end Store

/-- An attempt with a list of orders that passed their check writes at most this list. -/
theorem Attempt.written_on {a : Attempt} {s : Store} (h : s.Written)
    (validated : ∀ orders, a.fetched = .ok orders → ∀ o ∈ orders, o.Validated) :
    (a.on s).1.Written := by
  obtain ⟨f, failed⟩ | ⟨after, report, done⟩ := a.outcome_cases s
  · rwa [failed]
  · obtain ⟨venue, -, absorbed⟩ := on_ok done
    obtain ⟨orders, harvest, fetched, harvested, committed, -⟩ := Store.absorb_ok absorbed
    have own : harvest.orders = orders := (Harvest.eq_of_ok harvested).1
    have written := h.commit (a.fault.bind DatabaseFault.statement?) venue
      (.ofInstant harvest.observedAt) (validated orders fetched) harvest.estimate.unchanged
      harvest.rows
    rw [Harvest.commit, own] at committed
    rwa [committed, ← congrArg Prod.fst done] at written

/-- A pass of a collector leads from a written store to a written store. -/
theorem Collector.written_pass {c : Collector} (h : c.store.Written) (around : Surroundings)
    (r : PassRequest) : (c.pass around r).1.store.Written := by
  rw [(c.pass_eq_attempt around r).1]
  refine Attempt.written_on h fun orders fetched => ?_
  obtain ⟨venue, -, fetched⟩ := Outcome.bind_eq_ok_iff.1 fetched
  exact c.connection.ensures_orders around venue r.forceRefresh _ _ fetched

end OrderFlow
