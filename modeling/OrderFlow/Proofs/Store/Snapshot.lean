import OrderFlow.Proofs.Keyed
import OrderFlow.Proofs.Order.Document
import OrderFlow.Proofs.Order.Volume
import OrderFlow.Proofs.Store.Commit
import OrderFlow.Store.Snapshot

/-!
# Books that are read back

Writing the book of a venue leaves the books of others alone (`Tables.book?_withBook_of_ne`). Tables
`Keep` the last list of a venue if the orders that are read back have its volumes, with a stored
document that need not be of that list: a pass which changes nothing only moves the time of the
book. Writing a list keeps it, from whatever list was kept before (`Store.keeps_withBook`).
-/

namespace OrderFlow

namespace Snapshot

/-- Orders that are read back were accepted by their check. -/
theorem validated_of_sift {vs skipped : List Value} {orders : List Order}
    (h : sift vs = .ok (orders, skipped)) : ∀ o ∈ orders, o.Validated := by
  induction vs generalizing orders skipped with
  | nil =>
    cases h
    simp
  | cons v vs ih =>
    rw [sift] at h
    cases hv : Order.check v with
    | accepted o =>
      rw [hv] at h
      obtain ⟨⟨rest, others⟩, hrest, h⟩ := Outcome.bind_eq_ok_iff.1 h
      cases h
      intro p hp
      rcases List.mem_cons.1 hp with rfl | hp
      · exact ⟨v, hv⟩
      · exact ih hrest p hp
    | refused issues =>
      rw [hv] at h
      obtain ⟨⟨rest, others⟩, hrest, h⟩ := Outcome.bind_eq_ok_iff.1 h
      cases h
      exact ih hrest
    | aborted cause =>
      rw [hv] at h
      cases h

/-- Sound orders are all read back from their records. -/
theorem sift_toValue {orders : List Order} (sound : ∀ o ∈ orders, o.Sound) :
    sift (orders.map Order.toValue) = .ok (orders, []) := by
  induction orders with
  | nil => rfl
  | cons o orders ih =>
    rw [List.map_cons, sift, Order.check_toValue (sound o List.mem_cons_self),
      ih fun p hp => sound p (List.mem_cons_of_mem _ hp)]
    rfl

/-- The document of legible orders can be loaded. -/
theorem loads_documentOf {orders : List Order} (legible : ∀ o ∈ orders, o.Legible) (room : Room)
    (time : Instant) : (StoredBook.mk time (Tables.documentOf orders)).Loads room := by
  -- the list takes one level and its records another one, for which there always is room
  obtain ⟨levels, more⟩ := Nat.exists_eq_add_of_le' room.enough
  rw [StoredBook.Loads, more]
  show Document.itemsObstacle? (orders.map Order.toValue) (levels + 1) = none
  induction orders with
  | nil => rfl
  | cons o orders ih =>
    obtain ⟨first, rest⟩ := List.forall_mem_cons.1 legible
    rw [List.map_cons, Document.itemsObstacle?, Order.obstacle?_toValue first, Option.none_or]
    exact ih rest

theorem ofBook_eq_ok_iff {room : Room} {venue : VenueId} {book : StoredBook}
    {snapshot : Snapshot} : ofBook room venue book = .ok snapshot ↔ book.Loads room ∧
      ∃ items read, itemsOf book.payload = .ok items ∧ sift items = .ok read ∧
        ⟨venue, book.observedAt, read.1, read.2⟩ = snapshot := by
  unfold ofBook
  simp only [Outcome.bind_eq_ok_iff, Outcome.pure_eq_ok_iff, StoredBook.load_eq_ok_iff]
  constructor
  · rintro ⟨_, ⟨loads, rfl⟩, items, hitems, read, hread, same⟩
    exact ⟨loads, items, read, hitems, hread, same⟩
  · rintro ⟨loads, items, read, hitems, hread, same⟩
    exact ⟨_, ⟨loads, rfl⟩, items, hitems, read, hread, same⟩

theorem ofBook_documentOf {orders : List Order} (sound : ∀ o ∈ orders, o.Sound)
    (legible : ∀ o ∈ orders, o.Legible) (room : Room) (venue : VenueId) (time : Instant) :
    ofBook room venue ⟨time, Tables.documentOf orders⟩ = .ok ⟨venue, time, orders, []⟩ :=
  ofBook_eq_ok_iff.2 ⟨loads_documentOf legible room time, _, _, rfl, sift_toValue sound, rfl⟩

/-- The time of a stored book is that of its snapshot, and nothing else. -/
theorem ofBook_at {room : Room} {venue : VenueId} {book : StoredBook} {snapshot : Snapshot}
    (h : ofBook room venue book = .ok snapshot) (now : Instant) :
    ofBook room venue { book with observedAt := now } =
      .ok { snapshot with observedAt := now } := by
  obtain ⟨loads, items, read, hitems, hread, rfl⟩ := ofBook_eq_ok_iff.1 h
  exact ofBook_eq_ok_iff.2 ⟨loads, items, read, hitems, hread, rfl⟩

end Snapshot

namespace Store

variable {s : Store} {t : Tables} {venue : VenueId} {previous : Option Snapshot}

/-- The orders of a loaded snapshot, none if there is no book. -/
def previousOrders (previous : Option Snapshot) : List Order :=
  (previous.map (·.orders)).getD []

theorem snapshot?_eq_ok_iff (ht : s.tables = some t) :
    s.snapshot? venue = .ok previous ↔ Cell.Fits venue.val ∧
      match t.book? venue with
      | none => previous = none
      | some book => ∃ snapshot, Snapshot.ofBook s.room venue book = .ok snapshot ∧
          previous = some snapshot := by
  unfold snapshot? reading
  rw [ht]
  simp only [bind, Except.bind]
  by_cases hv : Cell.Fits venue.val
  · rw [if_neg (not_not_intro hv)]
    cases t.book? venue with
    | none => simp [hv, eq_comm, pure, Except.pure]
    | some book =>
      cases hbook : Snapshot.ofBook s.room venue book with
      | error f => simp [hbook]
      | ok snapshot => simp [hv, hbook, eq_comm, pure, Except.pure]
  · rw [if_pos hv]
    simp [hv, throw, throwThe, MonadExceptOf.throw]

/-- A book is only read of tables that are there, for a venue whose identifier fits. -/
theorem tables_of_snapshot (h : s.snapshot? venue = .ok previous) :
    ∃ t, s.tables = some t ∧ Cell.Fits venue.val := by
  cases ht : s.tables with
  | none =>
    unfold snapshot? reading at h
    rw [ht] at h
    cases h
  | some t => exact ⟨t, rfl, ((snapshot?_eq_ok_iff ht).1 h).1⟩

/-- The orders of a stored book were accepted by their check, each one again. -/
theorem validated_of_snapshot {s : Store} (h : s.snapshot? venue = .ok previous) :
    ∀ o ∈ previousOrders previous, o.Validated := by
  obtain ⟨t, ht, -⟩ := tables_of_snapshot h
  obtain ⟨-, h⟩ := (snapshot?_eq_ok_iff ht).1 h
  cases hbook : t.book? venue with
  | none =>
    rw [hbook] at h
    obtain rfl := h
    simp [previousOrders]
  | some book =>
    rw [hbook] at h
    obtain ⟨snapshot, hsnapshot, rfl⟩ := h
    obtain ⟨-, items, ⟨orders, skipped⟩, -, sifted, rfl⟩ := Snapshot.ofBook_eq_ok_iff.1 hsnapshot
    exact Snapshot.validated_of_sift sifted

end Store

namespace Tables

variable {t t' : Tables} {venue v : VenueId} {now : Instant} {orders : List Order}
  {unchanged : Bool} {last : Option (List Order)}

theorem book?_putBook (t : Tables) (venue v : VenueId) (book : StoredBook) :
    (t.putBook venue book).book? v = if venue = v then some book else t.book? v :=
  Keyed.get?_alter venue v _ t.books

theorem book?_withBook_of_ne (h : v ≠ venue) :
    (t.withBook venue now orders unchanged).book? v = t.book? v := by
  unfold withBook
  split
  · simp [book?_touchBook, h]
  · rw [book?_putBook, if_neg (Ne.symm h)]

theorem isSome_book?_withBook (t : Tables) (venue v : VenueId) (now : Instant)
    (orders : List Order) (unchanged : Bool) :
    ((t.withBook venue now orders unchanged).book? v).isSome ↔ v = venue ∨ (t.book? v).isSome := by
  by_cases h : v = venue
  · subst h
    simp only [true_or, iff_true]
    unfold withBook
    split
    · rename_i present
      rw [book?_touchBook, Option.isSome_map]
      exact (Bool.and_eq_true_iff.1 present).2
    · rw [book?_putBook, if_pos rfl]
      rfl
  · rw [book?_withBook_of_ne h]
    simp [h]

/-- Whichever book a pass of legible orders leaves behind, it can be loaded again. -/
theorem Loads.withBook {room : Room} (h : t.Loads room v) (legible : ∀ o ∈ orders, o.Legible)
    (venue : VenueId) (now : Instant) (unchanged : Bool) :
    (t.withBook venue now orders unchanged).Loads room v := by
  intro book there
  unfold Tables.withBook at there
  split at there
  · rw [book?_touchBook] at there
    obtain ⟨old, stored, rfl⟩ := Option.map_eq_some_iff.1 there
    have loads := h old stored
    split
    · exact loads
    · exact loads
  · rw [book?_putBook] at there
    split at there
    · exact Option.some.inj there ▸ Snapshot.loads_documentOf legible room now
    · exact h book there

/-- The list of a venue that was written last, as the tables have it: there is no book if there is
no list, and otherwise the document of a list with the same volumes. -/
inductive Keeps (t : Tables) (venue : VenueId) : Option (List Order) → Prop
  | nothing (absent : t.book? venue = none) : Keeps t venue none
  | list {orders kept : List Order} {time : Instant}
      (stored : t.book? venue = some ⟨time, documentOf kept⟩) (sound : ∀ o ∈ kept, o.Sound)
      (same : Volume.Same kept orders) : Keeps t venue (some orders)

theorem Keeps.congr (h : t.Keeps venue last) (same : t'.book? venue = t.book? venue) :
    t'.Keeps venue last := by
  cases h with
  | nothing absent => exact .nothing (same.trans absent)
  | list stored sound volumes => exact .list (same.trans stored) sound volumes

end Tables

namespace Store

variable {s : Store} {t : Tables} {venue : VenueId} {previous : Option Snapshot}
  {last : Option (List Order)} {orders kept : List Order} {time now : Instant}

/-- A list that is stored is read back. -/
theorem previousOrders_of_stored (ht : s.tables = some t) (h : s.snapshot? venue = .ok previous)
    (stored : t.book? venue = some ⟨time, Tables.documentOf kept⟩) (sound : ∀ o ∈ kept, o.Sound) :
    previousOrders previous = kept := by
  obtain ⟨-, h⟩ := (snapshot?_eq_ok_iff ht).1 h
  rw [stored] at h
  obtain ⟨snapshot, read, rfl⟩ := h
  obtain ⟨-, items, sifted, hitems, hsifted, rfl⟩ := Snapshot.ofBook_eq_ok_iff.1 read
  obtain rfl := Except.ok.inj hitems
  obtain rfl := Except.ok.inj ((Snapshot.sift_toValue sound).symm.trans hsifted)
  rfl

theorem previousOrders_of_absent (ht : s.tables = some t) (h : s.snapshot? venue = .ok previous)
    (absent : t.book? venue = none) : previousOrders previous = [] := by
  obtain ⟨-, h⟩ := (snapshot?_eq_ok_iff ht).1 h
  rw [absent] at h
  rw [h]
  rfl

/-- What is read back has the volumes of the list that was written last. -/
theorem same_previousOrders (ht : s.tables = some t) (h : s.snapshot? venue = .ok previous)
    (keeps : t.Keeps venue last) : Volume.Same (previousOrders previous) (last.getD []) := by
  cases keeps with
  | nothing absent =>
    rw [previousOrders_of_absent ht h absent]
    exact fun _ => rfl
  | list stored sound same => rwa [previousOrders_of_stored ht h stored sound]

/-- A list that is written is kept, be it as a document or by the one that is there already. -/
theorem keeps_withBook (ht : s.tables = some t) (h : s.snapshot? venue = .ok previous)
    (keeps : t.Keeps venue last) (sound : ∀ o ∈ orders, o.Sound) :
    (t.withBook venue now orders
      (Book.unchanged (.ofOrders (previousOrders previous)) (.ofOrders orders))).Keeps venue
        (some orders) := by
  unfold Tables.withBook
  split
  · rename_i touched
    obtain ⟨unchanged, present⟩ := Bool.and_eq_true_iff.1 touched
    cases keeps with
    | nothing absent =>
      rw [absent] at present
      cases present
    | list stored soundKept =>
      rw [previousOrders_of_stored ht h stored soundKept] at unchanged
      have there := Tables.book?_touchBook t venue venue now
      rw [stored, Option.map_some, if_pos rfl] at there
      exact .list there soundKept (Volume.same_of_unchanged unchanged)
  · have written := Tables.book?_putBook t venue venue ⟨now, Tables.documentOf orders⟩
    rw [if_pos rfl] at written
    exact .list written sound fun _ => rfl

end Store

namespace Sample

/-- A store with a list as the book of the venue. -/
def stored (orders : List Order) (daily : Keyed TradeKey DailyFigures) : Store :=
  ⟨some ⟨[(venue, ⟨now, Tables.documentOf orders⟩)], daily⟩, Store.defaultChunkSize, .standard⟩

end Sample

end OrderFlow
