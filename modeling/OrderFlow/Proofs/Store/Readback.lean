import OrderFlow.Proofs.Store.Snapshot
import OrderFlow.Proofs.Value.Document

/-!
# Books that are read back as they were written

A commit that replaces the book of a venue is followed by a snapshot of exactly the orders that were
written, in their order and with none skipped, and its document outlives being written as text
(`Store.commit_reads_back`). Duplicates and negative zeros are kept: the records of orders are read
back one by one (`Order.check_toValue`).
-/

namespace OrderFlow

namespace Document

theorem exact_record (o : Order) : Exact o.toValue := by
  have price : Exact (.ofOption (fun x : Number => .str x.text) o.price) := by
    cases o.price with
    | none => exact .null
    | some x => exact .str _
  have place : Exact (.ofOption .int o.location) := by
    cases o.location with
    | none => exact .null
    | some n => exact .int n
  refine .obj ?_ ?_
  · simp
  · simp only [List.mem_cons, List.not_mem_nil, or_false, forall_eq_or_imp, forall_eq]
    exact ⟨.int _, .int _, .bool _, price, .int _, .int _, .str _, .int _, .int _, .str _, place⟩

theorem exact_documentOf (orders : List Order) : Exact (Tables.documentOf orders) := by
  refine .arr fun v hv => ?_
  obtain ⟨o, ho, rfl⟩ := List.mem_map.1 hv
  exact exact_record o

end Document

namespace StoredBook

variable {book : StoredBook} {room : Room}

/-- Loading a book is reading the text of its document, if the document keeps all of it. -/
theorem load_eq_ok_iff_read (exact : Document.Exact book.payload) {v : Value} :
    book.load room = .ok v ↔ Document.read room (Document.write book.payload) = .ok v := by
  rw [Document.read_write exact, load]
  cases Document.obstacle? book.payload room.levels <;> simp

theorem load_eq_error_iff_read (exact : Document.Exact book.payload) {f : Failure} :
    book.load room = .error f ↔ ∃ obstacle,
      Document.read room (Document.write book.payload) = .error (.stopped obstacle) ∧
        obstacle.failure = f := by
  rw [Document.read_write exact, load]
  cases Document.obstacle? book.payload room.levels <;> simp

end StoredBook

namespace Store

variable {s after : Store} {t : Tables} {venue : VenueId} {observedAt : Stamp} {now : Instant}
  {orders : List Order} {rows : List TradeRow} {fault : Option Nat}

/-- A commit that replaces the book of a venue stores the document of its orders. -/
theorem book?_of_commitUnder (hnow : observedAt.utc? = some now)
    (h : commitUnder fault s venue observedAt orders false rows = (after, .ok ())) :
    ∃ t, after.tables = some t ∧ t.book? venue = some ⟨now, Tables.documentOf orders⟩ := by
  obtain ⟨-, -, -, now', t, entries, hnow', -, -, -, -, rfl⟩ := commitUnder_ok_iff.1 h
  obtain rfl := Option.some.inj (hnow.symm.trans hnow')
  refine ⟨_, rfl, ?_⟩
  rw [Tables.book?, Tables.books_mergeEntries]
  exact (Tables.book?_putBook t venue venue _).trans (if_pos rfl)

/-- A book that is written is read back. A commit of it alone succeeds where the book that it
replaces can be loaded. After every commit of it that succeeds, the snapshot of the venue has its
orders, all of them and as they were, and the document that is stored is what is read from its
text. -/
theorem commit_reads_back (ht : s.tables = some t) (hsize : 0 < s.chunkSize)
    (hvenue : venue.val < 2 ^ 63) (hnow : observedAt.utc? = some now)
    (validated : ∀ o ∈ orders, o.Validated) (legible : ∀ o ∈ orders, o.Legible) :
    (t.Loads s.room venue → ∃ after, s.commit venue observedAt orders false [] = (after, .ok ())) ∧
      ∀ fault rows after, s.commitUnder fault venue observedAt orders false rows = (after, .ok ()) →
        after.snapshot? venue = .ok (some ⟨venue, now, orders, []⟩) ∧
          ∃ t', after.tables = some t' ∧ ∃ book, t'.book? venue = some book ∧
            ∀ room, Document.read room (Document.write book.payload) = .ok book.payload := by
  have fits : Cell.Fits venue.val := by
    constructor <;> omega
  have sound (o : Order) (ho : o ∈ orders) : o.Sound := (validated o ho).sound
  constructor
  · intro loads
    exact ⟨_, commitUnder_ok_iff.2 ⟨fits, hsize, Work.spares_none _, now, t, [], hnow, ht,
      fun _ => ⟨loads, legible⟩, rfl, fun _ h => absurd h List.not_mem_nil, rfl⟩⟩
  · intro fault rows after h
    obtain ⟨t', ht', stored⟩ := book?_of_commitUnder hnow h
    refine ⟨?_, t', ht', _, stored, ?_⟩
    · rw [snapshot?_eq_ok_iff ht', stored]
      exact ⟨fits, _, Snapshot.ofBook_documentOf sound legible _ venue now, rfl⟩
    · intro room
      rw [Document.read_write (Document.exact_documentOf orders),
        show Document.obstacle? _ room.levels = none from
          Snapshot.loads_documentOf legible room now]

end Store

namespace Sample

/-- Two orders of one identifier: one at the price -0.00, issued a microsecond after a full second,
and one with a location, of a range that a document escapes. -/
def oddities : List Order :=
  [{ order filled 10 with
      price := some (.finite ⟨true, 0, -2⟩)
      issued := ⟨1000000000000001, by decide⟩
      duration := -1 },
    { order filled 3 with
      location := some (-60003760)
      range := "\x22\\\n" }]

theorem oddities_read_back : ∃ after,
    Store.empty.commit venue (.ofInstant now) oddities false [] = (after, .ok ()) ∧
      after.snapshot? venue = .ok (some ⟨venue, now, oddities, []⟩) := by
  have validated : ∀ o ∈ oddities, o.Validated := by
    have zero : ∃ p : Price, some (.finite ⟨true, 0, -2⟩) = some p.toNumber :=
      ⟨⟨0, true, by decide, by decide⟩, rfl⟩
    simp only [oddities, List.mem_cons, List.not_mem_nil, or_false, forall_eq_or_imp, forall_eq]
    exact ⟨⟨_, Order.check_toValue ⟨zero, by decide, by decide⟩⟩,
      ⟨_, Order.check_toValue (sound_of_price rfl (by decide) (by decide))⟩⟩
  have legible : ∀ o ∈ oddities, o.Legible := by
    unfold Order.Legible
    decide
  obtain ⟨succeeds, readBack⟩ := Store.commit_reads_back (s := .empty) (t := .empty) rfl
    (by decide) (show venue.val < 2 ^ 63 by decide) (Stamp.utc?_ofInstant now) validated legible
  obtain ⟨after, committed⟩ := succeeds (Tables.loads_of_absent rfl _)
  exact ⟨after, committed, (readBack none [] after committed).1⟩

end Sample

end OrderFlow
