import OrderFlow.Proofs.Collector.Conservation
import OrderFlow.Proofs.Collector.Step
import OrderFlow.Proofs.Trade.Agreement

/-!
# Passes that keep the stored document

A pass that finds the book unchanged keeps the document that is stored and only moves its time. The
orders of the document are in the state of those that were fetched, but on the terms of an earlier
list. Later passes infer the same trades as if the fetched orders had been written on these terms,
or on their own terms as long as the orders that vanish have the same ones (`fast_path_agrees`).
An order that was renewed in between and vanishes is judged by when it was due to expire before
(`renewal_unseen`).
-/

namespace OrderFlow

namespace Order

/-- An order on the terms of the order of the same identifier in a book. -/
def onTermsOf (book : Book) (o : Order) : Order :=
  match book.find? o.id with
  | some p => { o with issued := p.issued, duration := p.duration }
  | none => o

variable (book : Book) (o : Order)

@[simp] theorem id_onTermsOf : (o.onTermsOf book).id = o.id := by
  unfold onTermsOf
  split <;> rfl

theorem sameState_onTermsOf (p : Order) : p.sameState (o.onTermsOf book) = p.sameState o := by
  unfold onTermsOf
  split <;> rfl

theorem Sound.onTermsOf {o : Order} (h : o.Sound) : (o.onTermsOf book).Sound := by
  unfold Order.onTermsOf
  split
  · exact ⟨h.price, h.remaining, h.total⟩
  · exact h

theorem sameTerms_onTermsOf {book : Book} {o p : Order} (h : book.find? o.id = some p) :
    p.SameTerms (o.onTermsOf book) := by
  rw [onTermsOf, h]
  exact ⟨rfl, rfl⟩

end Order

namespace Book

variable {f : Order → Order}

/-- The book of orders that keep their identifiers. -/
theorem ofOrders_map (h : ∀ o, (f o).id = o.id) (orders : List Order) :
    ofOrders (orders.map f) = (ofOrders orders).map f := by
  have one (book : Book) (o : Order) : Book.put (f o) (book.map f) = (book.put o).map f := by
    induction book with
    | nil => rfl
    | cons p rest ih =>
      rw [List.map_cons, put, put, h, h]
      by_cases same : p.id = o.id
      · rw [if_pos same, if_pos same, List.map_cons]
      · rw [if_neg same, if_neg same, List.map_cons, ih]
  have each (orders : List Order) (book : Book) :
      (orders.map f).foldl (fun book o => Book.put o book) (book.map f) =
        (orders.foldl (fun book o => Book.put o book) book).map f := by
    induction orders generalizing book with
    | nil => rfl
    | cons o orders ih => rw [List.map_cons, List.foldl_cons, one, ih, List.foldl_cons]
  exact each orders []

theorem find?_map (h : ∀ o, (f o).id = o.id) (book : Book) (id : OrderId) :
    Book.find? (book.map f) id = (book.find? id).map f := by
  unfold Book.find?
  rw [List.find?_map]
  congr 2
  funext o
  simp [h]

/-- A book stays alike as orders change their terms. -/
theorem Alike.onTermsOf {kept : Book} {fetched : List Order} (h : Alike kept (ofOrders fetched)) :
    Alike kept (ofOrders (fetched.map (Order.onTermsOf kept))) := by
  intro id
  rw [ofOrders_map (Order.id_onTermsOf kept), find?_map (Order.id_onTermsOf kept)]
  obtain ⟨ha, hb⟩ | ⟨a, b, ha, hb, state⟩ := h.cases id
  · rw [ha, hb]
    exact .none
  · rw [ha, hb]
    exact .some ((Order.sameState_onTermsOf kept b a).trans state)

end Book

namespace Store

variable {s : Store} {t : Tables} {venue : VenueId}

/-- A book that is written with the document of sound and legible orders has these orders. -/
theorem snapshot?_putBook (fits : Cell.Fits venue.val) {orders : List Order}
    (sound : ∀ o ∈ orders, o.Sound) (legible : ∀ o ∈ orders, o.Legible) (time : Instant) :
    ({ s with tables := some (t.putBook venue ⟨time, Tables.documentOf orders⟩) } : Store).snapshot?
      venue = .ok (some ⟨venue, time, orders, []⟩) := by
  rw [snapshot?_eq_ok_iff rfl, Tables.book?_putBook, if_pos rfl]
  exact ⟨fits, _, Snapshot.ofBook_documentOf sound legible s.room venue time, rfl⟩

/-- A document of sound and legible orders is read back where it is put in the place of one that can
be read. -/
theorem snapshot?_putDocument {kept : Snapshot} (loaded : s.snapshot? venue = .ok (some kept))
    {orders : List Order} (sound : ∀ o ∈ orders, o.Sound) (legible : ∀ o ∈ orders, o.Legible)
    (time : Instant) : (s.putDocument venue time (Tables.documentOf orders)).1.snapshot? venue =
      .ok (some ⟨venue, time, orders, []⟩) := by
  obtain ⟨t, ht, fits⟩ := tables_of_snapshot loaded
  have written : (s.putDocument venue time (Tables.documentOf orders)).1 =
      { s with tables := some (t.putBook venue ⟨time, Tables.documentOf orders⟩) } := by
    rw [putDocument, ht]
    simp only [if_pos fits]
  rw [written]
  exact snapshot?_putBook fits sound legible time

/-- Two stores from which a pass of a venue infers the same from the list that it fetches. -/
def InferAlike (s s' : Store) (venue : VenueId) (settings : Settings) (later : List Order)
    (observedAt : Stamp) : Prop :=
  Outcome.Agrees (fun h h' => h.estimate.Agrees h'.estimate)
    (Harvest.of settings (s.snapshot? venue) venue later observedAt)
    (Harvest.of settings (s'.snapshot? venue) venue later observedAt)

/-- Snapshots that were observed at the same time agree if their books do. -/
theorem harvest_agrees {kept other : Snapshot} (time : kept.observedAt = other.observedAt)
    (alike : Book.Alike (.ofOrders kept.orders) (.ofOrders other.orders))
    (sound : ∀ o ∈ kept.orders, o.Sound) (sound' : ∀ o ∈ other.orders, o.Sound)
    {later : List Order} (soundLater : ∀ o ∈ later, o.Sound)
    (terms : ∀ a ∈ Book.gone (.ofOrders kept.orders) (.ofOrders later),
      ∀ b ∈ Book.ofOrders other.orders, a.id = b.id → a.SameTerms b)
    (venue : VenueId) (settings : Settings) (observedAt : Stamp) :
    Outcome.Agrees (fun h h' => h.estimate.Agrees h'.estimate)
      (Harvest.of settings (.ok (some kept)) venue later observedAt)
      (Harvest.of settings (.ok (some other)) venue later observedAt) := by
  unfold Harvest.of
  cases observedAt.utc? with
  | none => exact .error _
  | some now =>
    cases settings.expiryWindow with
    | error f => exact .error _
    | ok window =>
      simp only [bind, Except.bind, Option.map_some, Option.getD_some, ← time]
      have agrees := Estimate.between_agrees alike sound sound' soundLater terms venue window
        kept.observedAt now
      generalize Estimate.between kept.orders later (.ofInstant kept.observedAt) (.ofInstant now)
        venue window = x, Estimate.between other.orders later (.ofInstant kept.observedAt)
        (.ofInstant now) venue window = y at agrees
      cases agrees with
      | ok related => exact .ok related
      | error e => exact .error e

/-- A snapshot depends on the books and the room for reading them only. -/
theorem snapshot?_congr {s' : Store} {t' : Tables} (ht : s.tables = some t)
    (ht' : s'.tables = some t') (room : s'.room = s.room) (books : t'.books = t.books) :
    s'.snapshot? venue = s.snapshot? venue := by
  unfold snapshot? reading
  rw [ht, ht']
  simp only [bind, Except.bind, Tables.book?, room, books]

/-- A book that is only moved in time has the same orders. -/
theorem snapshot?_touchBook {previous : Snapshot} (ht : s.tables = some t)
    (h : s.snapshot? venue = .ok (some previous)) (now : Instant) :
    ({ s with tables := some (t.touchBook venue now) } : Store).snapshot? venue =
      .ok (some { previous with observedAt := now }) := by
  obtain ⟨fits, h⟩ := (snapshot?_eq_ok_iff ht).1 h
  rw [snapshot?_eq_ok_iff rfl, Tables.book?_touchBook]
  cases stored : t.book? venue with
  | none =>
    rw [stored] at h
    cases h
  | some book =>
    rw [stored] at h
    obtain ⟨_, read, same⟩ := h
    obtain rfl := Option.some.inj same
    rw [Option.map_some, if_pos rfl]
    exact ⟨fits, _, Snapshot.ofBook_at read now, rfl⟩

/-- A stored document and one of an alike list that is written in its place lead to the same. -/
theorem inferAlike_putDocument {kept : Snapshot} (loaded : s.snapshot? venue = .ok (some kept))
    (sound : ∀ o ∈ kept.orders, o.Sound) {orders later : List Order}
    (soundOrders : ∀ o ∈ orders, o.Sound) (legible : ∀ o ∈ orders, o.Legible)
    (soundLater : ∀ o ∈ later, o.Sound)
    (alike : Book.Alike (.ofOrders kept.orders) (.ofOrders orders))
    (terms : ∀ a ∈ Book.gone (.ofOrders kept.orders) (.ofOrders later),
      ∀ b ∈ Book.ofOrders orders, a.id = b.id → a.SameTerms b)
    (settings : Settings) (observedAt : Stamp) :
    s.InferAlike (s.putDocument venue kept.observedAt (Tables.documentOf orders)).1 venue settings
      later observedAt := by
  rw [InferAlike, loaded, snapshot?_putDocument loaded soundOrders legible]
  have time : kept.observedAt = Snapshot.observedAt ⟨venue, kept.observedAt, orders, []⟩ := rfl
  exact harvest_agrees time alike sound soundOrders soundLater terms venue settings observedAt

end Store

namespace Attempt

variable {a : Attempt} {s after : Store} {report : PassReport} {venue : VenueId}
  {fetched : List Order}

/-- After a pass that finds the book unchanged, the orders that are stored are in the state of those
that it fetched. -/
theorem alike_of_unchanged (pass : a.on s = (after, .ok report))
    (unchanged : report.unchanged = true) (hv : a.venue = .ok venue) (hf : a.fetched = .ok fetched)
    (sound : ∀ o ∈ fetched, o.Sound) :
    ∃ kept, after.snapshot? venue = .ok (some kept) ∧ (∀ o ∈ kept.orders, o.Sound) ∧
      Book.Alike (.ofOrders kept.orders) (.ofOrders fetched) := by
  obtain ⟨venue', hv', absorbed⟩ := on_ok pass
  obtain rfl := Except.ok.inj (hv.symm.trans hv')
  obtain ⟨orders, harvest, hf', hharvest, hcommit, rfl⟩ := Store.absorb_ok absorbed
  obtain rfl := Except.ok.inj (hf.symm.trans hf')
  obtain ⟨horders, previous, hprevious, _, _, _, hestimate⟩ := Harvest.eq_of_ok hharvest
  have soundPrevious : ∀ o ∈ Store.previousOrders previous, o.Sound := fun o ho =>
    (Store.validated_of_snapshot hprevious o ho).sound
  obtain ⟨same, infers⟩ := Estimate.infers_between soundPrevious hestimate
  have unchanged : harvest.estimate.unchanged = true := unchanged
  rw [Harvest.commit, Harvest.rows, horders, unchanged] at hcommit
  rw [unchanged] at same
  obtain ⟨now, t, t', -, ht, rfl, books, -⟩ := Store.commit_adds infers.priced hcommit
  have takes := Store.takes_of_commitUnder ht hcommit
  obtain ⟨fits, stored⟩ := (Store.snapshot?_eq_ok_iff ht).1 hprevious
  have read : ({ s with tables := some t' } : Store).snapshot? venue =
      ({ s with tables := some (t.withBook venue now fetched true) } : Store).snapshot? venue :=
    Store.snapshot?_congr rfl rfl rfl books
  rw [read]
  -- a first pass writes what it fetched even if that is nothing, a later one moves the time
  cases hbook : t.book? venue with
  | none =>
    have written : t.withBook venue now fetched true =
        t.putBook venue ⟨now, Tables.documentOf fetched⟩ := by
      rw [Tables.withBook, Tables.keepsBook, hbook]
      rfl
    have legible : ∀ o ∈ fetched, o.Legible := by
      refine (takes ?_).2
      rw [Tables.keepsBook, hbook]
      rfl
    refine ⟨⟨venue, now, fetched, []⟩, ?_, sound, Book.Alike.refl fun o ho =>
      sound o (Book.mem_of_mem_ofOrders ho)⟩
    rw [written]
    exact Store.snapshot?_putBook fits sound legible now
  | some book =>
    rw [hbook] at stored
    obtain ⟨snapshot, -, rfl⟩ := stored
    have touched : t.withBook venue now fetched true = t.touchBook venue now := by
      rw [Tables.withBook, Tables.keepsBook, hbook]
      rfl
    rw [touched]
    exact ⟨_, Store.snapshot?_touchBook ht hprevious now, soundPrevious,
      Book.alike_of_unchanged same.symm⟩

/-- **The stored document stands for the one that was not written.** After a pass that finds the
book unchanged, another document may be put in the place of the stored one, and is then what later
passes compare with. Every later pass infers the same trades, whatever it fetches and whenever, as
if the fetched orders had been written on the terms of the stored ones. If the stored orders that
are gone from the later list have the terms of the fetched ones, it infers the same as if these had
been written as they are. Only legible orders can be written. -/
theorem fast_path_agrees (pass : a.on s = (after, .ok report)) (unchanged : report.unchanged = true)
    (hv : a.venue = .ok venue) (hf : a.fetched = .ok fetched)
    (validated : ∀ o ∈ fetched, o.Validated) :
    ∃ kept, after.snapshot? venue = .ok (some kept) ∧
      (∀ orders : List Order, (∀ o ∈ orders, o.Sound) → (∀ o ∈ orders, o.Legible) →
        (after.putDocument venue kept.observedAt (Tables.documentOf orders)).1.snapshot? venue =
          .ok (some ⟨venue, kept.observedAt, orders, []⟩)) ∧
      ∀ (settings : Settings) (later : List Order) (observedAt : Stamp),
        (∀ o ∈ later, o.Validated) →
        ((∀ o ∈ fetched.map (Order.onTermsOf (.ofOrders kept.orders)), o.Legible) →
          after.InferAlike (after.putDocument venue kept.observedAt (Tables.documentOf
            (fetched.map (Order.onTermsOf (.ofOrders kept.orders))))).1
            venue settings later observedAt) ∧
        ((∀ o ∈ fetched, o.Legible) → (∀ p ∈ Book.gone (.ofOrders kept.orders) (.ofOrders later),
            ∀ o ∈ Book.ofOrders fetched, p.id = o.id → p.SameTerms o) →
          after.InferAlike
            (after.putDocument venue kept.observedAt (Tables.documentOf fetched)).1
            venue settings later observedAt) := by
  have sound : ∀ o ∈ fetched, o.Sound := fun o ho => (validated o ho).sound
  obtain ⟨kept, loaded, soundKept, alike⟩ := alike_of_unchanged pass unchanged hv hf sound
  refine ⟨kept, loaded, fun orders soundOrders legible =>
    Store.snapshot?_putDocument loaded soundOrders legible _,
    fun settings later observedAt validatedLater => ?_⟩
  have soundLater : ∀ o ∈ later, o.Sound := fun o ho => (validatedLater o ho).sound
  constructor
  · intro legible
    have soundRenewed : ∀ o ∈ fetched.map (Order.onTermsOf (.ofOrders kept.orders)), o.Sound := by
      intro o ho
      obtain ⟨q, hq, rfl⟩ := List.mem_map.1 ho
      exact (sound q hq).onTermsOf _
    refine Store.inferAlike_putDocument loaded soundKept soundRenewed legible soundLater
      alike.onTermsOf ?_ settings observedAt
    intro p hp o ho same
    rw [Book.ofOrders_map (Order.id_onTermsOf _)] at ho
    obtain ⟨q, -, rfl⟩ := List.mem_map.1 ho
    rw [Order.id_onTermsOf] at same
    have found := Book.find?_of_mem (Book.nodup_ids_ofOrders _) (List.mem_filter.1 hp).1
    exact Order.sameTerms_onTermsOf (same ▸ found)
  · intro legible terms
    exact Store.inferAlike_putDocument loaded soundKept sound legible soundLater alike terms
      settings observedAt

end Attempt

namespace Sample

/-- An order that was issued ninety days before. -/
def old : Order :=
  { order filled 10 with issued := ⟨now.micros - 90 * dayMicros, by decide⟩ }

/-- The same order, renewed. -/
def renewed : Order :=
  order filled 10

theorem on_old : (attempt [old]).on .empty =
    (stored [old] [], .ok ⟨.ofInstant now, 1, 0, false, false⟩) := by
  with_unfolding_all rfl

theorem read_old : (stored [old] []).snapshot? venue = .ok (some ⟨venue, now, [old], []⟩) := by
  have sound : ∀ o ∈ [old], o.Sound :=
    List.forall_mem_singleton.2 (sound_of_price rfl (by decide) (by decide))
  have legible : ∀ o ∈ [old], o.Legible := by
    decide +kernel
  rw [Store.snapshot?_eq_ok_iff rfl]
  exact ⟨by decide, _, Snapshot.ofBook_documentOf sound legible _ venue now, rfl⟩

/-- The renewed order is not seen as a change. -/
theorem on_renewed : (attempt [renewed]).on (stored [old] []) =
    (stored [old] [], .ok ⟨.ofInstant now, 1, 0, true, true⟩) := by
  have loaded : (stored [old] []).load none venue = .ok (some ⟨venue, now, [old], []⟩) := read_old
  have absorbed : (attempt [renewed]).on (stored [old] []) = (stored [old] []).absorb settings none
      venue (.ofInstant now) (.ok [renewed]) := by
    with_unfolding_all rfl
  rw [absorbed, Store.absorb]
  simp only [Except.bind, loaded]
  with_unfolding_all rfl

theorem sound_renewed : ∀ o ∈ [renewed], o.Sound :=
  List.forall_mem_singleton.2 (sound_of_price rfl (by decide) (by decide))

/-- The document that is stored leads to what a document of the renewed order on the old terms would
lead to. -/
theorem renewed_on_old_terms : ∃ kept, (stored [old] []).snapshot? venue = .ok (some kept) ∧
    (stored [old] []).InferAlike ((stored [old] []).putDocument venue kept.observedAt
      (Tables.documentOf ([renewed].map (Order.onTermsOf (.ofOrders kept.orders))))).1
      venue settings [] (.ofInstant now) := by
  have validated : ∀ o ∈ [renewed], o.Validated := fun o ho =>
    ⟨_, Order.check_toValue (sound_renewed o ho)⟩
  obtain ⟨kept, loaded, -, agrees⟩ := Attempt.fast_path_agrees on_renewed rfl
    (venue_attempt [renewed]) rfl validated
  obtain rfl := Option.some.inj (Except.ok.inj (loaded.symm.trans read_old))
  have legible : ∀ o ∈ [renewed].map (Order.onTermsOf (.ofOrders [old])), o.Legible := by
    decide +kernel
  exact ⟨_, loaded, (agrees settings [] (.ofInstant now) (by simp)).1 legible⟩

/-- What the next pass infers as the order vanishes: nothing from the document that is stored, which
has it as an old one, but a trade from a document that has it as it was fetched. -/
theorem renewal_unseen :
    ((attempt [renewed]).on ((attempt [old]).on .empty).1).2 =
        .ok ⟨.ofInstant now, 1, 0, true, true⟩ ∧
      (Harvest.of settings
        (((attempt [renewed]).on ((attempt [old]).on .empty).1).1.snapshot? venue)
        venue [] (.ofInstant now)).map (·.estimate.deltas.length) = .ok 0 ∧
      (Harvest.of settings ((((attempt [renewed]).on ((attempt [old]).on .empty).1).1.putDocument
        venue now (Tables.documentOf [renewed])).1.snapshot? venue)
        venue [] (.ofInstant now)).map (·.estimate.deltas.length) = .ok 1 := by
  have written : ((stored [old] []).putDocument venue now
      (Tables.documentOf [renewed])).1.snapshot? venue =
        .ok (some ⟨venue, now, [renewed], []⟩) :=
    Store.snapshot?_putDocument read_old sound_renewed (by decide +kernel) now
  rw [on_old, on_renewed]
  refine ⟨rfl, ?_, ?_⟩
  · rw [read_old]
    with_unfolding_all rfl
  · rw [written]
    with_unfolding_all rfl

end Sample

end OrderFlow
