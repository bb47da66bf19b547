import OrderFlow.Proofs.Order.Range
import OrderFlow.Proofs.Store.Snapshot

/-!
# Stored orders that are skipped

A stored list that can be loaded is read item by item. An item that does not pass its check is
passed over alone, and the orders of all others are there in their order
(`Snapshot.sift_of_inRange`). Only an item out of range, on which the check does not come to its
end, takes the others with it (`Snapshot.exists_of_sift_error`).
-/

namespace OrderFlow

namespace Snapshot

variable {v : Value} {vs : List Value}

/-- The orders of the items that pass their check. -/
def ordersIn (items : List Value) : List Order :=
  items.filterMap fun v => (Order.check v).accepted?

/-- Labels of the items that do not. -/
def skippedIn (items : List Value) : List Value :=
  (items.filter fun v => (Order.check v).accepted?.isNone).map label

theorem ordersIn_cons (v : Value) (vs : List Value) :
    ordersIn (v :: vs) = ordersIn [v] ++ ordersIn vs :=
  List.filterMap_append (l := [v])

theorem skippedIn_cons (v : Value) (vs : List Value) :
    skippedIn (v :: vs) = skippedIn [v] ++ skippedIn vs := by
  rw [skippedIn, ← List.singleton_append, List.filter_append, List.map_append]
  rfl

/-- An item whose check comes to its end adds what it has to what is read of the others. -/
theorem sift_cons (ends : (Order.check v).Ends) :
    sift (v :: vs) = (sift vs).map fun rest =>
      (ordersIn [v] ++ rest.1, skippedIn [v] ++ rest.2) := by
  cases hv : Order.check v with
  | accepted o =>
    simp only [sift, ordersIn, skippedIn, hv, Checked.accepted?, List.filterMap_cons,
      List.filterMap_nil, List.filter_cons, List.filter_nil]
    rfl
  | refused issues =>
    simp only [sift, ordersIn, skippedIn, hv, Checked.accepted?, List.filterMap_cons,
      List.filterMap_nil, List.filter_cons, List.filter_nil]
    rfl
  | aborted cause => exact absurd (hv ▸ ends) (Checked.not_ends_aborted cause)

theorem sift_of_inRange (h : ∀ v ∈ vs, Order.InRange v) :
    sift vs = .ok (ordersIn vs, skippedIn vs) := by
  induction vs with
  | nil => rfl
  | cons v vs ih =>
    obtain ⟨first, rest⟩ := List.forall_mem_cons.1 h
    rw [sift_cons (Order.ends_check_iff.2 first), ih rest, ordersIn_cons v vs, skippedIn_cons v vs]
    rfl

theorem inRange_of_sift_ok {rest : List Order × List Value} (h : sift vs = .ok rest) :
    ∀ v ∈ vs, Order.InRange v := by
  induction vs generalizing rest with
  | nil => simp
  | cons v vs ih =>
    by_cases first : Order.InRange v
    · rw [sift_cons (Order.ends_check_iff.2 first)] at h
      obtain ⟨others, hs, -⟩ := Outcome.map_eq_ok_iff.1 h
      exact List.forall_mem_cons.2 ⟨first, ih hs⟩
    · obtain ⟨cause, aborts⟩ := Checked.exists_of_not_ends (mt Order.ends_check_iff.1 first)
      rw [sift, aborts] at h
      cases h

/-- Reading fails only as the check of the first item out of range does. -/
theorem exists_of_sift_error {f : Failure} (h : sift vs = .error f) :
    ∃ before v after cause, vs = before ++ v :: after ∧ (∀ u ∈ before, Order.InRange u) ∧
      ¬ Order.InRange v ∧ Order.check v = .aborted cause ∧ f = .abort cause := by
  induction vs with
  | nil => cases h
  | cons v vs ih =>
    by_cases first : Order.InRange v
    · rw [sift_cons (Order.ends_check_iff.2 first)] at h
      obtain ⟨before, u, after, cause, rfl, inRange, found⟩ := ih (Outcome.map_eq_error_iff.1 h)
      exact ⟨v :: before, u, after, cause, rfl, List.forall_mem_cons.2 ⟨first, inRange⟩, found⟩
    · -- The items behind `v` are not even looked at.
      obtain ⟨cause, aborts⟩ := Checked.exists_of_not_ends (mt Order.ends_check_iff.1 first)
      rw [sift, aborts] at h
      cases h
      exact ⟨[], v, vs, cause, rfl, fun _ h => absurd h List.not_mem_nil, first, aborts, rfl⟩

end Snapshot

namespace Store

variable {s : Store} {t : Tables} {venue : VenueId} {time : Instant} {items : List Value}

/-- The snapshot of a stored list that can be loaded is what is read of its items. -/
theorem snapshot?_of_list (ht : s.tables = some t) (hvenue : Cell.Fits venue.val)
    (stored : t.book? venue = some ⟨time, .arr items⟩)
    (loads : Document.obstacle? (.arr items) s.room.levels = none) :
    s.snapshot? venue = (Snapshot.sift items).map fun rest =>
      some ⟨venue, time, rest.1, rest.2⟩ := by
  unfold snapshot? reading Snapshot.ofBook StoredBook.load
  rw [ht]
  simp only [bind, Except.bind, if_neg (not_not_intro hvenue), stored, loads, Snapshot.itemsOf]
  cases Snapshot.sift items <;> rfl

/-- There is no snapshot of a stored list that cannot be loaded. -/
theorem snapshot?_of_obstacle (ht : s.tables = some t) (hvenue : Cell.Fits venue.val)
    (stored : t.book? venue = some ⟨time, .arr items⟩) {obstacle : Obstacle}
    (stops : Document.obstacle? (.arr items) s.room.levels = some obstacle) :
    s.snapshot? venue = .error obstacle.failure := by
  unfold snapshot? reading Snapshot.ofBook StoredBook.load
  rw [ht]
  simp only [bind, Except.bind, if_neg (not_not_intro hvenue), stored, stops]

/-- **A malformed order is skipped alone.** A stored list can be read exactly if there is no
obstacle in its document, neither an integer with too many digits nor too many levels, and all of
its items are in range. Then the snapshot has the orders of the items that pass their check, in
their order, and each other item is among those that were skipped. Otherwise the reading fails
because of the obstacle, or as the check of the first item out of range does. -/
theorem malformed_skipped_alone (ht : s.tables = some t) (hvenue : Cell.Fits venue.val)
    (stored : t.book? venue = some ⟨time, .arr items⟩) :
    ((∃ snapshot, s.snapshot? venue = .ok snapshot) ↔
        Document.obstacle? (.arr items) s.room.levels = none ∧ ∀ v ∈ items, Order.InRange v) ∧
      (∀ snapshot, s.snapshot? venue = .ok snapshot →
        snapshot = some ⟨venue, time, Snapshot.ordersIn items, Snapshot.skippedIn items⟩) ∧
      ∀ f, s.snapshot? venue = .error f →
        (∃ obstacle, Document.obstacle? (.arr items) s.room.levels = some obstacle ∧
          f = obstacle.failure) ∨
        ∃ before v after cause, items = before ++ v :: after ∧
          (∀ u ∈ before, Order.InRange u) ∧ ¬ Order.InRange v ∧ Order.check v = .aborted cause ∧
          f = .abort cause := by
  cases load : Document.obstacle? (.arr items) s.room.levels with
  | some obstacle =>
    have fails := snapshot?_of_obstacle ht hvenue stored load
    refine ⟨by simp [fails], by simp [fails], ?_⟩
    intro f h
    exact .inl ⟨obstacle, rfl, Except.error.inj (h.symm.trans fails)⟩
  | none =>
    have read := snapshot?_of_list ht hvenue stored load
    have inRange {snapshot : Option Snapshot} (h : s.snapshot? venue = .ok snapshot) :
        ∀ v ∈ items, Order.InRange v := by
      rw [read] at h
      obtain ⟨rest, sifted, -⟩ := Outcome.map_eq_ok_iff.1 h
      exact Snapshot.inRange_of_sift_ok sifted
    have whole (h : ∀ v ∈ items, Order.InRange v) : s.snapshot? venue =
        .ok (some ⟨venue, time, Snapshot.ordersIn items, Snapshot.skippedIn items⟩) := by
      rw [read, Snapshot.sift_of_inRange h]
      rfl
    refine ⟨⟨fun ⟨snapshot, h⟩ => ⟨rfl, inRange h⟩, fun h => ⟨_, whole h.2⟩⟩, ?_, ?_⟩
    · intro snapshot h
      exact Except.ok.inj (h.symm.trans (whole (inRange h)))
    · intro f h
      rw [read] at h
      exact .inr (Snapshot.exists_of_sift_error (Outcome.map_eq_error_iff.1 h))

end Store

namespace Sample

/-- A store in which the book of the venue may be any list. -/
def holding (items : List Value) : Store :=
  ⟨some ⟨[(venue, ⟨now, .arr items⟩)], []⟩, Store.defaultChunkSize, .standard⟩

/-- Items that are no orders, between two that are. -/
def damaged : List Value :=
  [(order filled 10).toValue, .null, .str "gone", .obj [("order_id", .int 8)],
    (order vanished 4).toValue]

/-- Both orders are read, and each of the other items is skipped. -/
theorem damaged_read : (holding damaged).snapshot? venue =
    .ok (some ⟨venue, now, [order filled 10, order vanished 4], [.null, .str "gone", .int 8]⟩) := by
  have stored : Tables.book? ⟨[(venue, ⟨now, .arr damaged⟩)], []⟩ venue =
      some ⟨now, .arr damaged⟩ := rfl
  obtain ⟨readable, same, -⟩ :=
    Store.malformed_skipped_alone (s := holding damaged) rfl (by decide) stored
  have first : Order.check (order filled 10).toValue = _ := check_order (by decide)
  have last : Order.check (order vanished 4).toValue = _ := check_order (by decide)
  have inRange : ∀ v ∈ damaged, Order.InRange v := by
    intro v hv
    refine Order.ends_check_iff.1 ?_
    simp only [damaged, List.mem_cons, List.not_mem_nil, or_false] at hv
    rcases hv with rfl | rfl | rfl | rfl | rfl
    · rw [first]
      trivial
    · trivial
    · trivial
    · trivial
    · rw [last]
      trivial
  obtain ⟨snapshot, read⟩ := readable.2 ⟨by decide +kernel, inRange⟩
  have none : (Order.check (.obj [("order_id", .int 8)])).accepted? = none := rfl
  rw [read, same snapshot read]
  simp only [Snapshot.ordersIn, Snapshot.skippedIn, damaged, List.filterMap_cons, List.filter_cons,
    first, last, none]
  rfl

/-- The record of an order at a price, issued at a time. -/
def record (price issued : String) : Value :=
  .obj [("order_id", .int 103), ("type_id", .int 34), ("is_buy_order", .bool false),
    ("price", .str price), ("volume_remain", .int 1), ("volume_total", .int 1),
    ("issued", .str issued), ("duration", .int 90)]

/-- A price that is too large, or a time before the first year in UTC, hides the other order of the
book as well. -/
theorem out_of_range_hides_others :
    Order.check (order filled 10).toValue = .accepted (order filled 10) ∧
      (holding [(order filled 10).toValue, record "1e400" "2024-01-01T00:00:00Z"]).snapshot? venue =
        .error .invalidOperation ∧
      (holding [(order filled 10).toValue, record "3" "0001-01-01T00:00:00+01:00"]).snapshot?
        venue = .error .overflow := by
  have first : Order.check (order filled 10).toValue = _ := check_order (by decide)
  have fails {v : Value} {cause : Abort} (aborts : Order.check v = .aborted cause)
      (loads : Document.obstacle? (.arr [(order filled 10).toValue, v]) Room.standard.levels =
        none) :
      (holding [(order filled 10).toValue, v]).snapshot? venue = .error (.abort cause) := by
    rw [Store.snapshot?_of_list (t := ⟨[(venue, ⟨now, .arr [(order filled 10).toValue, v]⟩)], []⟩)
      rfl (by decide) rfl loads]
    simp only [Snapshot.sift, first, aborts]
    rfl
  exact ⟨first, fails (by with_unfolding_all rfl) (by decide +kernel),
    fails (by with_unfolding_all rfl) (by decide +kernel)⟩

end Sample

end OrderFlow
