import OrderFlow.Proofs.Collector.Rows
import OrderFlow.Proofs.Store.Summary
import OrderFlow.Proofs.Store.Written

/-!
# Readers that agree

Views, summaries and the status of a venue count the same orders in different ways. Each order is
counted in the summary of its item and in no other, so that what the summaries say adds up to what
the status and the views say (`ItemSummary.Lists.sum_count`). The last day is found in one pass
over all rows, and by asking for the rows of each day (`Tables.isLast_latestDay?`). So the readers
agree wherever a book can be read (`Store.agree_of_snapshot`), as it can be in every store that was
written by commits (`Store.accessors_agree`).
-/

namespace OrderFlow

/-! ## Counting the orders of a book -/

namespace BookView

theorem filter_selects_none (orders : List Order) : orders.filter (selects none none) = orders :=
  List.filter_eq_self.2 fun _ _ => rfl

theorem selects_buy : selects none (some .buy) = fun o => o.isBuy := by
  funext o
  cases h : o.isBuy <;> simp [selects, Order.side, Side.ofIsBuy, h]

theorem selects_sell : selects none (some .sell) = fun o => !o.isBuy := by
  funext o
  cases h : o.isBuy <;> simp [selects, Order.side, Side.ofIsBuy, h]

/-- Orders are selected by their side and by their item, one after the other. -/
theorem filter_selects (item : ItemId) (side : Option Side) (orders : List Order) :
    (orders.filter (selects none side)).filter (selects (some item) none) =
      orders.filter (selects (some item) side) := by
  rw [List.filter_filter]
  refine List.filter_congr fun o _ => ?_
  simp [selects]

end BookView

/-- A list without its repetitions has none. -/
theorem nodup_eraseDups {α : Type} [DecidableEq α] (xs : List α) : xs.eraseDups.Nodup := by
  induction h : xs.length using Nat.strong_induction_on generalizing xs with
  | h n ih =>
    cases xs with
    | nil => simp
    | cons x xs =>
      rw [List.eraseDups_cons, List.nodup_cons]
      constructor
      · simp
      · have shorter := List.length_filter_le (fun y => !y == x) xs
        rw [List.length_cons] at h
        exact ih _ (by omega) _ rfl

namespace ItemSummary

variable {orders : List Order} {all : List ItemSummary}

/-- A book is made up of the orders of its items. -/
theorem perm_flatMap_ordersOf {items : List ItemId} (distinct : items.Nodup)
    (covers : ∀ o ∈ orders, o.item ∈ items) : (items.flatMap (ordersOf · orders)).Perm orders := by
  induction items generalizing orders with
  | nil =>
    have none : orders = [] := List.eq_nil_iff_forall_not_mem.2 fun o ho => by
      simpa using covers o ho
    rw [none, List.flatMap_nil]
  | cons item items ih =>
    obtain ⟨fresh, distinct⟩ := List.nodup_cons.1 distinct
    -- the other items find all of their orders among those that are not of the first item
    have others (i : ItemId) (hi : i ∈ items) :
        ordersOf i orders = ordersOf i (orders.filter fun o => !decide (o.item = item)) := by
      rw [ordersOf, ordersOf, List.filter_filter]
      refine List.filter_congr fun o _ => ?_
      by_cases own : o.item = i
      · have ne : i ≠ item := fun same => fresh (same ▸ hi)
        simp [own, ne]
      · simp [own]
    rw [List.flatMap_cons, List.flatMap_congr others]
    refine ((ih distinct ?_).append_left _).trans (List.filter_append_perm _ orders)
    intro o ho
    obtain ⟨ho, ne⟩ := List.mem_filter.1 ho
    exact (List.mem_cons.1 (covers o ho)).resolve_left (by simpa using ne)

/-- How many orders a summary counts on a side, or on both. -/
def count (s : ItemSummary) : Option Side → Nat
  | none => s.total
  | some .buy => s.buys
  | some .sell => s.sells

theorem Summarizes.count {s : ItemSummary} (h : s.Summarizes orders) (side : Option Side) :
    s.count side = (orders.filter (BookView.selects none side)).length := by
  match side with
  | none => rw [ItemSummary.count, h.total, BookView.filter_selects_none]
  | some .buy => rw [ItemSummary.count, h.buys, BookView.selects_buy]
  | some .sell => rw [ItemSummary.count, h.sells, BookView.selects_sell]

/-- Each order is counted in one of the summaries. -/
theorem Lists.sum_count (lists : Lists all orders) (side : Option Side) :
    (all.map (·.count side)).sum = (orders.filter (BookView.selects none side)).length := by
  have covers : ∀ o ∈ orders, o.item ∈ all.map (·.item) := fun o ho => by
    obtain ⟨a, ha, same⟩ := (lists.covers o.item).2 ⟨o, ho, rfl⟩
    exact same ▸ List.mem_map_of_mem ha
  have parts := ((perm_flatMap_ordersOf lists.distinct covers).filter
    (BookView.selects none side)).length_eq
  rw [List.filter_flatMap, List.length_flatMap, List.map_map] at parts
  rw [← parts]
  exact congrArg List.sum (List.map_congr_left fun a ha => (lists.exact a ha).count side)

/-- The summary of an item has a certain count, which is zero if there is no summary. -/
def Counts (all : List ItemSummary) (item : ItemId) (side : Option Side) (n : Nat) : Prop :=
  (∀ a ∈ all, a.item = item → a.count side = n) ∧ ((∀ a ∈ all, a.item ≠ item) → n = 0)

/-- What is counted of an item are its orders in the book. -/
theorem Lists.counts (lists : Lists all orders) (item : ItemId) (side : Option Side) :
    Counts all item side (orders.filter (BookView.selects (some item) side)).length := by
  have own : orders.filter (BookView.selects (some item) side) =
      (ordersOf item orders).filter (BookView.selects none side) := by
    rw [← BookView.filter_selects, List.filter_comm]
    simp [BookView.selects, ordersOf]
  rw [own]
  constructor
  · rintro a ha rfl
    exact (lists.exact a ha).count side
  · intro absent
    have nothing : ordersOf item orders = [] := by
      rw [ordersOf, List.filter_eq_nil_iff]
      intro o ho same
      obtain ⟨a, ha, here⟩ := (lists.covers item).2 ⟨o, ho, of_decide_eq_true same⟩
      exact absent a ha here
    rw [nothing]
    rfl

theorem Lists.length_eq (lists : Lists all orders) :
    all.length = ((orders.map (·.item)).eraseDups).length := by
  rw [← List.length_map (f := (·.item))]
  have same : (all.map (·.item)).Perm ((orders.map (·.item)).eraseDups) := by
    apply (List.perm_ext_iff_of_nodup lists.distinct (nodup_eraseDups _)).2
    intro item
    rw [List.mem_eraseDups, List.mem_map, List.mem_map]
    exact lists.covers item
  exact same.length_eq

/-- Fewer orders have at most as many summaries. -/
theorem Lists.length_le {few : List ItemSummary} {part : List Order} (lists : Lists all orders)
    (fewer : Lists few part) (sub : part ⊆ orders) : few.length ≤ all.length := by
  have included : few.map (·.item) ⊆ all.map (·.item) := by
    intro item hitem
    obtain ⟨o, ho, same⟩ := (fewer.covers item).1 (List.mem_map.1 hitem)
    exact List.mem_map.2 ((lists.covers item).2 ⟨o, sub ho, same⟩)
  have shorter := (List.subperm_of_subset fewer.distinct included).length_le
  rwa [List.length_map, List.length_map] at shorter

end ItemSummary

/-! ## The last day -/

/-- The last day of a kind, if there is one. -/
def Day.IsLast (P : Day → Prop) : Option Day → Prop
  | none => ∀ d, ¬ P d
  | some last => P last ∧ ∀ d, P d → d.number ≤ last.number

/-- The later one of two days. -/
def Day.later (latest : Option Day) (day : Day) : Option Day :=
  match latest with
  | some last => if last.number < day.number then some day else some last
  | none => some day

theorem Day.IsLast.later {P : Day → Prop} {latest : Option Day} (h : Day.IsLast P latest)
    (day : Day) : Day.IsLast (fun d => P d ∨ d = day) (Day.later latest day) := by
  cases latest with
  | none =>
    refine ⟨.inr rfl, fun d hd => ?_⟩
    obtain rfl := hd.resolve_left (h d)
    exact Nat.le_refl _
  | some last =>
    obtain ⟨own, last_le⟩ := h
    rw [Day.later]
    split
    · rename_i less
      refine ⟨.inr rfl, ?_⟩
      rintro d (hd | rfl)
      · exact Nat.le_trans (last_le d hd) (Nat.le_of_lt less)
      · exact Nat.le_refl _
    · rename_i less
      refine ⟨.inl own, ?_⟩
      rintro d (hd | rfl)
      · exact last_le d hd
      · exact Nat.le_of_not_lt less

theorem Day.IsLast.foldl {P : Day → Prop} {latest : Option Day} (h : Day.IsLast P latest)
    (days : List Day) : Day.IsLast (fun d => P d ∨ d ∈ days) (days.foldl Day.later latest) := by
  induction days generalizing P latest with
  | nil => simpa using h
  | cons day days ih =>
    have run := ih (h.later day)
    simp only [or_assoc] at run
    simpa only [List.foldl_cons, List.mem_cons] using run

namespace Tables

variable {t : Tables} {venue : VenueId}

/-- The last day of a venue is that of its rows. -/
theorem isLast_latestDay? (t : Tables) (venue : VenueId) :
    Day.IsLast (fun day => ∃ e ∈ t.daily, e.1.venue = venue ∧ e.1.day = day)
      (t.latestDay? venue) := by
  have start : Day.IsLast (fun _ => False) none := fun _ => id
  have run := start.foldl ((t.daily.filter (·.1.venue = venue)).map (·.1.day))
  have days : ((t.daily.filter (·.1.venue = venue)).map (·.1.day)).foldl Day.later none =
      t.latestDay? venue := List.foldl_map
  rw [days] at run
  simpa only [false_or, List.mem_map, List.mem_filter, decide_eq_true_eq, and_assoc] using run

/-- A query that does not ask for less than one row gives none only if there is none. -/
theorem dailyRows_ne_nil_iff {q : DailyQuery} (some : 1 ≤ q.limit) :
    t.dailyRows q ≠ [] ↔ ∃ e ∈ t.daily, q.selects e.1 = true := by
  have selected : t.selected q = [] ↔ t.daily.filter (fun e => q.selects e.1) = [] := by
    unfold selected
    split
    · rw [← List.length_eq_zero_iff, List.length_mergeSort, List.length_eq_zero_iff]
    · rfl
  have rows : t.dailyRows q = [] ↔ t.selected q = [] := by
    unfold dailyRows
    rw [← List.length_eq_zero_iff, ← List.length_eq_zero_iff (l := t.selected q)]
    simp only [List.length_map, List.length_mergeSort, List.length_take]
    omega
  rw [Ne, rows, selected, List.filter_eq_nil_iff]
  push Not
  rfl

end Tables

/-! ## Agreement -/

/-- How many orders a status counts on a side, or on both. -/
def VenueStatus.count (status : VenueStatus) : Option Side → Nat
  | none => status.orders
  | some .buy => status.buys
  | some .sell => status.sells

namespace Store

variable {s : Store} {t : Tables} {venue : VenueId} {previous : Option Snapshot}

/-- What a view says of a book that can be read. -/
theorem exists_view (h : s.snapshot? venue = .ok previous) (item : Option ItemId)
    (side : Option Side) (limit : Int) : ∃ view, s.view venue item side limit = .ok view ∧
      view.observedAt = previous.map (·.observedAt) ∧
      view.total = (previousOrders previous).length ∧
      view.matched = ((previousOrders previous).filter (BookView.selects item side)).length := by
  unfold view
  rw [h]
  refine ⟨_, rfl, ?_⟩
  cases previous with
  | none => exact ⟨rfl, rfl, rfl⟩
  | some snapshot => exact ⟨rfl, rfl, rfl⟩

/-- What the status says of a book. -/
theorem status_eq (ht : s.tables = some t) :
    s.status venue = (s.snapshot? venue).map fun previous =>
      VenueStatus.of previous (t.latestDay? venue) := by
  unfold status reading
  rw [ht]
  cases s.snapshot? venue <;> rfl

/-- A day has rows of either bound exactly if there is an entry of it. -/
theorem exists_daily_iff (ht : s.tables = some t) (fits : Cell.Fits venue.val) {limit : Int}
    (positive : 1 ≤ limit) (fitting : Cell.Fits limit) {day : Day} :
    (∃ bound rows, s.daily ⟨venue, day, none, bound, none, limit⟩ = .ok rows ∧ rows ≠ []) ↔
      ∃ e ∈ t.daily, e.1.venue = venue ∧ e.1.day = day := by
  have large : max limit 0 = limit := max_eq_left (by omega)
  have read (bound : Bound) := daily_of_fits (q := ⟨venue, day, none, bound, none, limit⟩) ht
    ⟨fits, by simp, large.symm ▸ fitting⟩
  constructor
  · rintro ⟨bound, rows, answer, nonempty⟩
    obtain rfl := Except.ok.inj ((read bound).symm.trans answer)
    obtain ⟨e, he, selected⟩ := (Tables.dailyRows_ne_nil_iff positive).1 nonempty
    simp only [DailyQuery.selects, Bool.and_eq_true, beq_iff_eq] at selected
    exact ⟨e, he, selected.1.1.1.1, selected.1.1.1.2⟩
  · rintro ⟨e, he, rfl, rfl⟩
    refine ⟨e.1.bound, _, read _, (Tables.dailyRows_ne_nil_iff positive).2 ⟨e, he, ?_⟩⟩
    simp [DailyQuery.selects]

/-- Readers that agree about a venue: its status, the views of its book, the summaries of all items
and of the items of a side, and the rows of each day. -/
structure Agree (s : Store) (venue : VenueId) (status : VenueStatus)
    (all : Option Side → List ItemSummary) : Prop where
  reported : s.status venue = .ok status
  summaries : ∀ side limit, (status.items : Int) ≤ limit →
    s.summaries venue side limit = .ok (all side)
  items : status.items = (all none).length
  sums : ∀ side, status.count side = ((all none).map (·.count side)).sum ∧
    status.count side = ((all side).map (·.total)).sum
  whole : ∀ side limit, ∃ view, s.view venue none side limit = .ok view ∧
    view.observedAt = status.observedAt ∧ view.total = status.orders ∧
    view.matched = status.count side
  single : ∀ item side limit, ∃ view, s.view venue (some item) side limit = .ok view ∧
    view.observedAt = status.observedAt ∧ view.total = status.orders ∧
    ItemSummary.Counts (all none) item side view.matched ∧
    ItemSummary.Counts (all side) item none view.matched
  answers : ∀ day bound limit, Cell.Fits (max limit 0) →
    ∃ rows, s.daily ⟨venue, day, none, bound, none, limit⟩ = .ok rows
  lastDay : ∀ limit, 1 ≤ limit → Cell.Fits limit → Day.IsLast (fun day => ∃ bound rows,
    s.daily ⟨venue, day, none, bound, none, limit⟩ = .ok rows ∧ rows ≠ []) status.latestDay

/-- A status counts the orders of a side in another way than by selecting them. -/
theorem count_status (previous : Option Snapshot) (latest : Option Day) (side : Option Side) :
    (VenueStatus.of previous latest).count side =
      ((previousOrders previous).filter (BookView.selects none side)).length := by
  match side with
  | none => rw [BookView.filter_selects_none]; rfl
  | some .buy => rw [BookView.selects_buy, ← List.countP_eq_length_filter]; rfl
  | some .sell =>
    have parts := List.length_eq_length_filter_add (l := previousOrders previous) (·.isBuy)
    have sells : (VenueStatus.of previous latest).count (some .sell) =
      (previousOrders previous).length - (previousOrders previous).countP (·.isBuy) := rfl
    rw [sells, BookView.selects_sell, List.countP_eq_length_filter]
    omega

/-- Summaries are not cut where the limit is not less than the number of items. -/
theorem summaries_of_large (h : s.snapshot? venue = .ok previous) (side : Option Side) {limit : Int}
    (large : (((previousOrders previous).map (·.item)).eraseDups.length : Int) ≤ limit) :
    s.summaries venue side limit =
      .ok (ItemSummary.ofSide (previousOrders previous) side) := by
  have sound : ∀ o ∈ previousOrders previous, o.Sound := fun o ho =>
    (validated_of_snapshot h o ho).sound
  have whole := ItemSummary.lists_ofAll sound
  have few := whole.length_le (ItemSummary.lists_ofSide sound side) (List.filter_subset_self _)
  rw [whole.length_eq] at few
  rw [summaries_eq, h]
  exact congrArg Except.ok (List.take_of_length_le (by omega))

/-- Where a book can be read, all readers agree about it. -/
theorem agree_of_snapshot (h : s.snapshot? venue = .ok previous) :
    ∃ status all, s.Agree venue status all := by
  obtain ⟨t, ht, fits⟩ := tables_of_snapshot h
  have lists := ItemSummary.lists_ofSide fun o ho => (validated_of_snapshot h o ho).sound
  have whole := lists none
  rw [BookView.filter_selects_none] at whole
  refine ⟨.of previous (t.latestDay? venue), ItemSummary.ofSide (previousOrders previous), ?_⟩
  constructor
  case reported =>
    rw [status_eq ht, h]
    rfl
  case summaries =>
    intro side limit large
    exact summaries_of_large h side large
  case items => exact whole.length_eq.symm
  case sums =>
    intro side
    rw [count_status]
    refine ⟨(whole.sum_count side).symm, ?_⟩
    have sum := (lists side).sum_count none
    rw [BookView.filter_selects_none] at sum
    exact sum.symm
  case whole =>
    intro side limit
    obtain ⟨view, shown, time, total, matched⟩ := exists_view h none side limit
    exact ⟨view, shown, time, total, matched.trans (count_status previous _ side).symm⟩
  case single =>
    intro item side limit
    obtain ⟨view, shown, time, total, matched⟩ := exists_view h (some item) side limit
    refine ⟨view, shown, time, total, matched ▸ whole.counts item side, ?_⟩
    have counts := (lists side).counts item none
    rwa [BookView.filter_selects, ← matched] at counts
  case answers =>
    intro day bound limit fitting
    exact ⟨_, daily_of_fits ht ⟨fits, by simp, fitting⟩⟩
  case lastDay =>
    intro limit positive fitting
    simp only [exists_daily_iff ht fits positive fitting]
    exact Tables.isLast_latestDay? t venue

/-- **The readers agree.** In every store that was written by commits, as passes are, or by
documents with items in range, all readers of a venue whose identifier fits agree about it. They do
so in any store, however its tables came about, if the book of the venue can be read, and if it
cannot, the readers of the book all fail in the same way. -/
theorem accessors_agree (s : Store) (venue : VenueId) :
    (s.Written → Cell.Fits venue.val → ∃ status all, s.Agree venue status all) ∧
    (∀ previous, s.snapshot? venue = .ok previous → ∃ status all, s.Agree venue status all) ∧
    ∀ f, s.snapshot? venue = .error f → s.status venue = .error f ∧
      (∀ item side limit, s.view venue item side limit = .error f) ∧
      ∀ side limit, s.summaries venue side limit = .error f := by
  refine ⟨?_, fun previous h => agree_of_snapshot h, ?_⟩
  · intro written fits
    obtain ⟨previous, h⟩ := written.exists_snapshot fits
    exact agree_of_snapshot h
  · intro f h
    refine ⟨?_, fun item side limit => ?_, fun side limit => ?_⟩
    · unfold status
      rw [h]
      rfl
    · unfold view
      rw [h]
      rfl
    · unfold summaries
      rw [h]
      rfl

end Store

namespace Sample

/-- The store after two passes, with an item written into the book that is no order. -/
def patched : Store :=
  ((stored late daily).putDocument venue now (.arr [(order filled 7).toValue, .null])).1

theorem written_patched : patched.Written := by
  have validated : ∀ o ∈ early ++ late, o.Validated := by
    simp only [early, late, List.cons_append, List.nil_append, List.mem_cons, List.not_mem_nil,
      or_false, forall_eq_or_imp, forall_eq]
    exact ⟨validated_order _ 10, validated_order _ 4, validated_order _ 7⟩
  have first : (stored early []).Written := by
    have written := Attempt.written_on (a := attempt early) (.empty 500 .standard)
      fun orders fetched o ho =>
        validated o (List.mem_append_left _ (Except.ok.inj fetched ▸ ho))
    rwa [show (⟨some .empty, 500, .standard⟩ : Store) = .empty from rfl, on_early] at written
  have second : (stored late daily).Written := by
    have written := Attempt.written_on (a := attempt late) first fun orders fetched o ho =>
      validated o (List.mem_append_right _ (Except.ok.inj fetched ▸ ho))
    rwa [on_late] at written
  refine second.document venue now ?_ (by decide +kernel)
  intro v hv
  refine Order.ends_check_iff.1 ?_
  simp only [List.mem_cons, List.not_mem_nil, or_false] at hv
  rcases hv with rfl | rfl
  · rw [Order.check_toValue (sound_of_price rfl (by decide) (by decide))]
    trivial
  · trivial

/-- The readers of this store agree about its one order. -/
theorem patched_agree : ∃ status all, patched.Agree venue status all ∧
    status = ⟨some now, 1, 0, 1, 1, some now.day⟩ := by
  obtain ⟨status, all, agree⟩ := (Store.accessors_agree patched venue).1 written_patched (by decide)
  have computed : patched.status venue = .ok ⟨some now, 1, 0, 1, 1, some now.day⟩ := by
    with_unfolding_all rfl
  exact ⟨status, all, agree, Except.ok.inj (agree.reported.symm.trans computed)⟩

end Sample

end OrderFlow
