import Mathlib.Data.List.Flatten
import OrderFlow.Proofs.Order.Document
import OrderFlow.Proofs.Trade.Judgement

/-!
# Estimates without an order

Lists may be restricted to some identifiers before their books are made or after it, and what
single orders account for stays the same (`deltas_among`). An estimate succeeds unless an order that
vanished has a duration which leads out of the representable years; where it succeeds, its deltas
are those of an order by itself and those of all others without it (`between_one_by_one`).
-/

namespace OrderFlow

namespace Book

/-- The orders of some identifiers. -/
def among (keep : OrderId → Bool) (orders : List Order) : List Order :=
  orders.filter fun o => keep o.id

variable {keep : OrderId → Bool} {book current : Book} {o : Order}

theorem among_put (keep : OrderId → Bool) (book : Book) (o : Order) :
    among keep (book.put o) = if keep o.id then put o (among keep book) else among keep book := by
  -- on the book, as `put` is: the order it replaces is kept just if the new one is
  induction book with
  | nil => by_cases h : keep o.id <;> simp [put, among, h]
  | cons p rest ih =>
    rw [put]
    by_cases same : p.id = o.id
    · by_cases h : keep o.id <;> simp [among, put, same, h]
    · rw [if_neg same]
      unfold among at ih ⊢
      by_cases hp : keep p.id <;> by_cases h : keep o.id <;>
        simp [hp, h, ih, put, same]

/-- The book of some orders is that part of the book of all. -/
theorem ofOrders_among (keep : OrderId → Bool) (orders : List Order) :
    ofOrders (among keep orders) = among keep (ofOrders orders) := by
  have each (orders : List Order) (book : Book) :
      (among keep orders).foldl (fun book o => Book.put o book) (among keep book) =
        among keep (orders.foldl (fun book o => Book.put o book) book) := by
    induction orders generalizing book with
    | nil => rfl
    | cons o orders ih =>
      rw [List.foldl_cons, ← ih, among_put]
      by_cases h : keep o.id <;> simp [among, h]
  exact each orders []

theorem find?_among (keep : OrderId → Bool) (book : Book) {id : OrderId} (h : keep id = true) :
    Book.find? (among keep book) id = book.find? id := by
  unfold Book.find? among
  rw [List.find?_filter]
  congr 1
  funext o
  by_cases same : o.id = id <;> simp [same, h]

theorem gone_among (keep : OrderId → Bool) (previous current : Book) :
    gone (among keep previous) (among keep current) = among keep (gone previous current) := by
  have found (o : Order) : (!has (among keep current) o.id && keep o.id) =
      (keep o.id && !current.has o.id) := by
    by_cases h : keep o.id
    · rw [has, has, find?_among keep current h, Bool.and_comm]
    · simp [h]
  show (previous.filter fun o => keep o.id).filter (fun o => !has (among keep current) o.id) =
    (previous.filter fun o => !current.has o.id).filter fun o => keep o.id
  rw [List.filter_filter, List.filter_filter]
  exact List.filter_congr fun o _ => found o

end Book

namespace Estimate

variable {day : Day} {venue : VenueId} {p n : Instant} {previousAt nowAt : Stamp}
  {window : Duration} {before after : List Order} {keep : OrderId → Bool}

/-- What the orders of some identifiers account for does not depend on the others. -/
theorem deltas_among (hp : previousAt.utc? = some p) (hn : nowAt.utc? = some n) {e : Estimate}
    (h : between (Book.among keep before) (Book.among keep after) previousAt nowAt venue window =
      .ok e) :
    e.deltas = (Book.among keep (Book.ofOrders after)).flatMap
        (fill n.day venue (.ofOrders before)) ++
      (Book.among keep (Book.gone (.ofOrders before) (.ofOrders after))).flatMap
        (loss n.day venue (.ofInstant p) (.ofInstant n) window) := by
  rw [(between_ok hp hn h).2, Book.ofOrders_among, Book.ofOrders_among, Book.gone_among]
  congr 1
  refine List.flatMap_congr fun c hc => ?_
  rw [fill, Book.find?_among keep _ (List.mem_filter.1 hc).2]
  rfl

/-- Where all orders can be judged, some of them can be. -/
theorem exists_between_among (hp : previousAt.utc? = some p) (hn : nowAt.utc? = some n)
    {e : Estimate} (h : between before after previousAt nowAt venue window = .ok e)
    (keep : OrderId → Bool) :
    ∃ e, between (Book.among keep before) (Book.among keep after) previousAt nowAt venue window =
      .ok e := by
  rw [exists_between_iff hp hn, Book.ofOrders_among, Book.ofOrders_among, Book.gone_among]
  intro o ho
  exact (exists_between_iff hp hn).1 ⟨e, h⟩ o (List.mem_filter.1 ho).1

/-- Each order that vanished and has a positive duration expires in a representable year. -/
def Judgeable (before after : List Order) : Prop :=
  ∀ o ∈ Book.gone (.ofOrders before) (.ofOrders after), 0 < o.duration → o.expiry?.isSome

theorem perm_flatMap_filter {α β : Type} (xs : List α) (q : α → Bool) (f : α → List β) :
    (xs.flatMap f).Perm ((xs.filter q).flatMap f ++ (xs.filter (!q ·)).flatMap f) := by
  rw [← List.flatMap_append]
  exact (List.filter_append_perm q xs).symm.flatMap_right f

/-- The deltas of an estimate are those of some orders and those of all others. -/
theorem split_deltas (hp : previousAt.utc? = some p) (hn : nowAt.utc? = some n)
    {e own others : Estimate} (h : between before after previousAt nowAt venue window = .ok e)
    (hown : between (Book.among keep before) (Book.among keep after) previousAt nowAt venue
      window = .ok own)
    (hothers : between (Book.among (!keep ·) before) (Book.among (!keep ·) after) previousAt nowAt
      venue window = .ok others) :
    e.deltas.Perm (own.deltas ++ others.deltas) ∧ others.deltas.Sublist e.deltas := by
  rw [(between_ok hp hn h).2, deltas_among hp hn hown, deltas_among hp hn hothers]
  constructor
  · apply ((perm_flatMap_filter _ (fun o => keep o.id) _).append
      (perm_flatMap_filter _ (fun o => keep o.id) _)).trans
    rw [List.append_assoc, List.append_assoc]
    exact (List.perm_append_comm_assoc _ _ _).append_left _
  · exact (List.filter_sublist.flatMap _).append (List.filter_sublist.flatMap _)

/-- An order that is skipped accounts for nothing. -/
theorem loss_of_skipped {o : Order} (h : o.duration ≤ 0 ∨ o.remaining ≤ 0) :
    loss day venue previousAt nowAt window o = [] := by
  rw [loss, judged, vanished_eq]
  split
  · rename_i findings hfindings
    split at hfindings
    · cases hfindings
      rfl
    · rename_i lasting
      obtain ⟨expired, -, rfl⟩ := Outcome.map_eq_ok_iff.1 hfindings
      have nothing : unexpired day venue o = [.skip o.id .nothingRemaining] :=
        dif_neg (by omega)
      cases expired
      · rw [if_neg (by decide), nothing]
        rfl
      · rfl
  · rfl

/-- An order that vanished and is skipped accounts for nothing by itself. -/
theorem deltas_of_skipped (hp : previousAt.utc? = some p) (hn : nowAt.utc? = some n)
    {own : Estimate} {o : Order} (ho : o ∈ Book.gone (.ofOrders before) (.ofOrders after))
    (skipped : o.duration ≤ 0 ∨ o.remaining ≤ 0)
    (hown : between (Book.among (· = o.id) before) (Book.among (· = o.id) after) previousAt nowAt
      venue window = .ok own) : own.deltas = [] := by
  obtain ⟨mem, absent⟩ := List.mem_filter.1 ho
  rw [deltas_among hp hn hown, List.append_eq_nil_iff, List.flatMap_eq_nil_iff,
    List.flatMap_eq_nil_iff]
  constructor
  · intro c hc
    obtain ⟨there, same⟩ := List.mem_filter.1 hc
    have found : (Book.ofOrders after).find? c.id = some c :=
      Book.find?_of_mem (Book.nodup_ids_ofOrders after) there
    rw [of_decide_eq_true same] at found
    simp [Book.has, found] at absent
  · intro q hq
    obtain ⟨vanished, same⟩ := List.mem_filter.1 hq
    have there := (List.mem_filter.1 vanished).1
    have found := Book.find?_of_mem (Book.nodup_ids_ofOrders before) there
    rw [of_decide_eq_true same, Book.find?_of_mem (Book.nodup_ids_ofOrders before) mem] at found
    obtain rfl := Option.some.inj found
    exact loss_of_skipped skipped

/-- **Orders are estimated one by one.** With both ends of the window in range, an estimate fails
only if an order that vanished has a positive duration which leads out of the representable years.
Where it succeeds, it does so for each order by itself and for all others without it. The trades
are those of the order and those of the others, and an order that vanished with no duration or with
nothing remaining has none. -/
theorem between_one_by_one (before after : List Order) (venue : VenueId)
    (hp : previousAt.utc? = some p) (hn : nowAt.utc? = some n)
    (early : (p.add? (-window)).isSome) (late : (n.add? window).isSome) :
    ((∃ e, between before after previousAt nowAt venue window = .ok e) ↔ Judgeable before after) ∧
      (∀ f, between before after previousAt nowAt venue window = .error f → f = .overflow) ∧
      ∀ e, between before after previousAt nowAt venue window = .ok e → ∀ id, ∃ own others,
        between (Book.among (· = id) before) (Book.among (· = id) after) previousAt nowAt venue
          window = .ok own ∧
        between (Book.among (· ≠ id) before) (Book.among (· ≠ id) after) previousAt nowAt venue
          window = .ok others ∧
        e.deltas.Perm (own.deltas ++ others.deltas) ∧ others.deltas.Sublist e.deltas ∧
        ∀ o ∈ Book.gone (.ofOrders before) (.ofOrders after), o.id = id →
          o.duration ≤ 0 ∨ o.remaining ≤ 0 → others.deltas = e.deltas := by
  refine ⟨?_, ?_, ?_⟩
  · rw [exists_between_iff hp hn]
    exact forall₂_congr fun o _ => exists_vanished_iff early late
  · intro f h
    exact between_error hp hn h
  · intro e h id
    obtain ⟨own, hown⟩ := exists_between_among hp hn h (· = id)
    obtain ⟨others, hothers⟩ := exists_between_among hp hn h (· ≠ id)
    have negated : (fun i : OrderId => decide (i ≠ id)) = fun i => !decide (i = id) := by
      funext i
      exact decide_not
    obtain ⟨perm, sublist⟩ := split_deltas hp hn h hown (negated ▸ hothers)
    refine ⟨own, others, hown, hothers, perm, sublist, ?_⟩
    rintro o ho rfl skipped
    rw [deltas_of_skipped hp hn ho skipped hown, List.nil_append] at perm
    exact sublist.eq_of_length perm.length_eq.symm

end Estimate

namespace Sample

/-- An order that vanishes and has no duration by which to judge it. -/
def endless : Order :=
  { order vanished 4 with duration := 0 }

/-- Without the order that is skipped, the trades of the other one are the same. -/
theorem endless_skipped : ∃ e others,
    Estimate.between [order filled 10, endless] [order filled 7] (.ofInstant now) (.ofInstant now)
      venue (.minutes 360) = .ok e ∧
    Estimate.between (Book.among (· ≠ vanished) [order filled 10, endless])
      (Book.among (· ≠ vanished) [order filled 7]) (.ofInstant now) (.ofInstant now) venue
      (.minutes 360) = .ok others ∧ others.deltas = e.deltas := by
  obtain ⟨succeeds, -, split⟩ := Estimate.between_one_by_one [order filled 10, endless]
    [order filled 7] venue (Stamp.utc?_ofInstant now) (Stamp.utc?_ofInstant now)
    (show (now.add? (-.minutes 360)).isSome by decide) (by decide)
  have judgeable : Estimate.Judgeable [order filled 10, endless] [order filled 7] := by
    unfold Estimate.Judgeable
    decide
  obtain ⟨e, he⟩ := succeeds.2 judgeable
  obtain ⟨own, others, -, hothers, -, -, skipped⟩ := split e he vanished
  exact ⟨e, others, he, hothers, skipped endless (by decide) rfl (.inl (by decide))⟩

/-- An order of a duration that leads out of the representable years. -/
def lasting : Order :=
  { order vanished 4 with duration := 100000000000000000000 }

/-- Such an order passes its check, and as it vanishes it takes the trades of all others with it. -/
theorem lasting_overflows : lasting.Validated ∧
    Estimate.between [order filled 10, lasting] [order filled 7] (.ofInstant now) (.ofInstant now)
      venue (.minutes 360) = .error .overflow ∧
    (Estimate.between [order filled 10] [order filled 7] (.ofInstant now) (.ofInstant now) venue
      (.minutes 360)).map (·.deltas.length) = .ok 2 := by
  refine ⟨⟨_, Order.check_toValue (sound_of_price rfl (by decide) (by decide))⟩, ?_, ?_⟩ <;>
    with_unfolding_all rfl

end Sample

end OrderFlow
