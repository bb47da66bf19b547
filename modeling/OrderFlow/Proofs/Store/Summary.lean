import OrderFlow.Proofs.Price.Basic
import OrderFlow.Proofs.Store.Snapshot

/-!
# Summaries of items

Orders are collected one by one, and at any time there is a summary of each item that was met,
which is exact for the orders of the item so far (`ItemSummary.Collected`). So a book has one exact
summary for each of its items, in strict order (`ItemSummary.lists_ofAll`), and those that are
returned are the first of them (`Store.summaries_exact`).
-/

namespace OrderFlow

namespace Side

/-- A price on a side that does not beat another one. -/
def NoBetter : Side → Price → Price → Prop
  | .buy, p, q => p.cents ≤ q.cents
  | .sell, p, q => q.cents ≤ p.cents

variable {side : Side} {p q r : Price}

theorem NoBetter.refl : side.NoBetter p p := by
  cases side <;> exact Nat.le_refl _

theorem NoBetter.trans (h : side.NoBetter p q) (h' : side.NoBetter q r) : side.NoBetter p r := by
  cases side with
  | buy => exact Nat.le_trans h h'
  | sell => exact Nat.le_trans h' h

theorem noBetter_of_not (h : ¬ side.NoBetter p q) : side.NoBetter q p := by
  cases side with
  | buy => exact Nat.le_of_not_le h
  | sell => exact Nat.le_of_not_le h

/-- The best price of orders on a side: there is none without an order, and otherwise it is the
price of one of them, and that of none of them beats it. -/
inductive IsBest (side : Side) (orders : List Order) : Option Decimal → Prop
  | absent (nothing : orders = []) : IsBest side orders none
  | price (p : Price) (offered : ∃ o ∈ orders, o.price = some p.toNumber)
      (unbeaten : ∀ o ∈ orders, ∃ q : Price, o.price = some q.toNumber ∧ side.NoBetter q p) :
      IsBest side orders (some p.toDecimal)

variable {orders : List Order} {best : Option Decimal} {o : Order}

/-- One more price takes the place of the best one if it beats it. -/
theorem IsBest.better {beats : Decimal → Decimal → Bool}
    (compares : ∀ p q : Price, beats p.toDecimal q.toDecimal = false ↔ side.NoBetter p q)
    (h : side.IsBest orders best) (price : o.price = some p.toNumber) :
    side.IsBest (orders ++ [o]) (ItemSummary.better beats best (some p.toDecimal)) := by
  have last : o ∈ orders ++ [o] := List.mem_append_right _ List.mem_cons_self
  cases h with
  | absent nothing =>
    subst nothing
    refine .price p ⟨o, last, price⟩ ?_
    intro a ha
    obtain rfl := List.mem_singleton.1 ha
    exact ⟨p, price, .refl⟩
  | price q offered unbeaten =>
    rw [ItemSummary.better]
    by_cases h : side.NoBetter p q
    · rw [(compares p q).2 h]
      obtain ⟨a, ha, first⟩ := offered
      refine .price q ⟨a, List.mem_append_left _ ha, first⟩ ?_
      intro b hb
      rcases List.mem_append.1 hb with hb | hb
      · exact unbeaten b hb
      · obtain rfl := List.mem_singleton.1 hb
        exact ⟨p, price, h⟩
    · rw [Bool.eq_true_of_not_eq_false (mt (compares p q).1 h)]
      refine .price p ⟨o, last, price⟩ ?_
      intro b hb
      rcases List.mem_append.1 hb with hb | hb
      · obtain ⟨r, worth, below⟩ := unbeaten b hb
        exact ⟨r, worth, below.trans (noBetter_of_not h)⟩
      · obtain rfl := List.mem_singleton.1 hb
        exact ⟨p, price, .refl⟩

end Side

namespace ItemSummary

/-- A summary that is exact for some orders: how many of them buy and sell, and at which price at
best. -/
structure Summarizes (s : ItemSummary) (orders : List Order) : Prop where
  buys : s.buys = (orders.filter (·.isBuy)).length
  sells : s.sells = (orders.filter (!·.isBuy)).length
  bestBuy : Side.buy.IsBest (orders.filter (·.isBuy)) s.bestBuy
  bestSell : Side.sell.IsBest (orders.filter (!·.isBuy)) s.bestSell

variable {s : ItemSummary} {summaries : Keyed ItemId ItemSummary} {orders : List Order} {o : Order}

theorem filter_concat (p : Order → Bool) (orders : List Order) (o : Order) :
    (orders ++ [o]).filter p = if p o then orders.filter p ++ [o] else orders.filter p := by
  cases h : p o <;> simp [List.filter_append, h]

theorem summarizes_empty (item : ItemId) : (empty item).Summarizes [] :=
  ⟨rfl, rfl, .absent rfl, .absent rfl⟩

/-- One more order is counted on its side, and the other side stays as it is. -/
theorem Summarizes.add (h : s.Summarizes orders) (sound : o.Sound) :
    (s.add o).Summarizes (orders ++ [o]) := by
  obtain ⟨p, price⟩ := sound.price
  have finite : o.price.bind Number.finite? = some p.toDecimal := by rw [price]; rfl
  unfold ItemSummary.add
  rw [finite]
  cases side : o.isBuy with
  | true =>
    have sells : (orders ++ [o]).filter (!·.isBuy) = orders.filter (!·.isBuy) := by
      rw [filter_concat, if_neg (by simp [side])]
    have buys : (orders ++ [o]).filter (·.isBuy) = orders.filter (·.isBuy) ++ [o] := by
      rw [filter_concat, if_pos side]
    refine ⟨?_, sells ▸ h.sells, ?_, sells ▸ h.bestSell⟩
    · rw [buys, List.length_append, ← h.buys]
      rfl
    · rw [buys]
      refine h.bestBuy.better (fun p q => ?_) price
      rw [Price.lt_toDecimal, decide_eq_false_iff_not, Nat.not_lt]
      rfl
  | false =>
    have buys : (orders ++ [o]).filter (·.isBuy) = orders.filter (·.isBuy) := by
      rw [filter_concat, if_neg (by simp [side])]
    have sells : (orders ++ [o]).filter (!·.isBuy) = orders.filter (!·.isBuy) ++ [o] := by
      rw [filter_concat, if_pos (by simp [side])]
    refine ⟨buys ▸ h.buys, ?_, buys ▸ h.bestBuy, ?_⟩
    · rw [sells, List.length_append, ← h.sells]
      rfl
    · rw [sells]
      refine h.bestSell.better (fun p q => ?_) price
      rw [Price.lt_toDecimal, decide_eq_false_iff_not, Nat.not_lt]
      rfl

theorem item_add (s : ItemSummary) (o : Order) : (s.add o).item = s.item := by
  unfold add
  split <;> rfl

/-- The orders of an item. -/
def ordersOf (item : ItemId) (orders : List Order) : List Order :=
  orders.filter (·.item = item)

theorem ordersOf_concat (item : ItemId) (orders : List Order) (o : Order) :
    ordersOf item (orders ++ [o]) =
      if o.item = item then ordersOf item orders ++ [o] else ordersOf item orders := by
  rw [ordersOf, filter_concat, ordersOf]
  simp only [decide_eq_true_eq]

/-- Every order that is summarized is counted. -/
theorem Summarizes.total (h : s.Summarizes orders) : s.total = orders.length := by
  rw [ItemSummary.total, h.buys, h.sells, Nat.add_comm]
  exact (List.length_eq_length_filter_add _).symm

/-- The summary of an item among some, that of no orders if there is none. -/
def summaryOf (summaries : Keyed ItemId ItemSummary) (item : ItemId) : ItemSummary :=
  (summaries.get? item).getD (.empty item)

/-- One more order changes the summary of its item and of no other. -/
theorem summaryOf_collect (summaries : Keyed ItemId ItemSummary) (o : Order) (item : ItemId) :
    summaryOf (collect summaries o) item =
      if o.item = item then (summaryOf summaries item).add o else summaryOf summaries item := by
  rw [collect, summaryOf, Keyed.get?_alter]
  split
  · rename_i own
    rw [Option.getD_some, own]
    rfl
  · rfl

/-- Summaries that were collected from orders: one for each item that was met, and exact. -/
structure Collected (summaries : Keyed ItemId ItemSummary) (seen : List Order) : Prop where
  distinct : summaries.Distinct
  present : ∀ item, summaries.get? item = none ↔ ordersOf item seen = []
  named : ∀ item, (summaryOf summaries item).item = item
  exact : ∀ item, (summaryOf summaries item).Summarizes (ordersOf item seen)

theorem collected_nil : Collected [] [] where
  distinct := List.nodup_nil
  present _ := ⟨fun _ => rfl, fun _ => rfl⟩
  named _ := rfl
  exact := summarizes_empty

theorem Collected.collect {seen : List Order} (h : Collected summaries seen) (sound : o.Sound) :
    Collected (collect summaries o) (seen ++ [o]) where
  distinct := h.distinct.alter _
  present item := by
    rw [ItemSummary.collect, Keyed.get?_alter, ordersOf_concat]
    split
    · simp
    · exact h.present item
  named item := by
    rw [summaryOf_collect]
    split
    · rw [item_add, h.named]
    · exact h.named item
  exact item := by
    rw [summaryOf_collect, ordersOf_concat]
    split
    · exact (h.exact item).add sound
    · exact h.exact item

theorem Collected.foldl {seen : List Order} (h : Collected summaries seen)
    (sound : ∀ o ∈ orders, o.Sound) :
    Collected (orders.foldl ItemSummary.collect summaries) (seen ++ orders) := by
  induction orders generalizing summaries seen with
  | nil => rwa [List.append_nil]
  | cons o orders ih =>
    rw [List.append_cons]
    exact ih (h.collect (sound o List.mem_cons_self)) fun a ha =>
      sound a (List.mem_cons_of_mem _ ha)

theorem Collected.of_mem {seen : List Order} (h : Collected summaries seen) {item : ItemId}
    (mem : (item, s) ∈ summaries) : s.item = item ∧ s.Summarizes (ordersOf item seen) := by
  have found : summaryOf summaries item = s := by
    rw [summaryOf, h.distinct.get?_eq_some_iff.2 mem, Option.getD_some]
  exact ⟨found ▸ h.named item, found ▸ h.exact item⟩

theorem Collected.map_item {seen : List Order} (h : Collected summaries seen) :
    (summaries.map (·.2)).map (·.item) = summaries.map (·.1) := by
  rw [List.map_map]
  exact List.map_congr_left fun entry mem => (h.of_mem mem).1

/-- A summary that comes before another one: it has more orders, or as many and the smaller
identifier. -/
def Before (a b : ItemSummary) : Prop :=
  b.total < a.total ∨ a.total = b.total ∧ a.item.val < b.item.val

theorem le_iff {a b : ItemSummary} :
    a.le b = true ↔ b.total < a.total ∨ a.total = b.total ∧ a.item.val ≤ b.item.val := by
  simp [le]

theorem before_of_le {a b : ItemSummary} (h : a.le b = true) (ne : a.item ≠ b.item) :
    a.Before b := by
  rcases le_iff.1 h with more | ⟨equal, le⟩
  · exact .inl more
  · refine .inr ⟨equal, Nat.lt_of_le_of_ne le ?_⟩
    intro same
    exact ne ((Id.mk.injEq ..).mpr same)

theorem pairwise_mergeSort (summaries : List ItemSummary) :
    (summaries.mergeSort le).Pairwise fun a b => a.le b = true := by
  apply List.pairwise_mergeSort
  · intro a b c
    rw [le_iff, le_iff, le_iff]
    omega
  · intro a b
    rw [Bool.or_eq_true, le_iff, le_iff]
    omega

/-- The summaries of all items of some orders. -/
def ofAll (orders : List Order) : List ItemSummary :=
  ((orders.foldl collect []).map (·.2)).mergeSort le

/-- The summaries of all items that have an order on the sides that are chosen. -/
def ofSide (orders : List Order) (side : Option Side) : List ItemSummary :=
  ofAll (orders.filter (BookView.selects none side))

theorem ofOrders_eq (orders : List Order) (side : Option Side) (limit : Int) :
    ofOrders orders side limit = (ofSide orders side).take limit.toNat :=
  rfl

/-- Summaries of some orders: in strict order, one for each item that has an order, and each exact
for the orders of its item. -/
structure Lists (all : List ItemSummary) (orders : List Order) : Prop where
  ordered : all.Pairwise Before
  distinct : (all.map (·.item)).Nodup
  covers : ∀ item, (∃ s ∈ all, s.item = item) ↔ ∃ o ∈ orders, o.item = item
  exact : ∀ s ∈ all, s.Summarizes (ordersOf s.item orders)

theorem lists_ofAll (sound : ∀ o ∈ orders, o.Sound) : Lists (ofAll orders) orders := by
  have collected := collected_nil.foldl sound
  rw [List.nil_append] at collected
  have entries {s : ItemSummary} (hs : s ∈ ofAll orders) :
      (s.item, s) ∈ orders.foldl collect [] := by
    obtain ⟨⟨item, s⟩, entry, rfl⟩ := List.mem_map.1 (List.mem_mergeSort.1 hs)
    rwa [(collected.of_mem entry).1]
  have items : ((ofAll orders).map (·.item)).Nodup := by
    rw [ofAll, ((List.mergeSort_perm _ le).map _).nodup_iff, collected.map_item]
    exact collected.distinct
  refine ⟨?_, items, ?_, fun s hs => (collected.of_mem (entries hs)).2⟩
  · refine ((pairwise_mergeSort _).and (List.pairwise_map.1 items)).imp ?_
    intro a b h
    exact before_of_le h.1 h.2
  · intro item
    have occurs : (∃ o ∈ orders, o.item = item) ↔ ordersOf item orders ≠ [] := by
      simp [ordersOf]
    rw [occurs, Ne, ← collected.present item, ← Ne, Option.ne_none_iff_exists']
    constructor
    · rintro ⟨s, hs, rfl⟩
      exact ⟨s, collected.distinct.get?_eq_some_iff.2 (entries hs)⟩
    · rintro ⟨s, found⟩
      have mem := Keyed.mem_of_get?_eq_some found
      exact ⟨s, List.mem_mergeSort.2 (List.mem_map_of_mem (f := Prod.snd) mem),
        (collected.of_mem mem).1⟩

theorem lists_ofSide (sound : ∀ o ∈ orders, o.Sound) (side : Option Side) :
    Lists (ofSide orders side) (orders.filter (BookView.selects none side)) :=
  lists_ofAll fun o ho => sound o (List.mem_filter.1 ho).1

end ItemSummary

namespace Store

/-- Summaries are read exactly if the book is. -/
theorem summaries_eq (s : Store) (venue : VenueId) (side : Option Side) (limit : Int) :
    s.summaries venue side limit = (s.snapshot? venue).map fun previous =>
      (ItemSummary.ofSide (previousOrders previous) side).take limit.toNat := by
  unfold summaries
  cases s.snapshot? venue with
  | error f => rfl
  | ok previous =>
    cases previous with
    | none =>
      show Except.ok [] = Except.ok _
      simp [previousOrders, ItemSummary.ofSide, ItemSummary.ofAll]
    | some snapshot => exact congrArg Except.ok (ItemSummary.ofOrders_eq snapshot.orders side limit)

/-- **Summaries are exact.** Where the book of a venue can be read, there is one list for each
choice of sides: it has one summary for each item with an order on them, in strict order, and each
is exact for the orders of its item. For every limit, as many of the first of them are returned, and
those that are left out come after all of these. A book of orders that passed their check can be
read, and where a book cannot, there are no summaries either. -/
theorem summaries_exact (s : Store) (venue : VenueId) :
    (∀ previous, s.snapshot? venue = .ok previous → ∀ side, ∃ all,
      ItemSummary.Lists all ((previousOrders previous).filter (BookView.selects none side)) ∧
        ∀ limit, s.summaries venue side limit = .ok (all.take (max limit 0).toNat) ∧
          ∀ a ∈ all.take (max limit 0).toNat, ∀ b ∈ all.drop (max limit 0).toNat, a.Before b) ∧
    (∀ t time orders, s.tables = some t → Cell.Fits venue.val →
      t.book? venue = some ⟨time, Tables.documentOf orders⟩ → (∀ o ∈ orders, o.Validated) →
      (∀ o ∈ orders, o.Legible) → s.snapshot? venue = .ok (some ⟨venue, time, orders, []⟩)) ∧
    ∀ f, s.snapshot? venue = .error f → ∀ side limit, s.summaries venue side limit = .error f := by
  refine ⟨?_, ?_, ?_⟩
  · intro previous loaded side
    have sound : ∀ o ∈ previousOrders previous, o.Sound := fun o ho =>
      (validated_of_snapshot loaded o ho).sound
    have lists := ItemSummary.lists_ofSide sound side
    refine ⟨_, lists, fun limit => ⟨?_, ?_⟩⟩
    · rw [summaries_eq, loaded, show (max limit 0).toNat = limit.toNat by omega]
      rfl
    · have ordered := lists.ordered
      rw [← List.take_append_drop (max limit 0).toNat (ItemSummary.ofSide _ _),
        List.pairwise_append] at ordered
      exact ordered.2.2
  · intro t time orders ht fits stored validated legible
    have sound (o : Order) (ho : o ∈ orders) : o.Sound := (validated o ho).sound
    rw [snapshot?_eq_ok_iff ht, stored]
    exact ⟨fits, _, Snapshot.ofBook_documentOf sound legible s.room venue time, rfl⟩
  · intro f failed side limit
    rw [summaries_eq, failed]
    rfl

end Store

namespace Sample

/-- The prices 2.50 and 2.49. -/
def offer (below : Bool) : Price :=
  ⟨if below then 249 else 250, false, by cases below <;> decide, by simp⟩

/-- An order of another item, and three of one that is both bought and sold. -/
def market : List Order :=
  [{ order filled 10 with item := ⟨38, by decide⟩ }, order vanished 4,
    { order ⟨301, by decide⟩ 1 with price := some (offer true).toNumber },
    { order ⟨302, by decide⟩ 2 with isBuy := true }]

/-- The item with three orders comes first. -/
theorem first_of_market : ∃ all, ItemSummary.Lists all market ∧
    (stored market []).summaries venue none 1 = .ok (all.take 1) ∧
    all.take 1 = [⟨item, 2, 1, some (offer true).toDecimal, some (offer false).toDecimal⟩] ∧
    ∀ a ∈ all.take 1, ∀ b ∈ all.drop 1, a.Before b := by
  have validated : ∀ o ∈ market, o.Validated := by
    have sound (below : Bool) {o : Order} (price : o.price = some (offer below).toNumber)
        (remaining : 0 ≤ o.remaining) (total : 0 ≤ o.total) : o.Validated :=
      ⟨_, Order.check_toValue ⟨⟨_, price⟩, remaining, total⟩⟩
    simp only [market, List.mem_cons, List.not_mem_nil, or_false, forall_eq_or_imp, forall_eq]
    exact ⟨sound false rfl (by decide) (by decide), sound false rfl (by decide) (by decide),
      sound true rfl (by decide) (by decide), sound false rfl (by decide) (by decide)⟩
  obtain ⟨exact, loads, -⟩ := Store.summaries_exact (stored market []) venue
  have legible : ∀ o ∈ market, o.Legible := by
    decide +kernel
  have loaded := loads _ now market rfl (by decide) rfl validated legible
  obtain ⟨all, lists, returned⟩ := exact _ loaded none
  obtain ⟨first, others⟩ := returned 1
  refine ⟨all, lists, first, ?_, others⟩
  have collected : (market.foldl ItemSummary.collect []).map (·.2) =
      [⟨⟨38, by decide⟩, 1, 0, some (offer false).toDecimal, none⟩,
        ⟨item, 2, 1, some (offer true).toDecimal, some (offer false).toDecimal⟩] := by
    decide +kernel
  have sorted : (ItemSummary.ofSide market none).take 1 =
      [⟨item, 2, 1, some (offer true).toDecimal, some (offer false).toDecimal⟩] := by
    have every : market.filter (BookView.selects none none) = market := rfl
    rw [ItemSummary.ofSide, every, ItemSummary.ofAll, collected]
    simp [List.mergeSort, List.MergeSort.Internal.splitInTwo, ItemSummary.le, ItemSummary.total]
  rw [Store.summaries_eq, loaded] at first
  exact (Except.ok.inj first).symm.trans sorted

end Sample

end OrderFlow
