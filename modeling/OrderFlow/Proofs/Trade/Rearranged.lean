import Mathlib.Data.List.Forall2
import OrderFlow.Proofs.Trade.Agreement
import OrderFlow.Proofs.Trade.ByIdentifier
import OrderFlow.Proofs.Trade.Rows

/-!
# The order of a list does not matter

Lists in which no identifier repeats are their own books, and a book in another order finds the same
orders. So the trades between two lists are the same in whatever order these are given, up to the
order of the trades (`Estimate.deltas_of_perm`). Their rows have the same keys, as these are sorted,
and the same figures, as sums that are not rounded do not depend on the order either
(`aggregate_of_perm`).
-/

namespace OrderFlow

/-- Two rows of the same key with the same figures as numbers. -/
structure TradeRow.Same (r s : TradeRow) : Prop where
  key : r.key = s.key
  amount : r.amount = s.amount
  events : r.events = s.events
  value : ∃ x y, r.value = .finite x ∧ s.value = .finite y ∧ x.value = y.value
  high : r.high.value = s.high.value
  low : r.low.value = s.low.value

section Rows

variable {ds es : List TradeDelta} {r s : TradeRow}

/-- What adds the same deltas up is the same. -/
theorem TradeRow.AddsUp.same (hr : r.AddsUp ds) (hs : s.AddsUp es) (perm : ds.Perm es)
    (key : r.key = s.key) : r.Same s := by
  obtain ⟨x, hx, worth⟩ := hr.value
  obtain ⟨y, hy, worth'⟩ := hs.value
  obtain ⟨top, htop, high⟩ := hr.high
  obtain ⟨top', htop', high'⟩ := hs.high
  obtain ⟨bottom, hbottom, low⟩ := hr.low
  obtain ⟨bottom', hbottom', low'⟩ := hs.low
  constructor
  · exact key
  · rw [hr.amount, hs.amount]
    exact (perm.map _).sum_eq
  · rw [hr.events, hs.events]
    exact (perm.map _).sum_eq
  · refine ⟨x, y, hx, hy, ?_⟩
    rw [worth, worth']
    exact (perm.map _).sum_eq
  -- either extreme is the price of a delta, which the other row has counted, too
  · apply le_antisymm
    · exact high ▸ hs.le_high top (perm.mem_iff.1 htop)
    · exact high' ▸ hr.le_high top' (perm.mem_iff.2 htop')
  · apply le_antisymm
    · exact low' ▸ hr.low_le bottom' (perm.mem_iff.2 hbottom')
    · exact low ▸ hs.low_le bottom (perm.mem_iff.1 hbottom)

/-- The keys of the rows do not depend on the order of the deltas. -/
theorem keys_aggregate_of_perm (priced : ∀ d ∈ ds, d.Priced) (perm : ds.Perm es) :
    (aggregate ds).map (·.key) = (aggregate es).map (·.key) := by
  have priced' : ∀ d ∈ es, d.Priced := fun d hd => priced d (perm.mem_iff.2 hd)
  have ascending {ds : List TradeDelta} (priced : ∀ d ∈ ds, d.Priced) :
      ((aggregate ds).map (·.key)).Pairwise fun a b => a.ranked < b.ranked :=
    List.pairwise_map.2 (aggregate_ascending priced)
  apply List.Perm.eq_of_pairwise _ (ascending priced) (ascending priced')
  · apply (List.perm_ext_iff_of_nodup (aggregate_distinct priced) (aggregate_distinct priced')).2
    intro key
    rw [List.mem_map, List.mem_map, exists_row_iff priced, exists_row_iff priced']
    simp only [perm.mem_iff]
  · intro a b _ _ less greater
    exact absurd greater (lt_asymm less)

/-- Rows do not depend on the order of deltas as long as nothing is rounded. -/
theorem aggregate_of_perm (priced : ∀ d ∈ ds, d.Priced) (within : TradeDelta.WithinDigits ds)
    (perm : ds.Perm es) : List.Forall₂ TradeRow.Same (aggregate ds) (aggregate es) := by
  have priced' : ∀ d ∈ es, d.Priced := fun d hd => priced d (perm.mem_iff.2 hd)
  have within' : TradeDelta.WithinDigits es := by
    intro key
    rw [← ((perm.filter (·.key = key)).map TradeDelta.worth).sum_eq]
    exact within key
  have keys : List.Forall₂ (fun r s : TradeRow => r.key = s.key) (aggregate ds) (aggregate es) := by
    have same := keys_aggregate_of_perm priced perm
    rwa [← List.forall₂_eq_eq_eq, List.forall₂_map_left_iff, List.forall₂_map_right_iff] at same
  obtain ⟨length, keyed⟩ := List.forall₂_iff_zip.1 keys
  refine List.forall₂_iff_zip.2 ⟨length, fun {r s} pair => ?_⟩
  obtain ⟨hr, hs⟩ := List.of_mem_zip pair
  have key := keyed pair
  have sums := addsUp_of_mem priced' within' hs
  rw [← key] at sums
  exact (addsUp_of_mem priced within hr).same sums (perm.filter _) key

end Rows

namespace Book

variable {previous previous' current current' : Book}

/-- The orders that are gone do not depend on the order of the books. -/
theorem gone_perm (nodup : current.ids.Nodup) (perm : previous.Perm previous')
    (perm' : current.Perm current') : (gone previous current).Perm (gone previous' current') := by
  have same (id : OrderId) : current.has id = current'.has id := by
    rw [has, has, find?_of_perm nodup perm']
  unfold gone
  simp only [same]
  exact perm.filter _

end Book

/-- An order whose price has two places if it is finite, as prices do that passed their check. -/
def Order.TwoPlaces (o : Order) : Prop :=
  ∀ x ∈ o.finitePrice?, ∃ p : Price, x = p.toDecimal

theorem Order.Sound.twoPlaces {o : Order} (sound : o.Sound) : o.TwoPlaces := by
  obtain ⟨p, hp⟩ := sound.price
  intro x hx
  rw [Order.finitePrice?, hp] at hx
  exact ⟨p, (Option.some.inj hx).symm⟩

namespace Estimate

variable {day : Day} {venue : VenueId} {previousAt nowAt : Stamp} {window : Duration}
  {before before' after after' : List Order} {o c : Order} {p n : Instant}

/-- A delta has the price that its terms say. -/
theorem priced_of_terms {d : TradeDelta} {key : TradeKey} {quantity : Int} {events : Nat}
    {price : Price} (h : d.terms = (key, quantity, events, price.toDecimal)) : d.Priced :=
  ⟨price, congrArg (·.2.2.2) h⟩

/-- The trades of an order that went down have the price of either state. -/
theorem priced_filled (ho : o.TwoPlaces) (hc : c.TwoPlaces) :
    ∀ d ∈ (filled day venue o c).filterMap Finding.delta?, d.Priced := by
  intro d hd
  have said : d.terms ∈ drop day venue o c := terms_filled day venue o c ▸ List.mem_map_of_mem hd
  unfold drop at said
  split at said
  · split at said
    · rename_i usable
      obtain ⟨price, rfl⟩ := (Option.or_eq_some_iff.1 usable).elim (ho _) fun h => hc _ h.2
      rcases List.mem_pair.1 said with h | h
      · exact priced_of_terms h
      · exact priced_of_terms h
    · cases said
  · cases said

theorem priced_unexpired (ho : o.TwoPlaces) :
    ∀ d ∈ (unexpired day venue o).filterMap Finding.delta?, d.Priced := by
  intro d hd
  by_cases positive : 0 < o.remaining
  · have said := terms_unexpired day venue positive ▸ List.mem_map_of_mem (f := TradeDelta.terms) hd
    split at said
    · rename_i usable
      obtain ⟨price, rfl⟩ := ho _ usable
      exact priced_of_terms (List.mem_singleton.1 said)
    · cases said
  · rw [unexpired, dif_neg positive] at hd
    cases hd

/-- The trades of an order that vanished have its price. -/
theorem priced_loss (ho : o.TwoPlaces) :
    ∀ d ∈ loss day venue previousAt nowAt window o, d.Priced := by
  rcases loss_cases day venue previousAt nowAt window o with nothing | unexpired
  · rw [nothing]
    simp
  · rw [unexpired]
    exact priced_unexpired ho

/-- Whatever an estimate infers has a price of two places, if all finite prices of orders do. -/
theorem priced_between (places : ∀ o ∈ before, o.TwoPlaces) (places' : ∀ o ∈ after, o.TwoPlaces)
    (hp : previousAt.utc? = some p) (hn : nowAt.utc? = some n) {e : Estimate}
    (h : between before after previousAt nowAt venue window = .ok e) :
    ∀ d ∈ e.deltas, d.Priced := by
  obtain ⟨-, deltas⟩ := between_ok hp hn h
  rw [deltas]
  intro d hd
  rcases List.mem_append.1 hd with hd | hd
  · obtain ⟨c, hc, hd⟩ := List.mem_flatMap.1 hd
    unfold fill at hd
    cases found : (Book.ofOrders before).find? c.id with
    | none => simp [found] at hd
    | some o =>
      rw [found] at hd
      exact priced_filled (places o (Book.mem_of_mem_ofOrders (Book.mem_of_find? found)))
        (places' c (Book.mem_of_mem_ofOrders hc)) d hd
  · obtain ⟨o, ho, hd⟩ := List.mem_flatMap.1 hd
    exact priced_loss (places o (Book.mem_of_mem_ofOrders (List.mem_filter.1 ho).1)) d hd

/-- An estimate that succeeds has both times in range. -/
theorem utc?_of_between {e : Estimate}
    (h : between before after previousAt nowAt venue window = .ok e) :
    ∃ p n, previousAt.utc? = some p ∧ nowAt.utc? = some n := by
  unfold between at h
  cases hp : previousAt.utc? with
  | none => simp [hp] at h
  | some p =>
    cases hn : nowAt.utc? with
    | none => simp [hp, hn] at h
    | some n => exact ⟨p, n, rfl, rfl⟩

/-- An estimate fails only where an instant cannot be represented. -/
theorem overflow_of_between {f : Failure}
    (h : between before after previousAt nowAt venue window = .error f) : f = .overflow := by
  cases hp : previousAt.utc? with
  | none =>
    simp only [between, hp] at h
    cases h
    rfl
  | some p =>
    cases hn : nowAt.utc? with
    | none =>
      simp only [between, hp, hn] at h
      cases h
      rfl
    | some n => exact between_error hp hn h

section Perm

variable (perm : before.Perm before') (perm' : after.Perm after')
  (distinct : (before.map (·.id)).Nodup) (distinct' : (after.map (·.id)).Nodup)

include perm perm' distinct distinct'

/-- If all orders that vanished can be judged, they can be in any order. -/
theorem exists_between_of_perm
    (h : ∃ e, between before after previousAt nowAt venue window = .ok e) :
    ∃ e, between before' after' previousAt nowAt venue window = .ok e := by
  obtain ⟨e, he⟩ := h
  obtain ⟨p, n, hp, hn⟩ := utc?_of_between he
  have gone := Book.gone_perm (Book.nodup_ids_ofOrders after) (Book.ofOrders_perm distinct perm)
    (Book.ofOrders_perm distinct' perm')
  have judged := (exists_between_iff hp hn).1 ⟨e, he⟩
  apply (exists_between_iff hp hn).2
  intro o ho
  exact judged o (gone.mem_iff.2 ho)

/-- Single orders account for the same trades, whatever the order in which they are listed. -/
theorem deltas_of_perm {e e' : Estimate}
    (h : between before after previousAt nowAt venue window = .ok e)
    (h' : between before' after' previousAt nowAt venue window = .ok e') :
    e.unchanged = e'.unchanged ∧ e.deltas.Perm e'.deltas := by
  obtain ⟨p, n, hp, hn⟩ := utc?_of_between h
  obtain ⟨unchanged, deltas⟩ := between_ok hp hn h
  obtain ⟨unchanged', deltas'⟩ := between_ok hp hn h'
  have nodup := Book.nodup_ids_ofOrders before
  have books := Book.ofOrders_perm distinct perm
  have books' := Book.ofOrders_perm distinct' perm'
  have fills : fill n.day venue (.ofOrders before) = fill n.day venue (.ofOrders before') := by
    funext c
    rw [fill, fill, Book.find?_of_perm nodup books]
  have gone := Book.gone_perm (Book.nodup_ids_ofOrders after) books books'
  constructor
  · rw [unchanged, unchanged']
    exact Book.unchanged_of_perm nodup books books'
  · rw [deltas, deltas', fills]
    exact (books'.flatMap_right _).append (gone.flatMap_right _)

end Perm

/-- **Estimates do not depend on the order of the lists.** If no identifier repeats, estimates of
rearranged lists fail alike, or agree on whether the books are unchanged and on the trades, up to
their order. As long as these are not worth more than 28 digits can say, their rows are the same. -/
theorem between_rearranged (perm : before.Perm before') (perm' : after.Perm after')
    (distinct : (before.map (·.id)).Nodup) (distinct' : (after.map (·.id)).Nodup)
    (places : ∀ o ∈ before, o.TwoPlaces) (places' : ∀ o ∈ after, o.TwoPlaces)
    (previousAt nowAt : Stamp) (venue : VenueId) (window : Duration) :
    Outcome.Agrees (fun e e' => e.unchanged = e'.unchanged ∧ e.deltas.Perm e'.deltas ∧
        (TradeDelta.WithinDigits e.deltas →
          List.Forall₂ TradeRow.Same (aggregate e.deltas) (aggregate e'.deltas)))
      (between before after previousAt nowAt venue window)
      (between before' after' previousAt nowAt venue window) := by
  apply Outcome.agrees_of
  · constructor
    · exact exists_between_of_perm perm perm' distinct distinct'
    · exact exists_between_of_perm perm.symm perm'.symm ((perm.map _).nodup_iff.1 distinct)
        ((perm'.map _).nodup_iff.1 distinct')
  · intro f f' hf hf'
    rw [overflow_of_between hf, overflow_of_between hf']
  · intro e e' he he'
    obtain ⟨unchanged, deltas⟩ := deltas_of_perm perm perm' distinct distinct' he he'
    refine ⟨unchanged, deltas, fun within => ?_⟩
    obtain ⟨p, n, hp, hn⟩ := utc?_of_between he
    exact aggregate_of_perm (priced_between places places' hp hn he) within deltas

end Estimate

namespace Sample

/-- Orders whose price is infinite, above zero and at a zero below it. -/
def assorted : List Order :=
  [{ order priceless 6 with price := some (.infinite false) }, order filled 10,
    { order vanished 4 with price := some (.finite ⟨true, 0, -2⟩) }]

/-- The first two of them later, one of which has a price by now. -/
def remaining : List Order :=
  [order filled 7, order priceless 1]

theorem assorted_rearranged : ∃ e e',
    Estimate.between assorted remaining (.ofInstant now) (.ofInstant now) venue (.minutes 360) =
      .ok e ∧
    Estimate.between assorted.reverse remaining.reverse (.ofInstant now) (.ofInstant now) venue
      (.minutes 360) = .ok e' ∧
    e.deltas.Perm e'.deltas ∧ TradeDelta.WithinDigits e.deltas ∧
    List.Forall₂ TradeRow.Same (aggregate e.deltas) (aggregate e'.deltas) := by
  have places : ∀ o ∈ assorted, o.TwoPlaces := by
    simp only [assorted, List.forall_mem_cons]
    refine ⟨nofun, ?_, ?_, by simp⟩
    · exact (sound_of_price rfl (by decide) (by decide)).twoPlaces
    · exact Order.Sound.twoPlaces ⟨⟨⟨0, true, by decide, fun _ => rfl⟩, rfl⟩, by decide, by decide⟩
  have places' : ∀ o ∈ remaining, o.TwoPlaces := by
    simp only [remaining, List.forall_mem_cons]
    refine ⟨?_, ?_, by simp⟩
    · exact (sound_of_price rfl (by decide) (by decide)).twoPlaces
    · exact (sound_of_price rfl (by decide) (by decide)).twoPlaces
  have agrees := Estimate.between_rearranged (List.reverse_perm assorted).symm
    (List.reverse_perm remaining).symm (by decide) (by decide) places places' (.ofInstant now)
    (.ofInstant now) venue (.minutes 360)
  have within : ∀ e ∈ (Estimate.between assorted remaining (.ofInstant now) (.ofInstant now) venue
      (.minutes 360)).toOption, TradeDelta.WithinDigits e.deltas := by
    decide +kernel
  have succeeds : (Estimate.between assorted remaining (.ofInstant now) (.ofInstant now) venue
      (.minutes 360)).isOk = true := by
    decide
  generalize Estimate.between assorted remaining (.ofInstant now) (.ofInstant now) venue
    (.minutes 360) = first, Estimate.between assorted.reverse remaining.reverse (.ofInstant now)
    (.ofInstant now) venue (.minutes 360) = second at agrees within succeeds ⊢
  cases agrees with
  | error f => cases succeeds
  | @ok e e' related =>
    have own := within e rfl
    obtain ⟨-, perm, rows⟩ := related
    exact ⟨e, e', rfl, rfl, perm, own, rows own⟩

end Sample

end OrderFlow
