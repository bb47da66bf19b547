import OrderFlow.Proofs.Time.Stamp
import OrderFlow.Proofs.Trade.Removal

/-!
# Deltas by identifier

An estimate looks orders up in books. Here its deltas are told from the lists themselves
(`deltas_by_identifier`): an identifier counts with its last entry, in the place where it first
occurs. One that is in both lists confirms a `drop`, and one that is in the earlier list only lets a
`remainder` be presumed. Whether an order was due to expire becomes a comparison of integers
(`likelyExpired_eq`).
-/

namespace OrderFlow

namespace Order

/-- The price of an order if it is finite. -/
def finitePrice? (o : Order) : Option Decimal :=
  o.price.bind Number.finite?

/-- An order is due to expire between two observations, give or take a window at either end. -/
def ExpiresWithin (o : Order) (p n : Instant) (window : Duration) : Prop :=
  (p.micros : Int) - window ≤ o.issued.micros + Duration.days o.duration ∧
    o.issued.micros + Duration.days o.duration ≤ n.micros + window

instance (o : Order) (p n : Instant) (window : Duration) : Decidable (o.ExpiresWithin p n window) :=
  inferInstanceAs (Decidable (_ ∧ _))

end Order

/-- What a delta says: its key, quantity, events and price. -/
abbrev TradeTerms :=
  TradeKey × Int × Nat × Decimal

/-- The terms of a delta. -/
def TradeDelta.terms (d : TradeDelta) : TradeTerms :=
  (d.key, d.quantity, d.events, d.price)

namespace Book

theorem flatMap_ofOrders {β : Type} (orders : List Order) (f : Order → List β) :
    (ofOrders orders).flatMap f =
      (orders.map (·.id)).eraseDups.flatMap fun id => (lastOf orders id).elim [] f := by
  rw [← ids_ofOrders, ids, List.flatMap_map]
  refine List.flatMap_congr fun o ho => ?_
  rw [mem_ofOrders_iff.1 ho]
  rfl

theorem flatMap_filter {α β : Type} (xs : List α) (q : α → Bool) (f : α → List β) :
    (xs.filter q).flatMap f = xs.flatMap fun x => if q x then f x else [] := by
  induction xs with
  | nil => rfl
  | cons x xs ih =>
    rw [List.filter_cons, List.flatMap_cons, ← ih]
    split <;> rfl

end Book

namespace Estimate

open Book

variable {day : Day} {venue : VenueId} {p n : Instant} {previousAt nowAt : Stamp}
  {window : Duration} {before after : List Order} {o c : Order} {id : OrderId}

/-- What an order traded that is in both lists: by how much it went down, at the price before, or
after if only that is finite. -/
def drop (day : Day) (venue : VenueId) (o c : Order) : List TradeTerms :=
  if c.remaining < o.remaining then
    match o.finitePrice?.or c.finitePrice? with
    | some price =>
      [(⟨day, venue, c.item, c.side, .conservative⟩, o.remaining - c.remaining, 1, price),
        (⟨day, venue, c.item, c.side, .liberal⟩, o.remaining - c.remaining, 1, price)]
    | none => []
  else []

/-- What an order traded that vanished: all that remained of it, unless it was due to expire. -/
def remainder (day : Day) (venue : VenueId) (p n : Instant) (window : Duration) (o : Order) :
    List TradeTerms :=
  if 0 < o.duration ∧ 0 < o.remaining ∧ ¬ o.ExpiresWithin p n window then
    match o.finitePrice? with
    | some price => [(⟨day, venue, o.item, o.side, .liberal⟩, o.remaining, 1, price)]
    | none => []
  else []

/-- What is confirmed of an identifier: the drop of an order that is in both lists. -/
def confirmed (day : Day) (venue : VenueId) (before after : List Order) (id : OrderId) :
    List TradeTerms :=
  match lastOf before id, lastOf after id with
  | some o, some c => drop day venue o c
  | _, _ => []

/-- What is presumed of an identifier: the remainder of an order that is in the first list only. -/
def presumed (day : Day) (venue : VenueId) (p n : Instant) (window : Duration)
    (before after : List Order) (id : OrderId) : List TradeTerms :=
  match lastOf before id, lastOf after id with
  | some o, none => remainder day venue p n window o
  | _, _ => []

theorem usablePrice?_cons (o : Order) (prices : List (Option Number)) :
    usablePrice? (o.price :: prices) = o.finitePrice?.or (usablePrice? prices) := by
  rw [usablePrice?, List.findSome?_cons, Order.finitePrice?]
  cases o.price.bind Number.finite? <;> rfl

@[simp] theorem usablePrice?_nil : usablePrice? [] = none := rfl

/-- What is found out about an order that is in both lists. -/
theorem terms_filled (day : Day) (venue : VenueId) (o c : Order) :
    ((filled day venue o c).filterMap Finding.delta?).map TradeDelta.terms =
      drop day venue o c := by
  unfold filled drop
  rw [usablePrice?_cons, usablePrice?_cons, usablePrice?_nil, Option.or_none]
  by_cases fell : c.remaining < o.remaining
  · have positive : 0 < o.remaining - c.remaining := by omega
    have quantity : ((o.remaining - c.remaining).toNat : Int) = o.remaining - c.remaining := by
      omega
    simp only [dif_pos positive, if_pos fell]
    cases o.finitePrice?.or c.finitePrice? with
    | none => rfl
    | some price => simp [Finding.delta?, TradeDelta.terms, keyOf, quantity]
  · have none : ¬ 0 < o.remaining - c.remaining := by omega
    simp only [dif_neg none, if_neg fell]
    rfl

theorem terms_unexpired (day : Day) (venue : VenueId) (positive : 0 < o.remaining) :
    ((unexpired day venue o).filterMap Finding.delta?).map TradeDelta.terms =
      match o.finitePrice? with
      | some price => [(⟨day, venue, o.item, o.side, .liberal⟩, o.remaining, 1, price)]
      | none => [] := by
  unfold unexpired
  rw [usablePrice?_cons, usablePrice?_nil, Option.or_none, dif_pos positive]
  cases o.finitePrice? with
  | none => rfl
  | some price =>
    simp [Finding.delta?, TradeDelta.terms, keyOf, Int.toNat_of_nonneg (Int.le_of_lt positive)]

/-- Whether an order was due to expire is a matter of integers, if it can be told. -/
theorem due_of_likelyExpired {due : Bool}
    (h : o.likelyExpired (.ofInstant p) (.ofInstant n) window = .ok due) :
    due = decide (o.ExpiresWithin p n window) := by
  rw [likelyExpired_ofInstant] at h
  cases hexpiry : o.expiry? with
  | none => simp [hexpiry] at h
  | some expiry =>
    cases hfirst : p.add? (-window) with
    | none => simp [hexpiry, hfirst] at h
    | some first =>
      have atExpiry := Instant.micros_of_add? hexpiry
      have atFirst := Instant.micros_of_add? hfirst
      have notBefore : first.micros ≤ expiry.micros ↔
          (p.micros : Int) - window ≤ o.issued.micros + Duration.days o.duration := by
        unfold Duration at *
        omega
      rw [hexpiry, hfirst] at h
      simp only at h
      split at h
      · rename_i before
        have outside : ¬ o.ExpiresWithin p n window := fun within =>
          absurd (notBefore.2 within.1) (Nat.not_le.2 before)
        rw [← Except.ok.inj h, decide_eq_false outside]
      · rename_i notEarlier
        cases hlast : n.add? window with
        | none => simp [hlast] at h
        | some last =>
          have atLast := Instant.micros_of_add? hlast
          have notAfter : expiry.micros ≤ last.micros ↔
              (o.issued.micros : Int) + Duration.days o.duration ≤ n.micros + window := by
            unfold Duration at *
            omega
          rw [hlast] at h
          rw [← Except.ok.inj h, decide_eq_decide, notAfter]
          exact (and_iff_right (notBefore.1 (Nat.not_lt.1 notEarlier))).symm

/-- Within the representable years it can be told. -/
theorem likelyExpired_eq (expires : o.expiry?.isSome) (early : (p.add? (-window)).isSome)
    (late : (n.add? window).isSome) : o.likelyExpired (.ofInstant p) (.ofInstant n) window =
      .ok (decide (o.ExpiresWithin p n window)) := by
  obtain ⟨expiry, hexpiry⟩ := Option.isSome_iff_exists.1 expires
  obtain ⟨first, hfirst⟩ := Option.isSome_iff_exists.1 early
  obtain ⟨last, hlast⟩ := Option.isSome_iff_exists.1 late
  have told : ∃ due, o.likelyExpired (.ofInstant p) (.ofInstant n) window = .ok due := by
    rw [likelyExpired_ofInstant, hexpiry, hfirst, hlast]
    simp only
    split <;> exact ⟨_, rfl⟩
  obtain ⟨due, hdue⟩ := told
  rw [hdue, due_of_likelyExpired hdue]

/-- What is found out about an order that vanished. -/
theorem terms_loss (expires : 0 < o.duration → o.expiry?.isSome)
    (early : (p.add? (-window)).isSome) (late : (n.add? window).isSome) :
    (loss day venue (.ofInstant p) (.ofInstant n) window o).map TradeDelta.terms =
      remainder day venue p n window o := by
  unfold remainder
  by_cases skipped : o.duration ≤ 0 ∨ o.remaining ≤ 0
  · rw [loss_of_skipped skipped, if_neg (by omega)]
    rfl
  · obtain ⟨lasting, remaining⟩ := not_or.1 skipped
    have expired := likelyExpired_eq (expires (by omega)) early late
    rw [loss, judged, vanished_eq, if_neg lasting, expired]
    by_cases due : o.ExpiresWithin p n window
    · rw [if_neg fun h => h.2.2 due, decide_eq_true due]
      rfl
    · rw [if_pos ⟨by omega, by omega, due⟩, decide_eq_false due]
      exact terms_unexpired day venue (by omega)

/-- What the deltas say of the identifiers that are in the later list. -/
theorem terms_fills (day : Day) (venue : VenueId) (before after : List Order) :
    ((ofOrders after).flatMap (fill day venue (ofOrders before))).map TradeDelta.terms =
      (after.map (·.id)).eraseDups.flatMap (confirmed day venue before after) := by
  rw [flatMap_ofOrders, List.map_flatMap]
  refine List.flatMap_congr fun id _ => ?_
  rw [confirmed]
  cases hc : lastOf after id with
  | none => cases lastOf before id <;> rfl
  | some c =>
    have same : c.id = id := id_of_find? (find?_ofOrders after id ▸ hc)
    rw [Option.elim_some, fill, same, find?_ofOrders]
    cases lastOf before id with
    | none => rfl
    | some o => exact terms_filled day venue o c

/-- What the deltas say of the identifiers that are gone from the later list. -/
theorem terms_losses (judgeable : Judgeable before after) (early : (p.add? (-window)).isSome)
    (late : (n.add? window).isSome) :
    ((gone (ofOrders before) (ofOrders after)).flatMap
        (loss day venue (.ofInstant p) (.ofInstant n) window)).map TradeDelta.terms =
      (before.map (·.id)).eraseDups.flatMap (presumed day venue p n window before after) := by
  rw [gone, flatMap_filter, flatMap_ofOrders, List.map_flatMap]
  refine List.flatMap_congr fun id _ => ?_
  rw [presumed]
  cases ho : lastOf before id with
  | none => rfl
  | some o =>
    have found : (ofOrders before).find? id = some o := find?_ofOrders before id ▸ ho
    obtain rfl := id_of_find? found
    rw [Option.elim_some, has, find?_ofOrders]
    cases hc : lastOf after o.id with
    | some c => rfl
    | none =>
      -- only an order that vanished is known to expire in a representable year
      have vanished : o ∈ gone (ofOrders before) (ofOrders after) := by
        refine List.mem_filter.2 ⟨mem_of_find? found, ?_⟩
        rw [has, find?_ofOrders, hc]
        rfl
      exact terms_loss (judgeable o vanished) early late

/-- **Deltas by identifier.** Where both ends of the window and the expiries of the orders that
vanished are in range, an estimate succeeds. Its deltas say what is `confirmed` of each identifier
of the later list, and then what is `presumed` of each one of the earlier list, and nothing else. Of
unchanged books they say nothing. -/
theorem deltas_by_identifier (venue : VenueId) (hp : previousAt.utc? = some p)
    (hn : nowAt.utc? = some n) (early : (p.add? (-window)).isSome) (late : (n.add? window).isSome)
    (judgeable : Judgeable before after) :
    ∃ e, between before after previousAt nowAt venue window = .ok e ∧
      e.unchanged = Book.unchanged (.ofOrders before) (.ofOrders after) ∧
      (e.unchanged = true → e.deltas = []) ∧
      e.deltas.map TradeDelta.terms =
        (after.map (·.id)).eraseDups.flatMap (confirmed n.day venue before after) ++
          (before.map (·.id)).eraseDups.flatMap
            (presumed n.day venue p n window before after) := by
  obtain ⟨e, he⟩ := (exists_between_iff hp hn).2 fun o ho =>
    (exists_vanished_iff early late).2 (judgeable o ho)
  obtain ⟨unchanged, deltas⟩ := between_ok hp hn he
  refine ⟨e, he, unchanged, ?_, ?_⟩
  · intro same
    rw [unchanged] at same
    rw [deltas, fills_of_unchanged same, gone_of_unchanged same]
    rfl
  · rw [deltas, List.map_append, terms_fills, terms_losses judgeable early late]

end Estimate

namespace Sample

/-- An order whose price is infinite at first. -/
def priceless : OrderId := ⟨103, by decide⟩

/-- An order that expires as the venue is observed. -/
def expiring : Order :=
  { order ⟨104, by decide⟩ 5 with issued := ⟨992224000000000, by decide⟩ }

/-- A list that repeats an identifier. -/
def repeating : List Order :=
  [order filled 10, order vanished 4, { order priceless 6 with price := some (.infinite false) },
    expiring, order filled 9]

/-- The list that follows on it. -/
def afterwards : List Order :=
  [order priceless 1, order filled 7]

/-- What is sold at 2.50, by bound and quantity. -/
def sold (bound : Bound) (quantity : Int) : TradeTerms :=
  (⟨now.day, venue, item, .sell, bound⟩, quantity, 1, ⟨false, 250, -2⟩)

theorem repeating_by_identifier : Estimate.Judgeable repeating afterwards ∧
    ∃ e, Estimate.between repeating afterwards (.ofInstant now) (.ofInstant now) venue
      (.minutes 360) = .ok e ∧ e.deltas.map TradeDelta.terms =
        [sold .conservative 5, sold .liberal 5, sold .conservative 2, sold .liberal 2,
          sold .liberal 4] := by
  have judgeable : Estimate.Judgeable repeating afterwards := by
    unfold Estimate.Judgeable
    decide
  obtain ⟨e, he, -, -, deltas⟩ := Estimate.deltas_by_identifier venue (Stamp.utc?_ofInstant now)
    (Stamp.utc?_ofInstant now) (show (now.add? (-.minutes 360)).isSome by decide) (by decide)
    judgeable
  refine ⟨judgeable, e, he, ?_⟩
  rw [deltas]
  decide

end Sample

end OrderFlow
