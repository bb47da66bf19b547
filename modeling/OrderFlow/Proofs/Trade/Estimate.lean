import Mathlib.Algebra.Ring.Int.Defs
import OrderFlow.Proofs.Order.Book
import OrderFlow.Proofs.Order.Document
import OrderFlow.Proofs.Outcome
import OrderFlow.Proofs.Trade.Tally
import OrderFlow.Trade.Estimate

/-!
# What an estimate infers

`Infers venue ds confirmed slack` says what holds of deltas that were inferred at a venue: they
have prices and are single events, every conservative one has a liberal copy, the conservative
quantities sum up to `confirmed`, and the liberal ones to at most `slack` more. It is kept as deltas
are put together (`Infers.append`). The deltas between two books of sound orders infer the drops of
orders that are in both, with what remained of the vanished ones as slack
(`Estimate.infers_between`).
-/

namespace OrderFlow

namespace TradeDelta

/-- A delta as it counts towards the liberal bound. -/
def toLiberal (d : TradeDelta) : TradeDelta :=
  { d with key := { d.key with bound := .liberal } }

/-- The traded quantity of a venue that counts towards a bound. -/
def traded (venue : VenueId) (bound : Bound) (ds : List TradeDelta) : Int :=
  ((ds.filter fun d => d.key.venue = venue ∧ d.key.bound = bound).map fun d =>
    (d.quantity : Int)).sum

@[simp] theorem traded_nil (venue : VenueId) (bound : Bound) : traded venue bound [] = 0 := rfl

theorem traded_cons (venue : VenueId) (bound : Bound) (d : TradeDelta) (ds : List TradeDelta) :
    traded venue bound (d :: ds) =
      (if d.key.venue = venue ∧ d.key.bound = bound then (d.quantity : Int) else 0) +
        traded venue bound ds := by
  unfold traded
  by_cases h : d.key.venue = venue ∧ d.key.bound = bound <;> simp [h]

theorem traded_append (venue : VenueId) (bound : Bound) (ds es : List TradeDelta) :
    traded venue bound (ds ++ es) = traded venue bound ds + traded venue bound es := by
  simp [traded]

theorem traded_elsewhere {venue : VenueId} {ds : List TradeDelta}
    (elsewhere : ∀ d ∈ ds, d.key.venue ≠ venue) (bound : Bound) : traded venue bound ds = 0 := by
  have none : ds.filter (fun d => d.key.venue = venue ∧ d.key.bound = bound) = [] :=
    List.filter_eq_nil_iff.2 fun d hd => by simp [elsewhere d hd]
  rw [traded, none]
  rfl

/-- Every conservative delta has a liberal copy, in the same order. -/
def Paired (ds : List TradeDelta) : Prop :=
  ((ds.filter (·.key.bound = .conservative)).map toLiberal).Sublist
    (ds.filter (·.key.bound = .liberal))

theorem paired_nil : Paired [] :=
  .slnil

theorem Paired.append {ds es : List TradeDelta} (hds : Paired ds) (hes : Paired es) :
    Paired (ds ++ es) := by
  unfold Paired
  rw [List.filter_append, List.filter_append, List.map_append]
  exact List.Sublist.append hds hes

/-- A conservative delta counts towards a key exactly if its copy counts towards the liberal one. -/
theorem toLiberal_key_iff {d : TradeDelta} {key : TradeKey} (hkey : key.bound = .conservative) :
    (d.toLiberal.key = { key with bound := .liberal } ∧ d.key.bound = .conservative) ↔
      d.key = key := by
  obtain ⟨⟨day, venue, item, side, bound⟩, quantity, events, price, positive⟩ := d
  obtain ⟨day', venue', item', side', bound'⟩ := key
  obtain rfl : bound' = .conservative := hkey
  simp [toLiberal, and_assoc]

/-- The deltas of a conservative key have copies under the liberal key. -/
theorem Paired.map_toLiberal {ds : List TradeDelta} (h : Paired ds) {key : TradeKey}
    (hkey : key.bound = .conservative) :
    ((ds.filter (·.key = key)).map toLiberal).Sublist
      (ds.filter (·.key = { key with bound := .liberal })) := by
  have copies := List.Sublist.filter (fun d => decide (d.key = { key with bound := .liberal })) h
  rw [List.filter_map, List.filter_filter, List.filter_filter] at copies
  have lower (d : TradeDelta) : (decide (d.toLiberal.key = { key with bound := .liberal }) &&
      decide (d.key.bound = .conservative)) = decide (d.key = key) := by
    rw [← Bool.decide_and, decide_eq_decide]
    exact toLiberal_key_iff hkey
  have upper (d : TradeDelta) : (decide (d.key = { key with bound := .liberal }) &&
      decide (d.key.bound = .liberal)) = decide (d.key = { key with bound := .liberal }) := by
    rw [← Bool.decide_and, decide_eq_decide]
    constructor
    · intro both
      exact both.1
    · intro e
      exact ⟨e, by rw [e]⟩
  simpa only [Function.comp_apply, lower, upper] using copies

end TradeDelta

/-- The totals of deltas as they count towards the liberal bound are the same. -/
theorem Totals.ofDeltas_map_toLiberal (ds : List TradeDelta) :
    ofDeltas (ds.map TradeDelta.toLiberal) = ofDeltas ds := by
  induction ds with
  | nil => rfl
  | cons d ds ih => rw [List.map_cons, ofDeltas_cons, ofDeltas_cons, ih]; rfl

open TradeDelta

/-- What holds of deltas that were inferred at a venue. -/
structure Infers (venue : VenueId) (ds : List TradeDelta) (confirmed slack : Int) : Prop where
  priced : ∀ d ∈ ds, d.Priced
  single : ∀ d ∈ ds, d.events = 1
  sameVenue : ∀ d ∈ ds, d.key.venue = venue
  paired : Paired ds
  conservative : traded venue .conservative ds = confirmed
  liberal_ge : confirmed ≤ traded venue .liberal ds
  liberal_le : traded venue .liberal ds ≤ confirmed + slack

namespace Infers

variable {venue : VenueId} {ds es : List TradeDelta} {d : TradeDelta} {a b c e : Int}

theorem nil (venue : VenueId) : Infers venue [] 0 0 where
  priced := by simp
  single := by simp
  sameVenue := by simp
  paired := paired_nil
  conservative := rfl
  liberal_ge := by simp
  liberal_le := by simp

theorem append (hds : Infers venue ds a b) (hes : Infers venue es c e) :
    Infers venue (ds ++ es) (a + c) (b + e) where
  priced d hd := (List.mem_append.1 hd).elim (hds.priced d) (hes.priced d)
  single d hd := (List.mem_append.1 hd).elim (hds.single d) (hes.single d)
  sameVenue d hd := (List.mem_append.1 hd).elim (hds.sameVenue d) (hes.sameVenue d)
  paired := hds.paired.append hes.paired
  conservative := by rw [traded_append, hds.conservative, hes.conservative]
  liberal_ge := by
    have := hds.liberal_ge
    have := hes.liberal_ge
    rw [traded_append]
    omega
  liberal_le := by
    have := hds.liberal_le
    have := hes.liberal_le
    rw [traded_append]
    omega

theorem mono (h : Infers venue ds a b) (hb : b ≤ c) : Infers venue ds a c :=
  { h with liberal_le := by have := h.liberal_le; omega }

/-- A confirmed trade counts towards both bounds. -/
theorem pair (priced : d.Priced) (single : d.events = 1) (hvenue : d.key.venue = venue)
    (hbound : d.key.bound = .conservative) : Infers venue [d, d.toLiberal] d.quantity 0 := by
  have copy : d.toLiberal.key.bound = .liberal := rfl
  have copyVenue : d.toLiberal.key.venue = venue := hvenue
  have copyQuantity : d.toLiberal.quantity = d.quantity := rfl
  have copyEvents : d.toLiberal.events = 1 := single
  refine ⟨?_, ?_, ?_, ?_, ?_, ?_, ?_⟩
  · simpa using ⟨priced, priced⟩
  · simpa using ⟨single, copyEvents⟩
  · simpa using ⟨hvenue, copyVenue⟩
  · simp [Paired, hbound, copy]
  all_goals simp [traded_cons, hvenue, hbound, copy, copyVenue, copyQuantity]

/-- A disappearance counts towards the liberal bound only. -/
theorem lone (priced : d.Priced) (single : d.events = 1) (hvenue : d.key.venue = venue)
    (hbound : d.key.bound = .liberal) : Infers venue [d] 0 d.quantity := by
  refine ⟨?_, ?_, ?_, ?_, ?_, ?_, ?_⟩
  · simpa using priced
  · simpa using single
  · simpa using hvenue
  · simp [Paired, hbound]
  all_goals simp [traded_cons, hvenue, hbound]

end Infers

namespace Book

/-- By how much an order went down since a book, zero if the book does not have it. -/
def drop (previous : Book) (c : Order) : Int :=
  match previous.find? c.id with
  | some p => max 0 (p.remaining - c.remaining)
  | none => 0

/-- By how much the orders of a book went down that are in a later book, too. -/
def drops (previous current : Book) : Int :=
  (current.map previous.drop).sum

/-- What remained of the orders of a book that are not in a later one. -/
def vanishedVolume (previous current : Book) : Int :=
  ((previous.filter fun o => !current.has o.id).map (·.remaining)).sum

theorem drops_cons (previous : Book) (c : Order) (rest : Book) :
    drops previous (c :: rest) = previous.drop c + drops previous rest := by
  rw [drops, List.map_cons, List.sum_cons]
  rfl

/-- Nothing went down between two books in the same state. -/
theorem drops_of_unchanged {previous current : Book} (h : unchanged previous current = true) :
    drops previous current = 0 := by
  have none (c : Order) (hc : c ∈ current) : previous.drop c = 0 := by
    obtain ⟨p, hp, remaining⟩ := find?_of_unchanged h hc
    rw [drop, hp]
    simp only
    omega
  rw [drops, List.map_congr_left none]
  simp

end Book

namespace Estimate

variable {day : Day} {venue : VenueId} {previousAt nowAt : Stamp} {window : Duration}
  {previous current : Book} {o p c : Order}

theorem deltas_filled (day : Day) (venue : VenueId) (hp : p.Sound) (c : Order) :
    (p.remaining - c.remaining ≤ 0 ∧ (filled day venue p c).filterMap Finding.delta? = []) ∨
      ∃ d : TradeDelta, d.Priced ∧ d.events = 1 ∧ d.key.venue = venue ∧
        d.key.bound = .conservative ∧ (d.quantity : Int) = p.remaining - c.remaining ∧
        (filled day venue p c).filterMap Finding.delta? = [d, d.toLiberal] := by
  obtain ⟨price, hprice⟩ := hp.price
  have usable : usablePrice? [p.price, c.price] = some price.toDecimal := by
    rw [hprice]
    rfl
  unfold filled
  simp only [usable]
  split
  · rename_i h
    refine .inr ⟨⟨keyOf day venue c .conservative, (p.remaining - c.remaining).toNat, 1,
      price.toDecimal, by omega⟩, ⟨price, rfl⟩, rfl, rfl, rfl, ?_, rfl⟩
    simp only
    omega
  · exact .inl ⟨by omega, rfl⟩

theorem infers_filled (day : Day) (hp : p.Sound) (c : Order) :
    Infers venue ((filled day venue p c).filterMap Finding.delta?)
      (max 0 (p.remaining - c.remaining)) 0 := by
  obtain ⟨small, none⟩ | ⟨d, priced, single, hvenue, hbound, quantity, both⟩ :=
    deltas_filled day venue hp c
  · rw [none, show max 0 (p.remaining - c.remaining) = 0 by omega]
    exact .nil venue
  · have := d.quantity_pos
    rw [both, show max 0 (p.remaining - c.remaining) = d.quantity by omega]
    exact .pair priced single hvenue hbound

theorem infers_fills (day : Day) (sound : ∀ o ∈ previous, o.Sound) (current : Book) :
    Infers venue ((fills day venue previous current).filterMap Finding.delta?)
      (previous.drops current) 0 := by
  induction current with
  | nil => exact .nil venue
  | cons c rest ih =>
    have head : Infers venue ((match previous.find? c.id with
        | some p => filled day venue p c
        | none => []).filterMap Finding.delta?) (previous.drop c) 0 := by
      unfold Book.drop
      cases hp : previous.find? c.id with
      | none => exact .nil venue
      | some p => exact infers_filled day (sound p (Book.mem_of_find? hp)) c
    rw [fills, List.flatMap_cons, List.filterMap_append, Book.drops_cons]
    exact head.append ih

theorem infers_vanished (day : Day) (sound : o.Sound) {findings : List Finding}
    (h : vanished day venue previousAt nowAt window o = .ok findings) :
    Infers venue (findings.filterMap Finding.delta?) 0 o.remaining := by
  have nothing : Infers venue [] 0 o.remaining := (Infers.nil venue).mono sound.remaining
  obtain ⟨price, hprice⟩ := sound.price
  have usable : usablePrice? [o.price] = some price.toDecimal := by
    rw [hprice]
    rfl
  unfold vanished at h
  simp only [usable] at h
  split at h
  · obtain rfl := Outcome.pure_eq_ok_iff.1 h
    exact nothing
  · obtain ⟨expired, -, h⟩ := Outcome.bind_eq_ok_iff.1 h
    split at h
    · obtain rfl := Outcome.pure_eq_ok_iff.1 h
      exact nothing
    · split at h
      · rename_i positive
        obtain rfl := Outcome.pure_eq_ok_iff.1 h
        have lone : Infers venue [⟨keyOf day venue o .liberal, o.remaining.toNat, 1,
          price.toDecimal, by omega⟩] 0 o.remaining.toNat := .lone ⟨price, rfl⟩ rfl rfl rfl
        exact lone.mono (by omega)
      · obtain rfl := Outcome.pure_eq_ok_iff.1 h
        exact nothing

theorem infers_gone (day : Day) {gone : List Order} (sound : ∀ o ∈ gone, o.Sound)
    {findings : List (List Finding)}
    (h : gone.mapM (vanished day venue previousAt nowAt window) = .ok findings) :
    Infers venue (findings.flatten.filterMap Finding.delta?) 0 (gone.map (·.remaining)).sum := by
  induction gone generalizing findings with
  | nil =>
    obtain rfl := Outcome.mapM_nil_eq_ok_iff.1 h
    exact .nil venue
  | cons o gone ih =>
    obtain ⟨first, rest, hfirst, hrest, rfl⟩ := Outcome.mapM_cons_eq_ok_iff.1 h
    rw [List.flatten_cons, List.filterMap_append, List.map_cons, List.sum_cons]
    exact (infers_vanished day (sound o List.mem_cons_self) hfirst).append
      (ih (fun p hp => sound p (List.mem_cons_of_mem _ hp)) hrest)

theorem sum_remaining_nonneg {orders : List Order} (sound : ∀ o ∈ orders, o.Sound) :
    0 ≤ (orders.map (·.remaining)).sum := by
  induction orders with
  | nil => exact Int.le_refl 0
  | cons o orders ih =>
    have first := (sound o List.mem_cons_self).remaining
    have rest := ih fun p hp => sound p (List.mem_cons_of_mem _ hp)
    rw [List.map_cons, List.sum_cons]
    omega

/-- What an estimate says about the books: whether they are unchanged, and trades between them. -/
theorem infers_between {before after : List Order} {estimate : Estimate}
    (sound : ∀ o ∈ before, o.Sound)
    (h : Estimate.between before after previousAt nowAt venue window = .ok estimate) :
    estimate.unchanged = Book.unchanged (.ofOrders before) (.ofOrders after) ∧
      Infers venue estimate.deltas (Book.drops (.ofOrders before) (.ofOrders after))
        (Book.vanishedVolume (.ofOrders before) (.ofOrders after)) := by
  have soundBook : ∀ o ∈ Book.ofOrders before, o.Sound := fun o ho =>
    sound o (Book.mem_of_mem_ofOrders ho)
  have soundGone : ∀ o ∈ (Book.ofOrders before).filter fun o => !(Book.ofOrders after).has o.id,
      o.Sound := fun o ho => soundBook o (List.mem_filter.1 ho).1
  unfold Estimate.between at h
  cases hbefore : previousAt.utc? with
  | none => simp [hbefore] at h
  | some beforeAt =>
    cases hnow : nowAt.utc? with
    | none => simp [hbefore, hnow] at h
    | some now =>
      simp only [hbefore, hnow] at h
      split at h
      · rename_i same
        obtain rfl := Outcome.pure_eq_ok_iff.1 h
        refine ⟨same.symm, ?_⟩
        rw [Book.drops_of_unchanged same]
        exact (Infers.nil venue).mono (sum_remaining_nonneg soundGone)
      · rename_i changed
        obtain ⟨gone, hgone, h⟩ := Outcome.bind_eq_ok_iff.1 h
        obtain rfl := Outcome.pure_eq_ok_iff.1 h
        refine ⟨(Bool.eq_false_iff.2 changed).symm, ?_⟩
        obtain ⟨findings, hfindings, hgone⟩ := Outcome.bind_eq_ok_iff.1 hgone
        obtain rfl := Outcome.pure_eq_ok_iff.1 hgone
        have both := (infers_fills now.day soundBook (.ofOrders after)).append
          (infers_gone now.day soundGone hfindings)
        rw [Int.add_zero, Int.zero_add, ← List.filterMap_append] at both
        exact both

end Estimate

/-! ## Two lists -/

namespace Sample

/-- The key of trades between both lists. -/
def key (bound : Bound) : TradeKey :=
  ⟨now.day, venue, item, .sell, bound⟩

/-- A trade at the price of the orders. -/
def trade (bound : Bound) (quantity : Nat) (positive : 0 < quantity) : Estimate.Finding :=
  .trade ⟨key bound, quantity, 1, ⟨false, 250, -2⟩, positive⟩

/-- What is inferred between both lists: a sale of three units, and at most one of four more. -/
def inferred : Estimate :=
  ⟨false, [trade .conservative 3 (by decide), trade .liberal 3 (by decide),
    trade .liberal 4 (by decide)]⟩

/-- A row of the key. -/
def row (bound : Bound) (amount events : Int) (value : Nat) : TradeRow :=
  ⟨key bound, amount, events, .finite ⟨false, value, -2⟩, ⟨false, 250, -2⟩, ⟨false, 250, -2⟩⟩

theorem aggregate_inferred :
    aggregate inferred.deltas = [row .conservative 3 1 750, row .liberal 7 2 1750] := by
  rw [aggregate, Tally.rows, List.mergeSort_of_pairwise (by decide)]
  with_unfolding_all rfl

end Sample

end OrderFlow
