import OrderFlow.Proofs.Order.Alike
import OrderFlow.Proofs.Time.Stamp
import OrderFlow.Proofs.Trade.Judgement

/-!
# Estimates that agree

Alike books lead to the same trades against a later book, up to the order in which these are listed
and the sign of a price of zero, as long as the orders which are gone from it also have the same
terms (`between_agrees`): the state of an order does not say when it expires.
-/

namespace OrderFlow

/-- Two outcomes that fail in the same way, or succeed with related results. -/
inductive Outcome.Agrees {ε α : Type} (R : α → α → Prop) : Except ε α → Except ε α → Prop
  | ok {a b : α} (related : R a b) : Agrees R (.ok a) (.ok b)
  | error (e : ε) : Agrees R (.error e) (.error e)

/-- Outcomes agree if both or neither succeed, in related results or for the same reason. -/
theorem Outcome.agrees_of {ε α : Type} {R : α → α → Prop} {x y : Except ε α}
    (succeeds : (∃ a, x = .ok a) ↔ ∃ b, y = .ok b)
    (fails : ∀ e e', x = .error e → y = .error e' → e = e')
    (related : ∀ a b, x = .ok a → y = .ok b → R a b) : Agrees R x y := by
  cases x with
  | ok a =>
    obtain ⟨b, rfl⟩ := succeeds.1 ⟨a, rfl⟩
    exact .ok (related a b rfl rfl)
  | error e =>
    cases y with
    | ok b =>
      obtain ⟨a, h⟩ := succeeds.2 ⟨b, rfl⟩
      cases h
    | error e' =>
      obtain rfl := fails e e' rfl rfl
      exact .error e

/-- Two orders that expire at the same time. -/
def Order.SameTerms (a b : Order) : Prop :=
  a.issued = b.issued ∧ a.duration = b.duration

/-- What a delta says in numbers. -/
def TradeDelta.figures (d : TradeDelta) : TradeKey × Nat × Nat × ℚ :=
  (d.key, d.quantity, d.events, d.price.value)

namespace Book

variable {book other current : Book}

/-- The orders of a book that are gone, by identifier. -/
theorem forall_gone_iff (nodup : book.ids.Nodup) {P : Order → Prop} :
    (∀ o ∈ gone book current, P o) ↔
      ∀ id, (!current.has id) = true → ∀ o ∈ book.find? id, P o := by
  constructor
  · intro all id absent o found
    rw [← id_of_find? found] at absent
    exact all o (List.mem_filter.2 ⟨mem_of_find? found, absent⟩)
  · intro all o ho
    obtain ⟨mem, absent⟩ := List.mem_filter.1 ho
    exact all o.id absent o (find?_of_mem nodup mem)

theorem flatMap_gone {β : Type} (nodup : book.ids.Nodup) (f : Order → List β) :
    (gone book current).flatMap f =
      (book.ids.filter (!current.has ·)).flatMap fun id => (book.find? id).elim [] f := by
  have ids : book.ids.filter (!current.has ·) = (gone book current).map (·.id) := by
    rw [Book.ids, gone, List.filter_map]
    rfl
  rw [ids, List.flatMap_map]
  refine List.flatMap_congr fun o ho => ?_
  rw [find?_of_mem nodup (List.mem_filter.1 ho).1]
  rfl

end Book

namespace Estimate

variable {day : Day} {venue : VenueId} {p n : Instant} {previousAt nowAt : Stamp}
  {window : Duration} {a b c : Order}

/-- What findings say in numbers. -/
def figuresOf (findings : List Finding) : List (TradeKey × Nat × Nat × ℚ) :=
  (findings.filterMap Finding.delta?).map TradeDelta.figures

/-- What an order that went down has traded, in numbers. -/
theorem figures_filled {price : Price} (h : a.price = some price.toNumber) (c : Order) :
    figuresOf (filled day venue a c) =
      if 0 < a.remaining - c.remaining then
        [Bound.conservative, .liberal].map fun bound =>
          (keyOf day venue c bound, (a.remaining - c.remaining).toNat, 1, price.toDecimal.value)
      else [] := by
  have usable : usablePrice? [a.price, c.price] = some price.toDecimal := by
    rw [h]
    rfl
  unfold filled
  simp only [usable]
  split <;> rfl

/-- What an order that vanished may have traded, in numbers. -/
theorem figures_unexpired {price : Price} (h : a.price = some price.toNumber) :
    figuresOf (unexpired day venue a) =
      if 0 < a.remaining then
        [(keyOf day venue a .liberal, a.remaining.toNat, 1, price.toDecimal.value)]
      else [] := by
  have usable : usablePrice? [a.price] = some price.toDecimal := by
    rw [h]
    rfl
  unfold unexpired
  simp only [usable]
  split <;> rfl

/-- Orders in the same state on the same terms are judged alike as they vanish. -/
theorem vanished_congr (ha : a.Sound) (hb : b.Sound) (state : a.sameState b = true)
    (terms : a.SameTerms b) (day : Day) (venue : VenueId) (previousAt nowAt : Stamp)
    (window : Duration) :
    (vanished day venue previousAt nowAt window a).map figuresOf =
      (vanished day venue previousAt nowAt window b).map figuresOf := by
  obtain ⟨remaining, -, worth, side, item⟩ := (Order.sameState_iff ha hb).1 state
  obtain ⟨issued, duration⟩ := terms
  obtain ⟨price, hprice⟩ := ha.price
  obtain ⟨price', hprice'⟩ := hb.price
  rw [Order.worth?_of_price hprice, Order.worth?_of_price hprice', Option.some.injEq] at worth
  have key : keyOf day venue a .liberal = keyOf day venue b .liberal := by
    rw [keyOf, keyOf, Order.side, Order.side, side, item]
  have expired : a.likelyExpired previousAt nowAt window =
      b.likelyExpired previousAt nowAt window := by
    rw [Order.likelyExpired, Order.likelyExpired, Order.expiry?, Order.expiry?, issued, duration]
  have same : figuresOf (unexpired day venue a) = figuresOf (unexpired day venue b) := by
    rw [figures_unexpired hprice, figures_unexpired hprice', key, remaining, worth]
  rw [vanished_eq, vanished_eq, expired, duration]
  split
  · rfl
  · cases b.likelyExpired previousAt nowAt window with
    | error f => rfl
    | ok expired =>
      cases expired
      · simp only [Except.map, Bool.false_eq_true, if_false, same]
      · rfl

theorem exists_vanished_congr (ha : a.Sound) (hb : b.Sound) (state : a.sameState b = true)
    (terms : a.SameTerms b) :
    (∃ own, vanished day venue previousAt nowAt window a = .ok own) ↔
      ∃ own, vanished day venue previousAt nowAt window b = .ok own := by
  have same := vanished_congr ha hb state terms day venue previousAt nowAt window
  constructor
  · rintro ⟨own, h⟩
    rw [h] at same
    obtain ⟨own', h', -⟩ := Outcome.map_eq_ok_iff.1 same.symm
    exact ⟨own', h'⟩
  · rintro ⟨own, h⟩
    rw [h] at same
    obtain ⟨own', h', -⟩ := Outcome.map_eq_ok_iff.1 same
    exact ⟨own', h'⟩

theorem figures_judged (o : Order) : figuresOf (judged day venue previousAt nowAt window o) =
    match (vanished day venue previousAt nowAt window o).map figuresOf with
    | .ok figures => figures
    | .error _ => [] := by
  unfold judged
  cases vanished day venue previousAt nowAt window o <;> rfl

theorem figures_loss (ha : a.Sound) (hb : b.Sound) (state : a.sameState b = true)
    (terms : a.SameTerms b) :
    (loss day venue previousAt nowAt window a).map TradeDelta.figures =
      (loss day venue previousAt nowAt window b).map TradeDelta.figures := by
  show figuresOf (judged day venue previousAt nowAt window a) =
    figuresOf (judged day venue previousAt nowAt window b)
  rw [figures_judged, figures_judged, vanished_congr ha hb state terms]

section Alike

variable {book other current : Book}

/-- The orders of a later book account for the same trades. -/
theorem figures_fills (alike : book.Alike other) (sound : ∀ o ∈ book, o.Sound)
    (sound' : ∀ o ∈ other, o.Sound) :
    (current.flatMap (fill day venue book)).map TradeDelta.figures =
      (current.flatMap (fill day venue other)).map TradeDelta.figures := by
  rw [List.map_flatMap, List.map_flatMap]
  refine List.flatMap_congr fun c _ => ?_
  obtain ⟨ha, hb⟩ | ⟨a, b, ha, hb, state⟩ := alike.cases c.id
  · rw [fill, fill, ha, hb]
  · have soundA := sound a (Book.mem_of_find? ha)
    have soundB := sound' b (Book.mem_of_find? hb)
    obtain ⟨remaining, -, worth, -, -⟩ := (Order.sameState_iff soundA soundB).1 state
    obtain ⟨price, hprice⟩ := soundA.price
    obtain ⟨price', hprice'⟩ := soundB.price
    rw [Order.worth?_of_price hprice, Order.worth?_of_price hprice', Option.some.injEq] at worth
    rw [fill, fill, ha, hb]
    show figuresOf (filled day venue a c) = figuresOf (filled day venue b c)
    rw [figures_filled hprice, figures_filled hprice', remaining, worth]

/-- What two alike books tell of an identifier that is gone: nothing, or an order in the same state
on the same terms. -/
theorem gone_cases (alike : book.Alike other) (nodup : book.ids.Nodup)
    (sound : ∀ o ∈ book, o.Sound) (sound' : ∀ o ∈ other, o.Sound)
    (terms : ∀ a ∈ book.gone current, ∀ b ∈ other, a.id = b.id → a.SameTerms b) {id : OrderId}
    (absent : (!current.has id) = true) :
    (book.find? id = none ∧ other.find? id = none) ∨
      ∃ a b, book.find? id = some a ∧ other.find? id = some b ∧ a.Sound ∧ b.Sound ∧
        a.sameState b = true ∧ a.SameTerms b := by
  obtain none | ⟨a, b, ha, hb, state⟩ := alike.cases id
  · exact .inl none
  · have there := Book.mem_of_find? hb
    have gone := (Book.forall_gone_iff nodup).1 terms id absent a ha
    have same : a.id = b.id := (Book.id_of_find? ha).trans (Book.id_of_find? hb).symm
    exact .inr ⟨a, b, ha, hb, sound a (Book.mem_of_find? ha), sound' b there, state,
      gone b there same⟩

/-- Either all orders that are gone from one book can be judged, or neither book's. -/
theorem forall_vanished_congr (alike : book.Alike other) (nodup : book.ids.Nodup)
    (nodup' : other.ids.Nodup) (sound : ∀ o ∈ book, o.Sound) (sound' : ∀ o ∈ other, o.Sound)
    (terms : ∀ a ∈ book.gone current, ∀ b ∈ other, a.id = b.id → a.SameTerms b) :
    (∀ o ∈ book.gone current, ∃ own, vanished day venue previousAt nowAt window o = .ok own) ↔
      ∀ o ∈ other.gone current, ∃ own, vanished day venue previousAt nowAt window o = .ok own := by
  rw [Book.forall_gone_iff nodup, Book.forall_gone_iff nodup']
  refine forall₂_congr fun id absent => ?_
  obtain ⟨ha, hb⟩ | ⟨a, b, ha, hb, soundA, soundB, state, same⟩ :=
    gone_cases alike nodup sound sound' terms absent
  · simp [ha, hb]
  · simpa [ha, hb] using exists_vanished_congr soundA soundB state same

/-- The orders that are gone account for the same trades, listed in the order of the books. -/
theorem figures_losses (alike : book.Alike other) (nodup : book.ids.Nodup)
    (nodup' : other.ids.Nodup) (sound : ∀ o ∈ book, o.Sound) (sound' : ∀ o ∈ other, o.Sound)
    (terms : ∀ a ∈ book.gone current, ∀ b ∈ other, a.id = b.id → a.SameTerms b) :
    (((book.gone current).flatMap (loss day venue previousAt nowAt window)).map
      TradeDelta.figures).Perm
        (((other.gone current).flatMap (loss day venue previousAt nowAt window)).map
          TradeDelta.figures) := by
  rw [List.map_flatMap, List.map_flatMap, Book.flatMap_gone nodup, Book.flatMap_gone nodup']
  have ids := (alike.ids_perm nodup nodup').filter (!current.has ·)
  refine ids.flatMap fun id hid => ?_
  obtain ⟨ha, hb⟩ | ⟨a, b, ha, hb, soundA, soundB, state, same⟩ :=
    gone_cases alike nodup sound sound' terms (List.mem_filter.1 hid).2
  · rw [ha, hb]
  · rw [ha, hb]
    exact .of_eq (figures_loss soundA soundB state same)

end Alike

/-- Two estimates that say the same, up to the order of trades and the sign of a price of zero. -/
def Agrees (e e' : Estimate) : Prop :=
  e.unchanged = e'.unchanged ∧
    (e.deltas.map TradeDelta.figures).Perm (e'.deltas.map TradeDelta.figures)

/-- **Alike books lead to the same trades.** If the orders that are gone from a later list were on
the same terms, then the estimates of both books against this list agree, or both fail. -/
theorem between_agrees {before before' after : List Order}
    (alike : Book.Alike (.ofOrders before) (.ofOrders before'))
    (sound : ∀ o ∈ before, o.Sound) (sound' : ∀ o ∈ before', o.Sound)
    (soundAfter : ∀ o ∈ after, o.Sound)
    (terms : ∀ a ∈ Book.gone (.ofOrders before) (.ofOrders after), ∀ b ∈ Book.ofOrders before',
      a.id = b.id → a.SameTerms b)
    (venue : VenueId) (window : Duration) (p n : Instant) :
    Outcome.Agrees Agrees
      (between before after (.ofInstant p) (.ofInstant n) venue window)
      (between before' after (.ofInstant p) (.ofInstant n) venue window) := by
  have soundBook : ∀ o ∈ Book.ofOrders before, o.Sound := fun o ho =>
    sound o (Book.mem_of_mem_ofOrders ho)
  have soundBook' : ∀ o ∈ Book.ofOrders before', o.Sound := fun o ho =>
    sound' o (Book.mem_of_mem_ofOrders ho)
  have soundLater : ∀ o ∈ Book.ofOrders after, o.Sound := fun o ho =>
    soundAfter o (Book.mem_of_mem_ofOrders ho)
  have nodup := Book.nodup_ids_ofOrders before
  have nodup' := Book.nodup_ids_ofOrders before'
  have hp := Stamp.utc?_ofInstant p
  have hn := Stamp.utc?_ofInstant n
  apply Outcome.agrees_of
  · rw [exists_between_iff hp hn, exists_between_iff hp hn]
    exact forall_vanished_congr alike nodup nodup' soundBook soundBook' terms
  · intro f f' hf hf'
    rw [between_error hp hn hf, between_error hp hn hf']
  · intro e e' he he'
    obtain ⟨unchanged, deltas⟩ := between_ok hp hn he
    obtain ⟨unchanged', deltas'⟩ := between_ok hp hn he'
    constructor
    · rw [unchanged, unchanged']
      exact alike.unchanged_eq nodup nodup' soundBook soundBook' soundLater
    · rw [deltas, deltas', List.map_append, List.map_append,
        figures_fills alike soundBook soundBook']
      exact (figures_losses alike nodup nodup' soundBook soundBook' terms).append_left _

end Estimate

end OrderFlow
