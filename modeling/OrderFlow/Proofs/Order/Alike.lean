import OrderFlow.Proofs.Order.Book
import OrderFlow.Proofs.Order.Document
import OrderFlow.Proofs.Price.Basic

/-!
# Books in the same state

The state of a sound order is a matter of its numbers (`Order.sameState_iff`). Two books are `Alike`
if they hold orders in the same state under the same identifiers, in whatever order. Between books
of equal size it is enough to look up the orders of the later one in the earlier one
(`Book.unchanged_iff_alike`), so that being unchanged is an equivalence of books
(`Book.unchanged_iff_same_figures`).
-/

namespace OrderFlow

namespace Order

/-- The price of an order as a number. -/
def worth? (o : Order) : Option ℚ :=
  (o.price.bind Number.finite?).map Decimal.value

theorem worth?_of_price {o : Order} {p : Price} (h : o.price = some p.toNumber) :
    o.worth? = some p.toDecimal.value := by
  rw [worth?, h]
  rfl

theorem samePrice_toNumber (p q : Price) :
    samePrice (some p.toNumber) (some q.toNumber) = true ↔
      p.toDecimal.value = q.toDecimal.value := by
  show (p.toDecimal.compare q.toDecimal == .eq) = true ↔ _
  rw [Price.compare_toDecimal, beq_iff_eq, Nat.compare_eq_eq, p.value_toDecimal, q.value_toDecimal,
    div_left_inj' (by norm_num), Nat.cast_inj]

variable {a b c : Order}

/-- The state of sound orders is a matter of their numbers. -/
theorem sameState_iff (ha : a.Sound) (hb : b.Sound) :
    a.sameState b = true ↔ a.remaining = b.remaining ∧ a.total = b.total ∧ a.worth? = b.worth? ∧
      a.isBuy = b.isBuy ∧ a.item = b.item := by
  obtain ⟨p, hp⟩ := ha.price
  obtain ⟨q, hq⟩ := hb.price
  have price := samePrice_toNumber p q
  rw [← hp, ← hq] at price
  simp only [sameState, Bool.and_eq_true, beq_iff_eq, worth?_of_price hp, worth?_of_price hq,
    Option.some.injEq, price, and_assoc]

theorem sameState_refl (ha : a.Sound) : a.sameState a = true :=
  (sameState_iff ha ha).2 ⟨rfl, rfl, rfl, rfl, rfl⟩

theorem sameState_symm (ha : a.Sound) (hb : b.Sound) (h : a.sameState b = true) :
    b.sameState a = true := by
  obtain ⟨remaining, total, worth, side, item⟩ := (sameState_iff ha hb).1 h
  exact (sameState_iff hb ha).2 ⟨remaining.symm, total.symm, worth.symm, side.symm, item.symm⟩

theorem sameState_trans (ha : a.Sound) (hb : b.Sound) (hc : c.Sound) (h : a.sameState b = true)
    (h' : b.sameState c = true) : a.sameState c = true := by
  obtain ⟨remaining, total, worth, side, item⟩ := (sameState_iff ha hb).1 h
  obtain ⟨remaining', total', worth', side', item'⟩ := (sameState_iff hb hc).1 h'
  exact (sameState_iff ha hc).2 ⟨remaining.trans remaining', total.trans total',
    worth.trans worth', side.trans side', item.trans item'⟩

end Order

namespace Book

/-- Two books with orders in the same state under the same identifiers. -/
def Alike (book other : Book) : Prop :=
  ∀ id, Option.Rel (fun p q => p.sameState q = true) (book.find? id) (other.find? id)

variable {book other third current : Book} {a b c orders later : List Order} {id : OrderId}

/-- A book that is found unchanged is alike. -/
theorem alike_of_unchanged {before after : List Order}
    (h : unchanged (ofOrders before) (ofOrders after) = true) :
    Alike (ofOrders before) (ofOrders after) := by
  intro id
  cases found : (ofOrders after).find? id with
  | none =>
    have ids := ids_perm_of_unchanged h (nodup_ids_ofOrders after)
    have absent := mt ids.mem_iff.2 (find?_eq_none_iff.1 found)
    rw [find?_eq_none_iff.2 absent]
    exact .none
  | some q =>
    have state := List.all_eq_true.1 (Bool.and_eq_true_iff.1 h).2 q (mem_of_find? found)
    rw [id_of_find? found] at state
    cases there : (ofOrders before).find? id with
    | none => simp [there] at state
    | some p =>
      rw [there] at state
      exact .some state

/-- An identifier is in neither of two alike books, or in both with orders in the same state. -/
theorem Alike.cases (h : Alike book other) (id : OrderId) :
    (book.find? id = none ∧ other.find? id = none) ∨
      ∃ a b, book.find? id = some a ∧ other.find? id = some b ∧ a.sameState b = true := by
  have related := h id
  cases ha : book.find? id with
  | none =>
    rw [ha] at related
    cases hb : other.find? id with
    | none => exact .inl ⟨rfl, rfl⟩
    | some b =>
      rw [hb] at related
      cases related
  | some a =>
    rw [ha] at related
    cases hb : other.find? id with
    | none =>
      rw [hb] at related
      cases related
    | some b =>
      rw [hb] at related
      cases related with
      | some state => exact .inr ⟨a, b, rfl, rfl, state⟩

theorem Alike.mem_ids_iff (h : Alike book other) (id : OrderId) :
    id ∈ book.ids ↔ id ∈ other.ids := by
  rw [← not_iff_not, ← find?_eq_none_iff, ← find?_eq_none_iff]
  obtain ⟨ha, hb⟩ | ⟨a, b, ha, hb, -⟩ := h.cases id <;> simp [ha, hb]

theorem Alike.ids_perm (h : Alike book other) (nodup : book.ids.Nodup) (nodup' : other.ids.Nodup) :
    book.ids.Perm other.ids :=
  (List.perm_ext_iff_of_nodup nodup nodup').2 h.mem_ids_iff

theorem Alike.length_eq (h : Alike book other) (nodup : book.ids.Nodup)
    (nodup' : other.ids.Nodup) : book.length = other.length := by
  have := (h.ids_perm nodup nodup').length_eq
  rwa [ids, ids, List.length_map, List.length_map] at this

/-- Alike books of sound orders are unchanged against the same books. -/
theorem Alike.unchanged_eq (h : Alike book other) (nodup : book.ids.Nodup)
    (nodup' : other.ids.Nodup) (sound : ∀ o ∈ book, o.Sound) (sound' : ∀ o ∈ other, o.Sound)
    (soundLater : ∀ o ∈ current, o.Sound) :
    unchanged book current = unchanged other current := by
  have lengths := h.length_eq nodup nodup'
  unfold unchanged
  rw [lengths, Bool.eq_iff_iff, Bool.and_eq_true, Bool.and_eq_true, List.all_eq_true,
    List.all_eq_true]
  refine and_congr_right fun _ => forall₂_congr fun c hc => ?_
  obtain ⟨ha, hb⟩ | ⟨a, b, ha, hb, state⟩ := h.cases c.id
  · rw [ha, hb]
  · have soundA := sound a (mem_of_find? ha)
    have soundB := sound' b (mem_of_find? hb)
    have soundC := soundLater c hc
    rw [ha, hb]
    show a.sameState c = true ↔ b.sameState c = true
    constructor
    · exact Order.sameState_trans soundB soundA soundC (Order.sameState_symm soundA soundB state)
    · exact Order.sameState_trans soundA soundB soundC state

theorem Alike.refl {book : Book} (sound : ∀ o ∈ book, o.Sound) : Alike book book := by
  intro id
  cases h : book.find? id with
  | none => exact .none
  | some o => exact .some (Order.sameState_refl (sound o (mem_of_find? h)))

theorem Alike.symm (h : Alike book other) (sound : ∀ o ∈ book, o.Sound)
    (sound' : ∀ o ∈ other, o.Sound) : Alike other book := by
  intro id
  obtain ⟨ha, hb⟩ | ⟨a, b, ha, hb, state⟩ := h.cases id
  · rw [ha, hb]
    exact .none
  · rw [ha, hb]
    have soundA := sound a (mem_of_find? ha)
    have soundB := sound' b (mem_of_find? hb)
    exact .some (Order.sameState_symm soundA soundB state)

theorem Alike.trans (h : Alike book other) (h' : Alike other third)
    (sound : ∀ o ∈ book, o.Sound) (sound' : ∀ o ∈ other, o.Sound) (sound'' : ∀ o ∈ third, o.Sound) :
    Alike book third := by
  intro id
  obtain ⟨ha, hb⟩ | ⟨a, b, ha, hb, state⟩ := h.cases id
  · obtain ⟨-, hc⟩ | ⟨b', c, hb', -, -⟩ := h'.cases id
    · rw [ha, hc]
      exact .none
    · rw [hb] at hb'
      cases hb'
  · obtain ⟨hb', -⟩ | ⟨b', c, hb', hc, state'⟩ := h'.cases id
    · rw [hb] at hb'
      cases hb'
    · obtain rfl := Option.some.inj (hb.symm.trans hb')
      rw [ha, hc]
      exact .some (Order.sameState_trans (sound a (mem_of_find? ha)) (sound' b (mem_of_find? hb))
        (sound'' c (mem_of_find? hc)) state state')

/-- A book is unchanged against one that is alike. -/
theorem Alike.unchanged (h : Alike book other) (nodup : book.ids.Nodup)
    (nodup' : other.ids.Nodup) : Book.unchanged book other = true := by
  rw [Book.unchanged, Bool.and_eq_true, beq_iff_eq, List.all_eq_true]
  refine ⟨h.length_eq nodup nodup', fun c hc => ?_⟩
  have found := find?_of_mem nodup' hc
  obtain ⟨-, absent⟩ | ⟨a, b, ha, hb, state⟩ := h.cases c.id
  · rw [found] at absent
    cases absent
  · obtain rfl := Option.some.inj (found.symm.trans hb)
    rw [ha]
    exact state

/-- A book is found unchanged just if it is alike. -/
theorem unchanged_iff_alike :
    unchanged (ofOrders orders) (ofOrders later) = true ↔
      Alike (ofOrders orders) (ofOrders later) := by
  constructor
  · exact alike_of_unchanged
  · intro alike
    exact alike.unchanged (nodup_ids_ofOrders orders) (nodup_ids_ofOrders later)

/-- Books are alike if their lists have the same identifiers and, under each of them, last entries
with the same figures. -/
theorem alike_iff_same_figures (sound : ∀ o ∈ orders, o.Sound) (sound' : ∀ o ∈ later, o.Sound) :
    Alike (ofOrders orders) (ofOrders later) ↔
      (∀ id, id ∈ orders.map (·.id) ↔ id ∈ later.map (·.id)) ∧
        ∀ id, ∀ p ∈ lastOf orders id, ∀ q ∈ lastOf later id,
          p.remaining = q.remaining ∧ p.total = q.total ∧ p.worth? = q.worth? ∧
            p.isBuy = q.isBuy ∧ p.item = q.item := by
  have figures {id : OrderId} {p q : Order} (hp : lastOf orders id = some p)
      (hq : lastOf later id = some q) := Order.sameState_iff (sound p (mem_of_lastOf hp))
    (sound' q (mem_of_lastOf hq))
  unfold Alike
  simp only [find?_ofOrders]
  constructor
  · intro alike
    refine ⟨fun id => ?_, fun id p hp q hq => ?_⟩
    · rw [← not_iff_not, ← lastOf_eq_none_iff, ← lastOf_eq_none_iff]
      have related := alike id
      generalize lastOf orders id = p, lastOf later id = q at related
      cases related <;> simp
    · have related := alike id
      rw [hp, hq] at related
      cases related with
      | some state => exact (figures hp hq).1 state
  · rintro ⟨ids, same⟩ id
    cases hp : lastOf orders id with
    | none =>
      have absent := mt (ids id).2 (lastOf_eq_none_iff.1 hp)
      rw [lastOf_eq_none_iff.2 absent]
      exact .none
    | some p =>
      cases hq : lastOf later id with
      | none =>
        have absent := mt (ids id).1 (lastOf_eq_none_iff.1 hq)
        rw [lastOf_eq_none_iff.2 absent] at hp
        cases hp
      | some q => exact .some ((figures hp hq).2 (same id p hp q hq))

/-- **Being unchanged is equality of books.** The books of two lists of orders that passed their
check are unchanged just if the lists have the same identifiers and, under each of them, last
entries with the same volumes, price, side and item. So this is an equivalence, and where no
identifier repeats the order of a list does not matter. -/
theorem unchanged_iff_same_figures (ha : ∀ o ∈ a, o.Validated) (hb : ∀ o ∈ b, o.Validated)
    (hc : ∀ o ∈ c, o.Validated) :
    (unchanged (ofOrders a) (ofOrders b) = true ↔
      (∀ id, id ∈ a.map (·.id) ↔ id ∈ b.map (·.id)) ∧
        ∀ id, ∀ p ∈ lastOf a id, ∀ q ∈ lastOf b id,
          p.remaining = q.remaining ∧ p.total = q.total ∧ p.worth? = q.worth? ∧
            p.isBuy = q.isBuy ∧ p.item = q.item) ∧
      unchanged (ofOrders a) (ofOrders a) = true ∧
      unchanged (ofOrders a) (ofOrders b) = unchanged (ofOrders b) (ofOrders a) ∧
      (unchanged (ofOrders a) (ofOrders b) = true → unchanged (ofOrders b) (ofOrders c) = true →
        unchanged (ofOrders a) (ofOrders c) = true) ∧
      ∀ a' b', a.Perm a' → b.Perm b' → (a.map (·.id)).Nodup → (b.map (·.id)).Nodup →
        unchanged (ofOrders a) (ofOrders b) = unchanged (ofOrders a') (ofOrders b') := by
  have bookSound {orders : List Order} (h : ∀ o ∈ orders, o.Validated) :
      ∀ o ∈ ofOrders orders, o.Sound := fun o ho => (h o (mem_of_mem_ofOrders ho)).sound
  refine ⟨?_, ?_, ?_, ?_, ?_⟩
  · rw [unchanged_iff_alike]
    exact alike_iff_same_figures (fun o ho => (ha o ho).sound) fun o ho => (hb o ho).sound
  · rw [unchanged_iff_alike]
    exact .refl (bookSound ha)
  · rw [Bool.eq_iff_iff, unchanged_iff_alike, unchanged_iff_alike]
    constructor
    · intro alike
      exact alike.symm (bookSound ha) (bookSound hb)
    · intro alike
      exact alike.symm (bookSound hb) (bookSound ha)
  · rw [unchanged_iff_alike, unchanged_iff_alike, unchanged_iff_alike]
    intro alike alike'
    exact alike.trans alike' (bookSound ha) (bookSound hb) (bookSound hc)
  · intro a' b' perm perm' distinct distinct'
    exact unchanged_of_perm (nodup_ids_ofOrders a) (ofOrders_perm distinct perm)
      (ofOrders_perm distinct' perm')

end Book

namespace Sample

/-- A selling order at a price of zero, which has either sign. -/
def given (id : OrderId) (remaining : Int) (belowZero : Bool) : Order where
  id := id
  item := ⟨37, by decide⟩
  isBuy := false
  price := some (.finite ⟨belowZero, 0, -2⟩)
  remaining := remaining
  total := 20
  issued := ⟨86400000000, by decide⟩
  duration := 90
  minimum := 1
  range := "region"
  location := none

theorem validated_given (id : OrderId) {remaining : Int} (h : 0 ≤ remaining) (belowZero : Bool) :
    (given id remaining belowZero).Validated :=
  ⟨_, Order.check_toValue ⟨⟨⟨0, belowZero, by decide, fun _ => rfl⟩, rfl⟩, h, by simp [given]⟩⟩

/-- Two orders, the first of which is listed twice. -/
def givenTwice : List Order :=
  [given ⟨201, by decide⟩ 6 false, given ⟨202, by decide⟩ 5 true, given ⟨201, by decide⟩ 4 false]

/-- The same orders later, with zeros of the other sign and none of them listed twice. -/
def givenOnce : List Order :=
  [given ⟨202, by decide⟩ 5 false, given ⟨201, by decide⟩ 4 true]

theorem given_unchanged : (∀ o ∈ givenTwice, o.Validated) ∧ (∀ o ∈ givenOnce, o.Validated) ∧
    Book.unchanged (.ofOrders givenTwice) (.ofOrders givenOnce) = true ∧
    Book.unchanged (.ofOrders givenOnce) (.ofOrders givenTwice) = true ∧
    ∀ id, id ∈ givenTwice.map (·.id) ↔ id ∈ givenOnce.map (·.id) := by
  have twice : ∀ o ∈ givenTwice, o.Validated := by
    simp [givenTwice, validated_given]
  have once : ∀ o ∈ givenOnce, o.Validated := by
    simp [givenOnce, validated_given]
  have unchanged : Book.unchanged (.ofOrders givenTwice) (.ofOrders givenOnce) = true := by
    decide
  obtain ⟨same, -, symm, -⟩ := Book.unchanged_iff_same_figures twice once once
  exact ⟨twice, once, unchanged, symm ▸ unchanged, (same.1 unchanged).1⟩

end Sample

end OrderFlow
