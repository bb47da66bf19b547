import Mathlib.Algebra.BigOperators.Group.Finset.Piecewise
import Mathlib.Algebra.Order.BigOperators.Group.Finset
import Mathlib.Algebra.Order.Ring.Int
import OrderFlow.Proofs.Order.Book
import OrderFlow.Proofs.Trade.Estimate

/-!
# Volumes of lists

Volumes of fetched lists as sums over identifiers, where the last entry of an identifier counts:
what orders in two lists went down by, and what remained of orders that are gone. The books of the
lists have the same volumes (`drops_ofOrders`, `vanishedVolume_ofOrders`). Over a run of lists in
which nothing rises and nothing returns, both together are at most what the orders had when they
were first observed (`overRun_le_first`).
-/

namespace OrderFlow

open Finset

namespace Volume

/-- The identifiers of a list. -/
def idsOf (orders : List Order) : Finset OrderId :=
  (orders.map (·.id)).toFinset

/-- What remains of the last order of an identifier, zero if there is none. -/
def remainingOf (orders : List Order) (id : OrderId) : Int :=
  ((Book.lastOf orders id).map (·.remaining)).getD 0

/-- By how much the orders went down that are in two lists. -/
def confirmed (previous current : List Order) : Int :=
  ∑ id ∈ idsOf previous ∩ idsOf current, max 0 (remainingOf previous id - remainingOf current id)

/-- What remained of the orders of a list that are not in a later one. -/
def gone (previous current : List Order) : Int :=
  ∑ id ∈ idsOf previous \ idsOf current, remainingOf previous id

/-- The sum of a volume over consecutive lists. -/
def overRun (volume : List Order → List Order → Int) : List (List Order) → Int
  | previous :: current :: rest => volume previous current + overRun volume (current :: rest)
  | _ => 0

/-- What remained of an order when it was first observed. -/
def firstRemaining (lists : List (List Order)) (id : OrderId) : Int :=
  ((lists.find? fun orders => id ∈ idsOf orders).map (remainingOf · id)).getD 0

/-- What remained of all orders when they were first observed. -/
def first (lists : List (List Order)) : Int :=
  ∑ id ∈ idsOf lists.flatten, firstRemaining lists id

/-- No order has more remaining than in the list before. -/
def NeverRises (lists : List (List Order)) : Prop :=
  lists.IsChain fun previous current =>
    ∀ id ∈ idsOf previous ∩ idsOf current, remainingOf current id ≤ remainingOf previous id

/-- No identifier that vanished is in a later list. -/
def NeverReturns : List (List Order) → Prop
  | previous :: current :: rest =>
    (∀ id ∈ idsOf previous \ idsOf current, ∀ later ∈ rest, id ∉ idsOf later) ∧
      NeverReturns (current :: rest)
  | _ => True

/-- Two lists with the same identifiers and remaining volumes. -/
def Same (a b : List Order) : Prop :=
  ∀ id, (Book.lastOf a id).map (·.remaining) = (Book.lastOf b id).map (·.remaining)

variable {a b previous current : List Order} {id : OrderId} {lists : List (List Order)}

theorem mem_idsOf : id ∈ idsOf a ↔ (Book.lastOf a id).isSome := by
  rw [idsOf, List.mem_toFinset, Book.lastOf, List.find?_isSome]
  simp

theorem idsOf_eq_ids (orders : List Order) :
    idsOf orders = (Book.ofOrders orders).ids.toFinset := by
  ext id
  rw [mem_idsOf, List.mem_toFinset, ← Book.find?_ofOrders, ← not_iff_not, Bool.not_eq_true,
    Option.isSome_eq_false_iff, Option.isNone_iff_eq_none, Book.find?_eq_none_iff]

theorem remainingOf_of_mem {o : Order} (h : o ∈ Book.ofOrders a) :
    remainingOf a o.id = o.remaining := by
  rw [remainingOf, Book.mem_ofOrders_iff.1 h]
  rfl

theorem Same.idsOf_eq (h : Same a b) : idsOf a = idsOf b := by
  ext id
  have same := congrArg Option.isSome (h id)
  rw [Option.isSome_map, Option.isSome_map] at same
  rw [mem_idsOf, mem_idsOf, same]

theorem Same.remainingOf_eq (h : Same a b) : remainingOf a = remainingOf b := by
  funext id
  rw [remainingOf, h id, remainingOf]

theorem Same.confirmed_eq (h : Same a b) (current : List Order) :
    confirmed a current = confirmed b current := by
  rw [confirmed, h.idsOf_eq, h.remainingOf_eq, confirmed]

theorem Same.gone_eq (h : Same a b) (current : List Order) : gone a current = gone b current := by
  rw [gone, h.idsOf_eq, h.remainingOf_eq, gone]

theorem confirmed_nil (current : List Order) : confirmed [] current = 0 := by
  rw [confirmed, show idsOf [] = ∅ from rfl, empty_inter, sum_empty]

theorem gone_nil (current : List Order) : gone [] current = 0 := by
  rw [gone, show idsOf [] = ∅ from rfl, empty_sdiff, sum_empty]

theorem sum_of_nodup {orders : List Order} (nodup : (Book.ids orders).Nodup) (f : OrderId → Int) :
    (orders.map fun o => f o.id).sum = ∑ id ∈ (Book.ids orders).toFinset, f id := by
  rw [List.sum_toFinset f nodup, Book.ids, List.map_map]
  rfl

/-- The drops between two books are the confirmed volume of their lists. -/
theorem drops_ofOrders (previous current : List Order) :
    Book.drops (.ofOrders previous) (.ofOrders current) = confirmed previous current := by
  have drop (c : Order) (hc : c ∈ Book.ofOrders current) : (Book.ofOrders previous).drop c =
      if c.id ∈ idsOf previous then max 0 (remainingOf previous c.id - remainingOf current c.id)
      else 0 := by
    rw [Book.drop, Book.find?_ofOrders, remainingOf_of_mem hc, remainingOf]
    cases hp : Book.lastOf previous c.id with
    | none => rw [if_neg (by simp [mem_idsOf, hp])]
    | some p =>
      rw [if_pos (by simp [mem_idsOf, hp])]
      rfl
  rw [Book.drops, List.map_congr_left drop,
    sum_of_nodup (Book.nodup_ids_ofOrders current) fun id => if id ∈ idsOf previous then
      max 0 (remainingOf previous id - remainingOf current id) else 0,
    ← sum_filter, ← idsOf_eq_ids, filter_mem_eq_inter, inter_comm, confirmed]

/-- What remained of the orders that left a book is the volume that is gone from its list. -/
theorem vanishedVolume_ofOrders (previous current : List Order) :
    Book.vanishedVolume (.ofOrders previous) (.ofOrders current) = gone previous current := by
  have part := List.filter_sublist (p := fun o => !(Book.ofOrders current).has o.id)
    (l := Book.ofOrders previous)
  have nodup := (part.map fun o : Order => o.id).nodup (Book.nodup_ids_ofOrders previous)
  have ids : (Book.ids ((Book.ofOrders previous).filter fun o =>
      !(Book.ofOrders current).has o.id)).toFinset = idsOf previous \ idsOf current := by
    ext id
    rw [idsOf_eq_ids previous, mem_sdiff, mem_idsOf, List.mem_toFinset, List.mem_toFinset,
      ← Book.find?_ofOrders]
    simp only [Book.ids, List.mem_map, List.mem_filter, Book.has, Bool.not_eq_true']
    constructor
    · rintro ⟨o, ⟨ho, absent⟩, rfl⟩
      exact ⟨⟨o, ho, rfl⟩, by simp [absent]⟩
    · rintro ⟨⟨o, ho, rfl⟩, absent⟩
      exact ⟨o, ⟨ho, Bool.not_eq_true _ ▸ absent⟩, rfl⟩
  have remaining (o : Order) (ho : o ∈ (Book.ofOrders previous).filter fun o =>
      !(Book.ofOrders current).has o.id) : o.remaining = remainingOf previous o.id :=
    (remainingOf_of_mem (part.subset ho)).symm
  rw [Book.vanishedVolume, List.map_congr_left remaining, sum_of_nodup nodup, ids, gone]

/-- Lists with unchanged books have the same volumes. -/
theorem same_of_unchanged
    (h : Book.unchanged (.ofOrders previous) (.ofOrders current) = true) :
    Same previous current := by
  have perm := Book.ids_perm_of_unchanged h (Book.nodup_ids_ofOrders current)
  intro id
  rw [← Book.find?_ofOrders, ← Book.find?_ofOrders]
  cases hc : (Book.ofOrders current).find? id with
  | none =>
    have absent := fun mem => Book.find?_eq_none_iff.1 hc (perm.mem_iff.2 mem)
    rw [Book.find?_eq_none_iff.2 absent]
  | some c =>
    obtain rfl := Book.id_of_find? hc
    obtain ⟨p, hp, remaining⟩ := Book.find?_of_unchanged h (Book.mem_of_find? hc)
    rw [hp, Option.map_some, Option.map_some, remaining]

theorem overRun_append (volume : List Order → List Order → Int) (lists : List (List Order))
    (current : List Order) :
    overRun volume (lists ++ [current]) =
      overRun volume lists + (lists.getLast?.map (volume · current)).getD 0 := by
  induction lists with
  | nil => rfl
  | cons first rest ih =>
    cases rest with
    | nil => simp [overRun]
    | cons second rest =>
      rw [List.cons_append, List.cons_append, overRun, ← List.cons_append, ih, overRun,
        List.getLast?_cons_cons]
      omega

theorem idsOf_append (a b : List Order) : idsOf (a ++ b) = idsOf a ∪ idsOf b := by
  rw [idsOf, List.map_append, List.toFinset_append, idsOf, idsOf]

theorem mem_idsOf_flatten : id ∈ idsOf lists.flatten ↔ ∃ orders ∈ lists, id ∈ idsOf orders := by
  induction lists with
  | nil => simp [idsOf]
  | cons a lists ih => simp [idsOf_append, ih]

theorem firstRemaining_of_mem (h : id ∈ idsOf a) :
    firstRemaining (a :: lists) id = remainingOf a id := by
  simp [firstRemaining, h]

theorem firstRemaining_of_notMem (h : id ∉ idsOf a) :
    firstRemaining (a :: lists) id = firstRemaining lists id := by
  simp [firstRemaining, h]

/-- What is first observed is all of the first list, and whatever is new after it. -/
theorem first_cons (a : List Order) (lists : List (List Order)) :
    first (a :: lists) = ∑ id ∈ idsOf a, remainingOf a id +
      ∑ id ∈ idsOf lists.flatten \ idsOf a, firstRemaining lists id := by
  rw [first, List.flatten_cons, idsOf_append, ← union_sdiff_self_eq_union, sum_union disjoint_sdiff]
  apply congrArg₂ (· + ·)
  · apply sum_congr rfl
    intro id h
    exact firstRemaining_of_mem h
  · apply sum_congr rfl
    intro id h
    exact firstRemaining_of_notMem (mem_sdiff.1 h).2

/-- What a list adds in front of a run: the volume that goes down or is gone right after it. -/
theorem first_cons_cons (rises : NeverRises (a :: b :: lists))
    (returns : NeverReturns (a :: b :: lists)) :
    first (a :: b :: lists) = confirmed a b + gone a b + first (b :: lists) := by
  have drops : confirmed a b =
      ∑ id ∈ idsOf a ∩ idsOf b, remainingOf a id - ∑ id ∈ idsOf a ∩ idsOf b, remainingOf b id := by
    rw [confirmed, ← sum_sub_distrib]
    apply sum_congr rfl
    intro id h
    have := (List.isChain_cons_cons.1 rises).1 id h
    omega
  have all : ∑ id ∈ idsOf a, remainingOf a id =
      ∑ id ∈ idsOf a ∩ idsOf b, remainingOf a id + gone a b :=
    (sum_inter_add_sum_sdiff _ _ _).symm
  -- an order of the first list that is observed later is so right after it
  have again : idsOf (b :: lists).flatten ∩ idsOf a = idsOf a ∩ idsOf b := by
    ext id
    rw [List.flatten_cons, idsOf_append, mem_inter, mem_union, mem_inter, mem_idsOf_flatten]
    constructor
    · rintro ⟨hb | ⟨later, mem, hid⟩, ha⟩
      · exact ⟨ha, hb⟩
      · refine ⟨ha, ?_⟩
        by_contra hb
        exact returns.1 id (mem_sdiff.2 ⟨ha, hb⟩) later mem hid
    · rintro ⟨ha, hb⟩
      exact ⟨.inl hb, ha⟩
  have rest : first (b :: lists) = ∑ id ∈ idsOf a ∩ idsOf b, remainingOf b id +
      ∑ id ∈ idsOf (b :: lists).flatten \ idsOf a, firstRemaining (b :: lists) id := by
    rw [first, ← sum_inter_add_sum_sdiff _ (idsOf a), again]
    apply congrArg (· + _)
    apply sum_congr rfl
    intro id h
    exact firstRemaining_of_mem (mem_inter.1 h).2
  rw [first_cons, all, drops, rest]
  omega

theorem sum_remainingOf_nonneg (nonneg : ∀ o ∈ a, 0 ≤ o.remaining) :
    0 ≤ ∑ id ∈ idsOf a, remainingOf a id := by
  apply sum_nonneg
  intro id h
  obtain ⟨o, ho⟩ := Option.isSome_iff_exists.1 (mem_idsOf.1 h)
  rw [remainingOf, ho]
  exact nonneg o (List.mem_reverse.1 (List.mem_of_find?_eq_some ho))

/-- In a run in which nothing rises and nothing returns, what goes down and what is gone is at
most what the orders had when they were first observed. -/
theorem overRun_le_first (rises : NeverRises lists) (returns : NeverReturns lists)
    (nonneg : ∀ orders ∈ lists, ∀ o ∈ orders, 0 ≤ o.remaining) :
    overRun confirmed lists + overRun gone lists ≤ first lists := by
  induction lists with
  | nil => simp [overRun, first, idsOf]
  | cons a lists ih =>
    cases lists with
    | nil =>
      have := sum_remainingOf_nonneg (nonneg a List.mem_cons_self)
      rw [first_cons]
      simpa [overRun, idsOf] using this
    | cons b lists =>
      have := ih (List.isChain_cons_cons.1 rises).2 returns.2 fun orders h =>
        nonneg orders (List.mem_cons_of_mem _ h)
      rw [first_cons_cons rises returns, overRun, overRun]
      omega

end Volume

end OrderFlow
