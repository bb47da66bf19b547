import Mathlib.Data.List.Induction
import Mathlib.Data.List.Perm.Subperm
import OrderFlow.Order.Book

/-!
# The book of a list

The book of a list of orders has one order for each identifier of the list, and it is the last one
of that identifier (`find?_ofOrders`, `nodup_ids_ofOrders`), where the identifier first occurs
(`ids_ofOrders`). A list in which no identifier repeats is its own book (`ofOrders_of_nodup`). A
book that is unchanged has the same identifiers with the same volumes (`ids_perm_of_unchanged`,
`find?_of_unchanged`).
-/

namespace OrderFlow.Book

variable {book other previous previous' current current' : Book} {o p : Order} {id : OrderId}
  {orders later : List Order}

@[simp] theorem find?_nil (id : OrderId) : Book.find? [] id = none := rfl

theorem find?_cons (p : Order) (rest : Book) (id : OrderId) :
    Book.find? (p :: rest) id = if p.id = id then some p else Book.find? rest id := by
  unfold Book.find?
  rw [List.find?_cons]
  by_cases h : p.id = id <;> simp [h]

theorem id_of_find? (h : book.find? id = some o) : o.id = id := by
  simpa using List.find?_some h

theorem mem_of_find? (h : book.find? id = some o) : o ∈ book :=
  List.mem_of_find?_eq_some h

theorem find?_eq_none_iff : book.find? id = none ↔ id ∉ book.ids := by
  unfold Book.find? ids
  simp [List.find?_eq_none]

theorem find?_put (book : Book) (o : Order) (id : OrderId) :
    (book.put o).find? id = if o.id = id then some o else book.find? id := by
  induction book with
  | nil => rw [put, find?_cons]
  | cons p rest ih =>
    rw [put]
    by_cases h : p.id = o.id
    · rw [if_pos h, find?_cons, find?_cons, h]
      split <;> rfl
    · rw [if_neg h, find?_cons, ih, find?_cons]
      by_cases hp : p.id = id
      · rw [if_pos hp, if_neg (fun e => h (hp.trans e.symm)), if_pos hp]
      · rw [if_neg hp, if_neg hp]

theorem ids_put (book : Book) (o : Order) :
    (book.put o).ids = if o.id ∈ book.ids then book.ids else book.ids ++ [o.id] := by
  unfold ids
  induction book with
  | nil => rfl
  | cons p rest ih =>
    rw [put]
    by_cases h : p.id = o.id
    · simp [h]
    · rw [if_neg h, List.map_cons, ih, List.map_cons]
      have hmem : o.id ∈ p.id :: rest.map (·.id) ↔ o.id ∈ rest.map (·.id) := by
        simp [List.mem_cons, Ne.symm h]
      simp only [hmem]
      split <;> rfl

theorem nodup_ids_put (h : book.ids.Nodup) (o : Order) : (book.put o).ids.Nodup := by
  rw [ids_put]
  split
  · exact h
  · rename_i fresh
    rw [List.nodup_append]
    refine ⟨h, by simp, ?_⟩
    intro i hi j hj e
    obtain rfl := List.mem_singleton.1 hj
    exact fresh (e ▸ hi)

/-- The last order of an identifier in a list. -/
def lastOf (orders : List Order) (id : OrderId) : Option Order :=
  orders.reverse.find? fun o => o.id = id

theorem lastOf_eq_none_iff : lastOf orders id = none ↔ id ∉ orders.map (·.id) := by
  simp [lastOf, List.find?_eq_none]

theorem mem_of_lastOf (h : lastOf orders id = some o) : o ∈ orders :=
  List.mem_reverse.1 (List.mem_of_find?_eq_some h)

theorem foldl_put (orders : List Order) (book : Book) :
    (∀ id, (orders.foldl (fun book o => book.put o) book).find? id =
      (lastOf orders id).or (book.find? id)) ∧
    (book.ids.Nodup → (orders.foldl (fun book o => book.put o) book).ids.Nodup) := by
  induction orders generalizing book with
  | nil =>
    constructor
    · intro id
      simp [lastOf]
    · exact id
  | cons o orders ih =>
    obtain ⟨found, nodup⟩ := ih (book.put o)
    constructor
    · intro id
      rw [List.foldl_cons, found, find?_put, lastOf, lastOf, List.reverse_cons, List.find?_append]
      by_cases h : o.id = id <;> simp [h]
    · intro h
      exact nodup (nodup_ids_put h o)

/-- The book of a list has the last order of each identifier. -/
theorem find?_ofOrders (orders : List Order) (id : OrderId) :
    (ofOrders orders).find? id = lastOf orders id := by
  rw [ofOrders, (foldl_put orders []).1, find?_nil, Option.or_none]

theorem nodup_ids_ofOrders (orders : List Order) : (ofOrders orders).ids.Nodup :=
  (foldl_put orders []).2 List.nodup_nil

theorem find?_of_mem (nodup : book.ids.Nodup) (h : o ∈ book) : book.find? o.id = some o := by
  induction book with
  | nil => cases h
  | cons p rest ih =>
    obtain ⟨fresh, nodup⟩ := List.nodup_cons.1 nodup
    rw [find?_cons]
    rcases List.mem_cons.1 h with rfl | h
    · rw [if_pos rfl]
    · rw [if_neg, ih nodup h]
      intro e
      have stored : o.id ∈ Book.ids rest := List.mem_map_of_mem h
      rw [← e] at stored
      exact fresh stored

theorem mem_ofOrders_iff : o ∈ ofOrders orders ↔ lastOf orders o.id = some o := by
  rw [← find?_ofOrders]
  constructor
  · exact find?_of_mem (nodup_ids_ofOrders orders)
  · exact mem_of_find?

/-- An order whose identifier is new goes to the end. -/
theorem put_of_notMem (fresh : o.id ∉ book.ids) : book.put o = book ++ [o] := by
  induction book with
  | nil => rfl
  | cons p rest ih =>
    obtain ⟨other, fresh⟩ := not_or.1 (mt List.mem_cons.2 fresh)
    rw [put, if_neg (Ne.symm other), ih fresh, List.cons_append]

theorem ofOrders_concat (orders : List Order) (o : Order) :
    ofOrders (orders ++ [o]) = (ofOrders orders).put o := by
  rw [ofOrders, List.foldl_append]
  rfl

/-- The identifiers of a list stand in its book where they first occur. -/
theorem ids_ofOrders (orders : List Order) :
    (ofOrders orders).ids = (orders.map (·.id)).eraseDups := by
  induction orders using List.reverseRecOn with
  | nil => rfl
  | append_singleton orders o ih =>
    rw [ofOrders_concat, ids_put, ih, List.map_append, List.eraseDups_append, List.map_singleton]
    generalize orders.map (·.id) = ids
    by_cases seen : o.id ∈ ids
    · rw [if_pos (List.mem_eraseDups.2 seen)]
      simp [List.removeAll, seen]
    · rw [if_neg (mt List.mem_eraseDups.1 seen)]
      simp [List.removeAll, seen, List.eraseDups_cons]

/-- A list in which no identifier repeats is its own book. -/
theorem ofOrders_of_nodup (distinct : (orders.map (·.id)).Nodup) : ofOrders orders = orders := by
  induction orders using List.reverseRecOn with
  | nil => rfl
  | append_singleton orders o ih =>
    rw [List.map_append, List.nodup_append] at distinct
    obtain ⟨distinct, -, fresh⟩ := distinct
    rw [ofOrders_concat, ih distinct]
    apply put_of_notMem
    intro mem
    exact fresh _ mem _ List.mem_cons_self rfl

/-- Lists with the same orders in another order have such books, if no identifier repeats. -/
theorem ofOrders_perm (distinct : (orders.map (·.id)).Nodup) (perm : orders.Perm later) :
    (ofOrders orders).Perm (ofOrders later) := by
  have distinct' : (later.map (·.id)).Nodup := (perm.map _).nodup_iff.1 distinct
  rwa [ofOrders_of_nodup distinct, ofOrders_of_nodup distinct']

/-- What is found in a book does not depend on its order. -/
theorem find?_of_perm (nodup : book.ids.Nodup) (perm : book.Perm other) (id : OrderId) :
    book.find? id = other.find? id := by
  have nodup' : other.ids.Nodup := (perm.map _).nodup_iff.1 nodup
  ext o
  constructor
  · intro found
    have there := perm.mem_iff.1 (mem_of_find? found)
    exact id_of_find? found ▸ find?_of_mem nodup' there
  · intro found
    have there := perm.mem_iff.2 (mem_of_find? found)
    exact id_of_find? found ▸ find?_of_mem nodup there

/-- Whether books are unchanged does not depend on their orders. -/
theorem unchanged_of_perm (nodup : previous.ids.Nodup) (perm : previous.Perm previous')
    (perm' : current.Perm current') :
    unchanged previous current = unchanged previous' current' := by
  unfold unchanged
  rw [perm.length_eq, perm'.length_eq, perm'.all_eq]
  simp only [find?_of_perm nodup perm]

/-- The orders of an unchanged book were there before, with the same volumes. -/
theorem find?_of_unchanged (h : unchanged previous current = true)
    (ho : o ∈ current) : ∃ p, previous.find? o.id = some p ∧ p.remaining = o.remaining := by
  have state := List.all_eq_true.1 (Bool.and_eq_true_iff.1 h).2 o ho
  cases hp : previous.find? o.id with
  | none => simp [hp] at state
  | some p =>
    rw [hp] at state
    simp only [Order.sameState, Bool.and_eq_true, beq_iff_eq] at state
    exact ⟨p, rfl, state.1.1.1.1⟩

/-- An unchanged book has the identifiers that it had before. -/
theorem ids_perm_of_unchanged (h : unchanged previous current = true)
    (nodup : current.ids.Nodup) : current.ids.Perm previous.ids := by
  have part : current.ids ⊆ previous.ids := by
    intro id hid
    obtain ⟨c, hc, rfl⟩ := List.mem_map.1 hid
    obtain ⟨p, hp, -⟩ := find?_of_unchanged h hc
    exact id_of_find? hp ▸ List.mem_map_of_mem (mem_of_find? hp)
  -- as many identifiers as before, each of which was there before, are all of them
  apply (List.subperm_of_subset nodup part).perm_of_length_le
  rw [ids, ids, List.length_map, List.length_map]
  exact Nat.le_of_eq (beq_iff_eq.1 (Bool.and_eq_true_iff.1 h).1)

theorem mem_of_mem_ofOrders (h : o ∈ ofOrders orders) : o ∈ orders :=
  mem_of_lastOf (mem_ofOrders_iff.1 h)

end OrderFlow.Book
