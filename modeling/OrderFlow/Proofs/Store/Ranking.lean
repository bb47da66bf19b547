import Mathlib.Algebra.Order.Ring.Rat
import Mathlib.Data.List.Sort
import Mathlib.Data.Prod.Lex
import Mathlib.Order.BooleanAlgebra.Basic
import OrderFlow.Proofs.Store.Recorded
import OrderFlow.Store.Daily

/-!
# The first rows of a day

Rows have a `rank`, by value and then by item. A query sorts the rows that it selects, cuts them at
its limit and sorts once more, the buying row first where two have the same rank
(`Tables.dailyRows_eq`). What it gives are the rows of the lowest rank (`exists_rest_of_top`), and
the first rows of two lists together are the first ones of both lists merged (`map_rank_top_merge`).
-/

namespace OrderFlow

/-! ### Sorted lists -/

section Sorting

variable {α β : Type} [LinearOrder β] {f : α → β} {xs ys zs : List α} {bs cs : List β}

theorem pairwise_mergeSort_le (f : α → β) (xs : List α) :
    (xs.mergeSort fun a b => decide (f a ≤ f b)).Pairwise (f · ≤ f ·) := by
  have sorted : (xs.mergeSort fun a b => decide (f a ≤ f b)).Pairwise
      fun a b => decide (f a ≤ f b) = true := by
    apply List.pairwise_mergeSort
    · intro a b c hab hbc
      simp only [decide_eq_true_eq] at hab hbc ⊢
      exact hab.trans hbc
    · intro a b
      simp only [Bool.or_eq_true, decide_eq_true_eq]
      exact le_total (f a) (f b)
  simpa only [decide_eq_true_eq] using sorted

/-- A sorted list is determined by its elements. -/
theorem eq_of_sorted_perm (hb : bs.Pairwise (· ≤ ·)) (hc : cs.Pairwise (· ≤ ·))
    (perm : bs.Perm cs) : bs = cs :=
  perm.eq_of_pairwise (fun _ _ _ _ => le_antisymm) hb hc

/-- The first elements of two lists that are merged are among the first ones of each. -/
theorem take_merge_take (le : α → α → Bool) (k m n : ℕ) (hm : k ≤ m) (hn : k ≤ n)
    (xs ys : List α) : ((xs.take m).merge (ys.take n) le).take k = (xs.merge ys le).take k := by
  induction k generalizing m n xs ys with
  | zero => rfl
  | succ k ih =>
    obtain ⟨m, rfl⟩ : ∃ m', m = m' + 1 := ⟨m - 1, by omega⟩
    obtain ⟨n, rfl⟩ : ∃ n', n = n' + 1 := ⟨n - 1, by omega⟩
    cases xs with
    | nil =>
      rw [List.take_nil, List.nil_merge, List.nil_merge, List.take_take, Nat.min_eq_left hn]
    | cons x xs =>
      cases ys with
      | nil =>
        rw [List.take_nil, List.merge_right, List.merge_right, List.take_take, Nat.min_eq_left hm]
      | cons y ys =>
        have left := ih m (n + 1) (by omega) (by omega) xs (y :: ys)
        have right := ih (m + 1) n (by omega) (by omega) (x :: xs) ys
        rw [List.take_succ_cons] at left right
        rw [List.take_succ_cons, List.take_succ_cons, List.cons_merge_cons, List.cons_merge_cons]
        split
        · rw [List.take_succ_cons, List.take_succ_cons, left]
        · rw [List.take_succ_cons, List.take_succ_cons, right]

end Sorting

namespace TradeRow

variable {a b r : TradeRow} {rows buys sells : List TradeRow} {k : ℕ}

/-- The rank of a row: by value, the highest first, and then by item. -/
def rank (r : TradeRow) : ℚᵒᵈ ×ₗ ℕ :=
  toLex (OrderDual.toDual r.worth, r.key.item.val)

/-- The place of a row: by rank, and of rows of one rank the buying one first. -/
def place (r : TradeRow) : (ℚᵒᵈ ×ₗ ℕ) ×ₗ Bool :=
  toLex (r.rank, !r.key.side.isBuy)

theorem rank_le_iff : a.rank ≤ b.rank ↔
    b.worth < a.worth ∨ b.worth = a.worth ∧ a.key.item.val ≤ b.key.item.val := by
  rw [rank, rank, Prod.Lex.toLex_le_toLex, OrderDual.toDual_lt_toDual,
    OrderDual.toDual_inj, eq_comm]

theorem place_le_iff : a.place ≤ b.place ↔
    a.rank < b.rank ∨ a.rank = b.rank ∧ (a.key.side.isBuy || !b.key.side.isBuy) = true := by
  rw [place, place, Prod.Lex.toLex_le_toLex]
  cases a.key.side.isBuy <;> cases b.key.side.isBuy <;> simp

theorem rank_le_of_place_le (h : a.place ≤ b.place) : a.rank ≤ b.rank := by
  obtain less | ⟨same, -⟩ := place_le_iff.1 h
  · exact less.le
  · exact same.le

/-- The first rows by rank, in the order of their places. -/
def top (k : ℕ) (rows : List TradeRow) : List TradeRow :=
  ((rows.mergeSort fun a b => decide (a.rank ≤ b.rank)).take k).mergeSort fun a b =>
    decide (a.place ≤ b.place)

theorem top_perm (k : ℕ) (rows : List TradeRow) :
    (top k rows).Perm ((rows.mergeSort fun a b => decide (a.rank ≤ b.rank)).take k) :=
  List.mergeSort_perm _ _

/-- The rows that are left out have no lower rank than those that are not. -/
theorem exists_rest_of_top (k : ℕ) (rows : List TradeRow) :
    ∃ rest, (top k rows ++ rest).Perm rows ∧ ∀ a ∈ top k rows, ∀ b ∈ rest, a.rank ≤ b.rank := by
  have sorted := pairwise_mergeSort_le rank rows
  rw [← List.take_append_drop k (rows.mergeSort _)] at sorted
  have across := (List.pairwise_append.1 sorted).2.2
  refine ⟨(rows.mergeSort fun a b => decide (a.rank ≤ b.rank)).drop k, ?_, fun a ha b hb => ?_⟩
  · refine ((top_perm k rows).append_right _).trans ?_
    rw [List.take_append_drop]
    exact List.mergeSort_perm _ _
  · exact across a ((top_perm k rows).mem_iff.1 ha) b hb

theorem length_top (k : ℕ) (rows : List TradeRow) : (top k rows).length = min k rows.length := by
  rw [(top_perm k rows).length_eq, List.length_take, List.length_mergeSort]

theorem pairwise_top (k : ℕ) (rows : List TradeRow) : (top k rows).Pairwise (rank · ≤ rank ·) :=
  (pairwise_mergeSort_le place _).imp rank_le_of_place_le

/-- The ranks of the first rows are the first of all ranks. -/
theorem map_rank_top (k : ℕ) (rows : List TradeRow) :
    (top k rows).map rank = ((rows.map rank).mergeSort fun a b => decide (a ≤ b)).take k := by
  have sorted : ((rows.mergeSort fun a b => decide (a.rank ≤ b.rank)).map rank) =
      (rows.map rank).mergeSort fun a b => decide (a ≤ b) :=
    List.map_mergeSort fun _ _ _ _ => rfl
  rw [← sorted, ← List.map_take]
  refine eq_of_sorted_perm ?_ ?_ ((top_perm k rows).map rank)
  · exact List.pairwise_map.2 (pairwise_top k rows)
  · exact List.pairwise_map.2 (List.Pairwise.take (pairwise_mergeSort_le rank rows))

/-- The first rows of two lists together have the ranks of the first ones of both, merged. -/
theorem map_rank_top_merge (k : ℕ) (parts : rows.Perm (buys ++ sells)) :
    (top k rows).map rank =
      (((top k buys).merge (top k sells) fun a b => decide (a.rank ≤ b.rank)).take k).map rank := by
  have merged : ((rows.map rank).mergeSort fun a b => decide (a ≤ b)) =
      ((buys.map rank).mergeSort fun a b => decide (a ≤ b)).merge
        ((sells.map rank).mergeSort fun a b => decide (a ≤ b)) fun a b => decide (a ≤ b) := by
    refine eq_of_sorted_perm (pairwise_mergeSort_le id _) ?_ ?_
    · exact (pairwise_mergeSort_le id _).merge (pairwise_mergeSort_le id _)
    · refine (List.mergeSort_perm _ _).trans ((parts.map rank).trans ?_)
      rw [List.map_append]
      refine .trans ?_ (List.merge_perm_append _).symm
      exact .append (List.mergeSort_perm _ _).symm (List.mergeSort_perm _ _).symm
  have ranked : ((top k buys).merge (top k sells) fun a b => decide (a.rank ≤ b.rank)).map rank =
      ((top k buys).map rank).merge ((top k sells).map rank) fun a b => decide (a ≤ b) :=
    List.map_merge fun _ _ _ _ => rfl
  rw [List.map_take, ranked, map_rank_top, map_rank_top, map_rank_top,
    merged, take_merge_take _ k k k le_rfl le_rfl]

end TradeRow

namespace DailyFigures

variable {a b : TradeKey × DailyFigures}

/-- Figures whose value is an integer that fits. -/
def Counts (f : DailyFigures) : Prop :=
  ∃ n, f.value = .int n ∧ Cell.Fits n

theorem worth_toRow {f : DailyFigures} {n : ℤ} (value : f.value = .int n) (fits : Cell.Fits n)
    (key : TradeKey) : (f.toRow key).worth = n / 100 := by
  have few : n.natAbs < 10 ^ 28 := by
    unfold Cell.Fits at fits
    omega
  have amount : (f.toRow key).value = .finite (ofCents n) := by
    rw [toRow, value]
    rfl
  rw [TradeRow.worth, amount]
  exact value_ofCents few

/-- Entries are ordered as their rows are. -/
theorem le_eq_rank (ha : a.2.Counts) (hb : b.2.Counts) :
    le a b = decide ((a.2.toRow a.1).rank ≤ (b.2.toRow b.1).rank) := by
  obtain ⟨m, hm, mfits⟩ := ha
  obtain ⟨n, hn, nfits⟩ := hb
  have less : (n : ℚ) / 100 < m / 100 ↔ n < m := by
    rw [div_lt_div_iff_of_pos_right (by norm_num), Int.cast_lt]
  have same : (n : ℚ) / 100 = m / 100 ↔ n = m := by
    rw [div_left_inj' (by norm_num), Int.cast_inj]
  rw [Bool.eq_iff_iff, decide_eq_true_eq, TradeRow.rank_le_iff, worth_toRow hm mfits,
    worth_toRow hn nfits, less, same]
  simp only [le, hm, hn, Cell.lt_int, Bool.or_eq_true, Bool.and_eq_true, Bool.not_eq_true',
    decide_eq_true_eq, decide_eq_false_iff_not, toRow]
  omega

theorem leBuying_eq_place (ha : a.2.Counts) (hb : b.2.Counts) :
    leBuying a b = decide ((a.2.toRow a.1).place ≤ (b.2.toRow b.1).place) := by
  rw [leBuying, le_eq_rank ha hb, le_eq_rank hb ha, Bool.eq_iff_iff, decide_eq_true_eq,
    TradeRow.place_le_iff]
  have key (e : TradeKey × DailyFigures) : (e.2.toRow e.1).key = e.1 := rfl
  rcases lt_trichotomy (a.2.toRow a.1).rank (b.2.toRow b.1).rank with less | same | greater
  · simp [less, less.le, less.not_ge]
  · simp [same, key]
  · simp [greater.not_gt, greater.not_ge, greater.ne']

end DailyFigures

namespace Tables

variable {t : Tables} {q : DailyQuery}

/-- The rows that a query selects. -/
def matching (t : Tables) (q : DailyQuery) : List TradeRow :=
  (t.selected q).map fun e => e.2.toRow e.1

theorem selected_perm (t : Tables) (q : DailyQuery) :
    (t.selected q).Perm (t.daily.filter fun e => q.selects e.1) := by
  unfold selected
  split
  · exact List.mergeSort_perm _ _
  · exact .refl _

/-- A query gives the first of the rows that it selects. -/
theorem dailyRows_eq (counts : ∀ e ∈ t.daily, e.2.Counts) (q : DailyQuery) :
    t.dailyRows q = TradeRow.top q.limit.toNat (t.matching q) := by
  have each (e : TradeKey × DailyFigures) (he : e ∈ t.selected q) : e.2.Counts :=
    counts e (List.mem_filter.1 ((t.selected_perm q).mem_iff.1 he)).1
  have sorted : (((t.selected q).mergeSort DailyFigures.le).map fun e => e.2.toRow e.1) =
      (t.matching q).mergeSort fun a b => decide (a.rank ≤ b.rank) :=
    List.map_mergeSort fun a ha b hb => DailyFigures.le_eq_rank (each a ha) (each b hb)
  have taken (e : TradeKey × DailyFigures)
      (he : e ∈ ((t.selected q).mergeSort DailyFigures.le).take q.limit.toNat) : e.2.Counts :=
    each e (List.mem_mergeSort.1 (List.mem_of_mem_take he))
  rw [dailyRows, TradeRow.top, ← sorted, ← List.map_take]
  exact List.map_mergeSort fun a ha b hb => DailyFigures.leBuying_eq_place (taken a ha) (taken b hb)

/-- The rows of both sides are those of one side and those of the other. -/
theorem matching_perm (t : Tables) (both : q.side = none) :
    (t.matching q).Perm (t.matching { q with side := some .buy } ++
      t.matching { q with side := some .sell }) := by
  have one (side : Side) : (t.daily.filter fun e => q.selects e.1).filter
      (fun e => decide (e.1.side = side)) =
        t.daily.filter fun e => ({ q with side := some side } : DailyQuery).selects e.1 := by
    rw [List.filter_filter]
    refine List.filter_congr fun e _ => ?_
    simp only [DailyQuery.selects, both, Option.all_none, Option.all_some, Bool.and_true]
    ac_rfl
  have other : (fun e : TradeKey × DailyFigures => !decide (e.1.side = .buy)) =
      fun e => decide (e.1.side = .sell) := by
    funext e
    cases e.1.side <;> rfl
  have parts := List.filter_append_perm
    (fun e : TradeKey × DailyFigures => decide (e.1.side = .buy))
    (t.daily.filter fun e => q.selects e.1)
  rw [other, one, one] at parts
  rw [matching, matching, matching, ← List.map_append]
  refine List.Perm.map _ ((t.selected_perm q).trans (parts.symm.trans ?_))
  exact .append (t.selected_perm _).symm (t.selected_perm _).symm

end Tables

end OrderFlow
