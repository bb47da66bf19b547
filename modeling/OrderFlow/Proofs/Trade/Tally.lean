import OrderFlow.Proofs.Keyed
import OrderFlow.Proofs.Price.Basic
import OrderFlow.Proofs.Trade.Totals
import OrderFlow.Trade.Tally

/-!
# Tallies and the ledger

Adding up deltas one after the other in decimals gives for each key what the ledger says in
integers, as long as every delta has a price (`Tally.Holds.addAll`). The rows of a list of deltas
have distinct keys, one for each key of the deltas (`aggregate_distinct`, `exists_row`), and hold
the totals of their key (`holds_aggregate`).
-/

namespace OrderFlow

/-- A delta at a price with two places. -/
def TradeDelta.Priced (d : TradeDelta) : Prop :=
  ∃ p : Price, d.price = p.toDecimal

namespace TallyEntry

/-- An entry that holds certain totals. -/
structure Holds (e : TallyEntry) (totals : Totals) : Prop where
  amount : totals.amount = e.amount
  events : totals.events = e.events
  value : ∃ cents : Nat, totals.value = cents ∧ e.value.Holds cents
  high : ∃ p : Price, totals.high = p.cents ∧ e.high = p.toDecimal
  low : ∃ p : Price, totals.low = p.cents ∧ e.low = p.toDecimal

variable {d : TradeDelta}

theorem holds_value {p : Price} (hp : d.price = p.toDecimal) :
    d.value.Holds (d.price.coefficient * d.quantity) := by
  rw [TradeDelta.value, hp]
  exact p.holds_toDecimal.notional p.cents_lt d.quantity

theorem holds_ofDelta (priced : d.Priced) : (ofDelta d).Holds (.ofDelta d) := by
  obtain ⟨p, hp⟩ := priced
  refine ⟨rfl, rfl, ⟨_, rfl, holds_value hp⟩, ⟨p, ?_, hp⟩, ⟨p, ?_, hp⟩⟩ <;>
    simp [Totals.ofDelta, hp, Price.toDecimal]

theorem Holds.add {e : TallyEntry} {totals : Totals} (h : e.Holds totals) (priced : d.Priced) :
    (e.add d).Holds (totals.merge (.ofDelta d)) := by
  obtain ⟨hamount, hevents, ⟨cents, hcents, hvalue⟩, ⟨p, hp, hhigh⟩, ⟨q, hq, hlow⟩⟩ := h
  obtain ⟨r, hr⟩ := priced
  have price : d.price.coefficient = r.cents := by rw [hr]; rfl
  obtain ⟨high, highEq, highCents⟩ := Price.maxPrice_toDecimal p r
  obtain ⟨low, lowEq, lowCents⟩ := Price.minPrice_toDecimal q r
  constructor
  · simp [Totals.merge, Totals.ofDelta, TallyEntry.add, hamount]
  · simp [Totals.merge, Totals.ofDelta, TallyEntry.add, hevents]
  · refine ⟨cents + d.price.coefficient * d.quantity, ?_, hvalue.add (holds_value hr)⟩
    simp [Totals.merge, Totals.ofDelta, hcents]
  · refine ⟨high, ?_, by rw [TallyEntry.add, hhigh, hr, highEq]⟩
    simp only [Totals.merge, Totals.ofDelta, hp, price]
    omega
  · refine ⟨low, ?_, by rw [TallyEntry.add, hlow, hr, lowEq]⟩
    simp only [Totals.merge, Totals.ofDelta, hq, price]
    omega

end TallyEntry

namespace Tally

/-- A tally that agrees with the ledger of a list of deltas at every key. -/
structure Holds (t : Tally) (ds : List TradeDelta) : Prop where
  distinct : Keyed.Distinct t
  entry : ∀ key, Option.Rel TallyEntry.Holds (Keyed.get? key t) (ledger ds key)

theorem holds_empty : empty.Holds [] :=
  ⟨List.nodup_nil, fun _ => .none⟩

theorem ledger_singleton (d : TradeDelta) (key : TradeKey) :
    ledger [d] key = if d.key = key then some (.ofDelta d) else none := by
  by_cases h : d.key = key <;> simp [ledger, h]

/-- One more delta changes the entry of its key, in the tally as in the ledger. -/
theorem Holds.add {t : Tally} {ds : List TradeDelta} (h : t.Holds ds) {d : TradeDelta}
    (priced : d.Priced) : (t.add d).Holds (ds ++ [d]) := by
  refine ⟨h.distinct.alter _, ?_⟩
  intro key
  have before := h.entry key
  rw [Tally.add, Keyed.get?_alter, ledger_append, ledger_singleton]
  by_cases hk : d.key = key
  · subst hk
    rw [if_pos rfl, if_pos rfl]
    generalize Keyed.get? d.key t = entry, ledger ds d.key = totals at before
    cases before with
    | none => exact .some (TallyEntry.holds_ofDelta priced)
    | some before => exact .some (before.add priced)
  · rw [if_neg hk, if_neg hk, Option.merge_none_right]
    exact before

theorem Holds.addAll {t : Tally} {ds : List TradeDelta} (h : t.Holds ds) {es : List TradeDelta}
    (priced : ∀ d ∈ es, d.Priced) : (t.addAll es).Holds (ds ++ es) := by
  induction es generalizing t ds with
  | nil => rwa [List.append_nil]
  | cons d es ih =>
    rw [List.append_cons]
    exact ih (h.add (priced d List.mem_cons_self)) fun e he => priced e (List.mem_cons_of_mem _ he)

/-- What holds of the entry of a single delta, and is kept as a delta of the same key is added,
holds of every entry. -/
theorem addAll_induction {P : TradeKey → TallyEntry → Prop} {ds : List TradeDelta}
    (single : ∀ d ∈ ds, P d.key (.ofDelta d))
    (add : ∀ d ∈ ds, ∀ e, P d.key e → P d.key (e.add d)) {key : TradeKey} {e : TallyEntry}
    (h : Keyed.get? key (empty.addAll ds) = some e) : P key e := by
  have run (es : List TradeDelta) (hes : ∀ d ∈ es, d ∈ ds) (t : Tally)
      (ht : ∀ key e, Keyed.get? key t = some e → P key e) :
      ∀ key e, Keyed.get? key (t.addAll es) = some e → P key e := by
    induction es generalizing t with
    | nil => exact ht
    | cons d es ih =>
      refine ih (fun e he => hes e (List.mem_cons_of_mem _ he)) (t.add d) fun key e found => ?_
      have hd := hes d List.mem_cons_self
      rw [Tally.add, Keyed.get?_alter] at found
      split at found
      · rename_i same
        obtain rfl := Option.some.inj found
        cases before : Keyed.get? d.key t with
        | none => exact same ▸ single d hd
        | some e => exact same ▸ add d hd e (ht _ _ before)
      · exact ht key e found
  refine run ds (fun _ hd => hd) empty (fun _ _ found => ?_) key e h
  cases found

end Tally

/-- A row that holds certain totals. -/
structure TradeRow.Holds (r : TradeRow) (totals : Totals) : Prop where
  amount : totals.amount = r.amount
  events : totals.events = r.events
  value : ∃ cents : Nat, totals.value = cents ∧ ∃ x, r.value = .finite x ∧ x.Holds cents
  high : ∃ p : Price, totals.high = p.cents ∧ r.high = p.toDecimal
  low : ∃ p : Price, totals.low = p.cents ∧ r.low = p.toDecimal

theorem TallyEntry.Holds.row {e : TallyEntry} {totals : Totals} (h : e.Holds totals)
    (key : TradeKey) : (e.row key).Holds totals :=
  ⟨h.amount, h.events, h.value.imp fun _ hv => ⟨hv.1, _, rfl, hv.2⟩, h.high, h.low⟩

section Aggregate

variable {ds : List TradeDelta}

theorem mem_aggregate {r : TradeRow} :
    r ∈ aggregate ds ↔ ∃ key e, (key, e) ∈ Tally.empty.addAll ds ∧ r = TallyEntry.row key e := by
  rw [aggregate, Tally.rows, List.mem_mergeSort]
  simp only [List.mem_map, Prod.exists, eq_comm]

theorem aggregate_distinct (priced : ∀ d ∈ ds, d.Priced) :
    ((aggregate ds).map (·.key)).Nodup := by
  have holds := Tally.holds_empty.addAll priced
  have perm : ((aggregate ds).map (·.key)).Perm ((Tally.empty.addAll ds).map (·.1)) := by
    rw [aggregate, Tally.rows]
    apply ((List.mergeSort_perm _ _).map _).trans
    rw [List.map_map]
    exact .refl _
  exact perm.symm.nodup holds.distinct

/-- Every row holds the totals of its key. -/
theorem holds_aggregate (priced : ∀ d ∈ ds, d.Priced) {r : TradeRow} (hr : r ∈ aggregate ds) :
    ∃ totals, ledger ds r.key = some totals ∧ r.Holds totals := by
  have holds := Tally.holds_empty.addAll priced
  rw [List.nil_append] at holds
  obtain ⟨key, e, mem, rfl⟩ := mem_aggregate.1 hr
  have entry := holds.entry key
  rw [holds.distinct.get?_eq_some_iff.2 mem] at entry
  generalize hl : ledger ds key = totals at entry
  cases entry with
  | some entry => exact ⟨_, hl, entry.row key⟩

/-- Every key of the deltas has a row. -/
theorem exists_row (priced : ∀ d ∈ ds, d.Priced) {key : TradeKey} {totals : Totals}
    (h : ledger ds key = some totals) : ∃ r ∈ aggregate ds, r.key = key := by
  have holds := Tally.holds_empty.addAll priced
  rw [List.nil_append] at holds
  have entry := holds.entry key
  rw [h] at entry
  generalize he : Keyed.get? key (Tally.empty.addAll ds) = found at entry
  cases entry with
  | @some e _ _ =>
    exact ⟨e.row key, mem_aggregate.2 ⟨key, e, Keyed.mem_of_get?_eq_some he, rfl⟩, rfl⟩

end Aggregate

end OrderFlow
