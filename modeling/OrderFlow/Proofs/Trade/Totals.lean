import Mathlib.Algebra.Ring.Int.Defs
import OrderFlow.Trade.Basic

/-!
# Totals

The `ledger` of a list of deltas says for each key what the deltas of that key amount to, in
integers. Totals of two parts are merged by an operation that is associative and commutative, so
that the ledger of a list does not depend on its order (`ledger_perm`) and is the merge of the
ledgers of its parts (`ledger_append`). More deltas have greater totals (`Totals.ofDeltas_mono`),
and what is added up is a sum over the deltas (`Totals.sum_of_ofDeltas`).
-/

namespace OrderFlow

/-- What is added up for a key; value, high and low count hundredths. -/
structure Totals where
  amount : Int
  events : Int
  value : Int
  high : Int
  low : Int
deriving DecidableEq

namespace Totals

/-- The totals of two parts together. -/
def merge (a b : Totals) : Totals where
  amount := a.amount + b.amount
  events := a.events + b.events
  value := a.value + b.value
  high := max a.high b.high
  low := min a.low b.low

instance : Std.Commutative merge where
  comm a b := by simp only [merge, mk.injEq]; omega

instance : Std.Associative merge where
  assoc a b c := by simp only [merge, mk.injEq]; omega

theorem join_comm (a b : Option Totals) : a.merge merge b = b.merge merge a :=
  Std.Commutative.comm a b

theorem join_assoc (a b c : Option Totals) :
    (a.merge merge b).merge merge c = a.merge merge (b.merge merge c) :=
  Std.Associative.assoc a b c

/-- The totals of a single delta. -/
def ofDelta (d : TradeDelta) : Totals where
  amount := d.quantity
  events := d.events
  value := (d.price.coefficient * d.quantity : Nat)
  high := d.price.coefficient
  low := d.price.coefficient

/-- The totals of several deltas; of none there are none. -/
def ofDeltas (ds : List TradeDelta) : Option Totals :=
  ds.foldr (fun d totals => (some (ofDelta d)).merge merge totals) none

@[simp] theorem ofDeltas_nil : ofDeltas [] = none := rfl

@[simp] theorem ofDeltas_cons (d : TradeDelta) (ds : List TradeDelta) :
    ofDeltas (d :: ds) = (some (ofDelta d)).merge merge (ofDeltas ds) := rfl

theorem ofDeltas_eq_none_iff {ds : List TradeDelta} : ofDeltas ds = none ↔ ds = [] := by
  cases ds with
  | nil => simp
  | cons d ds => simp [Option.merge_eq_none_iff]

theorem ofDeltas_append (ds es : List TradeDelta) :
    ofDeltas (ds ++ es) = (ofDeltas ds).merge merge (ofDeltas es) := by
  induction ds with
  | nil => simp
  | cons d ds ih =>
    rw [List.cons_append, ofDeltas_cons, ofDeltas_cons, ih, join_assoc]

theorem ofDeltas_perm {ds es : List TradeDelta} (h : ds.Perm es) : ofDeltas ds = ofDeltas es := by
  refine h.foldr_eq' (fun d _ e _ totals => ?_) none
  rw [← join_assoc, join_comm (some (ofDelta e)), join_assoc]

/-- Totals that are at most others: no count, value or high is greater, and no low is smaller. -/
structure Under (a b : Totals) : Prop where
  amount : a.amount ≤ b.amount
  events : a.events ≤ b.events
  value : a.value ≤ b.value
  high : a.high ≤ b.high
  low : b.low ≤ a.low

theorem Under.refl (a : Totals) : a.Under a :=
  ⟨Int.le_refl _, Int.le_refl _, Int.le_refl _, Int.le_refl _, Int.le_refl _⟩

theorem Under.merge {a b : Totals} (h : a.Under b) (c : Totals) :
    (c.merge a).Under (c.merge b) := by
  obtain ⟨hamount, hevents, hvalue, hhigh, hlow⟩ := h
  constructor <;> simp only [Totals.merge] <;> omega

/-- Totals as deltas have them: no count is negative, and no price is greater than the value. -/
structure Proper (a : Totals) : Prop where
  amount : 0 ≤ a.amount
  events : 0 ≤ a.events
  low : 0 ≤ a.low
  high : a.low ≤ a.high
  value : a.high ≤ a.value

theorem Proper.value_nonneg {a : Totals} (h : a.Proper) : 0 ≤ a.value :=
  Int.le_trans h.low (Int.le_trans h.high h.value)

theorem proper_ofDelta (d : TradeDelta) : (ofDelta d).Proper := by
  have value := Nat.le_mul_of_pos_right d.price.coefficient d.quantity_pos
  constructor <;> simp only [ofDelta] <;> omega

theorem Proper.merge {a b : Totals} (ha : a.Proper) (hb : b.Proper) : (a.merge b).Proper := by
  obtain ⟨aamount, aevents, alow, ahigh, avalue⟩ := ha
  obtain ⟨bamount, bevents, blow, bhigh, bvalue⟩ := hb
  constructor <;> simp only [Totals.merge] <;> omega

/-- What holds of single deltas, and of totals that are merged from such, holds of the totals of
several. -/
theorem ofDeltas_induction {P : Totals → Prop} {ds : List TradeDelta}
    (single : ∀ d ∈ ds, P (ofDelta d)) (merge : ∀ a b, P a → P b → P (a.merge b)) {a : Totals}
    (h : ofDeltas ds = some a) : P a := by
  induction ds generalizing a with
  | nil => cases h
  | cons d ds ih =>
    have first := single d List.mem_cons_self
    rw [ofDeltas_cons] at h
    cases hds : ofDeltas ds with
    | none =>
      rw [hds, Option.merge_none_right] at h
      exact Option.some.inj h ▸ first
    | some b =>
      rw [hds, Option.merge_some_some] at h
      exact Option.some.inj h ▸
        merge _ b first (ih (fun e he => single e (List.mem_cons_of_mem _ he)) hds)

theorem proper_of_ofDeltas {ds : List TradeDelta} {a : Totals} (h : ofDeltas ds = some a) :
    a.Proper :=
  ofDeltas_induction (fun d _ => proper_ofDelta d) (fun _ _ => Proper.merge) h

theorem under_merge_left {b : Totals} (hb : b.Proper) (a : Totals) : a.Under (a.merge b) := by
  obtain ⟨hamount, hevents, hlow, hhigh, hvalue⟩ := hb
  constructor <;> simp only [Totals.merge] <;> omega

theorem under_merge_right {b : Totals} (hb : b.Proper) (a : Totals) : a.Under (b.merge a) := by
  have comm : b.merge a = a.merge b := Std.Commutative.comm b a
  exact comm ▸ under_merge_left hb a

theorem Under.trans {a b c : Totals} (hab : a.Under b) (hbc : b.Under c) : a.Under c :=
  ⟨Int.le_trans hab.amount hbc.amount, Int.le_trans hab.events hbc.events,
    Int.le_trans hab.value hbc.value, Int.le_trans hab.high hbc.high,
    Int.le_trans hbc.low hab.low⟩

/-- The totals of some deltas are at most those of more deltas. -/
theorem ofDeltas_mono {ds es : List TradeDelta} (h : ds.Sublist es) {a : Totals}
    (ha : ofDeltas ds = some a) : ∃ b, ofDeltas es = some b ∧ a.Under b := by
  induction h generalizing a with
  | slnil => cases ha
  | cons d _ ih =>
    obtain ⟨b, hb, under⟩ := ih ha
    refine ⟨(ofDelta d).merge b, by rw [ofDeltas_cons, hb, Option.merge_some_some], ?_⟩
    exact under.trans (under_merge_right (proper_ofDelta d) b)
  | @cons_cons ds es d _ ih =>
    rw [ofDeltas_cons] at ha ⊢
    cases hds : ofDeltas ds with
    | none =>
      rw [hds, Option.merge_none_right] at ha
      obtain rfl := Option.some.inj ha
      cases hes : ofDeltas es with
      | none => exact ⟨_, rfl, .refl _⟩
      | some b => exact ⟨_, rfl, under_merge_left (proper_of_ofDeltas hes) _⟩
    | some c =>
      rw [hds, Option.merge_some_some] at ha
      obtain rfl := Option.some.inj ha
      obtain ⟨b, hb, under⟩ := ih hds
      exact ⟨_, by rw [hb, Option.merge_some_some], under.merge _⟩

theorem under_of_mem {ds : List TradeDelta} {a : Totals} (h : ofDeltas ds = some a) {d : TradeDelta}
    (hd : d ∈ ds) : (ofDelta d).Under a := by
  obtain ⟨b, hb, under⟩ := ofDeltas_mono (List.singleton_sublist.2 hd) (a := ofDelta d) rfl
  exact Option.some.inj (hb.symm.trans h) ▸ under

/-- What is added as totals are merged is a sum over the deltas. -/
theorem sum_of_ofDeltas {f : Totals → Int} (additive : ∀ a b, f (a.merge b) = f a + f b)
    {ds : List TradeDelta} {a : Totals} (h : ofDeltas ds = some a) :
    f a = (ds.map fun d => f (ofDelta d)).sum := by
  induction ds generalizing a with
  | nil => cases h
  | cons d ds ih =>
    rw [ofDeltas_cons] at h
    rw [List.map_cons, List.sum_cons]
    cases hds : ofDeltas ds with
    | none =>
      rw [hds, Option.merge_none_right] at h
      obtain rfl := Option.some.inj h
      obtain rfl := ofDeltas_eq_none_iff.1 hds
      rw [List.map_nil, List.sum_nil, Int.add_zero]
    | some b =>
      rw [hds, Option.merge_some_some] at h
      obtain rfl := Option.some.inj h
      rw [additive, ih hds]

end Totals

/-- The totals of each key. -/
def ledger (ds : List TradeDelta) (key : TradeKey) : Option Totals :=
  Totals.ofDeltas (ds.filter (·.key = key))

theorem ledger_append (ds es : List TradeDelta) (key : TradeKey) :
    ledger (ds ++ es) key = (ledger ds key).merge .merge (ledger es key) := by
  rw [ledger, List.filter_append, Totals.ofDeltas_append]
  rfl

theorem ledger_perm {ds es : List TradeDelta} (h : ds.Perm es) (key : TradeKey) :
    ledger ds key = ledger es key :=
  Totals.ofDeltas_perm (h.filter _)

theorem ledger_eq_none_iff {ds : List TradeDelta} {key : TradeKey} :
    ledger ds key = none ↔ ∀ d ∈ ds, d.key ≠ key := by
  rw [ledger, Totals.ofDeltas_eq_none_iff, List.filter_eq_nil_iff]
  simp

theorem proper_of_ledger {ds : List TradeDelta} {key : TradeKey} {a : Totals}
    (h : ledger ds key = some a) : a.Proper :=
  Totals.proper_of_ofDeltas h

end OrderFlow
