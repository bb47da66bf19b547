import Mathlib.Algebra.Order.BigOperators.Group.List
import OrderFlow.Proofs.Trade.Rearranged

/-!
# Wider windows

The wider the window, the more of the orders that vanished are taken for expired, and nothing else
depends on it (`Estimate.loss_sublist`). So trades are only taken away, none of them confirmed
(`Estimate.between_of_wider`). Rows that add up fewer deltas are at most those that add up more
(`TradeRow.AddsUp.atMost`); the confirmed trades of a key are some of those that are presumed.
-/

namespace OrderFlow

/-- A row whose amount, events and value are at most those of another one. -/
structure TradeRow.AtMost (r s : TradeRow) : Prop where
  amount : r.amount ≤ s.amount
  events : r.events ≤ s.events
  value : ∃ x y, r.value = .finite x ∧ s.value = .finite y ∧ x.value ≤ y.value

section Rows

variable {ds es : List TradeDelta} {r s : TradeRow}

theorem TradeDelta.Priced.worth_nonneg {d : TradeDelta} (priced : d.Priced) : 0 ≤ d.worth := by
  obtain ⟨p, hp⟩ := priced
  rw [TradeDelta.worth, hp, p.value_toDecimal]
  positivity

/-- Fewer deltas are worth no more. -/
theorem sum_worth_le (part : ds.Sublist es) (priced : ∀ d ∈ es, d.Priced) :
    (ds.map TradeDelta.worth).sum ≤ (es.map TradeDelta.worth).sum := by
  apply (part.map _).sum_le_sum
  intro worth hworth
  obtain ⟨d, hd, rfl⟩ := List.mem_map.1 hworth
  exact (priced d hd).worth_nonneg

theorem TradeDelta.WithinDigits.sublist (within : WithinDigits es) (part : ds.Sublist es)
    (priced : ∀ d ∈ es, d.Priced) : WithinDigits ds := by
  intro key
  have less := sum_worth_le (part.filter (·.key = key)) fun d hd =>
    priced d (List.mem_filter.1 hd).1
  exact lt_of_le_of_lt (mul_le_mul_of_nonneg_left less (by norm_num)) (within key)

/-- What adds up some of the deltas is at most what adds up all of them. -/
theorem TradeRow.AddsUp.atMost (hr : r.AddsUp ds) (hs : s.AddsUp es) (part : ds.Sublist es)
    (priced : ∀ d ∈ es, d.Priced) : r.AtMost s := by
  obtain ⟨x, hx, worth⟩ := hr.value
  obtain ⟨y, hy, worth'⟩ := hs.value
  have counts (f : TradeDelta → Nat) :
      (ds.map fun d => (f d : Int)).sum ≤ (es.map fun d => (f d : Int)).sum := by
    apply (part.map _).sum_le_sum
    intro n hn
    obtain ⟨d, -, rfl⟩ := List.mem_map.1 hn
    exact Int.natCast_nonneg _
  constructor
  · rw [hr.amount, hs.amount]
    exact counts (·.quantity)
  · rw [hr.events, hs.events]
    exact counts (·.events)
  · refine ⟨x, y, hx, hy, ?_⟩
    rw [worth, worth']
    exact sum_worth_le part priced

/-- Deltas add up to the same row as they count towards the liberal bound. -/
theorem TradeRow.AddsUp.toLiberal (h : r.AddsUp ds) : r.AddsUp (ds.map TradeDelta.toLiberal) := by
  obtain ⟨amount, events, value, high, le_high, low, low_le⟩ := h
  constructor
  · rw [amount, List.map_map]
    rfl
  · rw [events, List.map_map]
    rfl
  · rw [List.map_map]
    exact value
  · obtain ⟨d, hd, price⟩ := high
    exact ⟨_, List.mem_map_of_mem hd, price⟩
  · exact List.forall_mem_map.2 le_high
  · obtain ⟨d, hd, price⟩ := low
    exact ⟨_, List.mem_map_of_mem hd, price⟩
  · exact List.forall_mem_map.2 low_le

/-- A key with a delta has a row that adds its deltas up. -/
theorem exists_row_addsUp (priced : ∀ d ∈ ds, d.Priced) (within : TradeDelta.WithinDigits ds)
    {d : TradeDelta} {key : TradeKey} (hd : d ∈ ds.filter (·.key = key)) :
    ∃ r ∈ aggregate ds, r.key = key ∧ r.AddsUp (ds.filter (·.key = key)) := by
  obtain ⟨mem, own⟩ := List.mem_filter.1 hd
  obtain ⟨r, hr, rfl⟩ := (exists_row_iff priced).2 ⟨d, mem, of_decide_eq_true own⟩
  exact ⟨r, hr, rfl, addsUp_of_mem priced within hr⟩

/-- Each row of some deltas has one of all deltas above it. -/
theorem exists_row_of_sublist (part : ds.Sublist es) (priced : ∀ d ∈ es, d.Priced)
    (within : TradeDelta.WithinDigits es) (hr : r ∈ aggregate ds) :
    ∃ s ∈ aggregate es, s.key = r.key ∧ r.AtMost s := by
  have priced' : ∀ d ∈ ds, d.Priced := fun d hd => priced d (part.subset hd)
  have own := addsUp_of_mem priced' (within.sublist part priced) hr
  have parts := part.filter (·.key = r.key)
  obtain ⟨d, hd, -⟩ := own.high
  obtain ⟨s, hs, key, sums⟩ := exists_row_addsUp priced within (parts.subset hd)
  exact ⟨s, hs, key, own.atMost sums parts fun d hd => priced d (List.mem_filter.1 hd).1⟩

/-- Each conservative row of paired deltas has a liberal one above it. -/
theorem exists_row_of_paired (paired : TradeDelta.Paired ds) (priced : ∀ d ∈ ds, d.Priced)
    (within : TradeDelta.WithinDigits ds) (hr : r ∈ aggregate ds)
    (lower : r.key.bound = .conservative) :
    ∃ s ∈ aggregate ds, s.key = { r.key with bound := .liberal } ∧ r.AtMost s := by
  have own := (addsUp_of_mem priced within hr).toLiberal
  have copies := paired.map_toLiberal lower
  obtain ⟨d, hd, -⟩ := own.high
  obtain ⟨s, hs, key, sums⟩ := exists_row_addsUp priced within (copies.subset hd)
  exact ⟨s, hs, key, own.atMost sums copies fun d hd => priced d (List.mem_filter.1 hd).1⟩

end Rows

open TradeDelta

namespace Estimate

variable {day : Day} {venue : VenueId} {p n : Instant} {previousAt nowAt : Stamp}
  {v w : Duration} {before after : List Order} {o c : Order} {e e' : Estimate}

/-- An order that is due within a window is due within a wider one. -/
theorem expiresWithin_mono (wider : v ≤ w) (due : o.ExpiresWithin p n v) :
    o.ExpiresWithin p n w := by
  unfold Order.ExpiresWithin Duration at *
  omega

/-- An order that vanished is judged in the same way with a wider window, or is now taken for
expired. -/
theorem loss_sublist (wider : v ≤ w)
    (hv : ∃ own, vanished day venue (.ofInstant p) (.ofInstant n) v o = .ok own)
    (hw : ∃ own, vanished day venue (.ofInstant p) (.ofInstant n) w o = .ok own) :
    (loss day venue (.ofInstant p) (.ofInstant n) w o).Sublist
      (loss day venue (.ofInstant p) (.ofInstant n) v o) := by
  simp only [loss, judged, vanished_eq] at hv hw ⊢
  by_cases skipped : o.duration ≤ 0
  · simp only [if_pos skipped, List.Sublist.refl]
  · simp only [if_neg skipped] at hv hw ⊢
    obtain ⟨_, hv⟩ := hv
    obtain ⟨_, hw⟩ := hw
    obtain ⟨due, hdue, -⟩ := Outcome.map_eq_ok_iff.1 hv
    obtain ⟨due', hdue', -⟩ := Outcome.map_eq_ok_iff.1 hw
    rw [hdue, hdue', due_of_likelyExpired hdue, due_of_likelyExpired hdue']
    by_cases within : o.ExpiresWithin p n w
    · rw [decide_eq_true within]
      exact List.nil_sublist _
    · rw [decide_eq_false within, decide_eq_false (mt (expiresWithin_mono wider) within)]

/-- An order that vanished counts towards the liberal bound only. -/
theorem bound_of_loss {d : TradeDelta} (hd : d ∈ loss day venue previousAt nowAt w o) :
    d.key.bound = .liberal := by
  rcases loss_cases day venue previousAt nowAt w o with nothing | own
  · rw [nothing] at hd
    cases hd
  · rw [own, unexpired] at hd
    split at hd
    · cases usable : usablePrice? [o.price] with
      | none => simp [usable, Finding.delta?] at hd
      | some price =>
        rw [usable] at hd
        obtain rfl := List.mem_singleton.1 hd
        rfl
    · cases hd

/-- An order that went down has a liberal trade for its conservative one. -/
theorem paired_filled (day : Day) (venue : VenueId) (o c : Order) :
    Paired ((filled day venue o c).filterMap Finding.delta?) := by
  unfold filled
  simp only
  split
  · cases usablePrice? [o.price, c.price] with
    | none => exact paired_nil
    | some price => exact .refl _
  · exact paired_nil

theorem paired_fills (day : Day) (venue : VenueId) (previous current : Book) :
    Paired (current.flatMap (fill day venue previous)) := by
  induction current with
  | nil => exact paired_nil
  | cons c rest ih =>
    rw [List.flatMap_cons]
    refine Paired.append ?_ ih
    unfold fill
    cases previous.find? c.id with
    | none => exact paired_nil
    | some o => exact paired_filled day venue o c

theorem conservative_losses (gone : List Order) :
    (gone.flatMap (loss day venue previousAt nowAt w)).filter (·.key.bound = .conservative) =
      [] := by
  rw [List.filter_eq_nil_iff]
  intro d hd
  obtain ⟨o, -, hd⟩ := List.mem_flatMap.1 hd
  simp [bound_of_loss hd]

/-- Confirmed trades are presumed, too. -/
theorem paired_between (hp : previousAt.utc? = some p) (hn : nowAt.utc? = some n)
    (h : between before after previousAt nowAt venue w = .ok e) : Paired e.deltas := by
  rw [(between_ok hp hn h).2]
  refine (paired_fills _ _ _ _).append ?_
  rw [Paired, conservative_losses]
  exact List.nil_sublist _

/-- **A wider window only takes presumed trades away.** Of two estimates that differ in their
windows, the one with the wider window finds the books unchanged just if the other one does, has the
same conservative deltas, and has no deltas but some of the other's, in their order. As long as
these are not worth more than 28 digits can say, each of its rows is at most the other's row of the
same key, and in either estimate each conservative row is at most the liberal one. -/
theorem between_of_wider (wider : v ≤ w)
    (hv : between before after previousAt nowAt venue v = .ok e)
    (hw : between before after previousAt nowAt venue w = .ok e') :
    e'.unchanged = e.unchanged ∧
      e'.deltas.filter (·.key.bound = .conservative) =
        e.deltas.filter (·.key.bound = .conservative) ∧
      e'.deltas.Sublist e.deltas ∧
      ((∀ o ∈ before, o.TwoPlaces) → (∀ o ∈ after, o.TwoPlaces) → WithinDigits e.deltas →
        (∀ r ∈ aggregate e'.deltas, ∃ s ∈ aggregate e.deltas, s.key = r.key ∧ r.AtMost s) ∧
        ∀ ds ∈ [e.deltas, e'.deltas], ∀ r ∈ aggregate ds, r.key.bound = .conservative →
          ∃ s ∈ aggregate ds, s.key = { r.key with bound := .liberal } ∧ r.AtMost s) := by
  obtain ⟨p, n, hp, hn⟩ := utc?_of_between hv
  obtain ⟨unchanged, deltas⟩ := between_ok hp hn hv
  obtain ⟨unchanged', deltas'⟩ := between_ok hp hn hw
  have judged := (exists_between_iff hp hn).1 ⟨e, hv⟩
  have judged' := (exists_between_iff hp hn).1 ⟨e', hw⟩
  have losses : ((Book.gone (.ofOrders before) (.ofOrders after)).flatMap
      (loss n.day venue (.ofInstant p) (.ofInstant n) w)).Sublist
        ((Book.gone (.ofOrders before) (.ofOrders after)).flatMap
          (loss n.day venue (.ofInstant p) (.ofInstant n) v)) := by
    apply List.Sublist.flatMap_right
    intro o ho
    exact loss_sublist wider (judged o ho) (judged' o ho)
  have part : e'.deltas.Sublist e.deltas := by
    rw [deltas, deltas']
    exact losses.append_left _
  refine ⟨unchanged'.trans unchanged.symm, ?_, part, ?_⟩
  · rw [deltas, deltas', List.filter_append, List.filter_append, conservative_losses,
      conservative_losses]
  · intro places places' within
    have priced := priced_between places places' hp hn hv
    have priced' := priced_between places places' hp hn hw
    constructor
    · intro r hr
      exact exists_row_of_sublist part priced within hr
    · intro ds hds r hr lower
      rcases List.mem_pair.1 hds with rfl | rfl
      · exact exists_row_of_paired (paired_between hp hn hv) priced within hr lower
      · exact exists_row_of_paired (paired_between hp hn hw) priced'
          (within.sublist part priced) hr lower

end Estimate

namespace Sample

/-- An order that expires an hour after the venue is observed. -/
def dueSoon : Order :=
  { order priceless 11 with issued := ⟨992227600000000, by decide⟩, total := 11 }

/-- What is inferred when it vanishes and is not taken for expired. -/
def narrow : Estimate :=
  ⟨false, inferred.findings ++ [trade .liberal 11 (by decide)]⟩

/-- With a window of six hours, the order that was due is the only one that is taken away. -/
theorem due_soon_taken_away :
    Estimate.between (early ++ [dueSoon]) late (.ofInstant now) (.ofInstant now) venue 0 =
      .ok narrow ∧
    Estimate.between (early ++ [dueSoon]) late (.ofInstant now) (.ofInstant now) venue
      (.minutes 360) = .ok inferred ∧
    (∀ o ∈ early ++ [dueSoon], o.TwoPlaces) ∧ (∀ o ∈ late, o.TwoPlaces) ∧
    TradeDelta.WithinDigits narrow.deltas ∧
    inferred.deltas.Sublist narrow.deltas ∧
    ∀ r ∈ aggregate inferred.deltas, ∃ s ∈ aggregate narrow.deltas,
      s.key = r.key ∧ r.AtMost s := by
  have zero : Estimate.between (early ++ [dueSoon]) late (.ofInstant now) (.ofInstant now) venue 0 =
      .ok narrow := by
    with_unfolding_all rfl
  have sixHours : Estimate.between (early ++ [dueSoon]) late (.ofInstant now) (.ofInstant now) venue
      (.minutes 360) = .ok inferred := by
    with_unfolding_all rfl
  have places : ∀ o ∈ early ++ [dueSoon], o.TwoPlaces := by
    intro o ho
    have price : o.price = some (.finite ⟨false, 250, -2⟩) ∧ 0 ≤ o.remaining ∧ 0 ≤ o.total := by
      revert o
      decide
    exact (sound_of_price price.1 price.2.1 price.2.2).twoPlaces
  have places' : ∀ o ∈ late, o.TwoPlaces := by
    intro o ho
    obtain rfl := List.mem_singleton.1 ho
    exact (sound_of_price rfl (by decide) (by decide)).twoPlaces
  have within : TradeDelta.WithinDigits narrow.deltas := by
    decide +kernel
  obtain ⟨-, -, part, rows⟩ := Estimate.between_of_wider (by decide) zero sixHours
  exact ⟨zero, sixHours, places, places', within, part, (rows places places' within).1⟩

end Sample

end OrderFlow
