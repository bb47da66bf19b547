import OrderFlow.Proofs.Collector.Step

/-!
# Lower and upper bounds

In every reachable state the daily figures track the ledger of all deltas that were ever
committed, and each conservative delta among these has a liberal copy (`Reachable.accounted`).
So a conservative row never stands without a liberal one, nor above it
(`Reachable.conservative_under_liberal`).
-/

namespace OrderFlow

namespace Store

/-- Tables that track the ledger of certain deltas under distinct keys. Each delta is a single
event at a venue with a book, and each conservative one has a liberal copy. -/
structure Accounted (t : Tables) (ds : List TradeDelta) : Prop where
  distinct : Keyed.Distinct t.daily
  tracks : t.Tracks (ledger ds)
  booked : ∀ d ∈ ds, (t.book? d.key.venue).isSome
  paired : TradeDelta.Paired ds
  single : ∀ d ∈ ds, d.events = 1

theorem accounted_empty : Accounted .empty [] :=
  ⟨List.nodup_nil, Tables.tracks_empty, by simp, TradeDelta.paired_nil, by simp⟩

theorem Accounted.step {t t' : Tables} {venue : VenueId} {before orders : List Order}
    {ds es : List TradeDelta} {a b : Int} (h : Accounted t ds)
    (step : t.Step t' venue before orders) (adds : t'.Adds t es) (infers : Infers venue es a b) :
    Accounted t' (ds ++ es) where
  distinct := adds.distinct h.distinct
  tracks key := by
    rw [ledger_append]
    exact adds.tracks h.tracks key
  booked d hd := by
    rw [step.isSome_book?]
    exact (List.mem_append.1 hd).elim (fun hd => .inr (h.booked d hd))
      fun hd => .inl (infers.sameVenue d hd)
  paired := h.paired.append infers.paired
  single d hd := (List.mem_append.1 hd).elim (h.single d) (infers.single d)

theorem Reachable.accounted {s : Store} (h : s.Reachable) :
    ∃ t ds, s.tables = some t ∧ Accounted t ds := by
  induction h with
  | empty => exact ⟨.empty, [], rfl, accounted_empty⟩
  | @attempt a s _ ih =>
    obtain ⟨t, ds, ht, accounted⟩ := ih
    obtain ⟨f, failed⟩ | ⟨_, _, _, _, t', done, -, -, -, step⟩ := a.on_cases ht
    · rw [failed]
      exact ⟨t, ds, ht, accounted⟩
    · rw [done]
      obtain ⟨es, adds, infers⟩ := step.daily
      exact ⟨t', ds ++ es, rfl, accounted.step step adds infers⟩

/-- **The lower bound never exceeds the upper bound.** In every reachable state in which no running
total exceeds the integers that fit, a conservative row has a liberal row of the same day, venue,
item and side, whose amount, count, value and high are at least, and whose low is at most, those of
the conservative row. -/
theorem Reachable.conservative_under_liberal {s : Store} {t : Tables} (reachable : s.Reachable)
    (ht : s.tables = some t) (within : ∀ e ∈ t.daily, e.2.Within) {key : TradeKey}
    {f : DailyFigures} (row : (key, f) ∈ t.daily) (hkey : key.bound = .conservative) :
    ∃ g, ({ key with bound := .liberal }, g) ∈ t.daily ∧
      ∃ a b, f.Shows a ∧ g.Shows b ∧ a.Under b := by
  obtain ⟨t₀, ds, ht₀, distinct, tracks, -, paired⟩ := reachable.accounted
  obtain rfl := Option.some.inj (ht.symm.trans ht₀)
  obtain ⟨a, ha, lower⟩ := tracks.exists_totals (distinct.get?_eq_some_iff.2 row)
  -- the conservative deltas have the totals of their copies, which are some of the liberal ones
  obtain ⟨b, hb, under⟩ := Totals.ofDeltas_mono (paired.map_toLiberal hkey)
    ((Totals.ofDeltas_map_toLiberal _).trans ha)
  obtain ⟨g, hg, upper⟩ := tracks.exists_figures hb
  have mem := Keyed.mem_of_get?_eq_some hg
  exact ⟨g, mem, a, b, lower.shows (within _ row), upper.shows (within _ mem), under⟩

end Store

/-! ## Two passes -/

namespace Sample

/-- The figures in the end. -/
def daily : Keyed TradeKey DailyFigures :=
  [(key .conservative, figures 3 1 750), (key .liberal, figures 7 2 1750)]

theorem on_early : (attempt early).on .empty =
    (stored early [], .ok ⟨.ofInstant now, 2, 0, false, false⟩) := by
  with_unfolding_all rfl

/-- What the second pass has to write. -/
def harvest : Harvest where
  observedAt := now
  orders := late
  estimate := inferred
  hadPrevious := true

theorem rows_harvest : harvest.rows = [row .conservative 3 1 750, row .liberal 7 2 1750] :=
  aggregate_inferred

theorem on_late : (attempt late).on (stored early []) =
    (stored late daily, .ok ⟨.ofInstant now, 1, 2, false, true⟩) := by
  have harvested : Harvest.of settings ((stored early []).load none venue) venue late
      (.ofInstant now) = .ok harvest := by
    with_unfolding_all rfl
  have committed : harvest.commit none (stored early []) venue = (stored late daily, .ok ()) := by
    rw [Harvest.commit, rows_harvest]
    with_unfolding_all rfl
  have absorbed : (attempt late).on (stored early []) = (stored early []).absorb settings none venue
      (.ofInstant now) (.ok late) := by
    with_unfolding_all rfl
  rw [absorbed, Store.absorb]
  simp only [Except.bind, harvested, Option.bind_none, committed, Except.map, Harvest.report,
    rows_harvest]
  rfl

theorem reachable_late : (stored late daily).Reachable := by
  have early := (Store.Reachable.empty 500 .standard).attempt (attempt early)
  rw [show (⟨some .empty, 500, .standard⟩ : Store) = .empty from rfl, on_early] at early
  have late := early.attempt (attempt late)
  rwa [on_late] at late

theorem within_daily : ∀ e ∈ daily, e.2.Within := by
  intro e he
  obtain rfl | rfl : e = (key .conservative, figures 3 1 750) ∨
      e = (key .liberal, figures 7 2 1750) := by simpa [daily] using he
  · exact ⟨rfl, rfl, rfl⟩
  · exact ⟨rfl, rfl, rfl⟩

/-- The three units that were sold are among the seven that may have been. -/
theorem three_under_seven : ∃ g, (key .liberal, g) ∈ daily ∧
    ∃ a b, (figures 3 1 750).Shows a ∧ g.Shows b ∧ a.Under b :=
  reachable_late.conservative_under_liberal rfl within_daily List.mem_cons_self rfl

end Sample

end OrderFlow
