import OrderFlow.Proofs.Collector.Run
import OrderFlow.Proofs.Store.Daily
import OrderFlow.Proofs.Store.Snapshot
import OrderFlow.Proofs.Trade.Estimate

/-!
# What a successful pass does

A pass that succeeds reads back the book of its venue, infers deltas between that and the fetched
list, writes the fetched list as the new book and adds the deltas to the daily figures
(`Attempt.step_of_ok`). Only its own venue is touched. So an attempt either changes nothing or takes
one step of the tables (`Attempt.on_cases`).
-/

namespace OrderFlow

/-- What a successful pass of a venue does to the tables, where `before` was read back and `orders`
was fetched. -/
structure Tables.Step (t t' : Tables) (venue : VenueId) (before orders : List Order) : Prop where
  books : ∃ now, t'.books = (t.withBook venue now orders
    (Book.unchanged (.ofOrders before) (.ofOrders orders))).books
  daily : ∃ ds, t'.Adds t ds ∧
    Infers venue ds (Book.drops (.ofOrders before) (.ofOrders orders))
      (Book.vanishedVolume (.ofOrders before) (.ofOrders orders))

namespace Tables.Step

variable {t t' : Tables} {venue v : VenueId} {before orders : List Order}

theorem book?_of_ne (step : t.Step t' venue before orders) (h : v ≠ venue) :
    t'.book? v = t.book? v := by
  obtain ⟨now, books⟩ := step.books
  rw [book?, books]
  exact book?_withBook_of_ne h

theorem isSome_book? (step : t.Step t' venue before orders) :
    (t'.book? v).isSome ↔ v = venue ∨ (t.book? v).isSome := by
  obtain ⟨now, books⟩ := step.books
  rw [book?, books]
  exact isSome_book?_withBook t venue v now orders _

end Tables.Step

theorem Harvest.eq_of_ok {settings : Settings} {loaded : Except Failure (Option Snapshot)}
    {venue : VenueId} {orders : List Order} {observedAt : Stamp} {h : Harvest}
    (hh : of settings loaded venue orders observedAt = .ok h) :
    h.orders = orders ∧ ∃ previous, loaded = .ok previous ∧
      ∃ beforeAt now window, Estimate.between (Store.previousOrders previous) orders beforeAt now
        venue window = .ok h.estimate := by
  unfold of at hh
  cases hnow : observedAt.utc? with
  | none => simp [hnow] at hh
  | some now =>
    simp only [hnow] at hh
    obtain ⟨previous, hprevious, hh⟩ := Outcome.bind_eq_ok_iff.1 hh
    obtain ⟨window, -, hh⟩ := Outcome.bind_eq_ok_iff.1 hh
    obtain ⟨estimate, hestimate, hh⟩ := Outcome.bind_eq_ok_iff.1 hh
    obtain rfl := Outcome.pure_eq_ok_iff.1 hh
    exact ⟨rfl, previous, hprevious, _, _, _, hestimate⟩

namespace Attempt

/-- A successful attempt takes one step. -/
theorem step_of_ok {a : Attempt} {s after : Store} {report : PassReport}
    (h : a.on s = (after, .ok report)) :
    ∃ venue orders previous t t', a.venue = .ok venue ∧ a.fetched = .ok orders ∧
      s.snapshot? venue = .ok previous ∧ s.tables = some t ∧
      after = { s with tables := some t' } ∧
      t.Step t' venue (Store.previousOrders previous) orders := by
  obtain ⟨venue, hvenue, h⟩ := on_ok h
  obtain ⟨orders, harvest, hfetched, hharvest, hcommit, -⟩ := Store.absorb_ok h
  obtain ⟨horders, previous, hprevious, _, _, _, hestimate⟩ := Harvest.eq_of_ok hharvest
  have sound : ∀ o ∈ Store.previousOrders previous, o.Sound := fun o ho =>
    (Store.validated_of_snapshot hprevious o ho).sound
  obtain ⟨unchanged, infers⟩ := Estimate.infers_between sound hestimate
  rw [Harvest.commit, Harvest.rows, horders, unchanged] at hcommit
  obtain ⟨now, t, t', -, ht, hafter, books, adds⟩ := Store.commit_adds infers.priced hcommit
  exact ⟨venue, orders, previous, t, t', hvenue, hfetched, hprevious, ht, hafter, ⟨now, books⟩,
    _, adds, infers⟩

/-- What an attempt can do: it fails and changes nothing, or it takes one step. -/
theorem on_cases {s : Store} {t : Tables} (ht : s.tables = some t) (a : Attempt) :
    (∃ f, a.on s = (s, .error f)) ∨
      ∃ report venue orders previous t', a.on s = ({ s with tables := some t' }, .ok report) ∧
        a.venue = .ok venue ∧ a.fetched = .ok orders ∧ s.snapshot? venue = .ok previous ∧
        t.Step t' venue (Store.previousOrders previous) orders := by
  obtain failed | ⟨after, report, done⟩ := a.outcome_cases s
  · exact .inl failed
  · obtain ⟨venue, orders, previous, t₀, t', hvenue, hfetched, hprevious, ht₀, rfl, step⟩ :=
      step_of_ok done
    obtain rfl := Option.some.inj (ht.symm.trans ht₀)
    exact .inr ⟨report, venue, orders, previous, t', done, hvenue, hfetched, hprevious, step⟩

end Attempt

end OrderFlow
