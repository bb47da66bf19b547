import OrderFlow.Proofs.Collector.Bounds
import OrderFlow.Proofs.Store.Volume
import OrderFlow.Proofs.Venue.Pages

/-!
# Conservation of volume

The lists that the successful passes of a venue fetched say how much was traded there. Two lists in
a row confirm what their common orders went down by, and what remained of the vanished ones may
have been traded. Each pass compares the list that it fetched with the one that is kept in the
tables, which has the volumes of the list before (`Conserved.pass`); passes of other venues and
failed ones change neither the kept list nor what is traded at the venue. So the stored amounts add
up to the volumes of the lists (`Reachable.conservation`).
-/

namespace OrderFlow

open TradeDelta Volume

namespace Attempt

/-- The list that an attempt fetched, if it was one of the venue. -/
def listAt (venue : VenueId) (a : Attempt) : Option (List Order) :=
  match a.venue, a.fetched with
  | .ok v, .ok orders => if v = venue then some orders else none
  | _, _ => none

/-- The lists that the successful attempts of a run fetched at a venue. -/
def listsAt (venue : VenueId) (as : List Attempt) (s : Store) : List (List Order) :=
  (succeeding as s).filterMap (listAt venue)

variable {venue v : VenueId} {a : Attempt} {as : List Attempt} {s after : Store}

theorem listsAt_cons_error {f : Failure} (h : a.on s = (after, .error f)) :
    listsAt venue (a :: as) s = listsAt venue as after := by
  rw [listsAt, succeeding, h, listsAt]

theorem listsAt_cons_ok {report : PassReport} {orders : List Order}
    (h : a.on s = (after, .ok report)) (hvenue : a.venue = .ok v)
    (hfetched : a.fetched = .ok orders) :
    listsAt venue (a :: as) s =
      if v = venue then orders :: listsAt venue as after else listsAt venue as after := by
  rw [listsAt, succeeding, h, listsAt]
  simp only [List.filterMap_cons, listAt, hvenue, hfetched]
  by_cases same : v = venue <;> simp [same]

theorem mem_of_mem_succeeding (h : a ∈ succeeding as s) : a ∈ as := by
  induction as generalizing s with
  | nil => cases h
  | cons b as ih =>
    rw [succeeding] at h
    split at h
    · rcases List.mem_cons.1 h with rfl | h
      · exact List.mem_cons_self
      · exact List.mem_cons_of_mem _ (ih h)
    · exact List.mem_cons_of_mem _ (ih h)

/-- What the passes of collectors fetch are orders that passed their check. -/
theorem validated_of_passes (passes : ∀ a ∈ as, ∃ c around r, a = Collector.attempt c around r) :
    ∀ orders ∈ listsAt venue as s, ∀ o ∈ orders, o.Validated := by
  intro orders horders
  obtain ⟨a, ha, hlist⟩ := List.mem_filterMap.1 horders
  obtain ⟨c, around, r, rfl⟩ := passes a (mem_of_mem_succeeding ha)
  unfold listAt at hlist
  split at hlist
  · rename_i v fetched _ hfetched
    obtain rfl : fetched = orders := by
      split at hlist
      · exact Option.some.inj hlist
      · cases hlist
    obtain ⟨venue, -, hfetched⟩ := Outcome.bind_eq_ok_iff.1 hfetched
    exact c.connection.ensures_orders around venue r.forceRefresh _ _ hfetched
  · cases hlist

end Attempt

namespace Store

/-- Tables that track the ledger of deltas which trade the volumes of a venue's lists, and keep the
last of these lists. -/
structure Conserved (venue : VenueId) (t : Tables) (ds : List TradeDelta)
    (lists : List (List Order)) : Prop where
  accounted : Accounted t ds
  conservative : traded venue .conservative ds = overRun confirmed lists
  liberal_ge : overRun confirmed lists ≤ traded venue .liberal ds
  liberal_le : traded venue .liberal ds ≤ overRun confirmed lists + overRun gone lists
  keeps : t.Keeps venue lists.getLast?

variable {s : Store} {t t' : Tables} {venue v : VenueId} {ds : List TradeDelta}
  {lists : List (List Order)} {before orders : List Order} {previous : Option Snapshot}

/-- A venue without a book has no deltas. -/
theorem Accounted.conserved (h : Accounted t ds) (fresh : t.book? venue = none) :
    Conserved venue t ds [] := by
  have elsewhere (d : TradeDelta) (hd : d ∈ ds) : d.key.venue ≠ venue := by
    rintro rfl
    have booked := h.booked d hd
    rw [fresh] at booked
    cases booked
  have nothing := traded_elsewhere elsewhere
  exact ⟨h, nothing _, (nothing _).ge, (nothing _).le, .nothing fresh⟩

/-- A pass of another venue. -/
theorem Conserved.elsewhere (h : Conserved venue t ds lists) (hv : venue ≠ v)
    (step : t.Step t' v before orders) : ∃ es, Conserved venue t' (ds ++ es) lists := by
  obtain ⟨es, adds, infers⟩ := step.daily
  have nothing (bound : Bound) : traded venue bound es = 0 :=
    traded_elsewhere (fun d hd => infers.sameVenue d hd ▸ hv.symm) bound
  refine ⟨es, h.accounted.step step adds infers, ?_, ?_, ?_, h.keeps.congr (step.book?_of_ne hv)⟩
  all_goals rw [traded_append, nothing, Int.add_zero]
  · exact h.conservative
  · exact h.liberal_ge
  · exact h.liberal_le

/-- A pass of the venue adds the volumes between the last list and the one that it fetched. -/
theorem Conserved.pass (h : Conserved venue t ds lists) (ht : s.tables = some t)
    (hprevious : s.snapshot? venue = .ok previous)
    (step : t.Step t' venue (previousOrders previous) orders) (sound : ∀ o ∈ orders, o.Sound) :
    ∃ es, Conserved venue t' (ds ++ es) (lists ++ [orders]) := by
  obtain ⟨es, adds, infers⟩ := step.daily
  have same := same_previousOrders ht hprevious h.keeps
  have drops : Book.drops (.ofOrders (previousOrders previous)) (.ofOrders orders) =
      (lists.getLast?.map (confirmed · orders)).getD 0 := by
    rw [drops_ofOrders, same.confirmed_eq]
    cases lists.getLast? with
    | none => exact confirmed_nil orders
    | some last => rfl
  have vanished : Book.vanishedVolume (.ofOrders (previousOrders previous)) (.ofOrders orders) =
      (lists.getLast?.map (gone · orders)).getD 0 := by
    rw [vanishedVolume_ofOrders, same.gone_eq]
    cases lists.getLast? with
    | none => exact gone_nil orders
    | some last => rfl
  rw [drops, vanished] at infers
  obtain ⟨now, books⟩ := step.books
  refine ⟨es, h.accounted.step step adds infers, ?_, ?_, ?_, ?_⟩
  · rw [traded_append, overRun_append, h.conservative, infers.conservative]
  · rw [traded_append, overRun_append]
    exact Int.add_le_add h.liberal_ge infers.liberal_ge
  · have := h.liberal_le
    have := infers.liberal_le
    rw [traded_append, overRun_append, overRun_append]
    omega
  · rw [List.getLast?_concat]
    have kept : (t.withBook venue now orders _).Keeps venue (some orders) :=
      keeps_withBook ht hprevious h.keeps sound
    exact kept.congr (by rw [Tables.book?, books, Tables.book?])

/-- A run adds the volumes between the lists of its successful passes. -/
theorem Conserved.run (ht : s.tables = some t) (h : Conserved venue t ds lists) (as : List Attempt)
    (validated : ∀ orders ∈ Attempt.listsAt venue as s, ∀ o ∈ orders, o.Validated) :
    ∃ t' es, (Attempt.run as s).tables = some t' ∧
      Conserved venue t' (ds ++ es) (lists ++ Attempt.listsAt venue as s) := by
  induction as generalizing s t ds lists with
  | nil => exact ⟨t, [], ht, by simpa [Attempt.listsAt, Attempt.succeeding] using h⟩
  | cons a as ih =>
    rw [Attempt.run_cons]
    obtain ⟨f, failed⟩ | ⟨report, v, orders, previous, t₁, done, hv, hfetched, hprevious, step⟩ :=
      a.on_cases ht
    · rw [Attempt.listsAt_cons_error failed] at validated ⊢
      rw [failed]
      exact ih ht h validated
    · rw [Attempt.listsAt_cons_ok done hv hfetched] at validated ⊢
      rw [done]
      by_cases hvenue : v = venue
      · subst hvenue
        rw [if_pos rfl] at validated ⊢
        obtain ⟨es, conserved⟩ := h.pass ht hprevious step fun o ho =>
          (validated orders List.mem_cons_self o ho).sound
        obtain ⟨t', fs, ht', conserved⟩ := ih rfl conserved fun rest hrest =>
          validated rest (List.mem_cons_of_mem _ hrest)
        refine ⟨t', es ++ fs, ht', ?_⟩
        rwa [← List.append_assoc, List.append_cons]
      · rw [if_neg hvenue] at validated ⊢
        obtain ⟨es, conserved⟩ := h.elsewhere (Ne.symm hvenue) step
        obtain ⟨t', fs, ht', conserved⟩ := ih rfl conserved validated
        refine ⟨t', es ++ fs, ht', ?_⟩
        rwa [← List.append_assoc]

/-- **Conservation of volume.** From any reachable state in which a venue has no book, and through
any run of passes, the amounts that are stored for the venue in the end are those of the lists that
its successful passes fetched: the conservative ones sum up to what the orders went down by from
each list to the next, and the liberal ones to at least that, and at most that and what remained of
the orders that vanished. So if no order ever has more remaining than before and none returns, the
liberal amounts are at most what remained of all orders when they were first observed. It is
assumed that the lists have orders which passed their check, and that no stored amount of the venue
exceeds the integers that fit. -/
theorem Reachable.conservation (reachable : s.Reachable) (ht : s.tables = some t)
    (fresh : t.book? venue = none) (as : List Attempt)
    (validated : ∀ orders ∈ Attempt.listsAt venue as s, ∀ o ∈ orders, o.Validated)
    (ht' : (Attempt.run as s).tables = some t')
    (within : ∀ e ∈ t'.daily, e.1.venue = venue → e.2.amount.Within) :
    t'.stored venue .conservative = overRun confirmed (Attempt.listsAt venue as s) ∧
      t'.stored venue .conservative ≤ t'.stored venue .liberal ∧
      t'.stored venue .liberal ≤ overRun confirmed (Attempt.listsAt venue as s) +
        overRun gone (Attempt.listsAt venue as s) ∧
      (NeverRises (Attempt.listsAt venue as s) → NeverReturns (Attempt.listsAt venue as s) →
        t'.stored venue .liberal ≤ first (Attempt.listsAt venue as s)) := by
  obtain ⟨t₀, ds, ht₀, accounted⟩ := reachable.accounted
  obtain rfl := Option.some.inj (ht.symm.trans ht₀)
  obtain ⟨t₁, es, ht₁, conserved⟩ := (accounted.conserved fresh).run ht as validated
  obtain rfl := Option.some.inj (ht'.symm.trans ht₁)
  rw [List.nil_append] at conserved
  obtain ⟨⟨distinct, tracks, -, -⟩, conservative, liberal_ge, liberal_le, -⟩ := conserved
  have stored (bound : Bound) : t'.stored venue bound = traded venue bound (ds ++ es) :=
    Tables.stored_eq_traded distinct tracks within
  rw [stored, stored, conservative]
  refine ⟨rfl, liberal_ge, liberal_le, ?_⟩
  intro rises returns
  apply liberal_le.trans
  apply overRun_le_first rises returns
  intro orders horders o ho
  exact (validated orders horders o ho).sound.remaining

end Store

namespace Sample

theorem run_late : Attempt.run [attempt early, attempt late] .empty = stored late daily := by
  rw [Attempt.run_cons, on_early, Attempt.run_cons, on_late, Attempt.run_nil]

theorem venue_attempt (orders : List Order) : (attempt orders).venue = .ok venue := by
  with_unfolding_all rfl

theorem listsAt_late :
    Attempt.listsAt venue [attempt early, attempt late] .empty = [early, late] := by
  rw [Attempt.listsAt_cons_ok on_early (venue_attempt early) rfl, if_pos rfl,
    Attempt.listsAt_cons_ok on_late (venue_attempt late) rfl, if_pos rfl]
  rfl

/-- Three units went down and four are gone, of fourteen that were first observed. -/
theorem units_conserved : ∃ t, (stored late daily).tables = some t ∧
    t.stored venue .conservative = 3 ∧ 3 ≤ t.stored venue .liberal ∧
    t.stored venue .liberal ≤ 3 + 4 ∧ t.stored venue .liberal ≤ 14 := by
  have reachable : Store.empty.Reachable := .empty 500 .standard
  have validated : ∀ orders ∈ Attempt.listsAt venue [attempt early, attempt late] .empty,
      ∀ o ∈ orders, o.Validated := by
    rw [listsAt_late]
    simp only [early, late, List.mem_cons, List.not_mem_nil, or_false, forall_eq_or_imp, forall_eq]
    exact ⟨⟨validated_order _ 10, validated_order _ 4⟩, validated_order _ 7⟩
  obtain ⟨conservative, ge, le, most⟩ := reachable.conservation rfl rfl
    [attempt early, attempt late] validated (congrArg Store.tables run_late)
    fun e he _ => (within_daily e he).amount
  have confirmed : overRun confirmed [early, late] = 3 := by decide
  have gone : overRun gone [early, late] = 4 := by decide
  have first : first [early, late] = 14 := by decide
  have rises : NeverRises [early, late] := by
    unfold NeverRises
    decide
  have returns : NeverReturns [early, late] := ⟨by decide, trivial⟩
  rw [listsAt_late] at conservative le most
  rw [confirmed] at conservative le
  rw [gone] at le
  exact ⟨_, rfl, conservative, conservative ▸ ge, le, first ▸ most rises returns⟩

end Sample

end OrderFlow
