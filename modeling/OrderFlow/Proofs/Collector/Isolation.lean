import OrderFlow.Collector.Calls
import OrderFlow.Proofs.Collector.Notification
import OrderFlow.Proofs.Collector.Step
import OrderFlow.Proofs.Store.Portion

/-!
# Venues do not meet

A call of a collector means one venue, and does to the portion of that venue what it does to the
collector (`Collector.call_portion`); the portions of all others stay as they are
(`Collector.portion_call_of_ne`). So what a run of calls does to a venue is what the calls of that
venue do alone, and the failures of a venue are those of its own passes
(`Collector.venue_isolation`).
-/

namespace OrderFlow

theorem FailureTracker.failures_shouldNotify (t : FailureTracker) (now : Stamp) :
    (t.shouldNotify now).1.failures = t.failures := by
  obtain ⟨time, -, -, asked⟩ | ⟨-, -, same⟩ := t.shouldNotify_cases now
  · rw [asked]
  · rw [same]

namespace Store

variable {s : Store} {settings : Settings} {fault : Option DatabaseFault} {venue v : VenueId}
  {observedAt : Stamp} {fetched : Except Failure (List Order)}

theorem load_portion (s : Store) (fault : Option DatabaseFault) (venue : VenueId) :
    (s.portion venue).load fault venue = s.load fault venue := by
  rw [load, load, snapshot?_portion]

theorem snapshot?_of_load {previous : Option Snapshot} (h : s.load fault venue = .ok previous) :
    s.snapshot? venue = .ok previous := by
  unfold load at h
  split at h
  · cases h
  · exact h

/-- The rows of a pass have the venue of the pass. -/
theorem venue_of_harvest {orders : List Order} {harvest : Harvest}
    (h : Harvest.of settings (s.load fault venue) venue orders observedAt = .ok harvest) :
    ∀ r ∈ harvest.rows, r.key.venue = venue := by
  obtain ⟨-, previous, loaded, _, _, _, estimate⟩ := Harvest.eq_of_ok h
  have sound : ∀ o ∈ previousOrders previous, o.Sound := fun o ho =>
    (validated_of_snapshot (snapshot?_of_load loaded) o ho).sound
  obtain ⟨-, infers⟩ := Estimate.infers_between sound estimate
  intro r hr
  obtain ⟨totals, total, -⟩ := holds_aggregate infers.priced hr
  have some : ledger harvest.estimate.deltas r.key ≠ none := by
    rw [total]
    exact Option.some_ne_none totals
  obtain ⟨d, hd, key⟩ : ∃ d ∈ harvest.estimate.deltas, d.key = r.key := by
    by_contra absent
    exact some (ledger_eq_none_iff.2 fun d hd key => absent ⟨d, hd, key⟩)
  exact key ▸ infers.sameVenue d hd

/-- A pass does to the portion of its venue what it does to the store. -/
theorem absorb_portion : (s.portion venue).absorb settings fault venue observedAt fetched =
    ((s.absorb settings fault venue observedAt fetched).1.portion venue,
      (s.absorb settings fault venue observedAt fetched).2) := by
  unfold absorb
  simp only [load_portion]
  cases hh : fetched.bind fun orders =>
    Harvest.of settings (s.load fault venue) venue orders observedAt with
  | error f => rfl
  | ok harvest =>
    obtain ⟨orders, -, of⟩ := Outcome.bind_eq_ok_iff.1 hh
    simp only [Harvest.commit, commitUnder_portion (venue_of_harvest of)]

/-- A pass leaves the portions of other venues as they were. -/
theorem portion_absorb_of_ne (other : venue ≠ v) :
    (s.absorb settings fault venue observedAt fetched).1.portion v = s.portion v := by
  unfold absorb
  cases hh : fetched.bind fun orders =>
    Harvest.of settings (s.load fault venue) venue orders observedAt with
  | error f => rfl
  | ok harvest =>
    obtain ⟨orders, -, of⟩ := Outcome.bind_eq_ok_iff.1 hh
    exact portion_commitUnder_of_ne (venue_of_harvest of) other

end Store

/-- A pass has the venue that is named, else the configured one, and the configured account. -/
theorem Settings.forPass_eq_ok_iff {settings : Settings} {named : Option VenueId} {venue : VenueId}
    {account : AccountId} :
    settings.forPass (named.map fun v => (v.val : Int)) = .ok (venue, account) ↔
      named.or settings.venue = some venue ∧ settings.account = some account := by
  have means : settings.venueFor (named.map fun v => (v.val : Int)) =
      (named.or settings.venue).map fun v => (v.val : Int) := by
    cases named with
    | none => rfl
    | some v =>
      obtain ⟨_ | n, positive⟩ := v
      · cases positive
      · rfl
  have known (v : VenueId) : Id.ofInt .venue v.val = .ok v := by
    simp [Id.ofInt, Id.check, v.pos]
  unfold forPass
  rw [means]
  cases named.or settings.venue with
  | none => simp
  | some v =>
    cases settings.account with
    | none => simp
    | some account => simp [known, Except.mapError, bind, Except.bind, pure, Except.pure]

theorem Locks.take_eq_ok_iff {busy : Locks} {timeout : Binary64} {venue : VenueId} {u : Unit} :
    busy.take timeout venue = .ok u ↔ checkWait timeout = .ok () ∧ venue ∉ busy := by
  unfold take
  cases checkWait timeout with
  | error f => simp [bind, Except.bind]
  | ok waited => by_cases held : venue ∈ busy <;> simp [held, bind, Except.bind]

namespace Collector

variable {c d : Collector} {settings : Settings} {named : Option VenueId} {venue v : VenueId}
  {busy : Locks} {call : Call}

/-- A pass is prepared if it means a venue, there is an account to read it with, and the lock of the
venue is had after a time that can be waited. -/
theorem prepare_eq_ok_iff : prepare settings named busy = .ok venue ↔
    named.or settings.venue = some venue ∧ settings.account.isSome ∧
      Locks.checkWait settings.lockTimeout = .ok () ∧ venue ∉ busy := by
  unfold prepare
  simp only [Outcome.bind_eq_ok_iff, Outcome.pure_eq_ok_iff, Prod.exists,
    Settings.forPass_eq_ok_iff, Locks.take_eq_ok_iff]
  constructor
  · rintro ⟨u, account, ⟨means, found⟩, -, taken, rfl⟩
    exact ⟨means, found ▸ rfl, taken⟩
  · rintro ⟨means, found, taken⟩
    obtain ⟨account, found⟩ := Option.isSome_iff_exists.1 found
    exact ⟨venue, account, ⟨means, found⟩, (), taken, rfl⟩

/-- What a collector holds of a venue. -/
def portion (c : Collector) (venue : VenueId) : Collector :=
  { c with
    store := c.store.portion venue
    trackers := c.trackers.filter fun e => decide (e.1 = venue) }

@[simp] theorem tracker_portion (c : Collector) (venue : VenueId) :
    (c.portion venue).tracker venue = c.tracker venue := by
  have found := Keyed.get?_filter (p := fun u => decide (u = venue)) (decide_eq_true rfl) c.trackers
  simp only [tracker, portion, found]

theorem portion_setTracker (c : Collector) (venue v : VenueId) (t : FailureTracker) :
    (c.setTracker venue t).portion v =
      if venue = v then (c.portion v).setTracker venue t else c.portion v := by
  have trackers := Keyed.filter_alter (fun u => decide (u = v)) venue (fun _ => t) c.trackers
  simp only [setTracker, portion, Keyed.put, trackers, decide_eq_true_eq]
  split <;> rfl

theorem record_portion {α : Type} (h : c.venueFor named = some venue) (outcome : Except Failure α) :
    (c.portion venue).record named outcome = (c.record named outcome).portion venue := by
  have means : (c.portion venue).venueFor named = some venue := h
  simp only [record, h, means, portion_setTracker, if_pos, tracker_portion]

theorem portion_record_of_ne {α : Type} (h : c.venueFor named ≠ some venue)
    (outcome : Except Failure α) : (c.record named outcome).portion venue = c.portion venue := by
  unfold record
  cases means : c.venueFor named with
  | none => rfl
  | some u =>
    have other : u ≠ venue := fun same => h (means.trans (congrArg some same))
    exact (portion_setTracker c u venue _).trans (if_neg other)

/-! ## One call -/

section Visit

variable {x : Visit}

theorem visit_of_prepared (h : prepare c.settings x.named busy = .ok venue) :
    c.visit busy x =
      let run := c.store.absorb c.settings x.fault venue x.observedAt x.fetched
      (({ c with store := run.1 } : Collector).record x.named run.2, run.2) := by
  unfold visit
  rw [h]

theorem visit_of_refused {f : Failure} (h : prepare c.settings x.named busy = .error f) :
    c.visit busy x = (c.record x.named (.error f : Except Failure Unit), .error f) := by
  unfold visit
  rw [h]

theorem visit_portion (busy : Locks) (h : c.venueFor x.named = some venue) :
    (c.portion venue).visit busy x = ((c.visit busy x).1.portion venue, (c.visit busy x).2) := by
  cases hv : prepare c.settings x.named busy with
  | error f =>
    rw [visit_of_refused hv, visit_of_refused (c := c.portion venue) hv, record_portion h]
  | ok u =>
    obtain rfl : u = venue := Option.some.inj ((prepare_eq_ok_iff.1 hv).1.symm.trans h)
    have absorbed : (c.portion u).store.absorb c.settings x.fault u x.observedAt x.fetched = _ :=
      Store.absorb_portion
    rw [visit_of_prepared hv, visit_of_prepared (c := c.portion u) hv,
      show (c.portion u).settings = c.settings from rfl, absorbed]
    generalize c.store.absorb c.settings x.fault u x.observedAt x.fetched = run
    exact Prod.ext (record_portion (c := { c with store := run.1 }) h run.2) rfl

theorem portion_visit_of_ne (busy : Locks) (h : c.venueFor x.named ≠ some venue) :
    (c.visit busy x).1.portion venue = c.portion venue := by
  cases hv : prepare c.settings x.named busy with
  | error f =>
    rw [visit_of_refused hv]
    exact portion_record_of_ne h _
  | ok u =>
    have other : u ≠ venue := fun same =>
      h ((prepare_eq_ok_iff.1 hv).1.trans (congrArg some same))
    have kept : (c.store.absorb c.settings x.fault u x.observedAt x.fetched).1.portion venue =
        c.store.portion venue := Store.portion_absorb_of_ne other
    rw [visit_of_prepared hv]
    generalize c.store.absorb c.settings x.fault u x.observedAt x.fetched = run at kept
    refine (portion_record_of_ne (c := { c with store := run.1 }) h run.2).trans ?_
    exact congrArg (fun s => { c.portion venue with store := s }) kept

end Visit

/-- A call does to the portion of the venue that it means what it does to the collector. -/
theorem call_portion (h : c.venueFor call.named = some venue) :
    (c.portion venue).call call = ((c.call call).1.portion venue, (c.call call).2) := by
  have means : (c.portion venue).venueFor call.named = some venue := h
  cases call with
  | visit busy x => simp only [Collector.call, visit_portion busy h]
  | markSuccess named =>
    simp only [Call.named] at h means
    simp only [Collector.call, markSuccess, trackedVenue, h, means, portion_setTracker, if_pos,
      tracker_portion]
  | shouldNotify now named =>
    simp only [Call.named] at h means
    simp only [Collector.call, shouldNotify, trackedVenue, h, means, portion_setTracker, if_pos,
      tracker_portion]

/-- A call leaves the portions of the venues that it does not mean as they were. -/
theorem portion_call_of_ne (h : c.venueFor call.named ≠ some venue) :
    (c.call call).1.portion venue = c.portion venue := by
  cases call with
  | visit busy x => exact portion_visit_of_ne busy h
  | markSuccess named =>
    simp only [Collector.call, markSuccess, trackedVenue]
    cases means : c.venueFor named with
    | none => rfl
    | some u =>
      have other : u ≠ venue := fun same => h (means.trans (congrArg some same))
      exact (portion_setTracker c u venue _).trans (if_neg other)
  | shouldNotify now named =>
    simp only [Collector.call, shouldNotify, trackedVenue]
    cases means : c.venueFor named with
    | none => rfl
    | some u =>
      have other : u ≠ venue := fun same => h (means.trans (congrArg some same))
      exact (portion_setTracker c u venue _).trans (if_neg other)

@[simp] theorem settings_record {α : Type} (c : Collector) (named : Option VenueId)
    (outcome : Except Failure α) : (c.record named outcome).settings = c.settings := by
  unfold record
  split <;> rfl

theorem settings_call (c : Collector) (call : Call) : (c.call call).1.settings = c.settings := by
  cases call with
  | visit busy x =>
    simp only [Collector.call, visit]
    split <;> simp
  | markSuccess named =>
    simp only [Collector.call, markSuccess]
    split <;> rfl
  | shouldNotify now named =>
    simp only [Collector.call, shouldNotify]
    split <;> rfl

/-! ## Runs of calls -/

/-- A call means a venue. -/
def concerns (c : Collector) (venue : VenueId) (call : Call) : Bool :=
  decide (c.venueFor call.named = some venue)

theorem concerns_call (c : Collector) (call : Call) :
    (c.call call).1.concerns = c.concerns := by
  funext venue later
  rw [concerns, venueFor, settings_call]
  rfl

/-- A run does to the portion of a venue what the calls of that venue do to it alone, and they are
answered alike. -/
theorem run_portion (c : Collector) (venue : VenueId) (calls : List Call) :
    (c.portion venue).after (calls.filter (c.concerns venue)) = (c.after calls).portion venue ∧
      (c.portion venue).log (calls.filter (c.concerns venue)) =
        (c.log calls).filter fun e => c.concerns venue e.1 := by
  induction calls generalizing c with
  | nil => exact ⟨rfl, rfl⟩
  | cons call calls ih =>
    obtain ⟨ends, replies⟩ := ih (c.call call).1
    rw [concerns_call] at ends replies
    cases h : c.concerns venue call with
    | true =>
      have alone := call_portion (of_decide_eq_true h)
      simp only [log, List.filter_cons, h, if_true, alone, replies, and_true]
      rw [after, List.foldl_cons, alone]
      exact ends
    | false =>
      rw [portion_call_of_ne (of_decide_eq_false h)] at ends replies
      simp only [log, List.filter_cons, h, Bool.false_eq_true, if_false, replies, and_true]
      exact ends

/-- Calls that do not mean a venue may be left out or not. -/
theorem filter_concerns {c : Collector} {venue : VenueId} {calls : List Call} {keep : Call → Bool}
    (kept : ∀ call ∈ calls, c.venueFor call.named = some venue → keep call = true) :
    (calls.filter keep).filter (c.concerns venue) = calls.filter (c.concerns venue) := by
  rw [List.filter_filter]
  refine List.filter_congr fun call hcall => ?_
  cases h : c.concerns venue call with
  | true => rw [kept call hcall (of_decide_eq_true h), Bool.and_self]
  | false => rfl

/-- Collectors that cannot be told apart by what they hold of a venue. -/
structure AgreeAt (venue : VenueId) (c d : Collector) : Prop where
  snapshot : c.store.snapshot? venue = d.store.snapshot? venue
  daily : ∀ q : DailyQuery, q.venue = venue → c.store.daily q = d.store.daily q
  status : c.store.status venue = d.store.status venue
  stored : c.store.portion venue = d.store.portion venue
  tracker : c.tracker venue = d.tracker venue

theorem agreeAt_of_portion {venue : VenueId} {c d : Collector}
    (same : c.portion venue = d.portion venue) : AgreeAt venue c d := by
  have stored : c.store.portion venue = d.store.portion venue := congrArg Collector.store same
  refine ⟨?_, ?_, ?_, stored, ?_⟩
  · rw [← Store.snapshot?_portion, stored, Store.snapshot?_portion]
  · rintro q rfl
    rw [← Store.daily_portion, stored, Store.daily_portion]
  · rw [← Store.status_portion, stored, Store.status_portion]
  · rw [← tracker_portion, same, tracker_portion]

/-- What a pass reports does not depend on a pass of another venue before it. -/
theorem report_visit_of_ne {busy' : Locks} {x y : Visit}
    (other : c.venueFor x.named ≠ c.venueFor y.named) :
    ((c.visit busy x).1.visit busy' y).2 = (c.visit busy' y).2 := by
  have settings : (c.visit busy x).1.settings = c.settings := settings_call c (.visit busy x)
  cases means : c.venueFor y.named with
  | some venue =>
    have there : (c.visit busy x).1.venueFor y.named = some venue := by
      rw [venueFor, settings]
      exact means
    have second := visit_portion busy' there
    rw [portion_visit_of_ne busy (means ▸ other), visit_portion busy' means] at second
    exact (congrArg Prod.snd second).symm
  | none =>
    cases hv : prepare c.settings y.named busy' with
    | ok venue => cases means.symm.trans (prepare_eq_ok_iff.1 hv).1
    | error f => rw [visit_of_refused hv, visit_of_refused (settings ▸ hv)]

/-! ## Failures of a venue -/

/-- A reply that tells of a failed pass. -/
def Reply.failed : Reply → Bool
  | report (.error _) => true
  | _ => false

/-- A reply that tells of a success, of a pass or from elsewhere. -/
def Reply.succeeded : Reply → Bool
  | report (.ok _) => true
  | marked (.ok _) => true
  | _ => false

/-- How many calls of a venue told of a failed pass since one of its calls told of a success. -/
def failuresOf (c : Collector) (venue : VenueId) (entries : List (Call × Reply)) : Nat :=
  ((entries.filter fun e => c.concerns venue e.1).reverse.takeWhile
    fun e => !e.2.succeeded).countP (·.2.failed)

theorem failuresOf_concat (c : Collector) (venue : VenueId) (entries : List (Call × Reply))
    (e : Call × Reply) : c.failuresOf venue (entries ++ [e]) =
      if c.concerns venue e.1 then
        if e.2.succeeded then 0
        else c.failuresOf venue entries + if e.2.failed then 1 else 0
      else c.failuresOf venue entries := by
  simp only [failuresOf, List.filter_append, List.reverse_append, List.filter_cons, List.filter_nil]
  cases c.concerns venue e.1 with
  | false => rfl
  | true =>
    simp only [if_true, List.reverse_singleton, List.singleton_append, List.takeWhile_cons]
    cases e.2.succeeded with
    | true => rfl
    | false => exact List.countP_cons ..

theorem log_concat (c : Collector) (calls : List Call) (call : Call) :
    c.log (calls ++ [call]) = c.log calls ++ [(call, ((c.after calls).call call).2)] := by
  induction calls generalizing c with
  | nil => rfl
  | cons first calls ih =>
    rw [List.cons_append, log, ih, log, List.cons_append]
    rfl

theorem after_concat (c : Collector) (calls : List Call) (call : Call) :
    c.after (calls ++ [call]) = ((c.after calls).call call).1 := by
  rw [after, List.foldl_append]
  rfl

theorem settings_after (c : Collector) (calls : List Call) :
    (c.after calls).settings = c.settings := by
  induction calls generalizing c with
  | nil => rfl
  | cons call calls ih => exact (ih _).trans (settings_call c call)

theorem concerns_after (c : Collector) (calls : List Call) :
    (c.after calls).concerns = c.concerns := by
  funext venue call
  rw [concerns, venueFor, settings_after]
  rfl

@[simp] theorem tracker_setTracker (c : Collector) (venue : VenueId) (t : FailureTracker) :
    (c.setTracker venue t).tracker venue = t := by
  have found := Keyed.get?_alter venue venue (fun _ => t) c.trackers
  rw [if_pos rfl] at found
  simp only [tracker, setTracker, Keyed.put, found, Option.getD_some]

/-- What a pass records against its venue. -/
theorem failures_record {α : Type} (h : c.venueFor named = some venue)
    (outcome : Except Failure α) : ((c.record named outcome).tracker venue).failures =
      if outcome.isOk then 0 else (c.tracker venue).failures + 1 := by
  unfold record
  rw [h]
  cases outcome with
  | error f => simp only [tracker_setTracker]; rfl
  | ok a => simp only [tracker_setTracker]; rfl

/-- A pass changes the store and then records its outcome. -/
theorem visit_eq_record (c : Collector) (busy : Locks) (x : Visit) :
    ∃ s, (c.visit busy x).1 = ({ c with store := s } : Collector).record x.named
      (c.visit busy x).2 := by
  cases hv : prepare c.settings x.named busy with
  | error f =>
    rw [visit_of_refused hv]
    exact ⟨c.store, rfl⟩
  | ok venue =>
    rw [visit_of_prepared hv]
    exact ⟨_, rfl⟩

/-- A call counts a failure of the venue that it means just if it tells of a failed pass. -/
theorem failures_call (c : Collector) (call : Call) (venue : VenueId) :
    ((c.call call).1.tracker venue).failures =
      if c.concerns venue call then
        if (c.call call).2.succeeded then 0
        else (c.tracker venue).failures + if (c.call call).2.failed then 1 else 0
      else (c.tracker venue).failures := by
  cases h : c.concerns venue call with
  | false =>
    have unchanged := portion_call_of_ne (of_decide_eq_false h)
    rw [← tracker_portion, unchanged, tracker_portion]
    rfl
  | true =>
    have means := of_decide_eq_true h
    simp only [if_true]
    cases call with
    | visit busy x =>
      have means : c.venueFor x.named = some venue := means
      obtain ⟨s, recorded⟩ := c.visit_eq_record busy x
      have counted := failures_record (c := { c with store := s }) means (c.visit busy x).2
      rw [← recorded] at counted
      refine counted.trans ?_
      rw [show (c.call (.visit busy x)).2 = .report (c.visit busy x).2 from rfl]
      cases (c.visit busy x).2 <;> rfl
    | markSuccess named =>
      have means : c.venueFor named = some venue := means
      simp only [Collector.call, markSuccess, trackedVenue, means, tracker_setTracker]
      rfl
    | shouldNotify now named =>
      have means : c.venueFor named = some venue := means
      simp only [Collector.call, shouldNotify, trackedVenue, means, tracker_setTracker,
        FailureTracker.failures_shouldNotify]
      rfl

/-- The failures of a venue are those that its calls told of since its last success. -/
theorem failures_after {c : Collector} {venue : VenueId} (none : (c.tracker venue).failures = 0)
    (calls : List Call) :
    ((c.after calls).tracker venue).failures = c.failuresOf venue (c.log calls) := by
  induction calls using List.reverseRecOn with
  | nil => exact none
  | append_singleton calls call ih =>
    rw [after_concat, failures_call, concerns_after, ih, log_concat, failuresOf_concat]

/-! ## Isolation -/

/-- What a pass of a collector meets: it fetches once it is prepared. -/
def visitOf (c : Collector) (around : Surroundings) (r : PassRequest) : Visit where
  named := r.venue
  observedAt := r.time around.now
  fetched := (c.attempt around r).fetched
  fault := none

/-- A pass does to the store and the trackers what its visit does, and reports the same. -/
theorem pass_eq_visit (c : Collector) (around : Surroundings) (r : PassRequest) :
    let run := c.visit r.busy (c.visitOf around r)
    c.pass around r = ({ run.1 with access := (c.pass around r).1.access },
      (c.pass around r).2.1, run.2) := by
  unfold pass visit visitOf attempt
  cases hv : prepare c.settings r.venue r.busy with
  | error f => simp only [record]
  | ok venue =>
    simp only [Except.bind, collect]
    generalize (c.connection.orders around venue r.forceRefresh).run ⟨c.access, []⟩ = fetch
    obtain ⟨session, fetched⟩ := fetch
    simp only [record, venueFor]
    split <;> rfl

/-- **Venues are isolated.** A pass is a visit as far as the store and the trackers go. Leaving out
calls that do not mean a venue, any of them, changes neither what the store and the trackers hold of
the venue nor what its calls are answered. So passes of two venues commute: every venue is left in
the same state, and both passes have the same reports. And the failures of a venue are those of its
own passes since its last success. -/
theorem venue_isolation :
    (∀ (c : Collector) (around : Surroundings) (r : PassRequest),
      let run := c.visit r.busy (c.visitOf around r)
      c.pass around r = ({ run.1 with access := (c.pass around r).1.access },
        (c.pass around r).2.1, run.2)) ∧
    (∀ (c : Collector) (venue : VenueId) (calls : List Call) (keep : Call → Bool),
      (∀ call ∈ calls, c.venueFor call.named = some venue → keep call = true) →
      AgreeAt venue (c.after (calls.filter keep)) (c.after calls) ∧
        ((c.log (calls.filter keep)).filter fun e => c.concerns venue e.1) =
          (c.log calls).filter fun e => c.concerns venue e.1) ∧
    (∀ (c : Collector) (busy busy' : Locks) (x y : Visit),
      c.venueFor x.named ≠ c.venueFor y.named →
      (∀ venue, AgreeAt venue ((c.visit busy x).1.visit busy' y).1
        ((c.visit busy' y).1.visit busy x).1) ∧
      ((c.visit busy x).1.visit busy' y).2 = (c.visit busy' y).2 ∧
      ((c.visit busy' y).1.visit busy x).2 = (c.visit busy x).2) ∧
    ∀ (settings : Settings) (account : AccountId) (adapted : Bool) (store : Store)
      (venue : VenueId) (calls : List Call),
      let c := start settings account adapted store
      ((c.after calls).tracker venue).failures = c.failuresOf venue (c.log calls) := by
  refine ⟨pass_eq_visit, fun c venue calls keep kept => ?_, fun c busy busy' x y other => ?_,
    fun settings account adapted store venue calls => failures_after rfl calls⟩
  · obtain ⟨ends, replies⟩ := c.run_portion venue calls
    obtain ⟨ends', replies'⟩ := c.run_portion venue (calls.filter keep)
    rw [filter_concerns kept] at ends' replies'
    exact ⟨agreeAt_of_portion (ends'.symm.trans ends), replies'.symm.trans replies⟩
  · refine ⟨fun venue => agreeAt_of_portion ?_, report_visit_of_ne other,
      report_visit_of_ne other.symm⟩
    have either : [Call.visit busy x, .visit busy' y].filter (c.concerns venue) =
        [Call.visit busy' y, .visit busy x].filter (c.concerns venue) := by
      by_cases first : c.concerns venue (.visit busy x) = true
      · have second : ¬ c.concerns venue (.visit busy' y) = true := fun both =>
          other ((of_decide_eq_true first).trans (of_decide_eq_true both).symm)
        rw [List.filter_cons_of_pos first, List.filter_cons_of_neg second,
          List.filter_cons_of_neg second, List.filter_cons_of_pos first]
      · rw [List.filter_cons_of_neg first, List.filter_cons, List.filter_cons,
          List.filter_cons_of_neg first]
    have xy := (c.run_portion venue [.visit busy x, .visit busy' y]).1
    have yx := (c.run_portion venue [.visit busy' y, .visit busy x]).1
    rw [either] at xy
    exact xy.symm.trans yx

end Collector

namespace Sample

open Collector

/-- A second venue. -/
def elsewhere : VenueId := ⟨1035, by decide⟩

/-- A collector of the first venue. -/
def collector : Collector := .start settings ⟨93, by decide⟩ false .empty

/-- A pass that fetches the early book, of the configured venue unless another is named. -/
def visitEarly (named : Option VenueId) : Visit :=
  ⟨named, .ofInstant now, .ok early, none⟩

/-- A pass of the second venue that the database keeps from committing. -/
def visitBroken : Visit :=
  ⟨some elsewhere, .ofInstant now, .ok early, some (.writing 1)⟩

/-- Calls of both venues. -/
def bothVenues : List Call :=
  [.visit [] (visitEarly none), .visit [] visitBroken, .shouldNotify (.ofInstant now) none,
    .visit [] visitBroken]

/-- Two failures of the second venue change nothing about the first one, and passes of the two
commute. -/
theorem elsewhere_left_out :
    AgreeAt venue (collector.after [.visit [] (visitEarly none),
      .shouldNotify (.ofInstant now) none]) (collector.after bothVenues) ∧
    AgreeAt elsewhere ((collector.visit [] (visitEarly none)).1.visit [] visitBroken).1
      ((collector.visit [] visitBroken).1.visit [] (visitEarly none)).1 ∧
    ((collector.after bothVenues).tracker elsewhere).failures = 2 := by
  have ⟨_, leftOut, commute, counted⟩ := venue_isolation
  refine ⟨?_, ?_, ?_⟩
  · exact (leftOut collector venue bothVenues (collector.concerns venue)
      fun call _ means => decide_eq_true means).1
  · exact (commute collector [] [] (visitEarly none) visitBroken (by decide)).1 elsewhere
  · refine (counted settings _ false .empty elsewhere bothVenues).trans ?_
    with_unfolding_all rfl

end Sample

end OrderFlow
