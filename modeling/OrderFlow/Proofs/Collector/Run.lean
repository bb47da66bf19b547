import OrderFlow.Collector.Pass
import OrderFlow.Proofs.Order.Document
import OrderFlow.Proofs.Settings.Usable
import OrderFlow.Proofs.Store.Commit

/-!
# Runs of passes

An `Attempt` is a pass with all that it meets given: the locks that others hold, the time of its
observation, the outcome of its fetch and the fault of the database. Every pass of a collector
does to the store what an attempt does (`pass_eq_attempt`), so that statements about runs of
attempts are statements about runs of passes with the fetched lists in sight.

`failed_pass_leaves_no_trace` is the main result: an attempt that fails, wherever it fails, does
not change the store, and a run ends in the store of the run without its failed attempts.
-/

namespace OrderFlow

/-- A pass with all that it meets. -/
structure Attempt where
  settings : Settings
  named : Option VenueId
  busy : Locks
  observedAt : Stamp
  fetched : Except Failure (List Order)
  fault : Option DatabaseFault

namespace Attempt

/-- The venue of an attempt, once it has the lock of the venue. -/
def venue (a : Attempt) : Except Failure VenueId :=
  Collector.prepare a.settings a.named a.busy

/-- The store after an attempt, and its report. -/
def on (a : Attempt) (s : Store) : Store × Except Failure PassReport :=
  match a.venue with
  | .error f => (s, .error f)
  | .ok venue => s.absorb a.settings a.fault venue a.observedAt a.fetched

/-- The store after several attempts. -/
def run (as : List Attempt) (s : Store) : Store :=
  as.foldl (fun s a => (a.on s).1) s

/-- The outcomes of several attempts. -/
def outcomes : List Attempt → Store → List (Except Failure PassReport)
  | [], _ => []
  | a :: as, s => (a.on s).2 :: outcomes as (a.on s).1

/-- The attempts of a run that succeed in it. -/
def succeeding : List Attempt → Store → List Attempt
  | [], _ => []
  | a :: as, s =>
    match (a.on s).2 with
    | .ok _ => a :: succeeding as (a.on s).1
    | .error _ => succeeding as (a.on s).1

@[simp] theorem run_nil (s : Store) : run [] s = s := rfl

@[simp] theorem run_cons (a : Attempt) (as : List Attempt) (s : Store) :
    run (a :: as) s = run as (a.on s).1 := rfl

end Attempt

namespace Store

variable {s : Store} {settings : Settings} {fault : Option DatabaseFault} {venue : VenueId}
  {observedAt : Stamp} {fetched : Except Failure (List Order)}

theorem absorb_error {f : Failure}
    (h : (s.absorb settings fault venue observedAt fetched).2 = .error f) :
    (s.absorb settings fault venue observedAt fetched).1 = s := by
  unfold absorb at h ⊢
  cases hh : fetched.bind fun orders =>
    Harvest.of settings (s.load fault venue) venue orders observedAt with
  | error e => simp only
  | ok harvest =>
    rw [hh] at h
    simp only at h ⊢
    cases ho : (harvest.commit (fault.bind DatabaseFault.statement?) s venue).2 with
    | error e => exact commitUnder_error ho
    | ok u => rw [ho] at h; cases h

/-- What a pass that succeeds has fetched, inferred and committed. -/
theorem absorb_ok {after : Store} {report : PassReport}
    (h : s.absorb settings fault venue observedAt fetched = (after, .ok report)) :
    ∃ orders harvest, fetched = .ok orders ∧
      Harvest.of settings (s.snapshot? venue) venue orders observedAt = .ok harvest ∧
      harvest.commit (fault.bind DatabaseFault.statement?) s venue = (after, .ok ()) ∧
      report = harvest.report := by
  unfold absorb at h
  cases hf : fetched with
  | error e => rw [hf] at h; cases h
  | ok orders =>
    rw [hf] at h
    cases hh : Harvest.of settings (s.load fault venue) venue orders observedAt with
    | error e => simp [Except.bind, hh] at h
    | ok harvest =>
      simp only [Except.bind, hh] at h
      generalize hc : harvest.commit (fault.bind DatabaseFault.statement?) s venue = run at h
      obtain ⟨t, outcome⟩ := run
      cases outcome with
      | error e => cases h
      | ok u =>
        simp only [Prod.mk.injEq] at h
        obtain ⟨rfl, hr⟩ := h
        have hl : s.load fault venue = s.snapshot? venue := by
          unfold load at hh ⊢
          split
          · rename_i hloading
            rw [if_pos hloading] at hh
            unfold Harvest.of at hh
            cases hu : observedAt.utc? with
            | none => rw [hu] at hh; cases hh
            | some now => rw [hu] at hh; cases hh
          · rfl
        exact ⟨orders, harvest, rfl, hl ▸ hh, hc, (Except.ok.inj hr).symm⟩

end Store

namespace Attempt

theorem on_error {a : Attempt} {s : Store} {f : Failure} (h : (a.on s).2 = .error f) :
    (a.on s).1 = s := by
  unfold on at h ⊢
  cases hv : a.venue with
  | error e => rfl
  | ok venue =>
    rw [hv] at h
    exact Store.absorb_error h

/-- An attempt fails and changes nothing, or it succeeds. -/
theorem outcome_cases (a : Attempt) (s : Store) :
    (∃ f, a.on s = (s, .error f)) ∨ ∃ after report, a.on s = (after, .ok report) := by
  generalize hrun : a.on s = run
  obtain ⟨after, f | report⟩ := run
  · have kept := on_error (congrArg Prod.snd hrun)
    rw [hrun] at kept
    exact .inl ⟨f, by rw [← kept]⟩
  · exact .inr ⟨after, report, rfl⟩

/-- An attempt that succeeds has the lock of its venue. -/
theorem on_ok {a : Attempt} {s after : Store} {report : PassReport}
    (h : a.on s = (after, .ok report)) :
    ∃ venue, a.venue = .ok venue ∧
      s.absorb a.settings a.fault venue a.observedAt a.fetched = (after, .ok report) := by
  unfold on at h
  cases hv : a.venue with
  | error e => rw [hv] at h; cases h
  | ok venue =>
    rw [hv] at h
    exact ⟨venue, rfl, h⟩

theorem run_succeeding (as : List Attempt) (s : Store) : run (succeeding as s) s = run as s := by
  induction as generalizing s with
  | nil => rfl
  | cons a as ih =>
    rw [succeeding, run_cons]
    cases h : (a.on s).2 with
    | ok report => exact ih (a.on s).1
    | error f =>
      have hs := on_error h
      rw [hs]
      exact ih s

theorem outcomes_succeeding (as : List Attempt) (s : Store) :
    outcomes (succeeding as s) s = (outcomes as s).filter (·.isOk) := by
  induction as generalizing s with
  | nil => rfl
  | cons a as ih =>
    rw [succeeding, outcomes]
    cases h : (a.on s).2 with
    | ok report =>
      simp only [outcomes, h, ih]
      rfl
    | error f =>
      have hs := on_error h
      rw [hs]
      exact ih s

end Attempt

namespace Collector

/-- A pass of a collector with the outcome of its fetch. -/
def attempt (c : Collector) (around : Surroundings) (r : PassRequest) : Attempt where
  settings := c.settings
  named := r.venue
  busy := r.busy
  observedAt := r.time around.now
  fetched := (prepare c.settings r.venue r.busy).bind fun venue =>
    ((c.connection.orders around venue r.forceRefresh).run ⟨c.access, []⟩).2
  fault := none

@[simp] theorem record_store {α : Type} (c : Collector) (named : Option VenueId)
    (outcome : Except Failure α) : (c.record named outcome).store = c.store := by
  unfold record
  split <;> rfl

/-- A pass does to the store what its attempt does, and has the same outcome. -/
theorem pass_eq_attempt (c : Collector) (around : Surroundings) (r : PassRequest) :
    (c.pass around r).1.store = ((c.attempt around r).on c.store).1 ∧
      (c.pass around r).2.2 = ((c.attempt around r).on c.store).2 := by
  unfold pass Attempt.on Attempt.venue attempt
  cases hv : prepare c.settings r.venue r.busy with
  | error f => simp
  | ok venue =>
    simp only [Except.bind, collect]
    generalize (c.connection.orders around venue r.forceRefresh).run ⟨c.access, []⟩ = fetch
    obtain ⟨session, fetched⟩ := fetch
    simp

end Collector

/-- The states of a store that passes lead to from empty tables: passes of any collector, with any
outcome of the fetch and any fault of the database. -/
inductive Store.Reachable : Store → Prop
  | empty (chunkSize : Int) (room : Room) : Reachable ⟨some .empty, chunkSize, room⟩
  | attempt (a : Attempt) {s : Store} (h : Reachable s) : Reachable (a.on s).1

namespace Collector

theorem reachable_pass {c : Collector} (h : c.store.Reachable) (around : Surroundings)
    (r : PassRequest) : (c.pass around r).1.store.Reachable := by
  rw [(c.pass_eq_attempt around r).1]
  exact h.attempt _

/-- **A failed pass leaves no trace.** A pass that fails does not change the store, at whatever
point it fails: before it has the lock, in its fetch, in the estimate, as it loads the book, in
front of any statement of the transaction or inside one. A run of passes therefore ends in the
store of the run without the failed ones, which succeed there with the same reports. -/
theorem failed_pass_leaves_no_trace :
    (∀ (c : Collector) (around : Surroundings) (r : PassRequest) (f : Failure),
      (c.pass around r).2.2 = .error f → (c.pass around r).1.store = c.store) ∧
    (∀ (a : Attempt) (s : Store) (f : Failure), (a.on s).2 = .error f → (a.on s).1 = s) ∧
    ∀ (as : List Attempt) (s : Store),
      Attempt.run (Attempt.succeeding as s) s = Attempt.run as s ∧
        Attempt.outcomes (Attempt.succeeding as s) s =
          (Attempt.outcomes as s).filter (·.isOk) := by
  refine ⟨?_, ?_, ?_⟩
  · intro c around r f h
    obtain ⟨store, outcome⟩ := c.pass_eq_attempt around r
    rw [store]
    apply Attempt.on_error
    rw [← outcome, h]
  · intro a s f h
    exact Attempt.on_error h
  · intro as s
    exact ⟨Attempt.run_succeeding as s, Attempt.outcomes_succeeding as s⟩

end Collector

namespace Sample

/-- An attempt that meets no obstacle. -/
def attempt (orders : List Order) : Attempt where
  settings := settings
  named := none
  busy := []
  observedAt := .ofInstant now
  fetched := .ok orders
  fault := none

/-- A pass in which the database fails to commit a book that it has written. -/
def interrupted : Attempt :=
  { attempt early with fault := some (.writing 1) }

theorem interrupted_unchanged :
    (interrupted.on .empty).2 = .error Work.broken ∧ (interrupted.on .empty).1 = .empty := by
  have failed : (interrupted.on .empty).2 = .error Work.broken := by
    with_unfolding_all rfl
  exact ⟨failed, Collector.failed_pass_leaves_no_trace.2.1 interrupted .empty _ failed⟩

end Sample

end OrderFlow
