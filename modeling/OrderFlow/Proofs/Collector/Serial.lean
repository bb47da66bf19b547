import OrderFlow.Proofs.Collector.Crew

/-!
# Passes one after the other

What a pass has loaded stays what there is to load until it commits, since it has the lock of its
venue and passes of other venues leave the portion of that venue alone. So its commit does what the
whole pass would do at that moment, and the store is always that of the passes that have committed,
run one after the other in the order of their commits (`Crew.passes_serializable`).
-/

namespace OrderFlow

theorem Store.absorb_of_harvest {s after : Store} {settings : Settings}
    {fault : Option DatabaseFault} {venue : VenueId} {observedAt : Stamp} {orders : List Order}
    {harvest : Harvest}
    (of : Harvest.of settings (s.load fault venue) venue orders observedAt = .ok harvest)
    (committed : harvest.commit (fault.bind DatabaseFault.statement?) s venue = (after, .ok ())) :
    s.absorb settings fault venue observedAt (.ok orders) = (after, .ok harvest.report) := by
  unfold absorb
  simp only [Except.bind, of, committed]
  rfl

namespace PassStage

/-- What a stage says about its pass is so: the pass is prepared, it has fetched the book, and its
harvest is that of the store as it is. -/
def Holds (settings : Settings) (store : Store) (v : Visit) : PassStage → Prop
  | locked venue => Collector.prepare settings v.named [] = .ok venue
  | fetched venue orders =>
    Collector.prepare settings v.named [] = .ok venue ∧ v.fetched = .ok orders
  | loaded venue harvest =>
    Collector.prepare settings v.named [] = .ok venue ∧ ∃ orders, v.fetched = .ok orders ∧
      Harvest.of settings (store.load v.fault venue) venue orders v.observedAt = .ok harvest
  | _ => True

/-- A change to the portions of other venues does not matter. -/
theorem Holds.congr {settings : Settings} {s s' : Store} {v : Visit} {stage : PassStage}
    (h : stage.Holds settings s v)
    (same : ∀ venue, stage.inside? = some venue → s'.portion venue = s.portion venue) :
    stage.Holds settings s' v := by
  cases stage with
  | loaded venue harvest =>
    obtain ⟨ready, orders, fetched, loaded⟩ := h
    rw [← Store.load_portion, ← same venue rfl, Store.load_portion] at loaded
    exact ⟨ready, orders, fetched, loaded⟩
  | _ => exact h

/-- How many steps a pass has made at least. -/
def progress : PassStage → Nat
  | waiting => 0
  | locked _ => 1
  | fetched .. => 2
  | loaded .. => 3
  | closing .. => 4
  | left _ => 5
  | ended _ => 6

theorem progress_le_of_unsettled {stage : PassStage} (h : stage.outcome? = none) :
    stage.progress ≤ 3 := by
  cases stage with
  | closing _ _ => cases h
  | left _ => cases h
  | ended _ => cases h
  | _ => simp [progress]

theorem exists_ended {stage : PassStage} (h : 6 ≤ stage.progress) :
    ∃ outcome, stage = .ended outcome := by
  cases stage with
  | ended outcome => exact ⟨outcome, rfl⟩
  | _ =>
    revert h
    simp [progress]

end PassStage

namespace Crew

variable {plan : Nat → Visit} {w w' : Crew} {m n : Nat} {venue : VenueId} {c : Collector}

/-- The six steps of a pass, taken one after the other, are what the pass does alone. -/
theorem run_alone (plan : Nat → Visit) (c : Collector) (n : Nat) :
    let w := (start c).run plan (List.replicate 6 n)
    w.collector = (c.visit [] (plan n)).1 ∧ w.stage n = .ended (c.visit [] (plan n)).2 := by
  simp only [run, List.replicate, List.foldl_cons, List.foldl_nil]
  cases ready : Collector.prepare c.settings (plan n).named [] with
  | error f =>
    simp [turn, start, setStage, ready, Collector.visit_of_refused ready, Collector.record]
  | ok venue =>
    rw [Collector.visit_of_prepared ready, Store.absorb]
    cases fetched : (plan n).fetched with
    | error f => simp [turn, start, setStage, ready, fetched, Except.bind]
    | ok orders =>
      cases loaded : Harvest.of c.settings (c.store.load (plan n).fault venue) venue orders
          (plan n).observedAt with
      | error f => simp [turn, start, setStage, ready, fetched, loaded, Except.bind]
      | ok harvest =>
        generalize hc : harvest.commit ((plan n).fault.bind DatabaseFault.statement?) c.store
          venue = run
        obtain ⟨store, f | u⟩ := run <;>
          simp [turn, start, setStage, ready, fetched, loaded, hc, Except.bind, Except.map]

/-! ## Progress -/

theorem Step.progress (step : Step plan w n w') :
    min 6 ((w.stage n).progress + 1) ≤ (w'.stage n).progress := by
  cases step with
  | fail inside unsettled =>
    have early := PassStage.progress_le_of_unsettled unsettled
    rw [stage_setStage_self, PassStage.progress]
    omega
  | rest was => simp [was, PassStage.progress]
  | enter was | refuse was | fetch was | load was | commit was | leave was | record was =>
    rw [stage_setStage_self, was]
    simp [PassStage.progress]

/-- Every turn of a pass takes it further, until it has ended. -/
theorem progress_run (plan : Nat → Visit) (turns : List Nat) (w : Crew) (n : Nat) :
    min 6 ((w.stage n).progress + turns.count n) ≤ ((w.run plan turns).stage n).progress := by
  induction turns generalizing w with
  | nil => exact Nat.min_le_right 6 _
  | cons m turns ih =>
    have rest := ih (w.turn plan m)
    refine Nat.le_trans ?_ rest
    by_cases h : m = n
    · subst h
      have first := (step_turn plan w m).progress
      rw [List.count_cons_self]
      omega
    · rw [List.count_cons_of_ne h, (step_turn plan w m).stage_of_ne (Ne.symm h)]

/-! ## Commits -/

theorem Step.settings (step : Step plan w n w') :
    w'.collector.settings = w.collector.settings := by
  cases step with
  | record was => exact Collector.settings_record _ _ _
  | _ => rfl

/-- What a turn does to the store: nothing, or it commits the harvest of the pass. -/
theorem Step.commits (step : Step plan w n w') :
    (w'.collector.store = w.collector.store ∧ w'.committed = w.committed ∧
      ∀ report, (w'.stage n).outcome? = some (.ok report) ↔
        (w.stage n).outcome? = some (.ok report)) ∨
    ∃ venue harvest, w.stage n = .loaded venue harvest ∧
      harvest.commit ((plan n).fault.bind DatabaseFault.statement?) w.collector.store venue =
        (w'.collector.store, .ok ()) ∧
      w'.committed = w.committed ++ [n] ∧ (w'.stage n).outcome? = some (.ok harvest.report) := by
  cases step with
  | commit was committed =>
    exact .inr ⟨_, _, was, committed, rfl, by rw [stage_setStage_self]; rfl⟩
  | fail inside unsettled =>
    refine .inl ⟨rfl, rfl, fun report => ?_⟩
    rw [stage_setStage_self, unsettled]
    simp [PassStage.outcome?]
  | record was =>
    refine .inl ⟨Collector.record_store _ _ _, rfl, fun report => ?_⟩
    rw [stage_setStage_self, was]
    rfl
  | rest was => exact .inl ⟨rfl, rfl, fun report => Iff.rfl⟩
  | enter was | refuse was | fetch was | load was | leave was =>
    refine .inl ⟨rfl, rfl, fun report => ?_⟩
    rw [stage_setStage_self, was]
    simp [PassStage.outcome?]

/-- What the stage of a pass says after its turn is so. -/
theorem Step.holds (step : Step plan w n w')
    (h : (w.stage n).Holds w.collector.settings w.collector.store (plan n)) :
    (w'.stage n).Holds w.collector.settings w'.collector.store (plan n) := by
  cases step with
  | enter was ready =>
    rw [stage_setStage_self]
    obtain ⟨means, account, wait, -⟩ := Collector.prepare_eq_ok_iff.1 ready
    exact Collector.prepare_eq_ok_iff.2 ⟨means, account, wait, List.not_mem_nil⟩
  | fetch was fetched =>
    rw [was] at h
    rw [stage_setStage_self]
    exact ⟨h, fetched⟩
  | load was loaded =>
    rw [was] at h
    rw [stage_setStage_self]
    exact ⟨h.1, _, h.2, loaded⟩
  | rest was => exact h
  | refuse | fail | commit | leave | record =>
    rw [stage_setStage_self]
    trivial

/-- The calls that run certain passes alone, one after the other. -/
def serial (plan : Nat → Visit) (numbers : List Nat) : List Collector.Call :=
  numbers.map fun n => .visit [] (plan n)

/-- What a pass that is over reports. -/
def reply? (w : Crew) (n : Nat) : Option Collector.Reply :=
  (w.stage n).outcome?.map .report

/-- A crew whose store is that of the passes which have committed, run one after the other. -/
structure Serial (plan : Nat → Visit) (c : Collector) (w : Crew) : Prop where
  settings : w.collector.settings = c.settings
  holds : ∀ n, (w.stage n).Holds c.settings w.collector.store (plan n)
  once : w.committed.Nodup
  succeeded : ∀ n, n ∈ w.committed ↔ ∃ report, (w.stage n).outcome? = some (.ok report)
  store : w.collector.store = (c.after (serial plan w.committed)).store
  replies : (c.log (serial plan w.committed)).map (·.2) = w.committed.filterMap w.reply?

theorem serial_start (plan : Nat → Visit) (c : Collector) : (start c).Serial plan c where
  settings := rfl
  holds _ := trivial
  once := .nil
  succeeded _ := ⟨(nomatch ·), fun ⟨_, h⟩ => nomatch h⟩
  store := rfl
  replies := rfl

/-- The passes that are not in a turn have what is theirs to load left as it is. -/
theorem Serial.holds_step (s : w.Serial plan c) (g : w.Guarded) (step : Step plan w n w')
    (m : Nat) : (w'.stage m).Holds c.settings w'.collector.store (plan m) := by
  by_cases h : m = n
  · subst h
    have own := step.holds (s.settings ▸ s.holds m)
    rwa [s.settings] at own
  · rw [step.stage_of_ne h]
    refine (s.holds m).congr fun venue inside => ?_
    obtain ⟨kept, -⟩ | ⟨u, harvest, was, committed, -⟩ := step.commits
    · rw [kept]
    · have there := s.holds n
      rw [was] at there
      obtain ⟨-, orders, -, loaded⟩ := there
      have other : u ≠ venue := by
        rintro rfl
        exact h (g.alone inside (by rw [was]; rfl))
      have frame : (harvest.commit ((plan n).fault.bind DatabaseFault.statement?)
          w.collector.store u).1.portion venue = w.collector.store.portion venue :=
        Store.portion_commitUnder_of_ne (Store.venue_of_harvest loaded) other
      rwa [committed] at frame

/-- A pass that commits does to the store of the passes before it what it does alone, and reports
the same. -/
theorem Serial.visit_of_commit (s : w.Serial plan c) {harvest : Harvest} {store : Store}
    (was : w.stage n = .loaded venue harvest)
    (committed : harvest.commit ((plan n).fault.bind DatabaseFault.statement?) w.collector.store
      venue = (store, .ok ())) :
    let before := c.after (serial plan w.committed)
    (before.visit [] (plan n)).1.store = store ∧
      (before.visit [] (plan n)).2 = .ok harvest.report := by
  intro before
  have there := s.holds n
  rw [was] at there
  obtain ⟨ready, orders, fetched, loaded⟩ := there
  have settings : before.settings = c.settings := Collector.settings_after c _
  have absorbed := Store.absorb_of_harvest loaded committed
  rw [s.store, ← fetched, ← settings] at absorbed
  rw [← settings] at ready
  rw [Collector.visit_of_prepared ready]
  simp only [before, absorbed, Collector.record_store, and_self]

theorem Serial.step (s : w.Serial plan c) (g : w.Guarded) (step : Step plan w n w') :
    w'.Serial plan c := by
  have settings := step.settings.trans s.settings
  have holds := s.holds_step g step
  obtain ⟨kept, same, report⟩ | ⟨venue, harvest, was, committed, appended, report⟩ := step.commits
  · have reports (m : Nat) (value : PassReport) :
        (w'.stage m).outcome? = some (.ok value) ↔ (w.stage m).outcome? = some (.ok value) := by
      by_cases h : m = n
      · rw [h, report]
      · rw [step.stage_of_ne h]
    refine ⟨settings, holds, same ▸ s.once, fun m => ?_, by rw [kept, same, s.store], ?_⟩
    · rw [same, s.succeeded]
      exact exists_congr fun value => (reports m value).symm
    · rw [same, s.replies]
      refine List.filterMap_congr fun m hm => ?_
      obtain ⟨value, hvalue⟩ := (s.succeeded m).1 hm
      rw [reply?, reply?, hvalue, (reports m value).2 hvalue]
  · have fresh : n ∉ w.committed := by
      rw [s.succeeded, was]
      rintro ⟨value, h⟩
      cases h
    have others {m : Nat} (hm : m ∈ w.committed) : w'.stage m = w.stage m :=
      step.stage_of_ne fun h => fresh (h ▸ hm)
    obtain ⟨store, reply⟩ := s.visit_of_commit was committed
    have calls : serial plan w'.committed = serial plan w.committed ++ [.visit [] (plan n)] := by
      rw [appended, serial, List.map_append]
      rfl
    refine ⟨settings, holds, ?_, fun m => ?_, ?_, ?_⟩
    · rw [appended]
      exact List.nodup_append.2 ⟨s.once, by simp, fun m hm k hk => by
        rw [List.mem_singleton.1 hk]
        exact fun h => fresh (h ▸ hm)⟩
    · rw [appended, List.mem_append, List.mem_singleton]
      constructor
      · rintro (hm | rfl)
        · rw [others hm]
          exact (s.succeeded m).1 hm
        · exact ⟨_, report⟩
      · rintro ⟨value, hvalue⟩
        by_cases h : m = n
        · exact .inr h
        · rw [step.stage_of_ne h] at hvalue
          exact .inl ((s.succeeded m).2 ⟨value, hvalue⟩)
    · rw [calls, Collector.after_concat]
      exact store.symm
    · rw [calls, Collector.log_concat, List.map_append, s.replies, appended, List.filterMap_append]
      have before : w.committed.filterMap w.reply? = w.committed.filterMap w'.reply? :=
        List.filterMap_congr fun m hm => by rw [reply?, reply?, others hm]
      rw [before]
      simp only [List.map_cons, List.map_nil, Collector.call, reply, List.filterMap_cons,
        List.filterMap_nil, reply?, report, Option.map_some]

theorem stage_run_of_not_mem {turns : List Nat} (w : Crew) (h : n ∉ turns) :
    (w.run plan turns).stage n = w.stage n := by
  induction turns generalizing w with
  | nil => rfl
  | cons m turns ih =>
    have first := (step_turn plan w m).stage_of_ne (List.ne_of_not_mem_cons h)
    exact (ih (w.turn plan m) (List.not_mem_of_not_mem_cons h)).trans first

theorem serial_run (plan : Nat → Visit) (turns : List Nat) (s : w.Serial plan c) (g : w.Guarded) :
    (w.run plan turns).Serial plan c := by
  induction turns generalizing w with
  | nil => exact s
  | cons n turns ih =>
    have step := step_turn plan w n
    exact ih (s.step g step) (g.step step)

/-- **Passes side by side are serializable.** However many passes run on a collector, of whatever
venues, and however their steps are interleaved: a lock is held just if a pass is inside its venue,
and there is never more than one; a lock is let go by nobody but the pass inside; a pass that was
refused, be it because it waited too long, keeps that outcome, never is inside and leaves all locks
alone; without a pass under way every lock is free; and a pass ends with its sixth turn. The store
is that of the passes that have committed, which are those that succeed, run one after the other in
the order of their commits, and they report what they report there. -/
theorem passes_serializable (plan : Nat → Visit) (c : Collector) (turns : List Nat) :
    let w := (start c).run plan turns
    (∀ m n venue, (w.stage m).inside? = some venue → (w.stage n).inside? = some venue → m = n) ∧
    (∀ venue, venue ∈ w.locked ↔ ∃ n, (w.stage n).inside? = some venue) ∧
    (∀ n venue, venue ∈ w.locked → venue ∉ (w.turn plan n).locked →
      (w.stage n).inside? = some venue) ∧
    (∀ n f later, w.stage n = .waiting →
      Collector.prepare c.settings (plan n).named w.locked = .error f →
      let w' := (w.turn plan n).run plan later
      (w.turn plan n).locked = w.locked ∧ (w'.stage n).inside? = none ∧
        (w'.stage n).outcome? = some (.error f) ∧ (w'.turn plan n).locked = w'.locked) ∧
    ((∀ n, (w.stage n).Idle) → w.locked = []) ∧
    (∀ n, 6 ≤ turns.count n → ∃ outcome, w.stage n = .ended outcome) ∧
    w.committed.Nodup ∧
    (∀ n, n ∈ w.committed ↔ ∃ report, (w.stage n).outcome? = some (.ok report)) ∧
    w.collector.store = (c.after (serial plan w.committed)).store ∧
    (c.log (serial plan w.committed)).map (·.2) = w.committed.filterMap w.reply? := by
  intro w
  have g : w.Guarded := guarded_run plan turns (guarded_start c)
  have s : w.Serial plan c := serial_run plan turns (serial_start plan c) (guarded_start c)
  refine ⟨fun m n venue => g.alone, fun venue => g.held,
    fun n venue => inside_of_freed (step_turn plan w n), ?_, ?_, ?_, s.once, s.succeeded, s.store,
    s.replies⟩
  · intro n f later waits refused w'
    have turned : w.turn plan n = w.setStage n (.left (.error f)) := by
      rw [← s.settings] at refused
      simp only [turn, waits, refused]
    have stage : (w.turn plan n).stage n = .left (.error f) := by
      rw [turned, stage_setStage_self]
    obtain ⟨outside, outcome⟩ := settled_run plan later (w := w.turn plan n) (n := n)
      (by rw [stage]; rfl) (by rw [stage]; rfl)
    have outcome' : (w'.stage n).outcome? = some (.error f) := outcome.trans (by rw [stage]; rfl)
    refine ⟨by rw [turned]; rfl, outside, outcome', ?_⟩
    exact ((step_turn plan w' n).settled outside (by rw [outcome']; rfl)).2.2 rfl
  · intro idle
    refine List.eq_nil_iff_forall_not_mem.2 fun venue there => ?_
    obtain ⟨n, inside⟩ := g.held.1 there
    rw [PassStage.inside?_of_idle (idle n)] at inside
    cases inside
  · intro n many
    have far : min 6 (0 + turns.count n) ≤ (w.stage n).progress :=
      progress_run plan turns (start c) n
    exact PassStage.exists_ended (by omega)

end Crew

namespace Sample

open Crew

/-- Two passes of the first venue, and one of the second that the database keeps from committing. -/
def sideBySide : Nat → Visit
  | 0 => visitEarly none
  | 1 => visitEarly (some venue)
  | _ => visitBroken

/-- Turns after which two passes are inside. -/
def turnsInside : List Nat := [0, 2, 2, 0]

/-- Turns with which all of them end. -/
def turnsToEnd : List Nat := turnsInside ++ [1, 0, 2, 0, 2, 1, 0, 0, 2, 2]

/-- The second pass of a venue waits too long for the first one, and leaves the locks with those
inside. In the end all locks are free, and the store is that of the first pass alone. -/
theorem waited_too_long :
    let w := (start collector).run sideBySide turnsInside
    let done := (start collector).run sideBySide turnsToEnd
    w.locked = [elsewhere, venue] ∧ (w.turn sideBySide 1).locked = w.locked ∧
      ((w.turn sideBySide 1).stage 1).outcome? = some (.error (.inProgress 7)) ∧
      done.locked = [] ∧ done.committed = [0] ∧
      done.collector.store = (collector.after [.visit [] (visitEarly none)]).store := by
  have ⟨_, _, _, refused, _⟩ := passes_serializable sideBySide collector turnsInside
  have ⟨_, _, _, _, free, ends, _, _, store, _⟩ :=
    passes_serializable sideBySide collector turnsToEnd
  obtain ⟨locked, -, outcome, -⟩ := refused 1 (.inProgress 7) [] (by with_unfolding_all rfl)
    (by with_unfolding_all rfl)
  have waited : ((start collector).run sideBySide turnsToEnd).stage 1 =
      .ended (.error (.inProgress 7)) := by
    with_unfolding_all rfl
  have committed : ((start collector).run sideBySide turnsToEnd).committed = [0] := by
    with_unfolding_all rfl
  refine ⟨by with_unfolding_all rfl, locked, outcome, free fun n => ?_, committed, ?_⟩
  · by_cases turned : n ∈ turnsToEnd
    · have few : n = 0 ∨ n = 2 ∨ n = 1 := by
        simp [turnsToEnd, turnsInside] at turned
        omega
      obtain rfl | rfl | rfl := few
      · obtain ⟨outcome, ended⟩ := ends 0 (by decide)
        rw [ended]
        trivial
      · obtain ⟨outcome, ended⟩ := ends 2 (by decide)
        rw [ended]
        trivial
      · rw [waited]
        trivial
    · rw [stage_run_of_not_mem _ turned]
      trivial
  · rw [store, committed]
    rfl

end Sample

end OrderFlow
