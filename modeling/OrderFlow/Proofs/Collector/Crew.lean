import OrderFlow.Collector.Crew
import OrderFlow.Proofs.Collector.Isolation

/-!
# What passes side by side can do

`Crew.Step` lists all that a turn can do. From it follows who has which lock: a venue is locked just
if one pass is inside, and never two (`Crew.guarded_run`). A pass inside has not lost its lock,
since only the pass inside lets it go.
-/

namespace OrderFlow

theorem PassStage.inside?_of_idle {stage : PassStage} (h : stage.Idle) : stage.inside? = none := by
  cases stage with
  | waiting => rfl
  | ended _ => rfl
  | _ => cases h

namespace Crew

variable {plan : Nat → Visit} {w w' : Crew} {m n : Nat} {venue : VenueId} {stage : PassStage}

theorem stage_setStage_self (w : Crew) (n : Nat) (stage : PassStage) :
    (w.setStage n stage).stage n = stage :=
  if_pos rfl

theorem stage_setStage_of_ne (h : m ≠ n) (w : Crew) (stage : PassStage) :
    (w.setStage n stage).stage m = w.stage m :=
  if_neg h

/-- All that the turn of a pass can do. -/
inductive Step (plan : Nat → Visit) (w : Crew) (n : Nat) : Crew → Prop
  | enter {venue : VenueId} (was : w.stage n = .waiting)
      (ready : Collector.prepare w.collector.settings (plan n).named w.locked = .ok venue) :
      Step plan w n ({ w with locked := venue :: w.locked }.setStage n (.locked venue))
  | refuse {f : Failure} (was : w.stage n = .waiting)
      (refused : Collector.prepare w.collector.settings (plan n).named w.locked = .error f) :
      Step plan w n (w.setStage n (.left (.error f)))
  | fetch {venue : VenueId} {orders : List Order} (was : w.stage n = .locked venue)
      (fetched : (plan n).fetched = .ok orders) :
      Step plan w n (w.setStage n (.fetched venue orders))
  | load {venue : VenueId} {orders : List Order} {harvest : Harvest}
      (was : w.stage n = .fetched venue orders)
      (loaded : Harvest.of w.collector.settings (w.collector.store.load (plan n).fault venue) venue
        orders (plan n).observedAt = .ok harvest) :
      Step plan w n (w.setStage n (.loaded venue harvest))
  | fail {venue : VenueId} {f : Failure} (inside : (w.stage n).inside? = some venue)
      (unsettled : (w.stage n).outcome? = none) :
      Step plan w n (w.setStage n (.closing venue (.error f)))
  | commit {venue : VenueId} {harvest : Harvest} {store : Store}
      (was : w.stage n = .loaded venue harvest)
      (committed : harvest.commit ((plan n).fault.bind DatabaseFault.statement?) w.collector.store
        venue = (store, .ok ())) :
      Step plan w n ({ w with
        collector := { w.collector with store := store }
        committed := w.committed ++ [n] }.setStage n (.closing venue (.ok harvest.report)))
  | leave {venue : VenueId} {outcome : Except Failure PassReport}
      (was : w.stage n = .closing venue outcome) :
      Step plan w n ({ w with locked := w.locked.erase venue }.setStage n (.left outcome))
  | record {outcome : Except Failure PassReport} (was : w.stage n = .left outcome) :
      Step plan w n ({ w with collector := w.collector.record (plan n).named outcome }.setStage n
        (.ended outcome))
  | rest {outcome : Except Failure PassReport} (was : w.stage n = .ended outcome) :
      Step plan w n w

theorem step_turn (plan : Nat → Visit) (w : Crew) (n : Nat) : Step plan w n (w.turn plan n) := by
  unfold turn
  cases hs : w.stage n with
  | waiting =>
    cases hp : Collector.prepare w.collector.settings (plan n).named w.locked with
    | ok venue => simpa only [hp] using .enter hs hp
    | error f => simpa only [hp] using .refuse hs hp
  | locked venue =>
    cases hf : (plan n).fetched with
    | ok orders => simpa only [hf] using .fetch hs hf
    | error f => simpa only [hf] using .fail (by rw [hs]; rfl) (by rw [hs]; rfl)
  | fetched venue orders =>
    cases hh : Harvest.of w.collector.settings (w.collector.store.load (plan n).fault venue) venue
        orders (plan n).observedAt with
    | ok harvest => simpa only [hh] using .load hs hh
    | error f => simpa only [hh] using .fail (by rw [hs]; rfl) (by rw [hs]; rfl)
  | loaded venue harvest =>
    generalize hc : harvest.commit ((plan n).fault.bind DatabaseFault.statement?)
      w.collector.store venue = run
    obtain ⟨store, f | u⟩ := run
    · have kept : (harvest.commit ((plan n).fault.bind DatabaseFault.statement?)
          w.collector.store venue).1 = w.collector.store :=
        Store.commitUnder_error (congrArg Prod.snd hc)
      rw [hc] at kept
      obtain rfl : store = w.collector.store := kept
      simpa only [hc] using .fail (by rw [hs]; rfl) (by rw [hs]; rfl)
    · simpa only [hc] using .commit hs hc
  | closing venue outcome => exact .leave hs
  | left outcome => exact .record hs
  | ended outcome => exact .rest hs

theorem Step.stage_of_ne (step : Step plan w n w') (other : m ≠ n) :
    w'.stage m = w.stage m := by
  cases step with
  | rest was => rfl
  | _ => exact stage_setStage_of_ne other _ _

/-- What a turn does to the locks: nothing, it takes a free one, or it lets go the one that the pass
has. -/
theorem Step.locks (step : Step plan w n w') :
    (w'.locked = w.locked ∧ (w'.stage n).inside? = (w.stage n).inside?) ∨
    (∃ venue, (w.stage n).inside? = none ∧ venue ∉ w.locked ∧ w'.locked = venue :: w.locked ∧
      (w'.stage n).inside? = some venue) ∨
    ∃ venue, (w.stage n).inside? = some venue ∧ w'.locked = w.locked.erase venue ∧
      (w'.stage n).inside? = none := by
  cases step with
  | enter was ready =>
    have free := (Collector.prepare_eq_ok_iff.1 ready).2.2.2
    exact .inr (.inl ⟨_, by rw [was]; rfl, free, rfl, by rw [stage_setStage_self]; rfl⟩)
  | refuse was refused => exact .inl ⟨rfl, by rw [stage_setStage_self, was]; rfl⟩
  | fetch was fetched => exact .inl ⟨rfl, by rw [stage_setStage_self, was]; rfl⟩
  | load was loaded => exact .inl ⟨rfl, by rw [stage_setStage_self, was]; rfl⟩
  | fail inside unsettled => exact .inl ⟨rfl, by rw [stage_setStage_self, inside]; rfl⟩
  | commit was committed => exact .inl ⟨rfl, by rw [stage_setStage_self, was]; rfl⟩
  | leave was =>
    exact .inr (.inr ⟨_, by rw [was]; rfl, rfl, by rw [stage_setStage_self]; rfl⟩)
  | record was => exact .inl ⟨rfl, by rw [stage_setStage_self, was]; rfl⟩
  | rest was => exact .inl ⟨rfl, rfl⟩

/-- Locks that are with the passes inside: a venue is locked just if a pass is inside, and there are
never two. -/
structure Guarded (w : Crew) : Prop where
  alone : ∀ {m n : Nat} {venue : VenueId}, (w.stage m).inside? = some venue →
    (w.stage n).inside? = some venue → m = n
  held : ∀ {venue : VenueId}, venue ∈ w.locked ↔ ∃ n, (w.stage n).inside? = some venue
  once : w.locked.Nodup

theorem guarded_start (c : Collector) : (start c).Guarded where
  alone h := nomatch h
  held := ⟨(nomatch ·), fun ⟨_, h⟩ => nomatch h⟩
  once := .nil

theorem Guarded.step (g : w.Guarded) (step : Step plan w n w') : w'.Guarded := by
  have others {m : Nat} (other : m ≠ n) : (w'.stage m).inside? = (w.stage m).inside? := by
    rw [step.stage_of_ne other]
  obtain ⟨locked, same⟩ | ⟨u, outside, free, locked, inside⟩ | ⟨u, inside, locked, outside⟩ :=
    step.locks
  · have all (m : Nat) : (w'.stage m).inside? = (w.stage m).inside? := by
      by_cases h : m = n
      · rw [h, same]
      · exact others h
    constructor
    · intro m k venue hm hk
      rw [all] at hm hk
      exact g.alone hm hk
    · intro venue
      rw [locked, g.held]
      exact exists_congr fun m => by rw [all]
    · rw [locked]
      exact g.once
  · have nobody (m : Nat) : (w.stage m).inside? ≠ some u := fun h => free (g.held.2 ⟨m, h⟩)
    have alone {k : Nat} {venue : VenueId} (first : (w'.stage n).inside? = some venue)
        (hk : (w'.stage k).inside? = some venue) : k = n := by
      by_contra other
      rw [inside] at first
      rw [others other, ← first] at hk
      exact nobody k hk
    constructor
    · intro m k venue hm hk
      by_cases h : m = n
      · subst h
        exact (alone hm hk).symm
      · by_cases h' : k = n
        · subst h'
          exact alone hk hm
        · rw [others h] at hm
          rw [others h'] at hk
          exact g.alone hm hk
    · intro venue
      rw [locked, List.mem_cons]
      constructor
      · rintro (rfl | there)
        · exact ⟨n, inside⟩
        · obtain ⟨m, hm⟩ := g.held.1 there
          have other : m ≠ n := by
            rintro rfl
            rw [outside] at hm
            cases hm
          exact ⟨m, (others other).trans hm⟩
      · rintro ⟨m, hm⟩
        by_cases h : m = n
        · rw [h, inside] at hm
          exact .inl (Option.some.inj hm).symm
        · rw [others h] at hm
          exact .inr (g.held.2 ⟨m, hm⟩)
    · rw [locked]
      exact List.nodup_cons.2 ⟨free, g.once⟩
  · have other {m : Nat} {venue : VenueId} (hm : (w'.stage m).inside? = some venue) : m ≠ n := by
      rintro rfl
      rw [outside] at hm
      cases hm
    constructor
    · intro m k venue hm hk
      have hm' := (others (other hm)).symm.trans hm
      have hk' := (others (other hk)).symm.trans hk
      exact g.alone hm' hk'
    · intro venue
      rw [locked, g.once.mem_erase_iff, g.held]
      constructor
      · rintro ⟨elsewhere, m, hm⟩
        have away : m ≠ n := by
          rintro rfl
          exact elsewhere (Option.some.inj (hm.symm.trans inside))
        exact ⟨m, (others away).trans hm⟩
      · rintro ⟨m, hm⟩
        have hm' := (others (other hm)).symm.trans hm
        refine ⟨?_, m, hm'⟩
        rintro rfl
        exact other hm (g.alone hm' inside)
    · rw [locked]
      exact g.once.erase u

theorem guarded_run (plan : Nat → Visit) (turns : List Nat) (g : w.Guarded) :
    (w.run plan turns).Guarded := by
  induction turns generalizing w with
  | nil => exact g
  | cons n turns ih => exact ih (g.step (step_turn plan w n))

/-- A lock is let go by nobody but the pass that has it. -/
theorem inside_of_freed (step : Step plan w n w') (before : venue ∈ w.locked)
    (after : venue ∉ w'.locked) : (w.stage n).inside? = some venue := by
  obtain ⟨locked, -⟩ | ⟨u, -, -, locked, -⟩ | ⟨u, inside, locked, -⟩ := step.locks
  · exact absurd (locked ▸ before) after
  · rw [locked] at after
    exact absurd (List.mem_cons_of_mem u before) after
  · rw [locked] at after
    by_cases h : venue = u
    · rw [inside, h]
    · exact absurd ((List.mem_erase_of_ne h).2 before) after

/-- A pass that is over without a lock never has one again, and its turns leave all locks alone. -/
theorem Step.settled (step : Step plan w m w') (outside : (w.stage n).inside? = none)
    (settled : (w.stage n).outcome?.isSome) :
    (w'.stage n).inside? = none ∧ (w'.stage n).outcome? = (w.stage n).outcome? ∧
      (m = n → w'.locked = w.locked) := by
  by_cases h : n = m
  · subst h
    cases step with
    | enter was ready => rw [was] at settled; cases settled
    | refuse was refused => rw [was] at settled; cases settled
    | fetch was fetched => rw [was] at settled; cases settled
    | load was loaded => rw [was] at settled; cases settled
    | fail inside unsettled => rw [unsettled] at settled; cases settled
    | commit was committed => rw [was] at settled; cases settled
    | leave was => rw [was] at outside; cases outside
    | record was =>
      rw [stage_setStage_self, was]
      exact ⟨rfl, rfl, fun _ => rfl⟩
    | rest was => exact ⟨outside, rfl, fun _ => rfl⟩
  · rw [step.stage_of_ne h]
    exact ⟨outside, rfl, fun same => absurd same.symm h⟩

theorem settled_run (plan : Nat → Visit) (turns : List Nat) (outside : (w.stage n).inside? = none)
    (settled : (w.stage n).outcome?.isSome) :
    ((w.run plan turns).stage n).inside? = none ∧
      ((w.run plan turns).stage n).outcome? = (w.stage n).outcome? := by
  induction turns generalizing w with
  | nil => exact ⟨outside, rfl⟩
  | cons m turns ih =>
    obtain ⟨outside', same, -⟩ := (step_turn plan w m).settled outside settled
    obtain ⟨there, outcome⟩ := ih outside' (same ▸ settled)
    exact ⟨there, outcome.trans same⟩

end Crew

end OrderFlow
