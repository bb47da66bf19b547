import OrderFlow.Proofs.Collector.Serial

/-!
# The order of recordings

A pass lets its lock go before it records its outcome, so that the next pass of the venue may be
faster with its own. A tracker counts the failures behind the last success in the order of
recordings. These are the failures behind the last success in the order in which the passes have had
the lock, unless a failed and a successful pass record the other way round
(`Crew.failures_in_order`).
-/

namespace OrderFlow

section Trailing

variable {α : Type} {p : α → Bool} {xs ys : List α} {x : α}

/-- How many elements at the end have a property, behind the last one that does not. -/
def trailing (p : α → Bool) (xs : List α) : Nat :=
  (xs.reverse.takeWhile p).length

theorem trailing_concat (p : α → Bool) (xs : List α) (x : α) :
    trailing p (xs ++ [x]) = if p x then trailing p xs + 1 else 0 := by
  unfold trailing
  rw [List.reverse_append, List.reverse_singleton, List.singleton_append, List.takeWhile_cons]
  split <;> rfl

/-- A counter that is reset to zero. -/
theorem foldl_eq_trailing (p : α → Bool) (xs : List α) :
    xs.foldl (fun k x => if p x then k + 1 else 0) 0 = trailing p xs := by
  induction xs using List.reverseRecOn with
  | nil => rfl
  | append_singleton xs x ih => rw [List.foldl_append, ih, trailing_concat]; rfl

variable [DecidableEq α]

/-- An element with the property that comes behind all that do not have it. -/
def Trails (p : α → Bool) (xs : List α) (x : α) : Prop :=
  p x = true ∧ ∀ y ∈ xs, p y = false → xs.idxOf y < xs.idxOf x

instance (p : α → Bool) (xs : List α) (x : α) : Decidable (Trails p xs x) :=
  inferInstanceAs (Decidable (_ ∧ _))

theorem trails_concat_of_mem (fresh : x ∉ xs) {y : α} (hy : y ∈ xs) :
    Trails p (xs ++ [x]) y ↔ p x = true ∧ Trails p xs y := by
  have last : (xs ++ [x]).idxOf x = xs.length := by
    rw [List.idxOf_append_of_notMem fresh, List.idxOf_cons_self, Nat.add_zero]
  have before {z : α} (hz : z ∈ xs) : (xs ++ [x]).idxOf z = xs.idxOf z :=
    List.idxOf_append_of_mem hz
  have inside := List.idxOf_lt_length_of_mem hy
  constructor
  · rintro ⟨own, others⟩
    refine ⟨?_, own, fun z hz without => ?_⟩
    · by_contra without
      have far := others x (by simp) (Bool.eq_false_iff.2 without)
      rw [last, before hy] at far
      omega
    · have far := others z (List.mem_append_left _ hz) without
      rwa [before hz, before hy] at far
  · rintro ⟨new, own, others⟩
    refine ⟨own, fun z hz without => ?_⟩
    obtain hz | hz := List.mem_append.1 hz
    · rw [before hz, before hy]
      exact others z hz without
    · rw [List.mem_singleton.1 hz, new] at without
      cases without

theorem trails_concat_self (fresh : x ∉ xs) : Trails p (xs ++ [x]) x ↔ p x = true := by
  refine ⟨And.left, fun own => ⟨own, fun y hy without => ?_⟩⟩
  obtain hy | hy := List.mem_append.1 hy
  · rw [List.idxOf_append_of_mem hy, List.idxOf_append_of_notMem fresh]
    exact Nat.lt_add_right _ (List.idxOf_lt_length_of_mem hy)
  · rw [List.mem_singleton.1 hy, own] at without
    cases without

/-- Trailing elements can be told one by one. -/
theorem trailing_eq_countP (distinct : xs.Nodup) :
    trailing p xs = xs.countP fun x => decide (Trails p xs x) := by
  induction xs using List.reverseRecOn with
  | nil => rfl
  | append_singleton xs x ih =>
    obtain ⟨distinct, -, apart⟩ := List.nodup_append.1 distinct
    have fresh : x ∉ xs := fun h => apart x h x (List.mem_singleton_self x) rfl
    rw [trailing_concat, List.countP_append, List.countP_singleton]
    simp only [trails_concat_self fresh]
    split
    · rename_i own
      rw [ih distinct]
      congr 1
      · refine List.countP_congr fun y hy => ?_
        simp only [decide_eq_true_eq, trails_concat_of_mem fresh hy, own, true_and]
      · simp [own]
    · rename_i without
      rw [List.countP_eq_zero.2 fun y hy => ?_]
      · simp [without]
      · simp [trails_concat_of_mem fresh hy, without]

/-- Two orders trail alike if no two elements of which one has the property change places. -/
theorem trailing_congr (distinct : xs.Nodup) (same : xs.Perm ys)
    (keeps : ∀ x ∈ xs, ∀ y ∈ xs, p x ≠ p y → xs.idxOf x < xs.idxOf y →
      ys.idxOf x < ys.idxOf y) : trailing p xs = trailing p ys := by
  rw [trailing_eq_countP distinct, trailing_eq_countP (same.nodup_iff.1 distinct),
    ← same.countP_eq]
  refine List.countP_congr fun x hx => ?_
  simp only [decide_eq_true_eq]
  refine and_congr_right fun own => ?_
  constructor
  · intro others y hy without
    have hy := same.mem_iff.2 hy
    exact keeps y hy x hx (by rw [own, without]; decide) (others y hy without)
  · -- Were `x` in front of `y` in `xs`, it would be so in `ys` as well.
    intro others y hy without
    have far := others y (same.mem_iff.1 hy) without
    have apart : xs.idxOf y ≠ xs.idxOf x := by
      intro h
      rw [(List.idxOf_inj hy).1 h, own] at without
      cases without
    have near := keeps x hx y hy (by rw [own, without]; decide)
    omega

end Trailing

namespace PassStage

/-- A pass whose outcome is recorded. -/
def isEnded : PassStage → Bool
  | ended _ => true
  | _ => false

theorem progress_le (stage : PassStage) : stage.progress ≤ 6 := by
  cases stage <;> simp [progress]

/-- A pass that has failed. -/
def failed (stage : PassStage) : Bool :=
  stage.outcome?.any fun outcome => !outcome.isOk

theorem failed_of_outcome {stage : PassStage} {outcome : Except Failure PassReport}
    (h : stage.outcome? = some outcome) : stage.failed = !outcome.isOk := by
  rw [failed, h, Option.any_some]

end PassStage

namespace Crew

variable {plan : Nat → Visit} {w w' : Crew} {m n k : Nat} {venue : VenueId} {turns : List Nat}
  {reached : PassStage → Bool}

/-- The passes whose turns take them to a stage of a certain kind, the first one first. -/
def reaching (reached : PassStage → Bool) (plan : Nat → Visit) : List Nat → Crew → List Nat
  | [], _ => []
  | n :: turns, w =>
    let rest := reaching reached plan turns (w.turn plan n)
    if !reached (w.stage n) && reached ((w.turn plan n).stage n) then n :: rest else rest

/-- The passes that get the lock of a venue, in the order in which they do. -/
def sections (plan : Nat → Visit) (venue : VenueId) (turns : List Nat) (w : Crew) : List Nat :=
  reaching (fun stage => decide (stage.inside? = some venue)) plan turns w

/-- The passes that record an outcome against a venue, in the order in which they do. -/
def recordings (plan : Nat → Visit) (venue : VenueId) (turns : List Nat) (w : Crew) : List Nat :=
  (reaching PassStage.isEnded plan turns w).filter fun n =>
    decide (w.collector.venueFor (plan n).named = some venue)

/-! ## What a turn reaches -/

theorem Step.venueFor (step : Step plan w n w') (named : Option VenueId) :
    w'.collector.venueFor named = w.collector.venueFor named := by
  rw [Collector.venueFor, step.settings, Collector.venueFor]

/-- A lock is taken by the first step of a pass of its venue. -/
theorem Step.enters (step : Step plan w n w') (before : (w.stage n).inside? ≠ some venue)
    (after : (w'.stage n).inside? = some venue) :
    w.collector.venueFor (plan n).named = some venue ∧ (w.stage n).progress ≤ 0 ∧
      0 < (w'.stage n).progress := by
  cases step with
  | enter was ready =>
    rw [stage_setStage_self] at after ⊢
    obtain rfl := Option.some.inj after
    rw [was]
    exact ⟨(Collector.prepare_eq_ok_iff.1 ready).1, Nat.le_refl 0, Nat.one_pos⟩
  | refuse | leave | record =>
    rw [stage_setStage_self] at after
    cases after
  | fetch was | load was | commit was =>
    rw [stage_setStage_self] at after
    rw [was] at before
    exact absurd after before
  | fail inside unsettled =>
    rw [stage_setStage_self] at after
    exact absurd (inside.trans after) before
  | rest was => exact absurd after before

/-- A pass ends as it records its outcome, and there is no other step that changes a tracker. -/
theorem Step.records (step : Step plan w n w') :
    ((w'.stage n).isEnded = (w.stage n).isEnded ∧
      w'.collector.trackers = w.collector.trackers) ∨
    ∃ outcome, w.stage n = .left outcome ∧ w'.stage n = .ended outcome ∧
      w'.collector = w.collector.record (plan n).named outcome := by
  cases step with
  | record was => exact .inr ⟨_, was, stage_setStage_self .., rfl⟩
  | rest was => exact .inl ⟨rfl, rfl⟩
  | enter was | refuse was | fetch was | load was | commit was | leave was =>
    exact .inl ⟨by rw [stage_setStage_self, was]; rfl, rfl⟩
  | fail inside unsettled =>
    refine .inl ⟨?_, rfl⟩
    rw [stage_setStage_self]
    generalize w.stage n = stage at unsettled
    cases stage with
    | ended outcome => cases unsettled
    | _ => rfl

theorem Step.ends (step : Step plan w n w') (before : (w.stage n).isEnded = false)
    (after : (w'.stage n).isEnded = true) :
    (w.stage n).progress ≤ 5 ∧ 5 < (w'.stage n).progress := by
  obtain ⟨same, -⟩ | ⟨outcome, was, is, -⟩ := step.records
  · rw [same, before] at after
    cases after
  · rw [was, is]
    exact ⟨Nat.le_refl 5, Nat.lt_succ_self 5⟩

/-! ## The orders -/

theorem mem_reaching_cons :
    n ∈ reaching reached plan (m :: turns) w ↔
      (n = m ∧ reached (w.stage n) = false ∧ reached ((w.turn plan n).stage n) = true) ∨
        n ∈ reaching reached plan turns (w.turn plan m) := by
  rw [reaching]
  split
  · rename_i h
    simp only [Bool.and_eq_true, Bool.not_eq_true'] at h
    rw [List.mem_cons]
    exact or_congr_left ⟨fun same => ⟨same, same ▸ h⟩, And.left⟩
  · rename_i h
    simp only [Bool.and_eq_true, Bool.not_eq_true'] at h
    exact (or_iff_right fun ⟨same, reaches⟩ => h (same ▸ reaches)).symm

theorem mem_turns_of_reaching (h : n ∈ reaching reached plan turns w) : n ∈ turns := by
  induction turns generalizing w with
  | nil => cases h
  | cons m turns ih =>
    obtain ⟨rfl, -⟩ | later := mem_reaching_cons.1 h
    · exact List.mem_cons_self
    · exact List.mem_cons_of_mem m (ih later)

/-- A kind of stage that is reached by the step from a certain progress to the next. -/
def ReachedAt (reached : PassStage → Bool) (k : Nat) : Prop :=
  ∀ {plan : Nat → Visit} {w w' : Crew} {n : Nat}, Step plan w n w' →
    reached (w.stage n) = false → reached (w'.stage n) = true →
      (w.stage n).progress ≤ k ∧ k < (w'.stage n).progress

theorem not_mem_reaching (at_ : ReachedAt reached k) (beyond : k < (w.stage n).progress) :
    n ∉ reaching reached plan turns w := by
  induction turns generalizing w with
  | nil => exact List.not_mem_nil
  | cons m turns ih =>
    have step := step_turn plan w m
    have further : k < ((w.turn plan m).stage n).progress := by
      by_cases h : n = m
      · subst h
        have := step.progress
        have := (w.stage n).progress_le
        omega
      · rwa [step.stage_of_ne h]
    intro h
    obtain ⟨rfl, before, after⟩ | later := mem_reaching_cons.1 h
    · have near := (at_ step before after).1
      omega
    · exact ih further later

theorem nodup_reaching (at_ : ReachedAt reached k) : (reaching reached plan turns w).Nodup := by
  induction turns generalizing w with
  | nil => exact .nil
  | cons n turns ih =>
    rw [reaching]
    split
    · rename_i h
      simp only [Bool.and_eq_true, Bool.not_eq_true'] at h
      have far := (at_ (step_turn plan w n) h.1 h.2).2
      exact List.nodup_cons.2 ⟨not_mem_reaching at_ far, ih⟩
    · exact ih

theorem nodup_sections : (sections plan venue turns w).Nodup :=
  nodup_reaching fun step before after =>
    (step.enters (of_decide_eq_false before) (of_decide_eq_true after)).2

theorem nodup_recordings : (recordings plan venue turns w).Nodup :=
  List.Nodup.filter _ (nodup_reaching Step.ends)

theorem means_of_mem_sections (h : n ∈ sections plan venue turns w) :
    w.collector.venueFor (plan n).named = some venue := by
  induction turns generalizing w with
  | nil => cases h
  | cons m turns ih =>
    have step := step_turn plan w m
    obtain ⟨rfl, before, after⟩ | later := mem_reaching_cons.1 h
    · exact (step.enters (of_decide_eq_false before) (of_decide_eq_true after)).1
    · exact (step.venueFor _).symm.trans (ih later)

/-- A pass that has ended has recorded. -/
theorem mem_recordings_of_ended (means : w.collector.venueFor (plan n).named = some venue)
    (before : (w.stage n).isEnded = false)
    (after : ((w.run plan turns).stage n).isEnded = true) :
    n ∈ recordings plan venue turns w := by
  refine List.mem_filter.2 ⟨?_, decide_eq_true means⟩
  clear means
  induction turns generalizing w with
  | nil =>
    have same : (w.stage n).isEnded = true := after
    rw [before] at same
    cases same
  | cons m turns ih =>
    by_cases ended : ((w.turn plan m).stage n).isEnded = true
    · have own : n = m := by
        by_contra other
        rw [(step_turn plan w m).stage_of_ne other, before] at ended
        cases ended
      subst own
      exact mem_reaching_cons.2 (.inl ⟨rfl, before, ended⟩)
    · exact mem_reaching_cons.2 (.inr (ih (Bool.eq_false_iff.2 ended) after))

theorem recordings_cons (plan : Nat → Visit) (venue : VenueId) (n : Nat) (turns : List Nat)
    (w : Crew) :
    recordings plan venue (n :: turns) w =
      let rest := recordings plan venue turns (w.turn plan n)
      if ((w.stage n).isEnded = false ∧ ((w.turn plan n).stage n).isEnded = true) ∧
          w.collector.venueFor (plan n).named = some venue then n :: rest else rest := by
  have same : (fun m => decide ((w.turn plan n).collector.venueFor (plan m).named = some venue)) =
      fun m => decide (w.collector.venueFor (plan m).named = some venue) := by
    funext m
    rw [(step_turn plan w n).venueFor]
  simp only [recordings, reaching, same, Bool.and_eq_true, Bool.not_eq_true']
  by_cases ends : (w.stage n).isEnded = false ∧ ((w.turn plan n).stage n).isEnded = true
  · rw [if_pos ends, List.filter_cons]
    simp only [decide_eq_true_eq, and_iff_right ends]
  · rw [if_neg ends, if_neg fun h => ends h.1]

/-- A tracker counts the recordings that are failures, from zero again after a success. -/
theorem failures_run (plan : Nat → Visit) (venue : VenueId) (turns : List Nat) (w : Crew) :
    let done := w.run plan turns
    (done.collector.tracker venue).failures =
      (recordings plan venue turns w).foldl
        (fun k n => if (done.stage n).failed then k + 1 else 0)
        (w.collector.tracker venue).failures := by
  induction turns generalizing w with
  | nil => rfl
  | cons n turns ih =>
    intro done
    have step := step_turn plan w n
    rw [recordings_cons]
    refine (ih (w.turn plan n)).trans ?_
    obtain ⟨same, trackers⟩ | ⟨outcome, was, is, recorded⟩ := step.records
    · have tracker : (w.turn plan n).collector.tracker venue = w.collector.tracker venue := by
        rw [Collector.tracker, trackers, step.settings, Collector.tracker]
      have stays : ¬ ((w.stage n).isEnded = false ∧ ((w.turn plan n).stage n).isEnded = true) := by
        rw [same]
        exact fun h => Bool.false_ne_true (h.1.symm.trans h.2)
      rw [if_neg fun h => stays h.1, tracker]
      rfl
    · -- What was recorded now is what the stage of the pass still says in the end.
      obtain ⟨-, settled⟩ := settled_run plan turns (w := w.turn plan n) (n := n)
        (by rw [is]; rfl) (by rw [is]; rfl)
      have result : (done.stage n).failed = !outcome.isOk :=
        PassStage.failed_of_outcome (settled.trans (by rw [is]; rfl))
      have ends : (w.stage n).isEnded = false ∧ ((w.turn plan n).stage n).isEnded = true := by
        rw [was, is]
        exact ⟨rfl, rfl⟩
      by_cases means : w.collector.venueFor (plan n).named = some venue
      · rw [if_pos ⟨ends, means⟩, List.foldl_cons, result, recorded,
          Collector.failures_record means]
        cases outcome <;> rfl
      · have portion := Collector.portion_record_of_ne means outcome
        rw [if_neg fun h => means h.2, recorded, ← Collector.tracker_portion, portion,
          Collector.tracker_portion]
        rfl

/-- **Failures are counted as they are recorded.** However passes are interleaved on a collector
that has not counted failures of a venue yet: what its tracker counts in the end are the failures
behind the last success in the order of recordings. Where every pass of the venue got the lock and
has ended, these are the failures behind the last success in the order in which they had the lock,
if no failed and successful pass record the other way round. -/
theorem failures_in_order (plan : Nat → Visit) (turns : List Nat) {c : Collector} {venue : VenueId}
    (fresh : (c.tracker venue).failures = 0) :
    let done := (start c).run plan turns
    let failed (n : Nat) := (done.stage n).failed
    let locked := sections plan venue turns (start c)
    let recorded := recordings plan venue turns (start c)
    let failures := (done.collector.tracker venue).failures
    failures = trailing failed recorded ∧
    ((∀ n ∈ turns, c.venueFor (plan n).named = some venue →
        n ∈ locked ∧ (done.stage n).isEnded = true) →
      (∀ m ∈ locked, ∀ n ∈ locked, failed m ≠ failed n →
        locked.idxOf m < locked.idxOf n → recorded.idxOf m < recorded.idxOf n) →
      failures = trailing failed locked) := by
  intro done failed locked recorded failures
  have counted : failures = trailing failed recorded := by
    have run := failures_run plan venue turns (start c)
    rw [show ((start c).collector.tracker venue).failures = 0 from fresh] at run
    exact run.trans (foldl_eq_trailing failed recorded)
  refine ⟨counted, fun complete keeps => ?_⟩
  have same : locked.Perm recorded := by
    refine (List.perm_ext_iff_of_nodup nodup_sections nodup_recordings).2 fun n => ⟨?_, ?_⟩
    · intro h
      have means := means_of_mem_sections h
      obtain ⟨-, ended⟩ := complete n (mem_turns_of_reaching h) means
      exact mem_recordings_of_ended means rfl ended
    · intro h
      obtain ⟨there, means⟩ := List.mem_filter.1 h
      exact (complete n (mem_turns_of_reaching there) (of_decide_eq_true means)).1
  rw [counted]
  exact (trailing_congr nodup_sections same keeps).symm

end Crew

namespace Sample

open Crew

/-- A pass of a venue that succeeds, and others that the database keeps from committing. -/
def oneSucceeds : Nat → Visit
  | 0 => visitEarly none
  | _ => { visitEarly none with fault := some (.writing 1) }

/-- Turns with which the first pass records while the second one has the lock. -/
def inTurn : List Nat := [0, 0, 0, 0, 0, 1, 0, 1, 1, 1, 1, 1]

/-- Turns with which the second pass records before the first one, which has had the lock before. -/
def overtaken : List Nat := [0, 0, 0, 0, 0, 1, 1, 1, 1, 1, 1, 0]

/-- The failure that followed the success is counted. -/
theorem failure_behind_success :
    (collector.tracker venue).failures = 0 ∧
      sections oneSucceeds venue inTurn (start collector) = [0, 1] ∧
      (((start collector).run oneSucceeds inTurn).collector.tracker venue).failures = 1 := by
  have fresh : (collector.tracker venue).failures = 0 := rfl
  have locked : sections oneSucceeds venue inTurn (start collector) = [0, 1] := by
    decide +kernel
  have recorded : recordings oneSucceeds venue inTurn (start collector) = [0, 1] := by
    decide +kernel
  refine ⟨fresh, locked, ?_⟩
  obtain ⟨-, counted⟩ := failures_in_order oneSucceeds inTurn fresh
  rw [locked, recorded] at counted
  have complete : ∀ n ∈ inTurn, n ∈ [0, 1] ∧
      (((start collector).run oneSucceeds inTurn).stage n).isEnded = true := by
    decide +kernel
  refine (counted (fun n hn _ => complete n hn) fun _ _ _ _ _ before => before).trans ?_
  decide +kernel

/-- The success that came before the failure is recorded after it: both passes have had the lock and
have ended, the second one has failed, and no failure is counted. -/
theorem failure_forgotten :
    let done := (start collector).run oneSucceeds overtaken
    let locked := sections oneSucceeds venue overtaken (start collector)
    (collector.tracker venue).failures = 0 ∧ locked = [0, 1] ∧
      (∀ n ∈ overtaken, n ∈ locked ∧ (done.stage n).isEnded = true) ∧
      trailing (fun n => (done.stage n).failed) locked = 1 ∧
      (done.collector.tracker venue).failures = 0 := by
  intro done locked
  have order : locked = [0, 1] := by
    decide +kernel
  rw [order]
  refine ⟨rfl, rfl, ?_, ?_, ?_⟩
  · decide +kernel
  · decide +kernel
  · decide +kernel

end Sample

end OrderFlow
