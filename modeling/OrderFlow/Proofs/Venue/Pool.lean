import Mathlib.Algebra.BigOperators.Group.Finset.Basic
import Mathlib.Algebra.Order.BigOperators.Group.Finset
import OrderFlow.Proofs.Outcome
import OrderFlow.Venue.Pool

/-!
# What a pool can do

`BookFetch.step_cases` says all that a move does. From it follow an invariant of pools on their way
(`Pool.Sound`), which relates what the caller has or fails with to what the pages have given, and a
count of moves that grows with each one (`Pool.made`). A fetch that has not ended has an open move
(`Pool.Sound.exists_step`), and it ends after less than six moves for each of the pages that the
first one tells of (`BookFetch.length_run_le`).
-/

namespace OrderFlow

open Exchange

namespace PageStage

variable {stage : PageStage} {outcome : PageOutcome}

theorem outcome?_eq_some_iff : stage.outcome? = some outcome ↔ stage = .ended outcome := by
  cases stage <;> simp [outcome?]

theorem progress_le (stage : PageStage) : stage.progress ≤ 4 := by
  cases stage <;> simp [progress]

end PageStage

theorem Connection.one_le_pageCount {text : Option String} {count : Nat}
    (h : pageCount text = .ok count) : 1 ≤ count := by
  cases text with
  | none =>
    cases h
    exact Nat.le_refl 1
  | some text =>
    rw [pageCount] at h
    cases hn : readInteger text with
    | error _ =>
      rw [hn] at h
      cases h
    | ok n =>
      rw [hn] at h
      simp only at h
      split at h
      · cases h
      · cases h
        omega

namespace BookFetch

variable {f : BookFetch} {around : Surroundings} {number count : Nat} {s : Session}
  {stage : PageStage} {orders : List Order} {p p' : Pool} {m : Move}

theorem one_le_of_content {body : Value} {headers : Headers}
    (h : f.content number body headers = .ok (orders, count)) : 1 ≤ count := by
  obtain ⟨_, -, h⟩ := Outcome.bind_eq_ok_iff.1 h
  obtain ⟨told, htold, h⟩ := Outcome.bind_eq_ok_iff.1 h
  cases h
  exact Connection.one_le_pageCount htold

/-- A request that is not over makes progress with each of its steps. -/
theorem progress_advance (f : BookFetch) (around : Surroundings) (number : Nat) (s : Session)
    (h : stage.outcome? = none) :
    stage.progress < (f.advance around number s stage).2.progress := by
  cases stage with
  | waiting =>
    simp only [advance]
    split <;> simp [PageStage.progress]
  | looked url seen =>
    simp only [advance]
    split <;> simp [PageStage.progress]
  | allowed url credential =>
    simp only [advance]
    split <;> simp [PageStage.progress]
  | answered path reply =>
    simp only [advance]
    split <;> simp [PageStage.progress]
  | ended _ => cases h

/-- A page that gives orders tells of one page at least. -/
theorem one_le_of_advance (h : stage.outcome? = none)
    (gives : (f.advance around number s stage).2.outcome? = some (.ok (orders, count))) :
    1 ≤ count := by
  cases stage with
  | waiting =>
    simp only [advance] at gives
    split at gives <;> cases gives
  | looked url seen =>
    simp only [advance] at gives
    split at gives <;> cases gives
  | allowed url credential =>
    simp only [advance] at gives
    split at gives <;> cases gives
  | answered path reply =>
    simp only [advance] at gives
    split at gives
    · exact one_le_of_content (Option.some.inj gives)
    · cases gives
  | ended _ => cases h

/-- All that a move can do. -/
theorem step_cases (h : f.step around m p = some p') :
    (∃ number, m = .turn number ∧ p.active number = true ∧
      p' = { p with session := (f.advance around number p.session (p.stage number)).1 }.setStage
        number (f.advance around number p.session (p.stage number)).2) ∨
    (m = .take ∧ ∃ count next orders, p.caller = .reading count next orders ∧ p.begun ≤ count ∧
      p.busy < min f.workers (count - 1) ∧ p' = { p with begun := p.begun + 1 }) ∨
    (m = .read ∧ ∃ caller, p.caller.read p.outcome? = some caller ∧
      p' = { p with caller := caller }) := by
  cases m with
  | turn number =>
    rw [step] at h
    split at h
    · rename_i active
      exact .inl ⟨number, rfl, active, (Option.some.inj h).symm⟩
    · cases h
  | take =>
    rw [step] at h
    split at h
    · rename_i count next orders caller
      split at h
      · rename_i free
        exact .inr (.inl ⟨rfl, count, next, orders, caller, free.1, free.2,
          (Option.some.inj h).symm⟩)
      · cases h
    · cases h
  | read =>
    obtain ⟨caller, read, rfl⟩ := Option.map_eq_some_iff.1 h
    exact .inr (.inr ⟨rfl, caller, read, rfl⟩)

end BookFetch

namespace Pool

variable {p p' : Pool} {number n count : Nat} {orders : List Order} {outcome : PageOutcome}

theorem outcome?_setStage (p : Pool) (number : Nat) (stage : PageStage) (n : Nat) :
    (p.setStage number stage).outcome? n = if n = number then stage.outcome? else p.outcome? n := by
  unfold outcome? setStage
  dsimp only
  split <;> rfl

theorem active_iff : p.active n = true ↔ 1 ≤ n ∧ n < p.begun ∧ p.outcome? n = none := by
  simp [active, and_assoc]

/-- No page is under way if all that were taken up are over. -/
theorem active_eq_false (h : ∀ n, 1 ≤ n → n < p.begun → (p.outcome? n).isSome) (n : Nat) :
    p.active n = false := by
  refine Bool.eq_false_iff.2 fun active => ?_
  obtain ⟨one, lt, unsettled⟩ := active_iff.1 active
  have ended := h n one lt
  rw [unsettled] at ended
  cases ended

theorem busy_eq_zero (idle : ∀ n, p.active n = false) : p.busy = 0 := by
  rw [busy, List.countP_eq_zero]
  intro n _
  rw [idle n]
  exact Bool.false_ne_true

/-- The orders of the first pages, in the order of pages. -/
inductive Gathered (outcome? : Nat → Option PageOutcome) : Nat → List Order → Prop
  | none : Gathered outcome? 0 []
  | page {k count : Nat} {orders more : List Order} (before : Gathered outcome? k orders)
      (gives : outcome? (k + 1) = some (.ok (more, count))) :
      Gathered outcome? (k + 1) (orders ++ more)

/-- The first page has told the count of pages. -/
def Tells (p : Pool) (count : Nat) : Prop :=
  ∃ orders, p.outcome? 1 = some (.ok (orders, count))

/-- How what the caller does follows from what the pages have given. -/
inductive Stands (p : Pool) : Caller → Prop
  | first (alone : p.begun = 2) : Stands p .first
  | reading {count next : Nat} {orders : List Order} (tells : p.Tells count)
      (few : count - 1 ≤ Connection.maxFollowing) (within : p.begun ≤ count + 1) (two : 2 ≤ next)
      (le : next ≤ count) (gathered : Gathered p.outcome? (next - 1) orders) :
      Stands p (.reading count next orders)
  | whole {count : Nat} {orders : List Order} (tells : p.Tells count)
      (few : count - 1 ≤ Connection.maxFollowing) (within : p.begun ≤ count + 1)
      (gathered : Gathered p.outcome? count orders) : Stands p (.done (.ok orders))
  | refused {fault : Failure} (alone : p.begun = 2)
      (bad : p.outcome? 1 = some (.error fault)) : Stands p (.done (.error fault))
  | tooMany {count : Nat} (tells : p.Tells count) (alone : p.begun = 2)
      (many : Connection.maxFollowing < count - 1) : Stands p (.done (.error .overflow))
  | failed {count k : Nat} {orders : List Order} {fault : Failure} (tells : p.Tells count)
      (few : count - 1 ≤ Connection.maxFollowing) (within : p.begun ≤ count + 1) (lt : k < count)
      (gathered : Gathered p.outcome? k orders) (bad : p.outcome? (k + 1) = some (.error fault)) :
      Stands p (.done (.error fault))

/-- What holds of every pool on its way. -/
structure Sound (p : Pool) : Prop where
  two : 2 ≤ p.begun
  fresh : ∀ n, n = 0 ∨ p.begun ≤ n → p.stage n = .waiting
  counted : ∀ n orders count, p.outcome? n = some (.ok (orders, count)) → 1 ≤ count
  stands : p.Stands p.caller

theorem sound_start (s : Session) : (start s).Sound where
  two := Nat.le_refl 2
  fresh _ _ := rfl
  counted n orders count gives := by cases gives
  stands := .first rfl

/-- What pages have given stays. -/
def Grows (p p' : Pool) : Prop :=
  ∀ n outcome, p.outcome? n = some outcome → p'.outcome? n = some outcome

theorem Gathered.mono (h : Gathered p.outcome? count orders) (grows : p.Grows p') :
    Gathered p'.outcome? count orders := by
  induction h with
  | none => exact .none
  | page _ gives ih => exact .page ih (grows _ _ gives)

/-- Pages that were gathered have all given orders. -/
theorem Gathered.gives (h : Gathered p.outcome? count orders) (one : 1 ≤ n) (le : n ≤ count) :
    ∃ orders told, p.outcome? n = some (.ok (orders, told)) := by
  induction h with
  | none => omega
  | @page k told _ more _ gives ih =>
    by_cases last : n = k + 1
    · exact ⟨more, told, last ▸ gives⟩
    · exact ih (by omega)

theorem Tells.mono (h : p.Tells count) (grows : p.Grows p') : p'.Tells count := by
  obtain ⟨orders, gives⟩ := h
  exact ⟨orders, grows _ _ gives⟩

theorem Stands.mono {caller : Caller} (h : p.Stands caller) (grows : p.Grows p')
    (same : p'.begun = p.begun) : p'.Stands caller := by
  cases h with
  | first alone => exact .first (same.trans alone)
  | reading tells few within two le gathered =>
    exact .reading (tells.mono grows) few (same ▸ within) two le (gathered.mono grows)
  | whole tells few within gathered =>
    exact .whole (tells.mono grows) few (same ▸ within) (gathered.mono grows)
  | refused alone bad => exact .refused (same.trans alone) (grows _ _ bad)
  | tooMany tells alone many => exact .tooMany (tells.mono grows) (same.trans alone) many
  | failed tells few within lt gathered bad =>
    exact .failed (tells.mono grows) few (same ▸ within) lt (gathered.mono grows) (grows _ _ bad)

/-- A caller that has the orders of the first pages reads on or has all. -/
theorem stands_upTo {next : Nat} (tells : p.Tells count)
    (few : count - 1 ≤ Connection.maxFollowing) (within : p.begun ≤ count + 1) (two : 2 ≤ next)
    (le : next ≤ count + 1) (gathered : Gathered p.outcome? (next - 1) orders) :
    p.Stands (.upTo count next orders) := by
  unfold Caller.upTo
  split
  · rename_i more
    exact .reading tells few within two more gathered
  · obtain rfl : next = count + 1 := by omega
    exact .whole tells few within gathered

/-- What the caller reads is what the pages have given. -/
theorem Stands.read {caller after : Caller} (h : p.Stands caller)
    (counted : ∀ n orders count, p.outcome? n = some (.ok (orders, count)) → 1 ≤ count)
    (read : caller.read p.outcome? = some after) : p.Stands after := by
  cases h with
  | first alone =>
    obtain ⟨outcome, gives, rfl⟩ := Option.map_eq_some_iff.1 read
    match outcome, gives with
    | .error fault, gives => exact .refused alone gives
    | .ok (orders, count), gives =>
      have one := counted 1 orders count gives
      dsimp only
      split
      · rename_i many
        exact .tooMany ⟨orders, gives⟩ alone many
      · have gathered : Gathered p.outcome? 1 ([] ++ orders) := .page .none gives
        exact stands_upTo ⟨orders, gives⟩ (by omega) (by omega) (Nat.le_refl 2) (by omega) gathered
  | @reading count next orders tells few within two le gathered =>
    obtain ⟨outcome, gives, rfl⟩ := Option.map_eq_some_iff.1 read
    obtain ⟨k, rfl⟩ : ∃ k, next = k + 1 := ⟨next - 1, by omega⟩
    match outcome, gives with
    | .error fault, gives => exact .failed tells few within (by omega) gathered gives
    | .ok (more, _), gives =>
      exact stands_upTo tells few within (by omega) (by omega) (gathered.page gives)
  | whole => cases read
  | refused => cases read
  | tooMany => cases read
  | failed => cases read

end Pool

namespace BookFetch

variable {f : BookFetch} {around : Surroundings} {number : Nat} {p p' : Pool} {m : Move}
  {moves : List (Surroundings × Move)}

theorem grows_step (h : f.step around m p = some p') : p.Grows p' := by
  obtain ⟨number, -, active, rfl⟩ | ⟨-, _, _, _, -, -, -, rfl⟩ | ⟨-, _, -, rfl⟩ := step_cases h
  · intro n outcome gives
    rw [Pool.outcome?_setStage]
    split
    · rename_i same
      obtain ⟨-, -, unsettled⟩ := Pool.active_iff.1 active
      rw [← same, gives] at unsettled
      cases unsettled
    · exact gives
  · exact fun _ _ gives => gives
  · exact fun _ _ gives => gives

end BookFetch

namespace Pool

variable {f : BookFetch} {around : Surroundings} {p p' : Pool} {m : Move}

theorem Sound.step (sound : p.Sound) (h : f.step around m p = some p') : p'.Sound := by
  have grows := BookFetch.grows_step h
  obtain ⟨number, -, active, rfl⟩ | ⟨-, count, next, orders, reading, room, -, rfl⟩ |
    ⟨-, caller, read, rfl⟩ := BookFetch.step_cases h
  · obtain ⟨one, lt, unsettled⟩ := active_iff.1 active
    refine ⟨sound.two, fun n outside => ?_, fun n orders count gives => ?_,
      sound.stands.mono grows rfl⟩
    · have other : n ≠ number := by
        have bounds : n = 0 ∨ p.begun ≤ n := outside
        omega
      exact (if_neg other).trans (sound.fresh n outside)
    · rw [outcome?_setStage] at gives
      split at gives
      · exact BookFetch.one_le_of_advance unsettled gives
      · exact sound.counted n orders count gives
  · refine ⟨Nat.le_succ_of_le sound.two, fun n outside => sound.fresh n ?_, sound.counted, ?_⟩
    · have bounds : n = 0 ∨ p.begun + 1 ≤ n := outside
      omega
    · have stands := sound.stands
      rw [reading] at stands
      cases stands with
      | reading tells few within two le gathered =>
        show Stands _ p.caller
        rw [reading]
        exact .reading (tells.mono grows) few (Nat.succ_le_succ room) two le (gathered.mono grows)
  · exact ⟨sound.two, sound.fresh, sound.counted,
      (sound.stands.read sound.counted read).mono grows rfl⟩

end Pool

namespace BookFetch

variable {f : BookFetch} {around : Surroundings} {number : Nat} {p p' : Pool} {m : Move}
  {moves : List (Surroundings × Move)} {s : Session}

/-- What every move of a run preserves holds at its end. -/
theorem run_induction {motive : Pool → Prop}
    (step : ∀ around m p p', (around, m) ∈ moves → motive p → f.step around m p = some p' →
      motive p')
    (h : f.run moves p = some p') (initial : motive p) : motive p' := by
  induction moves generalizing p with
  | nil =>
    cases h
    exact initial
  | cons move rest ih =>
    obtain ⟨around, m⟩ := move
    obtain ⟨between, first, h⟩ := Option.bind_eq_some_iff.1 h
    refine ih (fun around m p p' mem => step around m p p' (List.mem_cons_of_mem _ mem)) h ?_
    exact step around m p between List.mem_cons_self initial first

theorem sound_run (h : f.run moves (.start s) = some p) : p.Sound :=
  run_induction (motive := Pool.Sound) (fun _ _ _ _ _ sound step => sound.step step) h
    (Pool.sound_start s)

/-- What every step of a request preserves, of its page and of the session, holds of a run. -/
theorem run_stages {A : Surroundings → Prop} {S : Session → Prop} {Q : Nat → PageStage → Prop}
    (waiting : ∀ number, Q number .waiting)
    (advance : ∀ around number s stage, A around → S s → Q number stage →
      S (f.advance around number s stage).1 ∧ Q number (f.advance around number s stage).2)
    (surroundings : ∀ move ∈ moves, A move.1) (h : f.run moves (.start s) = some p)
    (session : S s) : S p.session ∧ ∀ number, Q number (p.stage number) := by
  refine run_induction (motive := fun p => S p.session ∧ ∀ number, Q number (p.stage number)) ?_ h
    ⟨session, waiting⟩
  intro around m p p' mem ⟨hS, hQ⟩ step
  obtain ⟨number, -, -, rfl⟩ | ⟨-, _, _, _, -, -, -, rfl⟩ | ⟨-, _, -, rfl⟩ := step_cases step
  · obtain ⟨hS', hQ'⟩ := advance around number p.session (p.stage number)
      (surroundings _ mem) hS (hQ number)
    refine ⟨hS', fun n => ?_⟩
    by_cases same : n = number
    · subst same
      rw [Pool.setStage]
      dsimp only
      rw [if_pos rfl]
      exact hQ'
    · rw [Pool.setStage]
      dsimp only
      rw [if_neg same]
      exact hQ n
  · exact ⟨hS, hQ⟩
  · exact ⟨hS, hQ⟩

end BookFetch

/-- How many pages a caller has read at most, when there are so many. -/
def Caller.reads (count : Nat) : Caller → Nat
  | first => 0
  | reading _ next _ => next - 1
  | done _ => count

namespace Pool

variable {f : BookFetch} {around : Surroundings} {p p' : Pool} {m : Move} {count n : Nat}

/-- The count of pages that the first one has told, one as long as it has told none. -/
def told (p : Pool) : Nat :=
  match p.outcome? 1 with
  | some (.ok (_, count)) => count
  | _ => 1

/-- A count that every move raises. -/
def made (p : Pool) : Nat :=
  ∑ n ∈ Finset.range p.begun, (p.stage n).progress + (p.begun - 2) + p.caller.reads p.told

theorem Tells.told_eq (h : p.Tells count) : p.told = count := by
  obtain ⟨orders, gives⟩ := h
  rw [told, gives]

theorem Sound.one_le_told (sound : p.Sound) : 1 ≤ p.told := by
  unfold told
  split
  · rename_i orders count gives
    exact sound.counted 1 orders count gives
  · exact Nat.le_refl 1

theorem told_le_of_grows (grows : p.Grows p') (sound : p'.Sound) : p.told ≤ p'.told := by
  cases gives : p.outcome? 1 with
  | none =>
    rw [told, gives]
    exact sound.one_le_told
  | some outcome =>
    rw [told, told, gives, grows 1 outcome gives]

/-- No page is taken up behind the last one. -/
theorem Sound.begun_le (sound : p.Sound) : p.begun ≤ p.told + 1 := by
  have one := sound.one_le_told
  have stands := sound.stands
  generalize p.caller = caller at stands
  cases stands with
  | first alone => omega
  | reading tells _ within => rwa [tells.told_eq]
  | whole tells _ within => rwa [tells.told_eq]
  | refused alone => omega
  | tooMany _ alone => omega
  | failed tells _ within => rwa [tells.told_eq]

theorem Sound.reads_le (sound : p.Sound) : p.caller.reads p.told ≤ p.told := by
  have stands := sound.stands
  generalize p.caller = caller at stands
  cases stands with
  | first => exact Nat.zero_le _
  | reading tells _ _ _ le =>
    rw [tells.told_eq, Caller.reads]
    omega
  | _ => exact Nat.le_refl _

theorem reads_le_reads (caller : Caller) {few many : Nat} (le : few ≤ many) :
    caller.reads few ≤ caller.reads many := by
  cases caller with
  | done _ => exact le
  | _ => exact Nat.le_refl _

/-- A caller that reads a page has read one more. -/
theorem Stands.reads_lt {caller after : Caller} (h : p.Stands caller) (sound : p.Sound)
    (read : caller.read p.outcome? = some after) : caller.reads p.told < after.reads p.told := by
  have upTo {count next : Nat} {orders : List Order} (tells : p.Tells count) {k : Nat}
      (lt : k + 1 < next) (le : next ≤ count + 1) :
      k < (Caller.upTo count next orders).reads p.told := by
    unfold Caller.upTo
    rw [tells.told_eq]
    split
    · rw [Caller.reads]
      omega
    · rw [Caller.reads]
      omega
  cases h with
  | first =>
    obtain ⟨outcome, gives, rfl⟩ := Option.map_eq_some_iff.1 read
    match outcome, gives with
    | .error fault, gives => exact sound.one_le_told
    | .ok (orders, count), gives =>
      have one := sound.counted 1 orders count gives
      dsimp only
      split
      · exact sound.one_le_told
      · show 0 < _
        exact upTo ⟨orders, gives⟩ (by omega) (by omega)
  | @reading count next orders tells few within two le =>
    obtain ⟨outcome, gives, rfl⟩ := Option.map_eq_some_iff.1 read
    match outcome, gives with
    | .error fault, gives =>
      rw [tells.told_eq]
      show next - 1 < count
      omega
    | .ok (more, _), gives =>
      show next - 1 < _
      exact upTo tells (by omega) (by omega)
  | whole => cases read
  | refused => cases read
  | tooMany => cases read
  | failed => cases read

/-- Every move raises the count. -/
theorem Sound.made_lt (sound : p.Sound) (h : f.step around m p = some p') : p.made < p'.made := by
  have grows := BookFetch.grows_step h
  have toldLe := told_le_of_grows grows (sound.step h)
  obtain ⟨number, -, active, rfl⟩ | ⟨-, count, next, orders, reading, room, -, rfl⟩ |
    ⟨-, caller, read, rfl⟩ := BookFetch.step_cases h
  · obtain ⟨-, lt, unsettled⟩ := active_iff.1 active
    have further := f.progress_advance around number p.session unsettled
    have sum : ∑ n ∈ Finset.range p.begun, (p.stage n).progress <
        ∑ n ∈ Finset.range p.begun, ((p.setStage number
          (f.advance around number p.session (p.stage number)).2).stage n).progress := by
      refine Finset.sum_lt_sum (fun n _ => ?_) ⟨number, Finset.mem_range.2 lt, ?_⟩
      · by_cases same : n = number
        · subst same
          simp only [setStage, if_true]
          exact Nat.le_of_lt further
        · simp only [setStage, if_neg same]
          exact Nat.le_refl _
      · simp only [setStage, if_true]
        exact further
    have reads := reads_le_reads p.caller toldLe
    show _ + _ + p.caller.reads _ < _ + _ + p.caller.reads _
    exact Nat.add_lt_add_of_lt_of_le (Nat.add_lt_add_right sum _) reads
  · have two := sound.two
    show _ + _ + p.caller.reads p.told <
      ∑ n ∈ Finset.range (p.begun + 1), (p.stage n).progress + (p.begun + 1 - 2) +
        p.caller.reads p.told
    rw [Finset.sum_range_succ]
    omega
  · have reads := sound.stands.reads_lt sound read
    show _ + _ + p.caller.reads p.told < _ + _ + caller.reads p.told
    exact Nat.add_lt_add_left reads _

theorem Sound.made_le (sound : p.Sound) : p.made ≤ 6 * p.told - 1 := by
  have one := sound.one_le_told
  have begun := sound.begun_le
  have reads := sound.reads_le
  obtain ⟨k, hk⟩ : ∃ k, p.begun = k + 1 := ⟨p.begun - 1, by have := sound.two; omega⟩
  have sum : ∑ n ∈ Finset.range p.begun, (p.stage n).progress ≤ 4 * k := by
    rw [hk, Finset.sum_range_succ', sound.fresh 0 (.inl rfl)]
    show ∑ n ∈ Finset.range k, (p.stage (n + 1)).progress ≤ 4 * k
    have each := Finset.sum_le_card_nsmul (Finset.range k) (fun n => (p.stage (n + 1)).progress) 4
      fun n _ => PageStage.progress_le _
    rwa [Finset.card_range, Nat.nsmul_eq_mul, Nat.mul_comm] at each
  unfold made
  omega

/-- A fetch that has not ended has an open move. -/
theorem Sound.exists_step (sound : p.Sound) (workers : 1 ≤ f.workers)
    (unfinished : ∀ outcome, ¬ p.Returns outcome) (around : Surroundings) :
    ∃ m p', f.step around m p = some p' := by
  by_cases active : ∃ n, p.active n = true
  · obtain ⟨n, active⟩ := active
    exact ⟨.turn n, _, if_pos active⟩
  have idle (n : Nat) : p.active n = false := Bool.eq_false_iff.2 fun h => active ⟨n, h⟩
  have ended (n : Nat) (one : 1 ≤ n) (lt : n < p.begun) :
      ∃ outcome, p.outcome? n = some outcome := by
    cases gives : p.outcome? n with
    | none =>
      have := active_iff.2 ⟨one, lt, gives⟩
      rw [idle n] at this
      cases this
    | some outcome => exact ⟨outcome, rfl⟩
  have stands := sound.stands
  cases caller : p.caller with
  | first =>
    obtain ⟨outcome, gives⟩ := ended 1 (Nat.le_refl 1) sound.two
    refine ⟨.read, ?_⟩
    simp only [BookFetch.step, caller, Caller.read, gives, Option.map_some, Option.some.injEq,
      exists_eq']
  | reading count next orders =>
    rw [caller] at stands
    cases stands with
    | reading tells few within two le gathered =>
      by_cases begun : next < p.begun
      · obtain ⟨outcome, gives⟩ := ended next (by omega) begun
        refine ⟨.read, ?_⟩
        simp only [BookFetch.step, caller, Caller.read, gives, Option.map_some, Option.some.injEq,
          exists_eq']
      · have free := busy_eq_zero idle
        refine ⟨.take, { p with begun := p.begun + 1 }, ?_⟩
        simp only [BookFetch.step, caller]
        rw [if_pos]
        omega
  | done outcome => exact absurd ⟨caller, idle⟩ (unfinished outcome)

end Pool

namespace BookFetch

variable {f : BookFetch} {p p' : Pool} {moves : List (Surroundings × Move)} {s : Session}

/-- A run makes less than six moves for each of the pages that the first one tells of. -/
theorem length_run_le (h : f.run moves (.start s) = some p) : moves.length ≤ 6 * p.told - 1 := by
  have bound (moves : List (Surroundings × Move)) (q : Pool) (sound : q.Sound)
      (h : f.run moves q = some p) : moves.length + q.made ≤ p.made := by
    induction moves generalizing q with
    | nil =>
      cases h
      exact Nat.le_of_eq (Nat.zero_add _)
    | cons move rest ih =>
      obtain ⟨around, m⟩ := move
      obtain ⟨between, first, h⟩ := Option.bind_eq_some_iff.1 h
      have more := sound.made_lt first
      have := ih between (sound.step first) h
      rw [List.length_cons]
      omega
  have made := bound moves _ (Pool.sound_start s) h
  have le := (sound_run h).made_le
  omega

end BookFetch

end OrderFlow
