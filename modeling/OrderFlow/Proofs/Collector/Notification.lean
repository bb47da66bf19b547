import Mathlib.Data.List.Chain
import OrderFlow.Collector.Tracker

/-!
# When an operator is told

A tracker records failures and successes, is switched on and off, and is asked whether to tell an
operator, in any order and on clocks that may go backwards. Its answers follow from the calls so far
and the answers to them alone: those since the last success count, and whether it is switched on
(`FailureTracker.notification_law`). A tracker `Summarizes` its history, and every call keeps that.
-/

namespace OrderFlow.FailureTracker

/-- A call of a tracker. -/
inductive Call
  | recordFailure
  | recordSuccess
  | markSuccess
  | enable (value : Bool)
  | shouldNotify (now : Stamp)
  | shouldNotifyFailure (now : Stamp)

namespace Call

/-- A call that records a failure. -/
def fails : Call → Bool
  | recordFailure => true
  | shouldNotifyFailure _ => true
  | _ => false

/-- A call that records a success. -/
def succeeds : Call → Bool
  | recordSuccess => true
  | markSuccess => true
  | _ => false

/-- What a call switches the tracker to. -/
def switch? : Call → Option Bool
  | enable value => some value
  | _ => none

/-- The time at which a call asks whether to tell an operator. -/
def time? : Call → Option Stamp
  | shouldNotify now => some now
  | shouldNotifyFailure now => some now
  | _ => none

end Call

/-- A tracker after a call, and the answer if the call asks for one. -/
def call (t : FailureTracker) : Call → FailureTracker × Option (Except Failure Bool)
  | .recordFailure => (t.recordFailure, none)
  | .recordSuccess => (t.recordSuccess, none)
  | .markSuccess => (t.markSuccess, none)
  | .enable value => (t.enable value, none)
  | .shouldNotify now => ((t.shouldNotify now).1, some (t.shouldNotify now).2)
  | .shouldNotifyFailure now =>
    ((t.shouldNotifyFailure now).1, some (t.shouldNotifyFailure now).2)

/-- A tracker after several calls. -/
def after (t : FailureTracker) (calls : List Call) : FailureTracker :=
  calls.foldl (fun t c => (t.call c).1) t

/-- A call that was made, and the answer to it. -/
structure Entry where
  call : Call
  answer : Option (Except Failure Bool)

/-- The calls of a tracker with the answers to them. -/
def history (t : FailureTracker) : List Call → List Entry
  | [] => []
  | c :: rest => ⟨c, (t.call c).2⟩ :: history (t.call c).1 rest

namespace Entry

/-- The time at which the answer was to tell an operator. -/
def told? : Entry → Option Instant
  | ⟨call, some (.ok true)⟩ => call.time?.bind Stamp.utc?
  | _ => none

/-- The entries since the last success, the latest first. -/
def sinceSuccess (h : List Entry) : List Entry :=
  h.reverse.takeWhile fun e => !e.call.succeeds

/-- How many failures were recorded since the last success. -/
def failures (h : List Entry) : Nat :=
  (sinceSuccess h).countP (·.call.fails)

/-- The times since the last success at which the answer was to tell an operator, the latest
first. -/
def told (h : List Entry) : List Instant :=
  (sinceSuccess h).filterMap told?

/-- Whether the tracker is switched on, given whether it was in the beginning. -/
def enabled (initially : Bool) (h : List Entry) : Bool :=
  (h.reverse.findSome? (·.call.switch?)).getD initially

variable (h : List Entry) (e : Entry)

theorem sinceSuccess_concat :
    sinceSuccess (h ++ [e]) = if e.call.succeeds then [] else e :: sinceSuccess h := by
  unfold sinceSuccess
  rw [List.reverse_append, List.reverse_singleton, List.singleton_append, List.takeWhile_cons]
  cases e.call.succeeds <;> rfl

theorem failures_concat : failures (h ++ [e]) =
    if e.call.succeeds then 0 else failures h + if e.call.fails then 1 else 0 := by
  rw [failures, sinceSuccess_concat]
  split
  · rfl
  · rw [List.countP_cons, failures]

theorem told_concat : told (h ++ [e]) =
    if e.call.succeeds then [] else e.told?.toList ++ told h := by
  rw [told, sinceSuccess_concat]
  split
  · rfl
  · rw [List.filterMap_cons, told]
    cases e.told? <;> rfl

theorem enabled_concat (initially : Bool) :
    enabled initially (h ++ [e]) = e.call.switch?.getD (enabled initially h) := by
  unfold enabled
  rw [List.reverse_append, List.reverse_singleton, List.singleton_append, List.findSome?_cons]
  cases e.call.switch? <;> rfl

end Entry

variable {t : FailureTracker} {initially : Bool} {notifyAfter : Int} {interval : Duration}
  {h : List Entry} {c : Call} {now : Stamp} {time : Instant}

theorem history_concat (t : FailureTracker) (calls : List Call) (c : Call) :
    t.history (calls ++ [c]) = t.history calls ++ [⟨c, ((t.after calls).call c).2⟩] := by
  induction calls generalizing t with
  | nil => rfl
  | cons d calls ih =>
    rw [List.cons_append, history, ih, history, List.cons_append]
    rfl

theorem after_concat (t : FailureTracker) (calls : List Call) (c : Call) :
    t.after (calls ++ [c]) = ((t.after calls).call c).1 := by
  rw [after, List.foldl_append]
  rfl

/-- An operator is due to be told. -/
structure Due (t : FailureTracker) (time : Instant) : Prop where
  enabled : t.enabled = true
  failures : t.notifyAfter ≤ t.failures
  quiet : ∀ last ∈ t.lastNotified, t.interval ≤ time.since last

theorem isQuiet_eq_false_iff :
    t.isQuiet time = false ↔ ∀ last ∈ t.lastNotified, t.interval ≤ time.since last := by
  unfold isQuiet
  cases t.lastNotified <;> simp

/-- All that asking can do: the answer is yes, which is remembered, or the tracker stays as it
is. -/
theorem shouldNotify_cases (t : FailureTracker) (now : Stamp) :
    (∃ time, now.utc? = some time ∧ t.Due time ∧
      t.shouldNotify now = ({ t with lastNotified := some time }, .ok true)) ∨
    ((∀ time, now.utc? = some time → ¬ t.Due time ∧ (t.shouldNotify now).2 = .ok false) ∧
      (t.shouldNotify now).2 ≠ .ok true ∧ (t.shouldNotify now).1 = t) := by
  unfold shouldNotify
  by_cases early : (!t.enabled || decide ((t.failures : Int) < t.notifyAfter)) = true
  · rw [if_pos early]
    refine .inr ⟨fun time _ => ⟨fun due => ?_, rfl⟩, by simp, rfl⟩
    have many := due.failures
    simp only [due.enabled, Bool.not_true, Bool.false_or, decide_eq_true_eq] at early
    omega
  rw [if_neg early]
  simp only [Bool.or_eq_true, Bool.not_eq_true', decide_eq_true_eq, not_or, Bool.not_eq_false]
    at early
  cases hnow : now.utc? with
  | none => exact .inr ⟨by simp, by simp, rfl⟩
  | some time =>
    simp only
    cases hquiet : t.isQuiet time with
    | true =>
      refine .inr ⟨?_, by simp, rfl⟩
      rintro _ ⟨⟩
      refine ⟨fun due => ?_, rfl⟩
      rw [isQuiet_eq_false_iff.2 due.quiet] at hquiet
      cases hquiet
    | false =>
      exact .inl ⟨time, rfl, ⟨early.1, Int.not_lt.1 early.2, isQuiet_eq_false_iff.1 hquiet⟩, rfl⟩

/-- At a time that there is in UTC the answer is whether the operator is due to be told. -/
theorem shouldNotify_answer (t : FailureTracker) (utc : now.utc? = some time) :
    ∃ answer, (t.shouldNotify now).2 = .ok answer ∧ (answer = true ↔ t.Due time) := by
  obtain ⟨time', utc', due, asked⟩ | ⟨declined, -⟩ := t.shouldNotify_cases now
  · obtain rfl : time = time' := Option.some.inj (utc.symm.trans utc')
    exact ⟨true, by rw [asked], by simp [due]⟩
  · obtain ⟨notDue, answer⟩ := declined time utc
    exact ⟨false, answer, by simp [notDue]⟩

/-- The tracker that a call looks at: a failure that the call reports is counted before. -/
def counted (t : FailureTracker) (c : Call) : FailureTracker :=
  if c.fails then t.recordFailure else t

/-- A call that asks is put to the tracker that has counted its failure. -/
theorem call_of_time (t : FailureTracker) (asks : c.time? = some now) :
    t.call c = (((t.counted c).shouldNotify now).1, some ((t.counted c).shouldNotify now).2) ∧
      c.succeeds = false ∧ c.switch? = none := by
  cases c <;> cases asks <;> exact ⟨rfl, rfl, rfl⟩

/-- A tracker whose fields say what there is to know of its history. -/
structure Summarizes (t : FailureTracker) (initially : Bool) (notifyAfter : Int)
    (interval : Duration) (h : List Entry) : Prop where
  settings : t.notifyAfter = notifyAfter ∧ t.interval = interval
  enabled : t.enabled = Entry.enabled initially h
  failures : t.failures = Entry.failures h
  lastNotified : t.lastNotified = (Entry.told h).head?
  apart : (Entry.told h).IsChain fun later earlier => interval ≤ later.since earlier

namespace Summarizes

theorem start : (fresh initially notifyAfter interval).Summarizes initially notifyAfter interval
    [] :=
  ⟨⟨rfl, rfl⟩, rfl, rfl, rfl, .nil⟩

variable (s : t.Summarizes initially notifyAfter interval h) {e : Entry}
include s

/-- A success, recorded or seen elsewhere. -/
theorem success (succeeds : e.call.succeeds = true) (keeps : e.call.switch? = none) :
    t.recordSuccess.Summarizes initially notifyAfter interval (h ++ [e]) := by
  have told : Entry.told (h ++ [e]) = [] := by rw [Entry.told_concat, if_pos succeeds]
  have failures : Entry.failures (h ++ [e]) = 0 := by rw [Entry.failures_concat, if_pos succeeds]
  refine ⟨s.settings, ?_, failures.symm, by rw [told]; rfl, by rw [told]; exact .nil⟩
  rw [Entry.enabled_concat, keeps]
  exact s.enabled

theorem switch (value : Bool) : (t.enable value).Summarizes initially notifyAfter interval
    (h ++ [⟨.enable value, none⟩]) := by
  refine ⟨s.settings, ?_, ?_, ?_, ?_⟩
  · rw [Entry.enabled_concat]
    rfl
  · rw [Entry.failures_concat]
    exact s.failures
  · rw [Entry.told_concat]
    exact s.lastNotified
  · rw [Entry.told_concat]
    exact s.apart

/-- What a call counts, whatever its answer is. -/
theorem counted (lasts : e.call.succeeds = false) (keeps : e.call.switch? = none) :
    (t.counted e.call).enabled = Entry.enabled initially (h ++ [e]) ∧
      (t.counted e.call).failures = Entry.failures (h ++ [e]) ∧
      (t.counted e.call).lastNotified = (Entry.told h).head? ∧
      (t.counted e.call).notifyAfter = notifyAfter ∧ (t.counted e.call).interval = interval := by
  rw [Entry.enabled_concat, keeps, Entry.failures_concat, lasts, FailureTracker.counted]
  split
  · exact ⟨s.enabled, congrArg (· + 1) s.failures, s.lastNotified, s.settings⟩
  · exact ⟨s.enabled, s.failures, s.lastNotified, s.settings⟩

/-- A call after which nobody is told only counts. -/
theorem silent (lasts : e.call.succeeds = false) (keeps : e.call.switch? = none)
    (quiet : e.told? = none) :
    (t.counted e.call).Summarizes initially notifyAfter interval (h ++ [e]) := by
  have told : Entry.told (h ++ [e]) = Entry.told h := by
    rw [Entry.told_concat, lasts, quiet]
    rfl
  obtain ⟨enabled, failures, last, settings⟩ := s.counted lasts keeps
  exact ⟨settings, enabled, failures, last.trans (by rw [told]), told ▸ s.apart⟩

/-- A call that asks: a yes is at least the interval later than the one before. -/
theorem ask (asks : c.time? = some now) :
    (t.call c).1.Summarizes initially notifyAfter interval (h ++ [⟨c, (t.call c).2⟩]) := by
  obtain ⟨call, lasts, keeps⟩ := t.call_of_time asks
  rw [call]
  obtain ⟨time, utc, due, asked⟩ | ⟨-, no, same⟩ := (t.counted c).shouldNotify_cases now
  · rw [asked]
    obtain ⟨enabled, failures, last, settings⟩ :=
      s.counted (e := ⟨c, some (.ok true)⟩) lasts keeps
    have told : Entry.told (h ++ [⟨c, some (.ok true)⟩]) = time :: Entry.told h := by
      rw [Entry.told_concat, lasts, Entry.told?, asks, Option.bind_some, utc]
      rfl
    have quiet : ∀ earlier ∈ (Entry.told h).head?, interval ≤ time.since earlier := by
      rw [← last, ← settings.2]
      exact due.quiet
    refine ⟨settings, enabled, failures, ?_, ?_⟩
    · rw [told]
      rfl
    · rw [told]
      exact List.isChain_cons.2 ⟨quiet, s.apart⟩
  · rw [same]
    refine s.silent (e := ⟨c, _⟩) lasts keeps ?_
    unfold Entry.told?
    split
    · rename_i yes
      exact absurd (Option.some.inj (congrArg Entry.answer yes)) no
    · rfl

theorem call (c : Call) :
    (t.call c).1.Summarizes initially notifyAfter interval (h ++ [⟨c, (t.call c).2⟩]) := by
  cases c with
  | recordFailure => exact s.silent (e := ⟨.recordFailure, none⟩) rfl rfl rfl
  | recordSuccess => exact s.success rfl rfl
  | markSuccess => exact s.success rfl rfl
  | enable value => exact s.switch value
  | shouldNotify now => exact s.ask rfl
  | shouldNotifyFailure now => exact s.ask rfl

end Summarizes

/-- Whatever the calls, the fields of a tracker sum up its history. -/
theorem summarizes_after (calls : List Call) :
    ((fresh initially notifyAfter interval).after calls).Summarizes initially notifyAfter interval
      ((fresh initially notifyAfter interval).history calls) := by
  induction calls using List.reverseRecOn with
  | nil => exact .start
  | append_singleton calls c ih =>
    rw [after_concat, history_concat]
    exact ih.call c

/-- Times of which each is an interval later than the next are an interval apart, any two of
them. -/
theorem pairwise_of_isChain {times : List Instant} (positive : 0 ≤ interval)
    (apart : times.IsChain fun later earlier => interval ≤ later.since earlier) :
    times.Pairwise fun later earlier => interval ≤ later.since earlier := by
  have : IsTrans Instant fun later earlier => interval ≤ later.since earlier := by
    refine ⟨fun a b c hab hbc => ?_⟩
    unfold Instant.since Duration at *
    omega
  exact List.isChain_iff_pairwise.1 apart

/-- A call at a time that there is in UTC is answered, and the answer is yes just if the tracker is
switched on, the failures since the last success are many enough and either nobody was told since
then or the interval has passed. So two times of telling with no success between them are the
interval apart, whatever the clock does between them. -/
theorem notification_law (initially : Bool) (notifyAfter : Int) (interval : Duration)
    (calls : List Call) :
    let t := fresh initially notifyAfter interval
    let told := Entry.told (t.history calls)
    (∀ c now time, c.time? = some now → now.utc? = some time →
      ∃ answer, ((t.after calls).call c).2 = some (.ok answer) ∧
        (answer = true ↔ Entry.enabled initially (t.history calls) = true ∧
          notifyAfter ≤ Entry.failures (t.history (calls ++ [c])) ∧
          ∀ last ∈ told.head?, interval ≤ time.since last)) ∧
    (told.Pairwise fun later earlier => interval ≤ (later.since earlier).natAbs) ∧
    (0 ≤ interval → told.Pairwise fun later earlier => interval ≤ later.since earlier) := by
  intro t told
  have s : (t.after calls).Summarizes initially notifyAfter interval (t.history calls) :=
    summarizes_after calls
  refine ⟨fun c now time asks utc => ?_, ?_, fun positive => pairwise_of_isChain positive s.apart⟩
  · obtain ⟨call, lasts, keeps⟩ := (t.after calls).call_of_time asks
    obtain ⟨answer, answered, yes⟩ := ((t.after calls).counted c).shouldNotify_answer utc
    refine ⟨answer, by rw [call, answered], yes.trans ?_⟩
    obtain ⟨enabled, failures, last, least, span⟩ :=
      s.counted (e := ⟨c, ((t.after calls).call c).2⟩) lasts keeps
    rw [Entry.enabled_concat, keeps, Option.getD_none] at enabled
    rw [history_concat, ← enabled, ← failures, ← last, ← least, ← span]
    exact ⟨fun due => ⟨due.enabled, due.failures, due.quiet⟩, fun ⟨on, many, quiet⟩ =>
      ⟨on, many, quiet⟩⟩
  · by_cases positive : 0 ≤ interval
    · refine (pairwise_of_isChain positive s.apart).imp fun {later earlier} far => ?_
      unfold Duration at *
      omega
    · refine List.pairwise_of_forall fun later earlier => ?_
      unfold Duration at *
      omega

end OrderFlow.FailureTracker

namespace OrderFlow.Sample

open FailureTracker

/-- The calls of a tracker that is switched off for a while, on which it counts. -/
def troubled : List Call :=
  [.recordFailure, .enable false, .recordFailure, .enable true]

/-- Noon of a day in the year 32. -/
def noon : Instant := ⟨1000036800000000, by decide⟩

/-- An hour before noon. -/
def beforeNoon : Instant := ⟨1000033200000000, by decide⟩

/-- The third failure in a row is told, and the next one is not though the clock went back. -/
theorem third_failure_told :
    (((start true).after troubled).call (.shouldNotifyFailure (.ofInstant noon))).2 =
      some (.ok true) ∧
    (((start true).after (troubled ++ [.shouldNotifyFailure (.ofInstant noon)])).call
      (.shouldNotifyFailure (.ofInstant beforeNoon))).2 = some (.ok false) := by
  constructor
  · obtain ⟨answer, answered, yes⟩ := (notification_law true defaultNotifyAfter defaultInterval
      troubled).1 (.shouldNotifyFailure (.ofInstant noon)) _ noon rfl rfl
    rw [yes.2 ⟨rfl, by decide, by rintro _ ⟨⟩⟩] at answered
    exact answered
  · obtain ⟨answer, answered, yes⟩ := (notification_law true defaultNotifyAfter defaultInterval
      (troubled ++ [.shouldNotifyFailure (.ofInstant noon)])).1
      (.shouldNotifyFailure (.ofInstant beforeNoon)) _ beforeNoon rfl rfl
    have early : answer = false := by
      refine (Bool.not_eq_true answer).mp fun told => ?_
      have later := (yes.1 told).2.2 noon rfl
      revert later
      decide
    rw [early] at answered
    exact answered

end OrderFlow.Sample
