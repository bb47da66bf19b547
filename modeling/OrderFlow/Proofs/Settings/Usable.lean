import OrderFlow.Proofs.Order.Document
import OrderFlow.Settings.Basic

/-!
# Settings that load

What holds of the default of a setting and of all that its check accepts holds of the setting
(`Checked.holds_of_optional`), so that settings which pass their check are `Settings.Sane`. This
leaves two gaps, and no others (`Settings.usable_of_loaded`). A time limit may be no number, as only
numbers up to zero are refused. And minutes have no upper bound, although a duration has one.
-/

namespace OrderFlow

namespace Binary64

/-- Of two numbers one is greater, unless it is none. -/
theorem zero_lt_iff {x : Binary64} (h : x.le zero = false) : zero.lt x = true ↔ x ≠ .nan := by
  cases x with
  | nan => simp [lt, compare?, zero]
  | infinite negative =>
    cases negative
    · simp [lt, compare?, zero]
    · simp [le, compare?, zero] at h
  | finite negative m e =>
    simp only [le, lt, compare?, zero] at h ⊢
    rw [Int.min_comm minExponent e]
    generalize scaled negative m e (min e minExponent) = a at h ⊢
    generalize scaled false 0 minExponent (min e minExponent) = b at h ⊢
    have greater : compare a b = .gt := by
      cases order : compare a b with
      | gt => rfl
      | lt => simp [order] at h
      | eq => simp [order] at h
    simp [Int.compare_eq_lt.2 (Int.compare_eq_gt.1 greater)]

end Binary64

namespace Checked

variable {α : Type} {record : Value} {name : String} {absent a : α} {check : Value → Checked α}

/-- A field that may be absent has what its default and all accepted values have. -/
theorem holds_of_optional {P : α → Prop} (h : optional record name absent check = accepted a)
    (default : P absent) (checked : ∀ v, check v = accepted a → P a) : P a := by
  unfold optional at h
  cases field : record.field? name with
  | none =>
    rw [field] at h
    cases h
    exact default
  | some v =>
    rw [field] at h
    exact checked v (under_eq_accepted_iff.1 h)

/-- A value that is accepted was not refused by the rule that came last. -/
theorem not_of_accepted {bad : α → Prop} [DecidablePred bad] {d : α → Defect} {x : Checked α}
    (h : (x.andThen fun b => if bad b then defect (d b) else accepted b) = accepted a) :
    ¬ bad a := by
  cases x with
  | accepted b =>
    rw [andThen] at h
    split at h
    · cases h
    · rename_i good
      cases h
      exact good
  | _ => cases h

end Checked

namespace Settings

open Checked

variable {v : Value} {s : Settings} {env : Environment} {overrides : List (String × Value)}

theorem pos_of_positiveInt {n : Int} (h : positiveInt v = accepted n) : 0 < n := by
  have kept := not_of_accepted h
  omega

theorem nonneg_of_nonNegativeInt {n : Int} (h : nonNegativeInt v = accepted n) : 0 ≤ n := by
  have kept := not_of_accepted h
  omega

/-- A time limit that is accepted is not at most zero, which does not make it a number. -/
theorem le_zero_of_positiveFloat {x : Binary64} (h : positiveFloat v = accepted x) :
    x.le .zero = false := by
  have kept := not_of_accepted h
  exact Bool.eq_false_iff.2 kept

theorem exists_of_nonBlank {t : String} (h : nonBlank v = accepted t) :
    ∃ c ∈ t.toList, Text.isBlank c = false := by
  simpa using not_of_accepted h

/-- What the check of settings ensures. -/
structure Sane (s : Settings) : Prop where
  pollMinutes : 0 < s.pollMinutes
  expiryWindowMinutes : 0 ≤ s.expiryWindowMinutes
  requestTimeout : s.requestTimeout.le .zero = false
  commitTimeout : s.commitTimeout.le .zero = false
  maxPageWorkers : 0 < s.maxPageWorkers
  lockTimeout : s.lockTimeout.le .zero = false
  databaseUrl : ∃ c ∈ s.databaseUrl.toList, Text.isBlank c = false

theorem sane_of_check (h : check v = accepted s) : s.Sane := by
  simp only [check, seq_eq_accepted_iff, map_eq_accepted_iff] at h
  obtain ⟨_, _, ⟨_, _, ⟨_, _, ⟨_, _, ⟨_, _, ⟨_, _, ⟨_, _, ⟨_, _, ⟨_, _, ⟨_, _, ⟨_, _, ⟨_, -, rfl⟩,
    -, rfl⟩, -, rfl⟩, poll, rfl⟩, window, rfl⟩, -, rfl⟩, -, rfl⟩, request, rfl⟩, commit, rfl⟩,
    workers, rfl⟩, lock, rfl⟩, url, rfl⟩ := h
  have seconds {name : String} {absent x : Binary64}
      (h : optional v name absent positiveFloat = accepted x) (default : absent.le .zero = false) :
      x.le .zero = false :=
    holds_of_optional (P := fun x => x.le .zero = false) h default fun _ => le_zero_of_positiveFloat
  constructor
  · exact holds_of_optional poll (by decide) fun _ => pos_of_positiveInt
  · exact holds_of_optional window (by decide) fun _ => nonneg_of_nonNegativeInt
  · exact seconds request (by decide +kernel)
  · exact seconds commit (by decide +kernel)
  · exact holds_of_optional workers (by decide) fun _ => pos_of_positiveInt
  · exact seconds lock (by decide +kernel)
  · exact holds_of_optional (P := fun t => ∃ c ∈ t.toList, Text.isBlank c = false) url
      ⟨'s', by decide, by decide⟩ fun _ => exists_of_nonBlank

/-- The first count of minutes that is no duration. -/
def minutesLimit : Int := 1440000000000

theorem representable_minutes_iff {n : Int} (h : 0 ≤ n) :
    (Duration.minutes n).Representable ↔ n < minutesLimit := by
  unfold Duration.Representable Duration.days Duration.minutes Duration.seconds Duration.maxDays
    minutesLimit Duration
  omega

theorem exists_expiryWindow_iff (h : 0 ≤ s.expiryWindowMinutes) :
    (∃ d, s.expiryWindow = .ok d) ↔ s.expiryWindowMinutes < minutesLimit := by
  rw [← representable_minutes_iff h, expiryWindow, Duration.representable?]
  by_cases fits : (Duration.minutes s.expiryWindowMinutes).Representable <;> simp [fits]

theorem exists_pollInterval_iff (h : 0 ≤ s.pollMinutes) :
    (∃ d, s.pollInterval = .ok d) ↔ s.pollMinutes < minutesLimit := by
  rw [← representable_minutes_iff h, pollInterval, Duration.representable?]
  by_cases fits : (Duration.minutes s.pollMinutes).Representable <;> simp [fits]

/-- **Settings that load can be used**, but for two gaps. With settings of an environment and given
values, there is a positive count of minutes to wait and of workers, the window is not negative, an
identifier is positive if there is one, and the address is not blank. A time limit is greater than
zero unless it is no number, and minutes make a duration just if they are below the limit. -/
theorem usable_of_loaded (h : ofEnvironment env overrides = .ok s) :
    0 < s.pollMinutes ∧ 0 < s.maxPageWorkers ∧ 0 ≤ s.expiryWindowMinutes ∧
      (∀ venue ∈ s.venue, 0 < venue.val) ∧ (∀ account ∈ s.account, 0 < account.val) ∧
      (∃ c ∈ s.databaseUrl.toList, Text.isBlank c = false) ∧
      (∀ limit ∈ [s.requestTimeout, s.commitTimeout, s.lockTimeout],
        Binary64.zero.lt limit = true ↔ limit ≠ .nan) ∧
      ((∃ d, s.expiryWindow = .ok d) ↔ s.expiryWindowMinutes < minutesLimit) ∧
      ((∃ d, s.pollInterval = .ok d) ↔ s.pollMinutes < minutesLimit) := by
  have sane := sane_of_check (toExcept_eq_ok_iff.1 h)
  refine ⟨sane.pollMinutes, sane.maxPageWorkers, sane.expiryWindowMinutes, fun venue _ => venue.pos,
    fun account _ => account.pos, sane.databaseUrl, ?_,
    exists_expiryWindow_iff sane.expiryWindowMinutes,
    exists_pollInterval_iff (Int.le_of_lt sane.pollMinutes)⟩
  simp only [List.forall_mem_cons]
  exact ⟨Binary64.zero_lt_iff sane.requestTimeout, Binary64.zero_lt_iff sane.commitTimeout,
    Binary64.zero_lt_iff sane.lockTimeout, by simp⟩

end Settings

namespace Sample

/-- The settings of a collector of one venue. -/
def settings : Settings where
  enabled := false
  venue := some venue
  account := some ⟨91, by decide⟩
  pollMinutes := 10
  expiryWindowMinutes := 360
  baseUrl := ⟨"https://esi.evetech.net"⟩
  apiVersion := ⟨"latest"⟩
  requestTimeout := .ofInt 30
  commitTimeout := .ofInt 120
  maxPageWorkers := 8
  lockTimeout := .ofInt 300
  databaseUrl := "sqlite:///structure_orders.db"

theorem exists_loaded {α : Type} {env : Environment} {overrides : List (String × Value)}
    {f : Settings → α} {a : α}
    (h : (Settings.ofEnvironment env overrides).toOption.map f = some a) :
    ∃ s, Settings.ofEnvironment env overrides = .ok s ∧ f s = a := by
  cases loaded : Settings.ofEnvironment env overrides with
  | error failure => simp [loaded, Except.toOption] at h
  | ok s =>
    rw [loaded] at h
    exact ⟨s, rfl, Option.some.inj h⟩

/-- An environment with a variable that a file adds. -/
def halved : Environment :=
  Environment.withFile [("STRUCTURE_GATHER_POLL_MINUTES", " 5 ")]
    "STRUCTURE_GATHER_LOCK_TIMEOUT_SECONDS='0.5'"

/-- Half a second is a time limit, and the last minute below the limit makes a duration. -/
theorem half_a_second : ∃ s,
    Settings.ofEnvironment halved [("expiry_window_minutes", .int 1439999999999)] = .ok s ∧
      Binary64.zero.lt s.lockTimeout = true ∧ (∃ d, s.expiryWindow = .ok d) ∧
      ∃ d, s.pollInterval = .ok d := by
  have figured : ∃ s,
      Settings.ofEnvironment halved [("expiry_window_minutes", .int 1439999999999)] = .ok s ∧
        (s.lockTimeout, s.expiryWindowMinutes, s.pollMinutes) =
          (.finite false 4503599627370496 (-53), 1439999999999, 5) := by
    apply exists_loaded (f := fun s => (s.lockTimeout, s.expiryWindowMinutes, s.pollMinutes))
    decide +kernel
  obtain ⟨s, loaded, figures⟩ := figured
  simp only [Prod.mk.injEq] at figures
  obtain ⟨limit, window, poll⟩ := figures
  obtain ⟨-, -, -, -, -, -, limits, durations, intervals⟩ := Settings.usable_of_loaded loaded
  refine ⟨s, loaded, (limits _ (by simp)).2 ?_, durations.2 ?_, intervals.2 ?_⟩
  · simp [limit]
  · rw [window]
    decide
  · rw [poll]
    decide

/-- A time limit that is no number is loaded, and so are more minutes than a duration has. -/
theorem loaded_unusable :
    (∃ s, Settings.ofEnvironment [("STRUCTURE_GATHER_LOCK_TIMEOUT_SECONDS", "nan")] [] = .ok s ∧
      Binary64.zero.lt s.lockTimeout = false) ∧
    ∃ s, Settings.ofEnvironment [("STRUCTURE_GATHER_EXPIRY_WINDOW_MINUTES", "1440000000000")] [] =
      .ok s ∧ s.expiryWindow = .error .overflow := by
  constructor
  · apply exists_loaded
    decide +kernel
  · have loaded : ∃ s, Settings.ofEnvironment
        [("STRUCTURE_GATHER_EXPIRY_WINDOW_MINUTES", "1440000000000")] [] = .ok s ∧
          s.expiryWindowMinutes = 1440000000000 := by
      apply exists_loaded
      decide +kernel
    obtain ⟨s, loaded, minutes⟩ := loaded
    refine ⟨s, loaded, ?_⟩
    rw [Settings.expiryWindow, minutes]
    rfl

end Sample

end OrderFlow
