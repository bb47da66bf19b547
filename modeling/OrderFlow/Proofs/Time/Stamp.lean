import OrderFlow.Proofs.Text.Digits
import OrderFlow.Proofs.Time.Calendar
import OrderFlow.Time.Stamp

/-!
# Instants that are read back

The text of an instant with the mark of UTC is read as that instant (`Stamp.read?_utcText`): each
part of the text is found by the reader of that part, which leaves the rest to the next one.
-/

namespace OrderFlow.Stamp

open Text

variable {rest : List Char}

theorem digits?_padded {width n : Nat} (hw : 0 < width) (hn : n < 10 ^ width) :
    digits? width ((padded width n).toList ++ rest) = some (n, rest) := by
  have length := length_padded hw hn
  have taken : ((padded width n).toList ++ rest).take width = (padded width n).toList :=
    List.take_left' length
  have dropped : ((padded width n).toList ++ rest).drop width = rest := List.drop_left' length
  have digits : (padded width n).toList.all Char.isDigit = true :=
    List.all_eq_true.2 fun c h => isDigit_of_mem_padded h
  unfold digits?
  simp only [taken, dropped, length, digits, and_self, if_true, natOfDigits_padded]

@[simp] theorem after?_cons (c : Char) : after? c (c :: rest) = some rest := by
  simp [after?]

theorem date?_text (d : Day) : date? (d.text.toList ++ rest) = some (d, rest) := by
  have valid := Date.valid_ofMarchDays (n := d.number + Date.epoch) (by omega)
    (by have := d.inRange; omega)
  obtain ⟨-, year, -, month, -, day⟩ : d.date.Valid := valid
  have short : Date.daysIn d.date.year d.date.month ≤ 31 := by
    unfold Date.daysIn
    split
    · split <;> omega
    · split <;> omega
  have text : d.text.toList ++ rest = (padded 4 d.date.year).toList ++
      ('-' :: ((padded 2 d.date.month).toList ++
        ('-' :: ((padded 2 d.date.day).toList ++ rest)))) := by
    simp [Day.text, Date.text]
  unfold date?
  rw [text, digits?_padded (by decide) (by omega)]
  simp only [Option.bind_eq_bind, Option.bind_some, after?_cons]
  rw [digits?_padded (by decide) (by omega)]
  simp only [Option.bind_some, after?_cons]
  rw [digits?_padded (by decide) (by omega)]
  simp only [Option.bind_some,
    show (⟨d.date.year, d.date.month, d.date.day⟩ : Date) = d.date from rfl,
    Day.ofDate?_date]
  rfl

/-- A fraction is read up to the mark behind it. -/
theorem fraction?_text {micros : Nat} (h : micros < 1000000) :
    fraction? ((if micros = 0 then "" else "." ++ padded 6 micros).toList ++ ['Z']) =
      some (micros, ['Z']) := by
  by_cases zero : micros = 0
  · subst zero
    rfl
  · have length : (padded 6 micros).toList.length = 6 := length_padded (by decide) h
    have digits : ∀ c ∈ (padded 6 micros).toList, c.isDigit = true := fun c => isDigit_of_mem_padded
    have run : ((padded 6 micros).toList ++ ['Z']).takeWhile Char.isDigit =
        (padded 6 micros).toList := by
      rw [List.takeWhile_append_of_pos digits]
      simp
    have mark : ((padded 6 micros).toList ++ ['Z']).dropWhile Char.isDigit = ['Z'] := by
      rw [List.dropWhile_append_of_pos digits]
      rfl
    have six : ((padded 6 micros).toList ++ List.replicate 6 '0').take 6 =
        (padded 6 micros).toList := List.take_left' length
    have text : (if micros = 0 then "" else "." ++ padded 6 micros).toList ++ ['Z'] =
        '.' :: ((padded 6 micros).toList ++ ['Z']) := by
      rw [if_neg zero]
      simp
    have nonempty : (padded 6 micros).toList.isEmpty = false := by
      rw [← Bool.not_eq_true, List.isEmpty_iff]
      intro empty
      rw [empty] at length
      cases length
    rw [text, fraction?]
    simp only [true_or, if_true, run, mark, six, nonempty, natOfDigits_padded]
    rfl

theorem clock?_padded {hour minute second micros : Nat} (hhour : hour < 24) (hminute : minute < 60)
    (hsecond : second < 60) (hmicros : micros < 1000000)
    (h : ((hour * 60 + minute) * 60 + second) * 1000000 + micros < dayMicros) :
    clock? ((padded 2 hour ++ ":" ++ padded 2 minute ++ ":" ++ padded 2 second ++
        (if micros = 0 then "" else "." ++ padded 6 micros)).toList ++ ['Z']) =
      some (⟨((hour * 60 + minute) * 60 + second) * 1000000 + micros, h⟩, ['Z']) := by
  have text : (padded 2 hour ++ ":" ++ padded 2 minute ++ ":" ++ padded 2 second ++
        (if micros = 0 then "" else "." ++ padded 6 micros)).toList ++ ['Z'] =
      (padded 2 hour).toList ++ (':' :: ((padded 2 minute).toList ++ (':' ::
        ((padded 2 second).toList ++
          ((if micros = 0 then "" else "." ++ padded 6 micros).toList ++ ['Z']))))) := by
    simp
  have seconds : seconds? (':' :: ((padded 2 second).toList ++
      ((if micros = 0 then "" else "." ++ padded 6 micros).toList ++ ['Z']))) =
      some (second, micros, ['Z']) := by
    rw [seconds?, digits?_padded (by decide) (by omega)]
    simp only [Option.bind_eq_bind, Option.bind_some]
    rw [fraction?_text hmicros]
    rfl
  unfold clock?
  rw [text, digits?_padded (by decide) (by omega)]
  simp only [Option.bind_eq_bind, Option.bind_some, after?_cons]
  rw [digits?_padded (by decide) (by omega)]
  rw [Option.bind_some, seconds, Option.bind_some]
  exact dif_pos ⟨h, hminute, hsecond⟩

theorem clock?_text (t : Instant) (h : t.micros % dayMicros < dayMicros) :
    clock? (t.timeText.toList ++ ['Z']) = some (⟨t.micros % dayMicros, h⟩, ['Z']) := by
  unfold Instant.timeText
  generalize t.micros % dayMicros = n at h
  have total : ((n / 1000000 / 3600 * 60 + n / 1000000 / 60 % 60) * 60 + n / 1000000 % 60) *
      1000000 + n % 1000000 = n := by omega
  have inDay := h
  unfold dayMicros at h
  simp only
  rw [clock?_padded (by omega) (by omega) (by omega) (by omega) (by rwa [total])]
  simp only [total]

theorem ofDay_day (t : Instant) (h : t.micros % dayMicros < dayMicros) :
    Instant.ofDay t.day ⟨t.micros % dayMicros, h⟩ = t := by
  have parts := Nat.div_add_mod' t.micros dayMicros
  unfold Instant.ofDay Instant.day
  simp only [parts]

/-- An instant is read back from its text. -/
theorem read?_utcText (t : Instant) : read? false t.utcText.toList = some (.ofInstant t) := by
  have inDay : t.micros % dayMicros < dayMicros := Nat.mod_lt _ (by decide)
  have text : t.utcText.toList = t.day.text.toList ++ ('T' :: (t.timeText.toList ++ ['Z'])) := by
    simp [Instant.utcText, Instant.text]
  unfold read?
  rw [text, date?_text]
  simp only [Option.bind_eq_bind, Option.bind_some]
  rw [if_pos (by decide), clock?_text t inDay]
  simp only [Option.bind_some, ofDay_day]
  rfl

theorem utc?_ofInstant (t : Instant) : (ofInstant t).utc? = some t := by
  have wall : (ofInstant t).point = t.micros := by
    simp [point, ofInstant, Duration.seconds]
  rw [utc?, wall, Instant.ofMicros?, dif_pos ⟨Int.natCast_nonneg _, t.inRange⟩]
  rfl

end OrderFlow.Stamp

namespace OrderFlow.Instant

/-- An instant that was moved is as far from where it was as it was moved. -/
theorem micros_of_add? {t moved : Instant} {d : Duration} (h : t.add? d = some moved) :
    (moved.micros : Int) = t.micros + d := by
  unfold add? ofMicros? at h
  split at h
  · rename_i inRange
    obtain rfl := Option.some.inj h
    unfold Duration at *
    show (((d + t.micros).toNat : Nat) : Int) = t.micros + d
    omega
  · cases h

end OrderFlow.Instant
