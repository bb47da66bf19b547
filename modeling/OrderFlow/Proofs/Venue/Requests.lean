import OrderFlow.Proofs.Venue.Reply

/-!
# Which pages are asked for

A pool has `Asked` for certain pages if these are the pages of its requests, in the order in which
they were sent. Every page is asked for once at most, the first one before all others, and a page
that gives orders was asked for (`BookFetch.asked_run`). So a fetch that has all pages has asked for
each of them exactly once (`Pool.Asked.perm`).
-/

namespace OrderFlow

/-- A request that was sent and did not fail. -/
def PageStage.Sent : PageStage → Prop
  | answered .. => True
  | ended (.ok _) => True
  | _ => False

namespace BookFetch

variable {stage : PageStage}

/-- A step of a request sends it, or it sends nothing. -/
theorem sent_advance (f : BookFetch) (around : Surroundings) (number : Nat) (s : Session)
    (h : stage.outcome? = none) :
    ((f.advance around number s stage).1.sent = s.sent ∧
      ((f.advance around number s stage).2.Sent → stage.Sent)) ∨
    (stage.progress < 3 ∧ 3 ≤ (f.advance around number s stage).2.progress ∧
      ∃ full credential, (f.advance around number s stage).1.sent =
        s.sent ++ [f.request number full credential]) := by
  cases stage with
  | waiting =>
    refine .inl ?_
    simp only [advance]
    split
    · exact ⟨rfl, id⟩
    · exact ⟨rfl, id⟩
  | looked url seen =>
    refine .inl ?_
    simp only [advance]
    split
    · exact ⟨rfl, id⟩
    · exact ⟨rfl, id⟩
  | allowed url credential =>
    simp only [advance]
    split
    · rename_i path full _
      exact .inr ⟨Nat.lt_succ_self 2, Nat.le_refl 3, full, credential, rfl⟩
    · exact .inl ⟨rfl, id⟩
  | answered path reply =>
    refine .inl ⟨?_, fun _ => trivial⟩
    simp only [advance, Connection.run_receive]
    cases reply.read path s.access.account with
    | ok given =>
      simp only
      split <;> rfl
    | error fault =>
      simp only
      split <;> rfl
  | ended _ => cases h

end BookFetch

namespace Pool

variable {f : BookFetch} {around : Surroundings} {p p' : Pool} {m : Move} {count : Nat}
  {asked : List Nat}

/-- The pages that were asked for, in the order of the requests. -/
structure Asked (p : Pool) (asked : List Nat) : Prop where
  params : p.session.sent.map (·.params) = asked.map fun n => some (BookFetch.params n)
  nodup : asked.Nodup
  reached : ∀ n ∈ asked, 3 ≤ (p.stage n).progress
  sent : ∀ n, (p.stage n).Sent → n ∈ asked
  first : asked ≠ [] → asked.head? = some 1

/-- Before a second page is taken up the first one has told the count. -/
theorem Sound.tells_of_lt (sound : p.Sound) (h : 2 < p.begun) : ∃ count, p.Tells count := by
  have stands := sound.stands
  generalize p.caller = caller at stands
  cases stands with
  | first alone => omega
  | reading tells => exact ⟨_, tells⟩
  | whole tells => exact ⟨_, tells⟩
  | refused alone => omega
  | tooMany tells => exact ⟨_, tells⟩
  | failed tells => exact ⟨_, tells⟩

theorem Asked.mem_of_gives (h : p.Asked asked) {n : Nat} {page : List Order × Nat}
    (gives : p.outcome? n = some (.ok page)) : n ∈ asked := by
  apply h.sent n
  rw [PageStage.outcome?_eq_some_iff.1 gives]
  trivial

/-- What was asked for after a move. -/
theorem Asked.step (h : p.Asked asked) (sound : p.Sound) (move : f.step around m p = some p') :
    ∃ asked', p'.Asked asked' := by
  obtain ⟨number, -, active, rfl⟩ | ⟨-, _, _, _, -, -, -, rfl⟩ | ⟨-, _, -, rfl⟩ :=
    BookFetch.step_cases move
  · obtain ⟨one, lt, unsettled⟩ := active_iff.1 active
    have further := f.progress_advance around number p.session unsettled
    have stage (n : Nat) : (p.setStage number
        (f.advance around number p.session (p.stage number)).2).stage n =
          if n = number then (f.advance around number p.session (p.stage number)).2
          else p.stage n := rfl
    obtain ⟨kept, sent⟩ | ⟨fresh, reached, full, credential, added⟩ :=
      f.sent_advance around number p.session unsettled
    · refine ⟨asked, ?_, h.nodup, fun n mem => ?_, fun n hn => ?_, h.first⟩
      · show List.map _ (f.advance around number p.session (p.stage number)).1.sent = _
        rw [kept, h.params]
      · have before := h.reached n mem
        show 3 ≤ PageStage.progress (if n = number then _ else _)
        split
        · rename_i same
          subst same
          omega
        · exact before
      · apply h.sent n
        have hn : PageStage.Sent (if n = number then _ else _) := hn
        split at hn
        · rename_i same
          subst same
          exact sent hn
        · exact hn
    · have new : number ∉ asked := fun mem => by
        have := h.reached number mem
        omega
      refine ⟨asked ++ [number], ?_, ?_, fun n mem => ?_, fun n hn => ?_, fun _ => ?_⟩
      · show List.map _ (f.advance around number p.session (p.stage number)).1.sent = _
        rw [added, List.map_append, List.map_append, h.params]
        rfl
      · rw [List.nodup_append]
        refine ⟨h.nodup, List.nodup_singleton number, ?_⟩
        rintro n mem _ last rfl
        exact new (List.mem_singleton.1 last ▸ mem)
      · show 3 ≤ PageStage.progress (if n = number then _ else _)
        split
        · exact reached
        · rename_i other
          rcases List.mem_append.1 mem with mem | mem
          · exact h.reached n mem
          · exact absurd (List.mem_singleton.1 mem) other
      · have hn : PageStage.Sent (if n = number then _ else _) := hn
        split at hn
        · rename_i same
          exact List.mem_append_right _ (List.mem_singleton.2 same)
        · exact List.mem_append_left _ (h.sent n hn)
      · cases asked with
        | cons first rest => exact h.first (List.cons_ne_nil first rest)
        | nil =>
          -- nothing was asked for yet, so it is the first page that is asked for now
          have only : number = 1 := by
            by_contra other
            obtain ⟨count, orders, gives⟩ := sound.tells_of_lt (by omega)
            cases h.mem_of_gives gives
          rw [only]
          rfl
  · exact ⟨asked, h.params, h.nodup, h.reached, h.sent, h.first⟩
  · exact ⟨asked, h.params, h.nodup, h.reached, h.sent, h.first⟩

/-- A fetch that has all pages has asked for each of them once, and for the first one first. -/
theorem Asked.perm (h : p.Asked asked) (sound : p.Sound) (tells : p.Tells count)
    (within : p.begun ≤ count + 1)
    (gives : ∀ n, 1 ≤ n → n ≤ count → ∃ page, p.outcome? n = some (.ok page)) :
    asked.Perm (List.range' 1 count) ∧ asked.head? = some 1 := by
  obtain ⟨_, first⟩ := tells
  have one := h.mem_of_gives first
  refine ⟨(List.perm_ext_iff_of_nodup h.nodup (List.nodup_range')).2 fun n => ?_,
    h.first (List.ne_nil_of_mem one)⟩
  rw [List.mem_range'_1]
  constructor
  · intro mem
    have reached := h.reached n mem
    have bounds : ¬ (n = 0 ∨ p.begun ≤ n) := fun outside => by
      rw [sound.fresh n outside, PageStage.progress] at reached
      omega
    omega
  · intro bounds
    obtain ⟨page, hpage⟩ := gives n bounds.1 (by omega)
    exact h.mem_of_gives hpage

end Pool

/-- In every run each page is asked for once at most, and the first one first. -/
theorem BookFetch.asked_run {f : BookFetch} {moves : List (Surroundings × Move)} {access : Access}
    {p : Pool} (h : f.run moves (.start ⟨access, []⟩) = some p) : ∃ asked, p.Asked asked := by
  have start : (Pool.start ⟨access, []⟩).Asked [] := by
    refine ⟨rfl, List.nodup_nil, ?_, ?_, ?_⟩
    · intro n mem
      cases mem
    · intro n sent
      cases sent
    · intro some
      exact absurd rfl some
  refine (run_induction (motive := fun p => p.Sound ∧ ∃ asked, p.Asked asked) ?_ h
    ⟨Pool.sound_start _, [], start⟩).2
  rintro around m p p' - ⟨sound, asked, h⟩ step
  exact ⟨sound.step step, h.step sound step⟩

end OrderFlow
