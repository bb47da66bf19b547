import OrderFlow.Proofs.Venue.Whole

/-!
# Pages with a bad status

A page whose response has a status of 400 or more fails the whole fetch, whatever its headers and
its body are, with whatever credential it was asked for and in whatever order the pages are answered
(`BookFetch.bad_status_fails`). A status below 400 that is no success does so only if the response
holds no good page: `Sample.multiple_choices` is a book that is fetched from a response without one.
-/

namespace OrderFlow

/-- The count of pages that the headers of a reply tell, one if they tell none. -/
def Reply.count : Reply → Nat
  | response r =>
    match Connection.pageCount (r.headers.find? Connection.pageCountHeader) with
    | .ok count => count
    | .error _ => 1
  | _ => 1

theorem Reply.one_le_count (reply : Reply) : 1 ≤ reply.count := by
  cases reply with
  | response r =>
    rw [count]
    cases h : Connection.pageCount (r.headers.find? Connection.pageCountHeader) with
    | ok count => exact Connection.one_le_pageCount h
    | error _ => exact Nat.le_refl 1
  | _ => exact Nat.le_refl 1

namespace BookFetch

variable {f : BookFetch} {access : Access} {replies : Nat → Reply} {p : Pool}
  {moves : List (Surroundings × Move)} {n : Nat}

/-- A good page tells of as many pages as its headers do. -/
theorem count_of_answer {reply : Reply} {account : AccountId} {orders : List Order} {count : Nat}
    (h : f.answer account n reply = .ok (orders, count)) : reply.count = count := by
  obtain ⟨-, r, body, rfl, -, -, -, told⟩ := answer_eq_ok_iff.1 h
  rw [Reply.count, told]

/-- A fetch that gives orders got a good reply to each page. -/
theorem good_of_returns
    (answers : ∀ move ∈ moves, f.Answers access (fun _ => True) replies move.1)
    (run : f.run moves (.start ⟨access, []⟩) = some p) {orders : List Order}
    (ends : p.Returns (.ok orders)) (one : 1 ≤ n) (le : n ≤ (replies 1).count) :
    ∃ given, f.pages access.account replies n = .ok given := by
  have gives {k : Nat} {given : List Order × Nat} (h : p.outcome? k = some (.ok given)) :=
    answer_of_run answers (fun _ _ => trivial) run h
  have stands := (sound_run run).stands
  rw [ends.1] at stands
  cases stands with
  | whole tells _ _ gathered =>
    obtain ⟨first, told⟩ := tells
    have same := count_of_answer (gives told)
    obtain ⟨given, told, h⟩ := gathered.gives one (same ▸ le)
    exact ⟨_, gives h⟩

/-- **A page with a bad status fails the fetch.** Let the reply to each page be the same whenever
and with whatever credential it is asked for. If the response to one of the pages that the first one
tells of has a status of 400 or more, or holds no good page for another reason, then every fetch
that has ended has failed, whatever happened first, and so has the one that takes up one page after
the other. A fetch that has not ended can go on, for less than six moves for each page. -/
theorem bad_status_fails (f : BookFetch) (workers : 1 ≤ f.workers) (access : Access)
    (replies : Nat → Reply) {r : Response} (one : 1 ≤ n) (le : n ≤ (replies 1).count)
    (hr : replies n = .response r)
    (bad : 400 ≤ r.status ∨ ∀ given, f.pages access.account replies n ≠ .ok given) :
    (∀ (moves : List (Surroundings × Move)) (p : Pool),
      (∀ move ∈ moves, f.Answers access (fun _ => True) replies move.1) →
      f.run moves (.start ⟨access, []⟩) = some p →
      moves.length < 6 * (replies 1).count ∧
      ((∀ outcome, ¬ p.Returns outcome) → ∀ around, ∃ m p', f.step around m p = some p') ∧
      ∀ outcome, p.Returns outcome → ∃ fault, outcome = .error fault) ∧
    ∀ around, f.Answers access (fun _ => True) replies around →
      ∃ fault, ((f.connection.orders around f.venue f.forceRefresh).run ⟨access, []⟩).2 =
        .error fault := by
  have notGood (given : List Order × Nat) : f.pages access.account replies n ≠ .ok given := by
    rcases bad with refused | bad
    · intro h
      obtain ⟨-, r', body, hr', good, -⟩ := answer_eq_ok_iff.1 h
      rw [hr] at hr'
      cases hr'
      omega
    · exact bad given
  have fails (moves : List (Surroundings × Move)) (p : Pool)
      (answers : ∀ move ∈ moves, f.Answers access (fun _ => True) replies move.1)
      (run : f.run moves (.start ⟨access, []⟩) = some p) (outcome : Except Failure (List Order))
      (ends : p.Returns outcome) : ∃ fault, outcome = .error fault := by
    cases outcome with
    | error fault => exact ⟨fault, rfl⟩
    | ok orders =>
      obtain ⟨given, h⟩ := good_of_returns answers run ends one le
      exact absurd h (notGood given)
  constructor
  · intro moves p answers run
    refine ⟨?_, (sound_run run).exists_step workers, fails moves p answers run⟩
    have length := length_run_le run
    have count := (replies 1).one_le_count
    have told : p.told ≤ (replies 1).count := by
      unfold Pool.told
      split
      · rename_i orders count given
        rw [count_of_answer (answer_of_run answers (fun _ _ => trivial) run given)]
      · exact count
    omega
  · intro around answers
    exact orders_of_runs (A := f.Answers access (fun _ => True) replies)
      (P := fun outcome _ => ∃ fault, outcome = .error fault) workers fails answers

end BookFetch

namespace Sample

theorem answers_answering (reply : Option (List (String × String)) → Reply) :
    fetch.Answers access (fun _ => True) (repliesOf reply) (answering reply) :=
  (serves_answering reply).toAnswers

/-- Of two pages the second has the status 500. -/
theorem second_page_fails : ∃ fault,
    ((fetch.connection.orders (answering (secondRefused "2")) venue false).run ⟨access, []⟩).2 =
      .error fault := by
  have count : (repliesOf (secondRefused "2") 1).count = 2 := by
    with_unfolding_all rfl
  have refused : repliesOf (secondRefused "2") 2 = .response ⟨500, [], "\x7b\x7d"⟩ := by
    with_unfolding_all rfl
  have bad : (400 : Int) ≤ 500 := by decide
  obtain ⟨-, serial⟩ := fetch.bad_status_fails (by decide) access (repliesOf (secondRefused "2"))
    (n := 2) (by decide) (Nat.le_of_eq count.symm) refused (.inl bad)
  exact serial _ (answers_answering (secondRefused "2"))

/-- A page that leaves a choice between several, with an empty list as its body. -/
def multipleChoices (_ : Option (List (String × String))) : Reply :=
  .response ⟨300, [], "[]"⟩

/-- Its list is taken for the book of the venue. -/
theorem multiple_choices :
    fetch.Answers access (fun _ => True) (repliesOf multipleChoices) (answering multipleChoices) ∧
      repliesOf multipleChoices 1 = .response ⟨300, [], "[]"⟩ ∧
      (repliesOf multipleChoices 1).count = 1 ∧
      ((fetch.connection.orders (answering multipleChoices) venue false).run ⟨access, []⟩).2 =
        .ok [] := by
  have first : ((fetch.connection.page (answering multipleChoices) venue false 1).run
      ⟨access, []⟩).2 = .ok ([], 1) := by
    with_unfolding_all rfl
  refine ⟨answers_answering multipleChoices, rfl, rfl, ?_⟩
  rw [Connection.orders, Exchange.run_bind]
  generalize (fetch.connection.page (answering multipleChoices) venue false 1).run ⟨access, []⟩ =
    page at first
  obtain ⟨s, outcome⟩ := page
  cases first
  rfl

end Sample

end OrderFlow
