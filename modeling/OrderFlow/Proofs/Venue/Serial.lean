import OrderFlow.Proofs.Venue.Reply

/-!
# Pages fetched one by one

`Connection.orders` takes up the pages one after the other and reads them once the last is over.
That is one of the runs of a pool, in surroundings that stay as they are
(`BookFetch.exists_run_orders`), so that what holds of all runs holds of it.
-/

namespace OrderFlow

namespace Exchange

variable {α : Type}

theorem run_lift (x : Except Failure α) (s : Session) : (lift x).run s = (s, x) := rfl

theorem run_settled (e : Exchange α) (s : Session) :
    (settled e).run s = ((e.run s).1, .ok (e.run s).2) := by
  unfold settled run
  simp only [ExceptT.run, ExceptT.mk, bind, StateT.bind]
  generalize e s = result
  rfl

theorem run_send (around : Surroundings) (request : Request) (s : Session) :
    (send around request).run s =
      ({ s with sent := s.sent ++ [request] }, .ok (around.transport request)) := rfl

theorem run_authorize (around : Surroundings) (s : Session) :
    (authorize around).run s =
      ({ s with access := (s.access.confirm around.provider around.now s.access.held).1 },
        (s.access.confirm around.provider around.now s.access.held).2) := rfl

end Exchange

namespace BookFetch

open Exchange

variable {f : BookFetch} {around : Surroundings} {number count : Nat} {s s' : Session}
  {stage : PageStage} {outcome : PageOutcome} {p : Pool} {orders : List Order}

/-- A request that goes on alone until it is over. -/
inductive Settles (f : BookFetch) (around : Surroundings) (number : Nat) :
    Session → PageStage → Session → PageOutcome → Prop
  | ended (s : Session) (outcome : PageOutcome) :
      Settles f around number s (.ended outcome) s outcome
  | step {s s' : Session} {stage : PageStage} {outcome : PageOutcome}
      (unsettled : stage.outcome? = none)
      (rest : Settles f around number (f.advance around number s stage).1
        (f.advance around number s stage).2 s' outcome) :
      Settles f around number s stage s' outcome

/-- A page of the fetch, asked for alone. -/
def page (f : BookFetch) (around : Surroundings) (number : Nat) : Exchange (List Order × Nat) :=
  f.connection.page around f.venue f.forceRefresh number

theorem page_eq (f : BookFetch) (around : Surroundings) (number : Nat) :
    f.page around number = (do
      let url ← lift f.url
      let credential ← authorize around
      let (path, full) ← lift (f.connection.target url)
      let (body, headers) ←
        Connection.receive path (← send around (f.request number full credential))
      lift (f.content number body headers)) := by
  have content (body : Value) (headers : Headers) : lift (f.content number body headers) = (do
      let orders ← lift <| (Order.checkPage body).toExcept fun issues =>
        .fetch (.malformed number f.venue.val issues)
      let told := Connection.pageCount (headers.find? Connection.pageCountHeader)
      return (orders, ← lift told)) := by
    unfold BookFetch.content
    cases (Order.checkPage body).toExcept _ with
    | error fault => rfl
    | ok orders => cases Connection.pageCount (headers.find? Connection.pageCountHeader) <;> rfl
  simp only [page, Connection.page, Connection.request, if_true, bind_assoc, pure_bind, content]
  rfl

/-- A page that is asked for alone takes the steps of its request one after the other. -/
theorem settles_page (f : BookFetch) (around : Surroundings) (number : Nat) (s : Session) :
    f.Settles around number s .waiting ((f.page around number).run s).1
      ((f.page around number).run s).2 := by
  rw [page_eq]
  refine .step rfl ?_
  simp only [advance, run_bind, run_lift]
  cases f.url with
  | error fault => exact .ended _ _
  | ok url =>
    refine .step rfl ?_
    simp only [advance, run_authorize]
    generalize s.access.confirm around.provider around.now s.access.held = confirmed
    obtain ⟨access, fault | credential⟩ := confirmed
    · exact .ended _ _
    refine .step rfl ?_
    simp only [advance]
    cases f.connection.target url with
    | error fault => exact .ended _ _
    | ok target =>
      obtain ⟨path, full⟩ := target
      refine .step rfl ?_
      simp only [advance, run_send, Connection.run_receive]
      cases (around.transport (f.request number full credential)).read path access.account with
      | error fault => exact .ended _ _
      | ok given => exact .ended _ _

end BookFetch

namespace Pool

variable {p : Pool} {number : Nat}

theorem setStage_setStage (p : Pool) (number : Nat) (stage stage' : PageStage) :
    (p.setStage number stage).setStage number stage' = p.setStage number stage' := by
  unfold setStage
  congr 1
  funext n
  dsimp only
  split <;> rfl

theorem setStage_self (p : Pool) (number : Nat) : p.setStage number (p.stage number) = p := by
  unfold setStage
  congr 1
  funext n
  split
  · rename_i same
    rw [same]
  · rfl

end Pool

namespace BookFetch

open Exchange

variable {f : BookFetch} {around : Surroundings} {number count : Nat} {s s' : Session}
  {stage : PageStage} {outcome : PageOutcome} {p p' p'' : Pool} {orders : List Order}

/-- A pool can make some moves, in surroundings that stay as they are, that lead to another one. -/
def Reaches (f : BookFetch) (around : Surroundings) (p p' : Pool) : Prop :=
  ∃ moves : List Move, f.run (moves.map fun m => (around, m)) p = some p'

theorem Reaches.refl (p : Pool) : f.Reaches around p p :=
  ⟨[], rfl⟩

theorem Reaches.step {m : Move} (first : f.step around m p = some p')
    (rest : f.Reaches around p' p'') : f.Reaches around p p'' := by
  obtain ⟨moves, run⟩ := rest
  refine ⟨m :: moves, ?_⟩
  rw [List.map_cons, BookFetch.run, first]
  exact run

theorem Reaches.trans (h : f.Reaches around p p') (h' : f.Reaches around p' p'') :
    f.Reaches around p p'' := by
  obtain ⟨moves, run⟩ := h
  induction moves generalizing p with
  | nil =>
    cases run
    exact h'
  | cons m moves ih =>
    obtain ⟨between, first, run⟩ := Option.bind_eq_some_iff.1 run
    exact .step first (ih run)

/-- A page under way can be brought to its end. -/
theorem reaches_ended (settles : f.Settles around number p.session (p.stage number) s' outcome)
    (one : 1 ≤ number) (lt : number < p.begun) :
    f.Reaches around p ({ p with session := s' }.setStage number (.ended outcome)) := by
  generalize hs : p.session = s, hstage : p.stage number = stage at settles
  induction settles generalizing p with
  | ended s outcome =>
    subst hs
    rw [← hstage]
    have same : { p with session := p.session }.setStage number (p.stage number) = p :=
      p.setStage_self number
    rw [same]
    exact .refl p
  | @step s s' stage outcome unsettled rest ih =>
    subst hs hstage
    have active : p.active number = true := Pool.active_iff.2 ⟨one, lt, unsettled⟩
    refine .step (m := .turn number) (if_pos active) ?_
    have next := ih (p := { p with
      session := (f.advance around number p.session (p.stage number)).1 }.setStage number
        (f.advance around number p.session (p.stage number)).2) lt rfl (if_pos rfl)
    have same (stage stage' : PageStage) (s s' : Session) :
        { { p with session := s }.setStage number stage with session := s' }.setStage number
          stage' = { p with session := s' }.setStage number stage' :=
      Pool.setStage_setStage { p with session := s' } number stage stage'
    rwa [same] at next

/-- A page that was taken up can be fetched as one that is asked for alone. -/
theorem reaches_page (f : BookFetch) (around : Surroundings) (p : Pool) (number : Nat)
    (waiting : p.stage number = .waiting) (one : 1 ≤ number)
    (lt : number < p.begun) :
    f.Reaches around p ({ p with session := ((f.page around number).run p.session).1 }.setStage
      number (.ended ((f.page around number).run p.session).2)) := by
  refine reaches_ended ?_ one lt
  rw [waiting]
  exact f.settles_page around number p.session

end BookFetch

/-- What a page has given to the caller. -/
def Pool.gives (p : Pool) (number : Nat) : Option (Except Failure (List Order)) :=
  (p.outcome? number).map fun outcome => outcome.map (·.1)

namespace BookFetch

open Exchange

variable {f : BookFetch} {around : Surroundings} {number next count k : Nat} {p : Pool}
  {orders : List Order}

/-- While no worker has a page under way, the next one can be taken up and fetched. -/
theorem reaches_next (around : Surroundings) (workers : 1 ≤ f.workers)
    (caller : p.caller = .reading count next orders) (room : p.begun ≤ count) (two : 2 ≤ p.begun)
    (idle : p.busy = 0) (waiting : p.stage p.begun = .waiting) :
    ∃ q, f.Reaches around p q ∧ q.session = ((f.page around p.begun).run p.session).1 ∧
      q.outcome? p.begun = some ((f.page around p.begun).run p.session).2 ∧
      q.begun = p.begun + 1 ∧ q.caller = p.caller ∧ ∀ n, n ≠ p.begun → q.stage n = p.stage n := by
  have take : f.step around .take p = some { p with begun := p.begun + 1 } := by
    simp only [step, caller]
    rw [if_pos]
    omega
  have fetched := f.reaches_page around { p with begun := p.begun + 1 } p.begun waiting (by omega)
    (Nat.lt_succ_self p.begun)
  refine ⟨_, .step take fetched, rfl, ?_, rfl, rfl, fun n other => if_neg other⟩
  rw [Pool.outcome?_setStage, if_pos rfl]
  rfl

/-- All following pages can be taken up one after the other. -/
theorem reaches_following (around : Surroundings) (p : Pool) (workers : 1 ≤ f.workers)
    (caller : p.caller = .reading count 2 orders) (begun : p.begun = number) (two : 2 ≤ number)
    (last : number + k = count + 1) (fresh : ∀ n, number ≤ n → p.stage n = .waiting)
    (ended : ∀ n, 1 ≤ n → n < number → (p.outcome? n).isSome) :
    ∃ p' outcomes, f.Reaches around p p' ∧
      (f.connection.following around f.venue f.forceRefresh number k).run p.session =
        (p'.session, .ok outcomes) ∧
      p'.caller = p.caller ∧ p'.begun = count + 1 ∧ (∀ n, n < number → p'.stage n = p.stage n) ∧
      (∀ n, 1 ≤ n → n < p'.begun → (p'.outcome? n).isSome) ∧
      (List.range' number k).map p'.gives = outcomes.map some := by
  induction k generalizing number p with
  | zero =>
    exact ⟨p, [], .refl p, rfl, rfl, by omega, fun _ _ => rfl, begun ▸ ended, rfl⟩
  | succ k ih =>
    subst begun
    have idle := Pool.busy_eq_zero (Pool.active_eq_false ended)
    obtain ⟨q, taken, session, own, begun, caller', kept⟩ :=
      reaches_next around workers caller (by omega) two idle (fresh _ (Nat.le_refl _))
    have stage (n : Nat) (lt : n < p.begun) : q.stage n = p.stage n := kept n (by omega)
    have fresh' (n : Nat) (le : p.begun + 1 ≤ n) : q.stage n = .waiting := by
      rw [kept n (by omega), fresh n (by omega)]
    have ended' (n : Nat) (one : 1 ≤ n) (lt : n < p.begun + 1) : (q.outcome? n).isSome := by
      rcases Nat.eq_or_lt_of_le (Nat.le_of_lt_succ lt) with rfl | before
      · rw [own]
        rfl
      · rw [Pool.outcome?, stage n before]
        exact ended n one before
    obtain ⟨p', outcomes, rest, run, same, all, kept', ended'', gives⟩ :=
      ih q (caller'.trans caller) begun (by omega) (by omega) fresh' ended'
    have first : p'.gives p.begun = some (((f.page around p.begun).run p.session).2.map (·.1)) := by
      rw [Pool.gives, Pool.outcome?, kept' p.begun (Nat.lt_succ_self _), ← Pool.outcome?, own]
      rfl
    refine ⟨p', ((f.page around p.begun).run p.session).2.map (·.1) :: outcomes,
      taken.trans rest, ?_, same.trans caller', all, fun n lt => ?_, ended'', ?_⟩
    · have unfolded : f.connection.following around f.venue f.forceRefresh p.begun (k + 1) = (do
          let outcome ← settled (f.page around p.begun)
          let rest ← f.connection.following around f.venue f.forceRefresh (p.begun + 1) k
          return outcome.map (·.1) :: rest) := rfl
      rw [unfolded, run_bind, run_settled]
      simp only
      rw [run_bind, ← session, run]
      rfl
    · rw [kept' n (by omega), stage n lt]
    · rw [List.range'_succ, List.map_cons, List.map_cons, first, gives]

/-- The caller can read all pages that are over. -/
theorem reaches_done (f : BookFetch) (around : Surroundings)
    {outcomes : List (Except Failure (List Order))}
    (caller : p.caller = .upTo count next orders) (last : next + k = count + 1)
    (gives : (List.range' next k).map p.gives = outcomes.map some) :
    f.Reaches around p { p with
      caller := .done ((outcomes.mapM id).map fun pages => orders ++ pages.flatten) } := by
  induction k generalizing next orders outcomes p with
  | zero =>
    cases outcomes with
    | cons => cases gives
    | nil =>
      have done : p.caller = .done (.ok orders) := by
        rw [caller, Caller.upTo, if_neg (by omega)]
      have same : Caller.done (([] : List (Except Failure (List Order))).mapM id |>.map
          fun pages => orders ++ pages.flatten) = p.caller := by
        rw [done]
        show Caller.done (.ok (orders ++ [])) = _
        rw [List.append_nil]
      rw [same]
      exact .refl p
  | succ k ih =>
    cases outcomes with
    | nil => cases gives
    | cons outcome outcomes =>
      rw [List.range'_succ, List.map_cons, List.map_cons, List.cons.injEq] at gives
      obtain ⟨own, rest⟩ := gives
      obtain ⟨page, hpage, rfl⟩ := Option.map_eq_some_iff.1 own
      have reading : p.caller = .reading count next orders := by
        rw [caller, Caller.upTo, if_pos (by omega)]
      rcases page with fault | ⟨more, told⟩
      · have read : f.step around .read p = some { p with caller := .done (.error fault) } := by
          simp only [step, reading, Caller.read, hpage, Option.map_some]
        exact .step read (.refl _)
      · have read : f.step around .read p =
            some { p with caller := .upTo count (next + 1) (orders ++ more) } := by
          simp only [step, reading, Caller.read, hpage, Option.map_some]
        have on := ih (p := { p with caller := .upTo count (next + 1) (orders ++ more) }) rfl
          (by omega) rest
        have same : (outcomes.mapM id).map (fun pages => orders ++ more ++ pages.flatten) =
            ((Except.ok more :: outcomes).mapM id).map fun pages => orders ++ pages.flatten := by
          rw [List.mapM_cons]
          cases outcomes.mapM id with
          | error fault => rfl
          | ok pages =>
            show Except.ok (orders ++ more ++ pages.flatten) =
              Except.ok (orders ++ (more :: pages).flatten)
            rw [List.flatten_cons, List.append_assoc]
        rw [same] at on
        exact .step read on

/-- The first page can be fetched as one that is asked for alone. -/
theorem reaches_first (f : BookFetch) (around : Surroundings) (s : Session) :
    ∃ q, f.Reaches around (.start s) q ∧ q.session = ((f.page around 1).run s).1 ∧
      q.outcome? 1 = some ((f.page around 1).run s).2 ∧ q.begun = 2 ∧ q.caller = .first ∧
      ∀ n, 2 ≤ n → q.stage n = .waiting := by
  refine ⟨_, f.reaches_page around (.start s) 1 rfl (Nat.le_refl 1) (Nat.lt_succ_self 1), rfl, ?_,
    rfl, rfl, fun n two => ?_⟩
  · rw [Pool.outcome?_setStage, if_pos rfl]
    rfl
  · exact if_neg (by omega)

theorem orders_eq (f : BookFetch) (around : Surroundings) :
    f.connection.orders around f.venue f.forceRefresh = (do
      let (first, count) ← f.page around 1
      if Connection.maxFollowing < count - 1 then throw .overflow
      let rest ← f.connection.following around f.venue f.forceRefresh 2 (count - 1)
      return first ++ (← lift (rest.mapM id)).flatten) :=
  rfl

/-- The orders that are gathered from the outcomes of the following pages. -/
theorem run_gather (f : BookFetch) (around : Surroundings) (first : List Order) {s s' : Session}
    {outcomes : List (Except Failure (List Order))}
    (run : (f.connection.following around f.venue f.forceRefresh 2 k).run s = (s', .ok outcomes)) :
    (do
      let rest ← f.connection.following around f.venue f.forceRefresh 2 k
      return first ++ (← lift (rest.mapM id)).flatten : Exchange (List Order)).run s =
        (s', (outcomes.mapM id).map fun pages => first ++ pages.flatten) := by
  rw [run_bind, run]
  simp only
  rw [run_bind, run_lift]
  cases outcomes.mapM id <;> rfl

/-- **The fetch that takes up one page after the other is a run of the pool**, with the same outcome
and the same session in the end. -/
theorem exists_run_orders (workers : 1 ≤ f.workers) (around : Surroundings) (s : Session) :
    ∃ p, f.Reaches around (.start s) p ∧
      p.Returns ((f.connection.orders around f.venue f.forceRefresh).run s).2 ∧
      p.session = ((f.connection.orders around f.venue f.forceRefresh).run s).1 := by
  obtain ⟨q, fetched, session, own, begun, caller, waiting⟩ := f.reaches_first around s
  rw [orders_eq, run_bind]
  generalize (f.page around 1).run s = page at session own
  obtain ⟨s, outcome⟩ := page
  obtain rfl : q.session = s := session
  have first (n : Nat) (one : 1 ≤ n) (lt : n < q.begun) : (q.outcome? n).isSome := by
    obtain rfl : n = 1 := by omega
    rw [own]
    rfl
  have idle (caller : Caller) : ∀ n, { q with caller := caller }.active n = false :=
    Pool.active_eq_false first
  rcases outcome with fault | ⟨orders, count⟩
  · have read : f.step around .read q = some { q with caller := .done (.error fault) } := by
      simp only [step, caller, Caller.read, own, Option.map_some]
    exact ⟨_, fetched.trans (.step read (.refl _)), ⟨rfl, idle _⟩, rfl⟩
  by_cases many : Connection.maxFollowing < count - 1
  · have read : f.step around .read q = some { q with caller := .done (.error .overflow) } := by
      simp only [step, caller, Caller.read, own, Option.map_some, if_pos many]
    simp only [if_pos many]
    exact ⟨_, fetched.trans (.step read (.refl _)), ⟨rfl, idle _⟩, rfl⟩
  have read : f.step around .read q = some { q with caller := .upTo count 2 orders } := by
    simp only [step, caller, Caller.read, own, Option.map_some, if_neg many]
  simp only [if_neg many]
  by_cases more : 2 ≤ count
  · have reading : Caller.upTo count 2 orders = .reading count 2 orders := if_pos more
    obtain ⟨p', outcomes, taken, run, same, all, -, ended, gives⟩ :=
      f.reaches_following around { q with caller := .upTo count 2 orders } (k := count - 1)
        workers reading begun (Nat.le_refl 2) (by omega) waiting (begun ▸ first)
    have all := f.reaches_done around same (by omega) gives
    have gathered := f.run_gather around orders run
    rw [gathered]
    exact ⟨_, fetched.trans (.step read (taken.trans all)), ⟨rfl, Pool.active_eq_false ended⟩, rfl⟩
  · have none : (f.connection.following around f.venue f.forceRefresh 2 (count - 1)).run q.session =
        (q.session, .ok []) := by
      rw [show count - 1 = 0 by omega]
      rfl
    have alone := f.run_gather around orders none
    have done : Caller.upTo count 2 orders = .done (.ok orders) := if_neg more
    refine ⟨_, fetched.trans (.step read (.refl _)), ⟨?_, idle _⟩, ?_⟩
    · rw [alone]
      show Caller.upTo count 2 orders = .done (.ok (orders ++ []))
      rw [done, List.append_nil]
    · rw [alone]

/-- What holds of all runs that have ended, in surroundings of some kind, holds of the fetch that
takes up one page after the other. -/
theorem orders_of_runs {A : Surroundings → Prop}
    {P : Except Failure (List Order) → Session → Prop} {s : Session} (workers : 1 ≤ f.workers)
    (ends : ∀ (moves : List (Surroundings × Move)) (p : Pool), (∀ move ∈ moves, A move.1) →
      f.run moves (.start s) = some p → ∀ outcome, p.Returns outcome → P outcome p.session)
    (h : A around) :
    P ((f.connection.orders around f.venue f.forceRefresh).run s).2
      ((f.connection.orders around f.venue f.forceRefresh).run s).1 := by
  obtain ⟨p, ⟨moves, run⟩, returns, session⟩ := f.exists_run_orders workers around s
  rw [← session]
  refine ends _ p (fun move mem => ?_) run _ returns
  obtain ⟨m, -, rfl⟩ := List.mem_map.1 mem
  exact h

/-- A first page that is bad fails the fetch. -/
theorem orders_of_bad_first {access : Access} {valid : Credential → Prop} {replies : Nat → Reply}
    {fault : Failure} (workers : 1 ≤ f.workers) (held : ∀ c ∈ access.held, valid c)
    (serves : f.Serves access valid replies around)
    (bad : f.answer access.account 1 (replies 1) = .error fault) :
    ((f.connection.orders around f.venue f.forceRefresh).run ⟨access, []⟩).2 = .error fault := by
  refine orders_of_runs (A := f.Serves access valid replies)
    (P := fun outcome _ => outcome = .error fault) workers ?_ serves
  intro moves p serves run outcome returns
  have given {first : PageOutcome} (gives : p.outcome? 1 = some first) : first = .error fault :=
    (outcome_of_run serves held run gives).trans bad
  have stands := (sound_run run).stands
  rw [returns.1] at stands
  cases stands with
  | refused _ bad =>
    cases given bad
    rfl
  | whole tells | tooMany tells | failed tells =>
    obtain ⟨orders, gives⟩ := tells
    cases given gives

end BookFetch

end OrderFlow
