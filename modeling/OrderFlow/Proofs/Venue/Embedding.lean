import OrderFlow.Proofs.Venue.Pool
import OrderFlow.Proofs.Venue.Serial
import OrderFlow.Proofs.Venue.Traffic

/-!
# Requests and fetches are traffic

A request that is made alone takes its turns one after the other (`Traffic.run_request`), and the
pages of a fetch take theirs in the order of its moves (`BookFetch.exists_acts`). So what holds in
all traffic holds of them.
-/

namespace OrderFlow

open Exchange

namespace Traffic

variable {c : Connection} {around : Surroundings} {t : Traffic} {n : Nat}

theorem setStage_setStage (t : Traffic) (n : Nat) (stage stage' : RequestStage) :
    (t.setStage n stage).setStage n stage' = t.setStage n stage' := by
  unfold setStage
  congr 1
  funext m
  dsimp only
  split <;> rfl

theorem setStage_self (t : Traffic) (n : Nat) : t.setStage n (t.stage n) = t := by
  unfold setStage
  congr 1
  funext m
  split
  · rename_i same
    rw [same]
  · rfl

/-- The next turn of a request. -/
theorem act_turn_setStage (c : Connection) (around : Surroundings) (t : Traffic) (n : Nat)
    (stage : RequestStage) : (t.setStage n stage).act c around (.turn n) =
      { t with session := (c.advance around t.session stage).1 }.setStage n
        (c.advance around t.session stage).2 := by
  simp only [act, stage_setStage_self]
  exact setStage_setStage { t with session := (c.advance around t.session stage).1 } n stage _

/-- Three turns of a request, one after the other. -/
theorem run_turns (c : Connection) (around : Surroundings) (t : Traffic) (n : Nat)
    (stage : RequestStage) :
    let one := c.advance around t.session stage
    let two := c.advance around one.1 one.2
    let three := c.advance around two.1 two.2
    (t.setStage n stage).run c [(around, .turn n), (around, .turn n), (around, .turn n)] =
      { t with session := three.1 }.setStage n three.2 := by
  simp only [run, List.foldl_cons, List.foldl_nil, act_turn_setStage]

/-- A request that is made alone starts and takes three turns. -/
theorem run_request (around : Surroundings) (draft : Draft)
    (free : (t.stage n).underWay = false) :
    let made := (c.request around draft.url draft.params draft.headers draft.authorized).run
      t.session
    t.run c [(around, .start n draft), (around, .turn n), (around, .turn n), (around, .turn n)] =
      { t with session := made.1 }.setStage n (.ended made.2) := by
  intro made
  obtain ⟨url, params, headers, authorized⟩ := draft
  have begun : t.act c around (.start n ⟨url, params, headers, authorized⟩) = t.setStage n
      (if authorized then .looked ⟨url, params, headers, authorized⟩ t.session.access.held
        else .ready ⟨url, params, headers, authorized⟩ none) :=
    if_neg (ne_true_of_eq_false free)
  show (t.act c around (.start n ⟨url, params, headers, authorized⟩)).run c _ = _
  rw [begun, run_turns]
  cases authorized with
  | true =>
    simp only [made, Connection.request, if_true, pure_bind, run_bind, run_authorize]
    simp only [Connection.advance]
    generalize t.session.access.confirm around.provider around.now t.session.access.held = confirmed
    obtain ⟨access, fault | credential⟩ := confirmed
    · rfl
    · simp only [run_lift]
      cases c.target url with
      | error fault => rfl
      | ok target =>
        simp only [run_send]
        rfl
  | false =>
    simp only [made, Connection.request, Bool.false_eq_true, if_false, pure_bind, run_bind,
      run_lift, Connection.advance]
    cases c.target url with
    | error fault => rfl
    | ok target =>
      simp only [run_send]
      rfl

end Traffic

namespace BookFetch

variable {f : BookFetch} {around : Surroundings} {number : Nat} {url : Url} {p p' : Pool}
  {m : Move} {moves : List (Surroundings × Move)} {t : Traffic} {stage : PageStage}
  {stage' : RequestStage}

/-- What the request for a page is to be. -/
def draft (f : BookFetch) (number : Nat) (url : Url) : Draft :=
  ⟨url, some (params number), Connection.pageHeaders f.forceRefresh, true⟩

/-- A stage of the request for a page, and that of the same request among others. -/
inductive Pairs (f : BookFetch) (number : Nat) : PageStage → RequestStage → Prop
  | waiting {stage : RequestStage} (still : stage.underWay = false) : Pairs f number .waiting stage
  | looked (url : Url) (seen : Option Credential) :
      Pairs f number (.looked url seen) (.looked (f.draft number url) seen)
  | allowed (url : Url) (credential : Credential) :
      Pairs f number (.allowed url credential) (.ready (f.draft number url) (some credential))
  | answered (path : Url) (reply : Reply) :
      Pairs f number (.answered path reply) (.answered path reply)
  | ended {stage : RequestStage} (outcome : PageOutcome) (still : stage.underWay = false) :
      Pairs f number (.ended outcome) stage

/-- Traffic that goes along with a fetch. -/
structure Follows (f : BookFetch) (t : Traffic) (p : Pool) : Prop where
  session : t.session = p.session
  stage : ∀ n, f.Pairs n (p.stage n) (t.stage n)

/-- Acts that go along with moves: no more of them, in the same surroundings, and every request that
they start has to show a credential. -/
structure Along (moves : List (Surroundings × Move)) (acts : List (Surroundings × Act)) : Prop where
  surroundings : (acts.map (·.1)).Sublist (moves.map (·.1))
  authorized : ∀ around n draft, (around, Act.start n draft) ∈ acts → draft.authorized = true

theorem Follows.setStage (h : f.Follows t p) (pair : f.Pairs number stage stage') :
    f.Follows (t.setStage number stage') (p.setStage number stage) where
  session := h.session
  stage n := by
    unfold Traffic.setStage Pool.setStage
    dsimp only
    split
    · rename_i same
      exact same ▸ pair
    · exact h.stage n

/-- A request for a page that is under way goes on as any request does. -/
theorem Pairs.advance (h : f.Pairs number stage stage') (way : stage'.underWay = true)
    (around : Surroundings) (s : Session) :
    (f.advance around number s stage).1 = (f.connection.advance around s stage').1 ∧
      f.Pairs number (f.advance around number s stage).2
        (f.connection.advance around s stage').2 := by
  cases h with
  | waiting still =>
    rw [still] at way
    cases way
  | looked url seen =>
    simp only [BookFetch.advance, Connection.advance]
    generalize s.access.confirm around.provider around.now seen = confirmed
    obtain ⟨access, fault | credential⟩ := confirmed
    · exact ⟨rfl, .ended _ rfl⟩
    · exact ⟨rfl, .allowed url credential⟩
  | allowed url credential =>
    have target : (f.draft number url).url = url := rfl
    simp only [BookFetch.advance, Connection.advance, target]
    cases f.connection.target url with
    | ok target => exact ⟨rfl, .answered _ _⟩
    | error fault => exact ⟨rfl, .ended _ rfl⟩
  | answered path reply =>
    simp only [BookFetch.advance, Connection.advance]
    generalize (Connection.receive path reply).run s = received
    obtain ⟨s, fault | given⟩ := received
    · exact ⟨rfl, .ended _ rfl⟩
    · exact ⟨rfl, .ended _ rfl⟩
  | ended outcome still =>
    rw [still] at way
    cases way

/-- A turn of a page in a fetch is the start or a turn of its request, or nothing. -/
theorem Follows.turn (h : f.Follows t p) (around : Surroundings) (number : Nat) :
    ∃ acts, Along [(around, .turn number)] acts ∧ f.Follows (t.run f.connection acts)
      ({ p with session := (f.advance around number p.session (p.stage number)).1 }.setStage number
        (f.advance around number p.session (p.stage number)).2) := by
  have one (act : Act) (authorized : ∀ n draft, act = .start n draft → draft.authorized = true) :
      Along [(around, .turn number)] [(around, act)] := by
    refine ⟨.refl _, fun _ n draft mem => authorized n draft ?_⟩
    exact (congrArg Prod.snd (List.mem_singleton.1 mem)).symm
  have none : Along [(around, .turn number)] [] := ⟨List.nil_sublist _, by rintro _ _ _ ⟨⟩⟩
  have pair := h.stage number
  by_cases way : (t.stage number).underWay = true
  · refine ⟨[(around, .turn number)], one _ (fun _ _ => nofun), ?_⟩
    obtain ⟨session, next⟩ := pair.advance way around p.session
    show f.Follows (Traffic.setStage { t with
      session := (f.connection.advance around t.session (t.stage number)).1 } number
        (f.connection.advance around t.session (t.stage number)).2) _
    rw [session, h.session]
    exact Follows.setStage ⟨rfl, h.stage⟩ next
  · -- the request has not started, or it is over: it starts at its address, if it has one
    have begun (url : Url) : t.act f.connection around (.start number (f.draft number url)) =
        t.setStage number (.looked (f.draft number url) p.session.access.held) := by
      rw [← h.session]
      exact if_neg way
    have still := Bool.eq_false_of_not_eq_true way
    have kept (outcome : PageOutcome) : f.Follows t (p.setStage number (.ended outcome)) := by
      rw [← t.setStage_self number]
      exact h.setStage (.ended outcome still)
    generalize p.stage number = stage, t.stage number = stage' at pair still
    cases pair with
    | waiting =>
      simp only [BookFetch.advance]
      cases f.url with
      | error fault => exact ⟨[], none, kept _⟩
      | ok url =>
        refine ⟨[(around, .start number (f.draft number url))], one _ ?_, ?_⟩
        · rintro n draft ⟨⟩
          rfl
        · show f.Follows (t.act f.connection around (.start number (f.draft number url))) _
          rw [begun]
          exact h.setStage (.looked url p.session.access.held)
    | looked => cases still
    | allowed => cases still
    | answered => cases still
    | ended outcome => exact ⟨[], none, kept outcome⟩

/-- A move of a fetch is at most one act of its requests. -/
theorem Follows.step (h : f.Follows t p) (move : f.step around m p = some p') :
    ∃ acts, Along [(around, m)] acts ∧ f.Follows (t.run f.connection acts) p' := by
  have none (m : Move) : Along [(around, m)] [] :=
    ⟨List.nil_sublist _, by rintro _ _ _ ⟨⟩⟩
  obtain ⟨number, rfl, -, rfl⟩ | ⟨-, _, _, _, -, -, -, rfl⟩ | ⟨-, _, -, rfl⟩ := step_cases move
  · exact h.turn around number
  · exact ⟨[], none m, h.session, h.stage⟩
  · exact ⟨[], none m, h.session, h.stage⟩

/-- The requests of a fetch are traffic. -/
theorem Follows.run (h : f.Follows t p) (run : f.run moves p = some p') :
    ∃ acts, Along moves acts ∧ f.Follows (t.run f.connection acts) p' := by
  induction moves generalizing t p with
  | nil =>
    cases run
    exact ⟨[], ⟨List.nil_sublist _, by rintro _ _ _ ⟨⟩⟩, h⟩
  | cons e moves ih =>
    obtain ⟨between, first, rest⟩ := Option.bind_eq_some_iff.1 run
    obtain ⟨acts, along, after⟩ := h.step first
    obtain ⟨more, along', after'⟩ := ih after rest
    refine ⟨acts ++ more, ⟨?_, fun around n draft mem => ?_⟩, ?_⟩
    · rw [List.map_append]
      exact along.surroundings.append along'.surroundings
    · rcases List.mem_append.1 mem with mem | mem
      · exact along.authorized _ _ _ mem
      · exact along'.authorized _ _ _ mem
    · rw [Traffic.run_append]
      exact after'

/-- Every fetch that starts while no request is under way is traffic. -/
theorem exists_acts (still : ∀ n, (t.stage n).underWay = false)
    (run : f.run moves (.start t.session) = some p) :
    ∃ acts, Along moves acts ∧ (t.run f.connection acts).session = p.session := by
  have start : f.Follows t (.start t.session) := ⟨rfl, fun n => .waiting (still n)⟩
  obtain ⟨acts, along, follows⟩ := start.run run
  exact ⟨acts, along, follows.session⟩

end BookFetch

end OrderFlow
