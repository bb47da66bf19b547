import OrderFlow.Proofs.Venue.Embedding
import OrderFlow.Proofs.Venue.Whole

/-!
# Requests show credentials that can be used

`Traffic.usable_credentials_only` collects what holds of the requests of an account in every order
of their steps, whatever is asked, forgotten or answered in between.
-/

namespace OrderFlow

namespace Traffic

variable {c : Connection} {t u : Traffic} {acts : List (Surroundings × Act)} {m n : Nat}
  {around : Surroundings} {draft : Draft} {seen : Option Credential}

theorem quiet_start (account : AccountId) (scope : String) : (start account scope).Quiet :=
  ⟨rfl, fun _ => rfl⟩

theorem stage_start_of_ne (other : m ≠ n) :
    (t.act c around (.start n draft)).stage m = t.stage m := by
  rw [act]
  split
  · rfl
  · exact stage_setStage_of_ne other t _

theorem stage_turn_of_ne (other : m ≠ n) : (t.act c around (.turn n)).stage m = t.stage m :=
  stage_setStage_of_ne other _ _

/-- A rejected request ends, and the held credential is forgotten. -/
theorem act_turn_rejected {path : Url} {r : Response} (c : Connection) (around : Surroundings)
    (answered : t.stage n = .answered path (.response r)) (rejected : r.status = 401) :
    t.act c around (.turn n) = { t with session.access := t.session.access.drop }.setStage n
      (.ended (.error (.fetch (.unauthorized path.text)))) := by
  have rejects : (Reply.response r).rejects = true := decide_eq_true rejected
  simp only [act, answered, Connection.advance, Connection.run_receive, rejects, if_true,
    Reply.read, rejected]

/-- Once the only request under way was rejected, nothing is held and none is under way. -/
theorem quiet_of_rejected {path : Url} {r : Response}
    (answered : t.stage n = .answered path (.response r)) (rejected : r.status = 401)
    (alone : ∀ m, m ≠ n → (t.stage m).underWay = false) : (t.act c around (.turn n)).Quiet := by
  rw [act_turn_rejected c around answered rejected]
  refine ⟨rfl, fun m => ?_⟩
  by_cases same : m = n
  · rw [same, stage_setStage_self]
    rfl
  · rw [stage_setStage_of_ne same]
    exact alone m same

/-- A request that has seen no credential that can be used, and can have none, fails. -/
theorem Vouched.exists_fault (h : Vouched c t acts u) (looked : u.stage n = .looked draft seen)
    (unusable : ∀ credential ∈ seen, ¬ credential.Usable t.session.access.scope around.now)
    (lacks : around.provider.Lacks around.now u.session.access.account u.session.access.scope) :
    ∃ fault, u.act c around (.turn n) = u.setStage n (.ended (.error fault)) ∧
      ((around.now.add? around.provider.margin).isSome →
        ∃ cause, fault = .configuration cause) := by
  have stale (credential : Credential) (mem : credential ∈ seen) :
      credential.isFresh (.ofInstant around.now) ≠ .ok true := by
    intro fresh
    have accounted := h.stage n
    rw [looked] at accounted
    exact unusable credential mem ((accounted.2 credential mem).usable fresh)
  obtain ⟨fault, confirmed, configuration⟩ := Access.exists_confirm_error lacks stale
  refine ⟨fault, ?_, configuration⟩
  simp only [act, looked, Connection.advance, confirmed]

/-- No request goes out with a credential that cannot be used. An account starts with no credential
and makes requests, of which any number may be under way; between their steps its credential is
asked for or forgotten, and the clock, the provider and what answers are those of each step. -/
theorem usable_credentials_only (c : Connection) (account : AccountId) (scope : String)
    (acts : List (Surroundings × Act)) :
    let t := start account scope
    let u := t.run c acts
    -- a request that was sent shows a credential that had been handed out, and that could be used
    -- when the request got it, unless it was made without having to show one
    (∀ earlier request rest, u.session.sent = earlier ++ request :: rest →
      Sent c t acts earlier request) ∧
    -- a request fails if it has seen none and can have none: nothing is sent, what is held stays
    (∀ around n draft seen, u.stage n = .looked draft seen →
      (∀ credential ∈ seen, ¬ credential.Usable scope around.now) →
      around.provider.Lacks around.now account scope →
      ∃ fault, u.act c around (.turn n) = u.setStage n (.ended (.error fault)) ∧
        ((around.now.add? around.provider.margin).isSome →
          ∃ cause, fault = .configuration cause)) ∧
    -- so does the demand for another one
    (∀ around, around.provider.Lacks around.now account scope →
      ∃ fault, u.session.access.refresh around.provider around.now =
          (u.session.access, .error fault) ∧
        u.act c around .refresh = u ∧
        ((around.now.add? around.provider.margin).isSome →
          ∃ cause, fault = .configuration cause)) ∧
    -- after a rejected request that was alone, requests show what is handed out from then on
    (∀ around n path r more, u.stage n = .answered path (.response r) → r.status = 401 →
      (∀ m, m ≠ n → (u.stage m).underWay = false) →
      let v := u.act c around (.turn n)
      v.session.access = .start account scope ∧
        ∃ later, (v.run c more).session.sent = u.session.sent ++ later ∧
          ∀ earlier request rest, later = earlier ++ request :: rest →
            Sent c v more (u.session.sent ++ earlier) request) ∧
    -- a request that is made alone, and the requests of a fetch, are among those
    (∀ around n draft, (u.stage n).underWay = false →
      let made := (c.request around draft.url draft.params draft.headers draft.authorized).run
        u.session
      u.run c
          [(around, .start n draft), (around, .turn n), (around, .turn n), (around, .turn n)] =
        { u with session := made.1 }.setStage n (.ended made.2)) ∧
    (∀ (f : BookFetch) moves p, f.connection = c → (∀ n, (u.stage n).underWay = false) →
      f.run moves (.start u.session) = some p →
      ∃ more, BookFetch.Along moves more ∧ (u.run c more).session = p.session) := by
  intro t u
  have vouched : Vouched c t acts u := vouched_run c (quiet_start account scope) acts
  obtain ⟨held, access⟩ := access_run c t acts
  refine ⟨?_, ?_, ?_, ?_, ?_, ?_⟩
  · obtain ⟨later, sent, each⟩ := vouched.sent
    intro earlier request rest split
    exact each earlier request rest (sent.symm.trans split)
  · intro around n draft seen looked unusable lacks
    refine vouched.exists_fault looked unusable ?_
    rw [access]
    exact lacks
  · intro around lacks
    have lacks' : around.provider.Lacks around.now u.session.access.account
        u.session.access.scope := by
      rw [access]
      exact lacks
    obtain ⟨fault, handed, configuration⟩ := lacks'.exists_handed_error
    have refreshed : u.session.access.refresh around.provider around.now =
        (u.session.access, .error fault) := by
      rw [Access.refresh_eq, handed]
    refine ⟨fault, refreshed, ?_, configuration⟩
    simp only [act, refreshed]
  · intro around n path r more answered rejected alone v
    have quiet : v.Quiet := quiet_of_rejected answered rejected alone
    obtain ⟨later, sent, each⟩ := (vouched_run c quiet more).sent
    have turn : v = _ := act_turn_rejected c around answered rejected
    have kept : v.session.sent = u.session.sent := by
      rw [turn]
      rfl
    refine ⟨?_, later, kept ▸ sent, kept ▸ each⟩
    rw [turn]
    show u.session.access.drop = _
    rw [access]
    rfl
  · exact fun around n draft free => run_request around draft free
  · rintro f moves p rfl still run
    exact BookFetch.exists_acts still run

end Traffic

namespace Sample

/-- A request for the first page of the book. -/
def firstPage : Draft := fetch.draft 1 ⟨"markets/structures/7"⟩

/-- The credential that replaces the first one. -/
def replacement : Credential := { credential with accessToken := "renewed" }

/-- Surroundings in which a credential is handed out, and every request is rejected. -/
def rejecting (c : Credential) : Surroundings where
  provider := .held [c]
  now := now
  transport _ := .response ⟨401, [], ""⟩

/-- A request until its reply. -/
def asked (around : Surroundings) : List (Surroundings × Act) :=
  [(around, .start 0 firstPage), (around, .turn 0), (around, .turn 0)]

/-- After the first credential was rejected a request shows the one that replaces it. -/
theorem asked_anew :
    let u := (Traffic.start account Access.marketScope).run fetch.connection
      (asked (rejecting credential))
    let v := u.act fetch.connection (rejecting credential) (.turn 0)
    let request := fetch.connection.sealed firstPage path (some replacement)
    (v.run fetch.connection (asked (rejecting replacement))).session.sent =
        u.session.sent ++ [request] ∧
      Traffic.Sent fetch.connection v (asked (rejecting replacement)) u.session.sent request := by
  intro u v request
  have law := Traffic.usable_credentials_only fetch.connection account Access.marketScope
    (asked (rejecting credential))
  have answered : u.stage 0 = .answered path (.response ⟨401, [], ""⟩) := by
    with_unfolding_all rfl
  have alone (m : Nat) (other : m ≠ 0) : (u.stage m).underWay = false := by
    have kept : u.stage m = (Traffic.start account Access.marketScope).stage m := by
      simp only [u, asked, Traffic.run, List.foldl_cons, List.foldl_nil,
        Traffic.stage_turn_of_ne other, Traffic.stage_start_of_ne other]
    rw [kept]
    rfl
  obtain ⟨-, later, sent, each⟩ := law.2.2.2.1 (rejecting credential) 0 path ⟨401, [], ""⟩
    (asked (rejecting replacement)) answered rfl alone
  have run : (v.run fetch.connection (asked (rejecting replacement))).session.sent =
      u.session.sent ++ [request] := by
    with_unfolding_all rfl
  obtain rfl : later = [request] := List.append_cancel_left (sent.symm.trans run)
  have last := each [] request [] rfl
  rw [List.append_nil] at last
  exact ⟨run, last⟩

/-- Half a minute before the end of the representable years. -/
def atTheEnd : Surroundings :=
  { answering (fun _ => emptyPage "1") with
    now := ⟨dayCount * dayMicros - 30000000, by decide⟩ }

/-- There the credential has expired, but a fetch fails for another reason than that. -/
theorem end_of_years :
    atTheEnd.provider.Lacks atTheEnd.now account Access.marketScope ∧
      (fetch.connection.orders atTheEnd venue false).run ⟨access, []⟩ =
        (⟨access, []⟩, .error .overflow) := by
  constructor
  · rintro c given usable
    have same : c = credential := by
      have handed : atTheEnd.provider.credential? atTheEnd.now account = .ok (some credential) := by
        with_unfolding_all rfl
      rw [handed] at given
      exact (Option.some.inj (Except.ok.inj given)).symm
    have lasting := usable.lasting
    rw [same] at lasting
    revert lasting
    decide
  · with_unfolding_all rfl

end Sample

end OrderFlow
