import OrderFlow.Proofs.Credential.Access
import OrderFlow.Proofs.Order.Check
import OrderFlow.Proofs.Venue.Pages
import OrderFlow.Proofs.Venue.Pool

/-!
# Pages that are answered

What a reply gives depends on the reply and the account alone (`Connection.run_receive`), so that a
page has one outcome for each reply (`BookFetch.answer`). Where the reply to a page does not depend
on when and with which credential it is asked for, the pages that give orders in a run give those of
this outcome (`BookFetch.answer_of_run`), and all pages have it if a credential can always be had
(`BookFetch.outcome_of_run`).
-/

namespace OrderFlow

open Exchange

namespace Reply

/-- A reply by which the venue rejects a credential. -/
def rejects : Reply → Bool
  | response r => r.status = 401
  | _ => false

/-- The value and the headers that a reply gives to an account, or why it gives none. -/
def read (path : Url) (account : AccountId) : Reply → Except Failure (Value × Headers)
  | unreachable text => .error (.fetch (.transport path.text text))
  | broken text => .error (.system text)
  | response r =>
    if r.status = 401 then .error (.fetch (.unauthorized path.text))
    else if r.status = 403 then .error (.configuration (.forbidden account.val path.text))
    else if 400 ≤ r.status then .error (.fetch (.refused path.text r.status))
    else r.value.map fun v => (v, r.headers)

end Reply

/-- A reply is received as it reads, and a rejected credential is forgotten. -/
theorem Connection.run_receive (path : Url) (reply : Reply) (s : Session) :
    (receive path reply).run s =
      (if reply.rejects then { s with access := s.access.drop } else s,
        reply.read path s.access.account) := by
  cases reply with
  | unreachable text => rfl
  | broken text => rfl
  | response r =>
    unfold receive Reply.read Reply.rejects
    by_cases unauthorized : r.status = 401
    · simp only [unauthorized, if_true, decide_true]
      rfl
    by_cases forbidden : r.status = 403
    · simp only [unauthorized, if_pos forbidden, decide_false, Bool.false_eq_true]
      rfl
    by_cases refused : 400 ≤ r.status
    · simp only [unauthorized, forbidden, if_pos refused, if_false, decide_false,
        Bool.false_eq_true]
      rfl
    · simp only [unauthorized, forbidden, refused, if_false, decide_false, Bool.false_eq_true]
      cases r.value <;> rfl

theorem Reply.read_eq_ok_iff {path : Url} {account : AccountId} {reply : Reply} {body : Value}
    {headers : Headers} : reply.read path account = .ok (body, headers) ↔
      ∃ r, reply = .response r ∧ r.status < 400 ∧ r.value = .ok body ∧ r.headers = headers := by
  cases reply with
  | unreachable text => simp [read]
  | broken text => simp [read]
  | response r =>
    rw [read]
    constructor
    · intro h
      split at h
      · cases h
      · split at h
        · cases h
        · split at h
          · cases h
          · rename_i good
            obtain ⟨v, hv, pair⟩ := Outcome.map_eq_ok_iff.1 h
            cases pair
            exact ⟨r, rfl, Int.not_le.1 good, hv, rfl⟩
    · rintro ⟨_, same, good, hv, rfl⟩
      cases same
      rw [if_neg (by omega), if_neg (by omega), if_neg (by omega), hv]
      rfl

namespace BookFetch

variable {f : BookFetch} {around : Surroundings} {number count : Nat} {s : Session}
  {stage : PageStage} {orders : List Order} {p : Pool} {account : AccountId} {reply : Reply}

theorem content_eq_ok_iff {body : Value} {headers : Headers} :
    f.content number body headers = .ok (orders, count) ↔
      Order.checkPage body = .accepted orders ∧
        Connection.pageCount (headers.find? Connection.pageCountHeader) = .ok count := by
  rw [content, Outcome.bind_eq_ok_iff]
  constructor
  · rintro ⟨_, accepted, h⟩
    obtain ⟨_, told, h⟩ := Outcome.bind_eq_ok_iff.1 h
    cases h
    exact ⟨Checked.toExcept_eq_ok_iff.1 accepted, told⟩
  · rintro ⟨accepted, told⟩
    exact ⟨orders, Checked.toExcept_eq_ok_iff.2 accepted,
      Outcome.bind_eq_ok_iff.2 ⟨count, told, rfl⟩⟩

/-- What a page gives to an account whose request for it gets a certain reply. -/
def answer (f : BookFetch) (account : AccountId) (number : Nat) (reply : Reply) : PageOutcome := do
  let url ← f.url
  let (path, _) ← f.connection.target url
  let (body, headers) ← reply.read path account
  f.content number body headers

/-- A page whose request can be addressed gives what the reply to it does. -/
theorem answer_of_target (f : BookFetch) (account : AccountId) (number : Nat) (reply : Reply)
    {url path full : Url} (hurl : f.url = .ok url)
    (htarget : f.connection.target url = .ok (path, full)) :
    f.answer account number reply = reply.read path account >>= fun (body, headers) =>
      f.content number body headers := by
  rw [answer, hurl]
  show f.connection.target url >>= _ = _
  rw [htarget]
  rfl

/-- A page whose response has a good status gives what the value and the headers do. -/
theorem answer_of_value {r : Response} {body : Value}
    (addressed : ∃ url target, f.url = .ok url ∧ f.connection.target url = .ok target)
    (good : r.status < 400) (hv : r.value = .ok body) :
    f.answer account number (.response r) = f.content number body r.headers := by
  obtain ⟨url, ⟨path, full⟩, hurl, htarget⟩ := addressed
  have read : (Reply.response r).read path account = .ok (body, r.headers) :=
    Reply.read_eq_ok_iff.2 ⟨r, rfl, good, hv, rfl⟩
  rw [f.answer_of_target account number _ hurl htarget, read]
  rfl

/-- A page gives orders exactly if its request can be addressed and its response has a good status,
a list of orders that pass their check, and a good count of pages. -/
theorem answer_eq_ok_iff : f.answer account number reply = .ok (orders, count) ↔
    (∃ url target, f.url = .ok url ∧ f.connection.target url = .ok target) ∧
      ∃ r body, reply = .response r ∧ r.status < 400 ∧ r.value = .ok body ∧
        Order.checkPage body = .accepted orders ∧
        Connection.pageCount (r.headers.find? Connection.pageCountHeader) = .ok count := by
  constructor
  · intro h
    obtain ⟨url, hurl, h⟩ := Outcome.bind_eq_ok_iff.1 h
    obtain ⟨⟨path, full⟩, htarget, h⟩ := Outcome.bind_eq_ok_iff.1 h
    obtain ⟨⟨body, headers⟩, hread, h⟩ := Outcome.bind_eq_ok_iff.1 h
    obtain ⟨r, hr, good, hv, rfl⟩ := Reply.read_eq_ok_iff.1 hread
    obtain ⟨accepted, told⟩ := content_eq_ok_iff.1 h
    exact ⟨⟨url, _, hurl, htarget⟩, r, body, hr, good, hv, accepted, told⟩
  · rintro ⟨addressed, r, body, rfl, good, hv, accepted, told⟩
    rw [answer_of_value addressed good hv]
    exact content_eq_ok_iff.2 ⟨accepted, told⟩

/-- Surroundings in which the replies to a page are the same, whichever of the valid credentials
its request shows, and in which only valid ones are handed out. -/
structure Answers (f : BookFetch) (access : Access) (valid : Credential → Prop)
    (reply : Nat → Reply) (around : Surroundings) : Prop where
  given : ∀ c, access.handed around.provider around.now = .ok c → valid c
  same : ∀ url path full number c, f.url = .ok url → f.connection.target url = .ok (path, full) →
    valid c → around.transport (f.request number full c) = reply number

/-- Surroundings in which a credential can be had as well. -/
structure Serves (f : BookFetch) (access : Access) (valid : Credential → Prop)
    (reply : Nat → Reply) (around : Surroundings) : Prop
    extends f.Answers access valid reply around where
  hands : ∃ c, access.handed around.provider around.now = .ok c

/-- A session of the same account and scope, which holds a valid credential if it holds one. -/
structure Belongs (access : Access) (valid : Credential → Prop) (s : Session) : Prop where
  account : s.access.account = access.account
  scope : s.access.scope = access.scope
  held : ∀ c ∈ s.access.held, valid c

/-- A request for a page that gets a certain reply, or no credential for one of certain reasons. -/
def Gets (f : BookFetch) (access : Access) (valid : Credential → Prop) (denied : Failure → Prop)
    (reply : Nat → Reply) (number : Nat) : PageStage → Prop
  | .waiting => True
  | .looked url seen => f.url = .ok url ∧ ∀ c ∈ seen, valid c
  | .allowed url c => f.url = .ok url ∧ valid c
  | .answered path r => r = reply number ∧
      ∃ url full, f.url = .ok url ∧ f.connection.target url = .ok (path, full)
  | .ended outcome => outcome = f.answer access.account number (reply number) ∨
      ∃ fault, outcome = .error fault ∧ denied fault

variable {access : Access} {valid : Credential → Prop} {denied : Failure → Prop}
  {replies : Nat → Reply} {moves : List (Surroundings × Move)}

/-- Every step of a request leads towards what its page gives. -/
theorem gets_advance (answers : f.Answers access valid replies around)
    (denies : ∀ fault, (access.handed around.provider around.now = .error fault ∨
      ∃ c : Credential, c.isFresh (.ofInstant around.now) = .error fault) → denied fault)
    (session : Belongs access valid s) (h : f.Gets access valid denied replies number stage) :
    Belongs access valid (f.advance around number s stage).1 ∧
      f.Gets access valid denied replies number (f.advance around number s stage).2 := by
  cases stage with
  | waiting =>
    simp only [advance]
    cases hurl : f.url with
    | ok url => exact ⟨session, hurl, session.held⟩
    | error fault =>
      refine ⟨session, .inl ?_⟩
      rw [answer, hurl]
      rfl
  | looked url seen =>
    obtain ⟨hurl, hseen⟩ := h
    have handed := Access.handed_congr around.provider around.now session.account session.scope
    simp only [advance]
    obtain ⟨c, rfl, -, run⟩ | ⟨c, hc, run⟩ | ⟨fault, why, run⟩ :=
      s.access.confirm_cases around.provider around.now seen
    · rw [run]
      exact ⟨session, hurl, hseen c rfl⟩
    · rw [run]
      have validC := answers.given c (handed ▸ hc)
      refine ⟨⟨session.account, session.scope, fun other same => ?_⟩, hurl, validC⟩
      cases same
      exact validC
    · rw [run]
      refine ⟨session, .inr ⟨fault, rfl, denies fault ?_⟩⟩
      rw [handed] at why
      rcases why with none | ⟨c, -, hc⟩
      · exact .inl none
      · exact .inr ⟨c, hc⟩
  | allowed url c =>
    obtain ⟨hurl, validC⟩ := h
    simp only [advance]
    cases htarget : f.connection.target url with
    | ok target =>
      obtain ⟨path, full⟩ := target
      exact ⟨⟨session.account, session.scope, session.held⟩,
        answers.same url path full number c hurl htarget validC, url, full, hurl, htarget⟩
    | error fault =>
      refine ⟨session, .inl ?_⟩
      rw [answer, hurl]
      show _ = f.connection.target url >>= _
      rw [htarget]
      rfl
  | answered path r =>
    obtain ⟨rfl, url, full, hurl, htarget⟩ := h
    have dropped : Belongs access valid
        (if (replies number).rejects then { s with access := s.access.drop } else s) := by
      split
      · refine ⟨session.account, session.scope, ?_⟩
        rintro c ⟨⟩
      · exact session
    have gives := f.answer_of_target access.account number (replies number) hurl htarget
    simp only [advance, Connection.run_receive, session.account]
    cases hread : (replies number).read path access.account with
    | ok given =>
      refine ⟨dropped, .inl ?_⟩
      rw [gives, hread]
      rfl
    | error fault =>
      refine ⟨dropped, .inl ?_⟩
      rw [gives, hread]
      rfl
  | ended outcome => exact ⟨session, h⟩

/-- Pages that give orders in a run give what their replies say. -/
theorem answer_of_run (answers : ∀ move ∈ moves, f.Answers access valid replies move.1)
    (held : ∀ c ∈ access.held, valid c) (h : f.run moves (.start ⟨access, []⟩) = some p)
    {page : List Order × Nat} (gives : p.outcome? number = some (.ok page)) :
    f.answer access.account number (replies number) = .ok page := by
  obtain ⟨-, gets⟩ := run_stages (S := Belongs access valid)
    (Q := f.Gets access valid (fun _ => True) replies) (fun _ => trivial)
    (fun around number s stage answers session gets =>
      gets_advance answers (fun _ _ => trivial) session gets) answers h ⟨rfl, rfl, held⟩
  have got := gets number
  rw [PageStage.outcome?_eq_some_iff.1 gives] at got
  obtain same | ⟨fault, bad, -⟩ := got
  · exact same.symm
  · cases bad

/-- Where a credential can always be had, pages that are over in a run have given what their replies
say. -/
theorem outcome_of_run (serves : ∀ move ∈ moves, f.Serves access valid replies move.1)
    (held : ∀ c ∈ access.held, valid c) (h : f.run moves (.start ⟨access, []⟩) = some p)
    {outcome : PageOutcome} (gives : p.outcome? number = some outcome) :
    outcome = f.answer access.account number (replies number) := by
  have hands (around : Surroundings) (serves : f.Serves access valid replies around)
      (fault : Failure) : ¬ (access.handed around.provider around.now = .error fault ∨
        ∃ c : Credential, c.isFresh (.ofInstant around.now) = .error fault) := by
    obtain ⟨c, hc⟩ := serves.hands
    rintro (none | ⟨c', overflow⟩)
    · rw [hc] at none
      cases none
    · obtain ⟨fresh, hfresh⟩ := c'.exists_isFresh (Access.isSome_add?_of_handed hc)
      rw [hfresh] at overflow
      cases overflow
  obtain ⟨-, gets⟩ := run_stages (S := Belongs access valid)
    (Q := f.Gets access valid (fun _ => False) replies) (fun _ => trivial)
    (fun around number s stage serves session gets =>
      gets_advance serves.toAnswers (hands around serves) session gets) serves h ⟨rfl, rfl, held⟩
  have got := gets number
  rw [PageStage.outcome?_eq_some_iff.1 gives] at got
  obtain same | ⟨fault, -, none⟩ := got
  · exact same
  · cases none

end BookFetch

end OrderFlow
