import OrderFlow.Proofs.Credential.Usable
import OrderFlow.Proofs.Venue.Reply
import OrderFlow.Venue.Traffic

/-!
# Where credentials come from

In the traffic of an account every credential is accounted for: the held one, those that requests
have looked at and those that they show were handed out before, and a request shows one that could
be used when it got it. `Vouched` says so of a run; it holds as long as nothing is held and no
request is under way at the start (`vouched_run`), since every act keeps it (`Vouched.concat`).
-/

namespace OrderFlow

namespace Headers

variable {hs : Headers} {name value v : String}

theorem map_fst_set (hs : Headers) (name value : String) :
    (hs.set name value).map (·.1) =
      if name ∈ hs.map (·.1) then hs.map (·.1) else hs.map (·.1) ++ [name] := by
  induction hs with
  | nil => rfl
  | cons h hs ih =>
    rw [set]
    by_cases same : h.1 = name
    · simp [same]
    · rw [if_neg same, List.map_cons, ih, List.map_cons]
      have other : name ≠ h.1 := fun eq => same eq.symm
      by_cases mem : name ∈ hs.map (·.1)
      · rw [if_pos mem, if_pos (List.mem_cons_of_mem _ mem)]
      · have new : name ∉ h.1 :: hs.map (·.1) := List.not_mem_cons_of_ne_of_not_mem other mem
        rw [if_neg mem, if_neg new]
        rfl

theorem nodup_set (distinct : (hs.map (·.1)).Nodup) (name value : String) :
    ((hs.set name value).map (·.1)).Nodup := by
  rw [map_fst_set]
  split
  · exact distinct
  · rename_i new
    rw [← List.concat_eq_append]
    exact distinct.concat new

theorem nodup_setAll (distinct : (hs.map (·.1)).Nodup) (more : Headers) :
    ((hs.setAll more).map (·.1)).Nodup := by
  induction more generalizing hs with
  | nil => exact distinct
  | cons h more ih => exact ih (nodup_set distinct h.1 h.2)

/-- A field that is set has the value that it was set to, if there were never two of its name. -/
theorem mem_set_iff (distinct : (hs.map (·.1)).Nodup) :
    (name, v) ∈ hs.set name value ↔ v = value := by
  induction hs with
  | nil => simp [set]
  | cons h hs ih =>
    obtain ⟨absent, distinct⟩ := List.nodup_cons.1 distinct
    rw [set]
    split
    · rename_i same
      have missing : (name, v) ∉ hs := fun mem => absent (List.mem_map.2 ⟨_, mem, same.symm⟩)
      simp [missing, same]
    · rename_i other
      have another : (name, v) ≠ (h.1, h.2) := fun eq => other (congrArg Prod.fst eq).symm
      rw [List.mem_cons, or_iff_right another]
      exact ih distinct

end Headers

namespace Connection

variable {c : Connection} {around : Surroundings} {s s' : Session} {stage stage' : RequestStage}

/-- A request that shows a credential has one authorization field. -/
theorem mem_headers_sealed (c : Connection) (draft : Draft) (full : Url) (credential : Credential)
    (value : String) : ("Authorization", value) ∈ (c.sealed draft full (some credential)).headers ↔
      value = "Bearer " ++ credential.accessToken := by
  have distinct : (defaultHeaders.map (·.1)).Nodup := List.nodup_singleton "accept"
  exact Headers.mem_set_iff (Headers.nodup_setAll distinct draft.headers)

/-- What the next step of a request can do: it keeps the credential that it has looked at, it asks
for another one, it is sent, it ends, or it is not under way. -/
inductive Advances (c : Connection) (around : Surroundings) (s : Session) :
    RequestStage → Session → RequestStage → Prop
  | keeps {draft : Draft} {credential : Credential}
      (fresh : credential.isFresh (.ofInstant around.now) = .ok true) :
      Advances c around s (.looked draft (some credential)) s (.ready draft (some credential))
  | asks {draft : Draft} {seen : Option Credential} {credential : Credential}
      (stale : ∀ old ∈ seen, old.isFresh (.ofInstant around.now) = .ok false)
      (handed : s.access.handed around.provider around.now = .ok credential) :
      Advances c around s (.looked draft seen)
        { s with access.held := some credential } (.ready draft (some credential))
  | sends {draft : Draft} {shown : Option Credential} (path full : Url) :
      Advances c around s (.ready draft shown)
        { s with sent := s.sent ++ [c.sealed draft full shown] }
        (.answered path (around.transport (c.sealed draft full shown)))
  | ends {stage : RequestStage} {access : Access} (outcome : Except Failure (Value × Headers))
      (kept : access = s.access ∨ access = s.access.drop) :
      Advances c around s stage { s with access } (.ended outcome)
  | rests {stage : RequestStage} (still : stage.underWay = false) :
      Advances c around s stage s stage

theorem advances_advance (c : Connection) (around : Surroundings) (s : Session)
    (stage : RequestStage) :
    c.Advances around s stage (c.advance around s stage).1 (c.advance around s stage).2 := by
  cases stage with
  | idle => exact .rests rfl
  | looked draft seen =>
    obtain ⟨credential, rfl, fresh, confirmed⟩ | ⟨credential, fault, rfl, unknown, confirmed⟩ |
      ⟨stale, confirmed⟩ := s.access.confirm_eq around.provider around.now seen
    · simp only [advance, confirmed]
      exact .keeps fresh
    · simp only [advance, confirmed]
      exact .ends _ (.inl rfl)
    · rw [Access.refresh_eq] at confirmed
      cases handed : s.access.handed around.provider around.now with
      | ok credential =>
        rw [handed] at confirmed
        simp only [advance, confirmed]
        exact .asks stale handed
      | error fault =>
        rw [handed] at confirmed
        simp only [advance, confirmed]
        exact .ends _ (.inl rfl)
  | ready draft shown =>
    simp only [advance]
    cases c.target draft.url with
    | ok target => exact .sends target.1 target.2
    | error fault => exact .ends _ (.inl rfl)
  | answered path reply =>
    simp only [advance, run_receive]
    split
    · exact .ends _ (.inr rfl)
    · exact .ends _ (.inl rfl)
  | ended outcome => exact .rests rfl

theorem Advances.access (h : c.Advances around s stage s' stage') :
    ∃ held, s'.access = { s.access with held } := by
  cases h with
  | keeps => exact ⟨_, rfl⟩
  | asks => exact ⟨_, rfl⟩
  | sends => exact ⟨_, rfl⟩
  | ends _ kept =>
    rcases kept with rfl | rfl
    · exact ⟨_, rfl⟩
    · exact ⟨_, rfl⟩
  | rests => exact ⟨_, rfl⟩

end Connection

namespace Traffic

variable {c : Connection} {t t' u : Traffic} {acts : List (Surroundings × Act)} {n m : Nat}
  {draft : Draft} {seen shown : Option Credential} {credential : Credential} {act : Act}
  {around : Surroundings} {request : Request} {stage : RequestStage}

theorem stage_setStage_self (t : Traffic) (n : Nat) (stage : RequestStage) :
    (t.setStage n stage).stage n = stage :=
  if_pos rfl

theorem stage_setStage_of_ne (h : m ≠ n) (t : Traffic) (stage : RequestStage) :
    (t.setStage n stage).stage m = t.stage m :=
  if_neg h

theorem run_append (c : Connection) (t : Traffic) (acts more : List (Surroundings × Act)) :
    t.run c (acts ++ more) = (t.run c acts).run c more :=
  List.foldl_append

theorem run_concat (c : Connection) (t : Traffic) (acts : List (Surroundings × Act))
    (e : Surroundings × Act) : t.run c (acts ++ [e]) = (t.run c acts).act c e.1 e.2 :=
  run_append c t acts [e]

/-! ## What an account does not change -/

/-- An act may change what an account holds, but not the account or the scope that it needs. -/
theorem access_act (c : Connection) (around : Surroundings) (t : Traffic) (act : Act) :
    ∃ held, (t.act c around act).session.access = { t.session.access with held } := by
  cases act with
  | refresh =>
    simp only [Traffic.act, Access.refresh_eq]
    split
    · exact ⟨_, rfl⟩
    · exact ⟨_, rfl⟩
  | forget => exact ⟨_, rfl⟩
  | start n draft =>
    simp only [Traffic.act]
    split
    · exact ⟨_, rfl⟩
    · exact ⟨_, rfl⟩
  | turn n => exact (c.advances_advance around t.session (t.stage n)).access

theorem access_run (c : Connection) (t : Traffic) (acts : List (Surroundings × Act)) :
    ∃ held, (t.run c acts).session.access = { t.session.access with held } := by
  induction acts using List.reverseRecOn with
  | nil => exact ⟨_, rfl⟩
  | append_singleton acts e ih =>
    obtain ⟨held, before⟩ := ih
    obtain ⟨held', after⟩ := access_act c e.1 (t.run c acts) e.2
    rw [run_concat, after, before]
    exact ⟨held', rfl⟩

/-! ## What is accounted for -/

/-- An act in which the provider is asked for a credential. -/
inductive Asks (around : Surroundings) (t : Traffic) : Act → Prop
  | refresh : Asks around t .refresh
  | turn {n : Nat} {draft : Draft} {seen : Option Credential}
      (looked : t.stage n = .looked draft seen)
      (stale : ∀ old ∈ seen, old.isFresh (.ofInstant around.now) = .ok false) :
      Asks around t (.turn n)

/-- A credential that the provider handed out to the account in the course of a run, and that could
be used at the time. -/
def HandedOut (c : Connection) (t : Traffic) (acts : List (Surroundings × Act))
    (credential : Credential) : Prop :=
  ∃ before around act after, acts = before ++ (around, act) :: after ∧
    (t.run c before).Asks around act ∧
    around.provider.credential? around.now t.session.access.account = .ok (some credential) ∧
    credential.Usable t.session.access.scope around.now

/-- A request that has got its credential in the course of a run, and has not gone on since. The
credential could be used at that time, and had been handed out by then. -/
def Confirmed (c : Connection) (t : Traffic) (acts : List (Surroundings × Act)) (n : Nat)
    (draft : Draft) (credential : Credential) : Prop :=
  ∃ before around after, acts = before ++ (around, .turn n) :: after ∧
    (∀ e ∈ after, e.2 ≠ .turn n) ∧
    (t.run c (before ++ [(around, .turn n)])).stage n = .ready draft (some credential) ∧
    credential.Usable t.session.access.scope around.now ∧
    HandedOut c t (before ++ [(around, .turn n)]) credential

/-- What a request sends after a run if it has got a credential. -/
def Shows (c : Connection) (t : Traffic) (acts : List (Surroundings × Act)) (n : Nat)
    (request : Request) (credential : Credential) : Prop :=
  ∃ draft full, Confirmed c t acts n draft credential ∧
    request = c.sealed draft full (some credential) ∧
    ∀ value, ("Authorization", value) ∈ request.headers ↔
      value = "Bearer " ++ credential.accessToken

/-- What a request sends after a run if it was made without having to show a credential. -/
def Unchecked (c : Connection) (t : Traffic) (acts : List (Surroundings × Act)) (n : Nat)
    (request : Request) : Prop :=
  ∃ draft full, (t.run c acts).stage n = .ready draft none ∧ draft.authorized = false ∧
    request = c.sealed draft full none

/-- A request that was sent in a turn of the run, after those that were sent before it. -/
def Sent (c : Connection) (t : Traffic) (acts : List (Surroundings × Act)) (earlier : List Request)
    (request : Request) : Prop :=
  ∃ before around after n, acts = before ++ (around, .turn n) :: after ∧
    (t.run c before).session.sent = earlier ∧
    (t.run c (before ++ [(around, .turn n)])).session.sent = earlier ++ [request] ∧
    ((∃ credential, Shows c t before n request credential) ∨ Unchecked c t before n request)

/-- What a request on its way has is accounted for. -/
def Accounted (c : Connection) (t : Traffic) (acts : List (Surroundings × Act)) (n : Nat) :
    RequestStage → Prop
  | .looked draft seen =>
    draft.authorized = true ∧ ∀ credential ∈ seen, HandedOut c t acts credential
  | .ready draft (some credential) => Confirmed c t acts n draft credential
  | .ready draft none => draft.authorized = false
  | _ => True

theorem HandedOut.concat (h : HandedOut c t acts credential) (e : Surroundings × Act) :
    HandedOut c t (acts ++ [e]) credential := by
  obtain ⟨before, around, act, after, rfl, asks⟩ := h
  exact ⟨before, around, act, after ++ [e], by simp, asks⟩

theorem Confirmed.concat (h : Confirmed c t acts n draft credential) {e : Surroundings × Act}
    (other : e.2 ≠ .turn n) : Confirmed c t (acts ++ [e]) n draft credential := by
  obtain ⟨before, around, after, rfl, last, rest⟩ := h
  refine ⟨before, around, after ++ [e], by simp, ?_, rest⟩
  intro d mem
  rcases List.mem_append.1 mem with mem | mem
  · exact last d mem
  · exact List.mem_singleton.1 mem ▸ other

theorem Sent.concat {earlier : List Request} (h : Sent c t acts earlier request)
    (e : Surroundings × Act) : Sent c t (acts ++ [e]) earlier request := by
  obtain ⟨before, around, after, n, rfl, rest⟩ := h
  exact ⟨before, around, after ++ [e], n, by simp, rest⟩

theorem Accounted.concat (h : Accounted c t acts n stage) {e : Surroundings × Act}
    (other : e.2 ≠ .turn n) : Accounted c t (acts ++ [e]) n stage := by
  match stage, h with
  | .looked _ _, ⟨authorized, seen⟩ => exact ⟨authorized, fun d mem => (seen d mem).concat e⟩
  | .ready _ (some _), confirmed => exact Confirmed.concat confirmed other
  | .ready _ none, unchecked => exact unchecked
  | .idle, _ => trivial
  | .answered _ _, _ => trivial
  | .ended _, _ => trivial

/-- What is handed out in an act after a run. -/
theorem handedOut_concat (asks : (t.run c acts).Asks around act)
    (handed : (t.run c acts).session.access.handed around.provider around.now = .ok credential) :
    HandedOut c t (acts ++ [(around, act)]) credential := by
  obtain ⟨held, same⟩ := access_run c t acts
  obtain ⟨given, usable, -⟩ := Access.handed_eq_ok_iff.1 handed
  rw [same] at given usable
  exact ⟨acts, around, act, [], rfl, asks, given, usable⟩

/-- A credential that was handed out can be used while it is fresh. -/
theorem HandedOut.usable (h : HandedOut c t acts credential) {now : Instant}
    (fresh : credential.isFresh (.ofInstant now) = .ok true) :
    credential.Usable t.session.access.scope now := by
  obtain ⟨_, _, _, _, -, -, -, scope, refreshable, -⟩ := h
  exact ⟨scope, refreshable, of_decide_eq_true (Credential.isFresh_eq_ok_iff.1 fresh).2.symm⟩

/-! ## What every run accounts for -/

/-- Traffic after a run from which everything is accounted for. -/
structure Vouched (c : Connection) (t : Traffic) (acts : List (Surroundings × Act)) (u : Traffic) :
    Prop where
  held : ∀ credential ∈ u.session.access.held, HandedOut c t acts credential
  stage : ∀ n, Accounted c t acts n (u.stage n)
  sent : ∃ later, u.session.sent = t.session.sent ++ later ∧
    ∀ done request rest, later = done ++ request :: rest →
      Sent c t acts (t.session.sent ++ done) request

/-- Nothing is held, and no request is under way. -/
structure Quiet (t : Traffic) : Prop where
  held : t.session.access.held = none
  still : ∀ n, (t.stage n).underWay = false

theorem accounted_of_still (still : stage.underWay = false) : Accounted c t acts n stage := by
  cases stage with
  | idle => trivial
  | looked => cases still
  | ready => cases still
  | answered => cases still
  | ended => trivial

theorem Quiet.vouched (quiet : t.Quiet) : Vouched c t [] t where
  held := by
    rw [quiet.held]
    rintro _ ⟨⟩
  stage n := accounted_of_still (quiet.still n)
  sent := ⟨[], (List.append_nil _).symm, fun _ _ _ split => by simp at split⟩

/-- What is accounted for is so after one more act, if what the act changes is. -/
theorem Vouched.next (h : Vouched c t acts t') (e : Surroundings × Act)
    (held : u.session.access.held = none ∨ u.session.access.held = t'.session.access.held ∨
      ∃ credential, u.session.access.held = some credential ∧
        HandedOut c t (acts ++ [e]) credential)
    (stage : ∀ n, u.stage n = t'.stage n ∧ e.2 ≠ .turn n ∨
      Accounted c t (acts ++ [e]) n (u.stage n))
    (sent : u.session.sent = t'.session.sent ∨ ∃ request,
      u.session.sent = t'.session.sent ++ [request] ∧
        Sent c t (acts ++ [e]) t'.session.sent request) :
    Vouched c t (acts ++ [e]) u where
  held credential mem := by
    rcases held with none | same | ⟨new, some, handed⟩
    · rw [none] at mem
      cases mem
    · exact (h.held credential (same ▸ mem)).concat e
    · rw [some] at mem
      cases mem
      exact handed
  stage n := by
    rcases stage n with ⟨same, other⟩ | accounted
    · exact same ▸ (h.stage n).concat other
    · exact accounted
  sent := by
    obtain ⟨later, before, each⟩ := h.sent
    rcases sent with same | ⟨new, same, own⟩
    · exact ⟨later, same.trans before, fun done request rest split =>
        (each done request rest split).concat e⟩
    · refine ⟨later ++ [new], by rw [same, before, List.append_assoc],
        fun done request rest split => ?_⟩
      rcases List.eq_nil_or_concat rest with rfl | ⟨rest, last, rfl⟩
      · obtain ⟨rfl, last⟩ := List.append_inj' split rfl
        cases last
        exact before ▸ own
      · have split : later ++ [new] = (done ++ request :: rest) ++ [last] := by
          rw [split, List.concat_eq_append, List.append_assoc, List.cons_append]
        exact (each done request rest (List.append_inj' split rfl).1).concat e

/-- What the stages of requests have is accounted for after an act that changes one of them. -/
theorem accounted_setStage {e : Surroundings × Act} (own : Accounted c t (acts ++ [e]) n stage)
    (others : ∀ m, m ≠ n → e.2 ≠ .turn m) (u : Traffic) (m : Nat) :
    (u.setStage n stage).stage m = u.stage m ∧ e.2 ≠ .turn m ∨
      Accounted c t (acts ++ [e]) m ((u.setStage n stage).stage m) := by
  by_cases same : m = n
  · subst same
    rw [stage_setStage_self]
    exact .inr own
  · exact .inl ⟨stage_setStage_of_ne same u stage, others m same⟩

/-- Turns keep account. -/
theorem Vouched.turn (h : Vouched c t acts (t.run c acts)) (around : Surroundings) (n : Nat) :
    Vouched c t (acts ++ [(around, .turn n)]) ((t.run c acts).act c around (.turn n)) := by
  have others (m : Nat) (other : m ≠ n) : Act.turn n ≠ Act.turn m := by
    rintro ⟨⟩
    exact other rfl
  have step := c.advances_advance around (t.run c acts).session ((t.run c acts).stage n)
  have after : (t.run c (acts ++ [(around, .turn n)])).stage n =
      (c.advance around (t.run c acts).session ((t.run c acts).stage n)).2 := by
    rw [run_concat]
    exact stage_setStage_self _ _ _
  have sent : (t.run c (acts ++ [(around, .turn n)])).session.sent =
      (c.advance around (t.run c acts).session ((t.run c acts).stage n)).1.sent := by
    rw [run_concat]
    rfl
  have before := h.stage n
  have stages {stage : RequestStage}
      (own : Accounted c t (acts ++ [(around, .turn n)]) n stage) :=
    accounted_setStage own others (t.run c acts)
  show Vouched c t _ (Traffic.setStage { t.run c acts with
    session := (c.advance around (t.run c acts).session ((t.run c acts).stage n)).1 } n
      (c.advance around (t.run c acts).session ((t.run c acts).stage n)).2)
  generalize hstage : (t.run c acts).stage n = stage at *
  generalize (c.advance around (t.run c acts).session stage).1 = s,
    (c.advance around (t.run c acts).session stage).2 = stage' at *
  cases step with
  | keeps fresh =>
    have handed := before.2 _ rfl
    exact h.next _ (.inr (.inl rfl)) (stages ⟨acts, around, [], rfl, (by rintro _ ⟨⟩), after,
      handed.usable fresh, handed.concat _⟩) (.inl rfl)
  | asks stale handed =>
    have new := handedOut_concat (.turn hstage stale) handed
    obtain ⟨held, same⟩ := access_run c t acts
    have usable := (Access.handed_eq_ok_iff.1 handed).2.1
    rw [same] at usable
    exact h.next _ (.inr (.inr ⟨_, rfl, new⟩)) (stages ⟨acts, around, [], rfl, (by rintro _ ⟨⟩),
      after, usable, new⟩) (.inl rfl)
  | @sends draft shown path full =>
    refine h.next _ (.inr (.inl rfl)) (stages trivial)
      (.inr ⟨_, rfl, acts, around, [], n, rfl, rfl, sent, ?_⟩)
    cases shown with
    | some credential =>
      exact .inl ⟨credential, draft, full, before, rfl, c.mem_headers_sealed draft full credential⟩
    | none => exact .inr ⟨draft, full, hstage, before, rfl⟩
  | ends outcome kept =>
    rcases kept with rfl | rfl
    · exact h.next _ (.inr (.inl rfl)) (stages trivial) (.inl rfl)
    · exact h.next _ (.inl rfl) (stages trivial) (.inl rfl)
  | rests still => exact h.next _ (.inr (.inl rfl)) (stages (accounted_of_still still)) (.inl rfl)

/-- Every act keeps account. -/
theorem Vouched.concat (h : Vouched c t acts (t.run c acts)) (e : Surroundings × Act) :
    Vouched c t (acts ++ [e]) (t.run c (acts ++ [e])) := by
  rw [run_concat]
  obtain ⟨around, act⟩ := e
  cases act with
  | refresh =>
    simp only [Traffic.act, Access.refresh_eq]
    cases handed : (t.run c acts).session.access.handed around.provider around.now with
    | ok credential =>
      have new := handedOut_concat .refresh handed
      exact h.next _ (.inr (.inr ⟨_, rfl, new⟩)) (fun _ => .inl ⟨rfl, nofun⟩) (.inl rfl)
    | error fault => exact h.next _ (.inr (.inl rfl)) (fun _ => .inl ⟨rfl, nofun⟩) (.inl rfl)
  | forget => exact h.next _ (.inl rfl) (fun _ => .inl ⟨rfl, nofun⟩) (.inl rfl)
  | start n draft =>
    simp only [Traffic.act]
    split
    · exact h.next _ (.inr (.inl rfl)) (fun _ => .inl ⟨rfl, nofun⟩) (.inl rfl)
    · refine h.next _ (.inr (.inl rfl))
        (accounted_setStage ?_ (fun _ _ => Act.noConfusion) _) (.inl rfl)
      cases authorized : draft.authorized with
      | true => exact ⟨authorized, fun d mem => (h.held d mem).concat _⟩
      | false => exact authorized
  | turn n => exact h.turn around n

/-- Every run keeps account. -/
theorem vouched_run (c : Connection) (quiet : t.Quiet) (acts : List (Surroundings × Act)) :
    Vouched c t acts (t.run c acts) := by
  induction acts using List.reverseRecOn with
  | nil => exact quiet.vouched
  | append_singleton acts e ih => exact ih.concat e

end Traffic

end OrderFlow
