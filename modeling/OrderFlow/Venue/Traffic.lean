import OrderFlow.Venue.Connection

/-!
# Requests of one account

Many requests share an account's access: those of the pages of a book, one after the other or side
by side. While one has looked at the held credential and not yet used it, another may be rejected
and forget it, somebody may ask the provider for another one, the clock moves on, and the provider
has something else to hand out. `Traffic` is the state of all that. A request takes its steps in
turns, and every act has surroundings of its own.
-/

namespace OrderFlow

/-- A request that is to be made: where to, with which parameters and headers, and whether it has to
show a credential. -/
structure Draft where
  url : Url
  params : Option (List (String × String))
  headers : Headers
  authorized : Bool

namespace Draft

/-- The headers of a request, with the credential that it shows. -/
def signed (d : Draft) (shown : Option Credential) : Headers :=
  let headers := Connection.defaultHeaders.setAll d.headers
  match shown with
  | some credential => headers.set "Authorization" credential.header
  | none => headers

end Draft

/-- How far a request is: it has not started, it has looked at the held credential, it has the
credential that it shows, it is answered, or it is over. -/
inductive RequestStage
  | idle
  | looked (draft : Draft) (seen : Option Credential)
  | ready (draft : Draft) (shown : Option Credential)
  | answered (path : Url) (reply : Reply)
  | ended (outcome : Except Failure (Value × Headers))

namespace RequestStage

/-- A request that is under way. -/
def underWay : RequestStage → Bool
  | idle => false
  | ended _ => false
  | _ => true

end RequestStage

namespace Connection

/-- A request as it is sent. -/
def sealed (c : Connection) (draft : Draft) (full : Url) (shown : Option Credential) : Request :=
  ⟨full, draft.params, draft.signed shown, c.timeout⟩

/-- The next step of a request, and the session after it. -/
def advance (c : Connection) (around : Surroundings) (s : Session) :
    RequestStage → Session × RequestStage
  | .looked draft seen =>
    match s.access.confirm around.provider around.now seen with
    | (access, .ok credential) => ({ s with access }, .ready draft (some credential))
    | (access, .error fault) => ({ s with access }, .ended (.error fault))
  | .ready draft shown =>
    match c.target draft.url with
    | .ok (path, full) =>
      let request := c.sealed draft full shown
      ({ s with sent := s.sent ++ [request] }, .answered path (around.transport request))
    | .error fault => (s, .ended (.error fault))
  | .answered path reply =>
    let (s, outcome) := (receive path reply).run s
    (s, .ended outcome)
  | stage => (s, stage)

end Connection

/-- What may happen: the provider is asked for a credential, the held one is forgotten, a request
starts, or a request takes its next step. -/
inductive Act
  | refresh
  | forget
  | start (number : Nat) (draft : Draft)
  | turn (number : Nat)

/-- The session of an account, and how far its requests are. -/
structure Traffic where
  session : Session
  stage : Nat → RequestStage

namespace Traffic

/-- An account that has made no request and holds no credential. -/
def start (account : AccountId) (scope : String) : Traffic :=
  ⟨⟨.start account scope, []⟩, fun _ => .idle⟩

/-- Traffic with the stage of a request changed. -/
def setStage (t : Traffic) (number : Nat) (stage : RequestStage) : Traffic :=
  { t with stage := fun n => if n = number then stage else t.stage n }

/-- Traffic after an act. A request that starts looks at the held credential, unless it shows none;
one under way is not started again. -/
def act (c : Connection) (around : Surroundings) (t : Traffic) : Act → Traffic
  | .refresh =>
    { t with session.access := (t.session.access.refresh around.provider around.now).1 }
  | .forget => { t with session.access := t.session.access.drop }
  | .start number draft =>
    if (t.stage number).underWay then t
    else
      t.setStage number <|
        if draft.authorized then .looked draft t.session.access.held else .ready draft none
  | .turn number =>
    let (session, stage) := c.advance around t.session (t.stage number)
    { t with session := session }.setStage number stage

/-- Traffic after several acts, each in its surroundings. -/
def run (c : Connection) (acts : List (Surroundings × Act)) (t : Traffic) : Traffic :=
  acts.foldl (fun t e => t.act c e.1 e.2) t

end Traffic

end OrderFlow
