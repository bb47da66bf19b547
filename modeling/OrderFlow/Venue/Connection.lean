import OrderFlow.Credential.Access
import OrderFlow.Settings.Basic
import OrderFlow.Value.Reader
import OrderFlow.Venue.Transport

/-!
# Connections

A connection sends the requests of one account. A request carries a credential that can be used
at the time; without one it fails and nothing is sent. A rejected credential is forgotten, so
that the next request asks for another one.
-/

namespace OrderFlow

/-- How an account reaches the venue: the address in front of all others, the path of the
interface's version, and how long a request may take. -/
structure Connection where
  base : Option Url
  version : Url
  timeout : Binary64

namespace Connection

/-- The connection of a collector's settings. Behind an adapter the base is left out. -/
def ofSettings (s : Settings) (adapted : Bool) : Connection :=
  ⟨if adapted then none else some s.baseUrl, s.apiVersion.addSlash, s.requestTimeout⟩

end Connection

/-- What surrounds a request: who hands out credentials, the time, and what answers. -/
structure Surroundings where
  provider : CredentialProvider
  now : Instant
  transport : Transport

/-- An account's access, and the requests that were sent. -/
structure Session where
  access : Access
  sent : List Request

/-- An exchange with the venue. What was sent before a failure has been sent. -/
abbrev Exchange (α : Type) := ExceptT Failure (StateM Session) α

namespace Exchange

variable {α : Type}

/-- A step that sends nothing. -/
def lift (x : Except Failure α) : Exchange α :=
  ExceptT.mk (pure x)

/-- A session after an exchange, and the outcome. -/
def run (exchange : Exchange α) (s : Session) : Session × Except Failure α :=
  let (outcome, s) := ExceptT.run exchange s
  (s, outcome)

/-- The outcome of an exchange as a value. -/
def settled (exchange : Exchange α) : Exchange (Except Failure α) :=
  ExceptT.mk do return .ok (← ExceptT.run exchange)

/-- The credential for a request: the held one while it is fresh, or another one. -/
def authorize (around : Surroundings) : Exchange Credential :=
  ExceptT.mk do
    let s ← get
    let (access, outcome) := s.access.authorize around.provider around.now
    set { s with access }
    return outcome

/-- A request is sent. -/
def send (around : Surroundings) (request : Request) : Exchange Reply := do
  modify fun s => { s with sent := s.sent ++ [request] }
  return around.transport request

/-- The held credential is forgotten. -/
def dropCredential : Exchange Unit :=
  modify fun s => { s with access := s.access.drop }

end Exchange

namespace Response

/-- The value of a body; one that is no document counts as an empty object. -/
def value (r : Response) : Except Failure Value :=
  match r.body.text.map (Document.read r.body.room) with
  | none => .error .undecodable
  | some (.ok v) => .ok v
  | some (.error (.stopped obstacle)) => .error obstacle.failure
  | some (.error .malformed) => .ok (.obj [])

end Response

namespace Connection

open Exchange

/-- What every request accepts. -/
def defaultHeaders : Headers := [("accept", "application/json")]

/-- The value of a reply to a request for `path` and its headers, or why it is none. -/
def receive (path : Url) : Reply → Exchange (Value × Headers)
  | .unreachable text => throw (.fetch (.transport path.text text))
  | .broken text => throw (.system text)
  | .response r => do
    if r.status = 401 then
      dropCredential
      throw (.fetch (.unauthorized path.text))
    if r.status = 403 then
      throw (.configuration (.forbidden (← get).access.account.val path.text))
    if 400 ≤ r.status then throw (.fetch (.refused path.text r.status))
    return (← lift r.value, r.headers)

/-- Where a request for an address below the version's path goes: as messages show it, and with
the base in front of it. -/
def target (c : Connection) (url : Url) : Except Failure (Url × Url) := do
  let path ← (c.version.add url).mapError .value
  match c.base with
  | some base => return (path, ← (base.add path).mapError .value)
  | none => return (path, path)

/-- A request for an address below the version's path. -/
def request (c : Connection) (around : Surroundings) (url : Url)
    (params : Option (List (String × String))) (headers : Headers) (authorized : Bool) :
    Exchange (Value × Headers) := do
  let headers := defaultHeaders.setAll headers
  let headers ←
    if authorized then pure (headers.set "Authorization" (← authorize around).header)
    else pure headers
  let (path, full) ← lift (c.target url)
  receive path (← send around ⟨full, params, headers, c.timeout⟩)

end Connection

end OrderFlow
