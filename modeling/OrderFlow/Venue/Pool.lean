import OrderFlow.Venue.Pages

/-!
# Pages fetched side by side

The pages that follow the first one are fetched by several workers at once. They share the session:
while the request for one page is under way, another may be refused and drop the credential that
both have seen. A `Pool` is the state of such a fetch. In every move either the request for a page
takes its next step, or a worker takes up the next page, or the caller reads the next page that it
waits for. `BookFetch.run` makes moves in a given order; the moves that are open in a pool are those
for which `BookFetch.step` gives another one.

The caller reads pages in their order. It has all orders once it has read the last page. At the
first page that failed it gives up: no further page is taken up, and it is done when those under way
are over.
-/

namespace OrderFlow

open Exchange

/-- What a page gives: its orders and the count of pages. -/
abbrev PageOutcome := Except Failure (List Order × Nat)

/-- How far the request for a page is: it has not started, it has looked at the held credential, it
has a credential that it may use, it is answered, or it is over. -/
inductive PageStage
  | waiting
  | looked (url : Url) (seen : Option Credential)
  | allowed (url : Url) (credential : Credential)
  | answered (path : Url) (reply : Reply)
  | ended (outcome : PageOutcome)

namespace PageStage

/-- What a page has given. -/
def outcome? : PageStage → Option PageOutcome
  | ended outcome => some outcome
  | _ => none

/-- How many steps a request has made at least. -/
def progress : PageStage → Nat
  | waiting => 0
  | looked .. => 1
  | allowed .. => 2
  | answered .. => 3
  | ended .. => 4

end PageStage

/-- A fetch of the order book of a venue, and how many workers fetch the pages that follow. -/
structure BookFetch where
  connection : Connection
  venue : VenueId
  forceRefresh : Bool
  workers : Nat

namespace BookFetch

/-- The address of the order book below the version's path. -/
def url (f : BookFetch) : Except Failure Url :=
  (Connection.structuresPath.add ⟨Text.natText f.venue.val⟩).mapError .value

/-- What a request asks for. -/
def params (number : Nat) : List (String × String) :=
  [("page", Text.natText number)]

/-- The request for a page, at its address and with the credential that it shows. -/
def request (f : BookFetch) (number : Nat) (full : Url) (credential : Credential) : Request where
  url := full
  params := some (params number)
  headers := (Connection.defaultHeaders.setAll (Connection.pageHeaders f.forceRefresh)).set
    "Authorization" credential.header
  timeout := f.connection.timeout

/-- What the value and the headers of a reply give. -/
def content (f : BookFetch) (number : Nat) (body : Value) (headers : Headers) : PageOutcome := do
  let orders ← (Order.checkPage body).toExcept fun issues =>
    .fetch (.malformed number f.venue.val issues)
  return (orders, ← Connection.pageCount (headers.find? Connection.pageCountHeader))

/-- The next step of the request for a page, and the session after it. -/
def advance (f : BookFetch) (around : Surroundings) (number : Nat) (s : Session) :
    PageStage → Session × PageStage
  | .waiting =>
    match f.url with
    | .ok url => (s, .looked url s.access.held)
    | .error fault => (s, .ended (.error fault))
  | .looked url seen =>
    match s.access.confirm around.provider around.now seen with
    | (access, .ok credential) => ({ s with access }, .allowed url credential)
    | (access, .error fault) => ({ s with access }, .ended (.error fault))
  | .allowed url credential =>
    match f.connection.target url with
    | .ok (path, full) =>
      let request := f.request number full credential
      ({ s with sent := s.sent ++ [request] }, .answered path (around.transport request))
    | .error fault => (s, .ended (.error fault))
  | .answered path reply =>
    match (Connection.receive path reply).run s with
    | (s, .ok (body, headers)) => (s, .ended (f.content number body headers))
    | (s, .error fault) => (s, .ended (.error fault))
  | .ended outcome => (s, .ended outcome)

end BookFetch

/-- What the caller of a fetch does: it waits for the first page, it reads the pages that follow,
with the orders that it has so far, or it is done. -/
inductive Caller
  | first
  | reading (count next : Nat) (orders : List Order)
  | done (outcome : Except Failure (List Order))

namespace Caller

/-- The caller that has the orders of all pages before `next`. -/
def upTo (count next : Nat) (orders : List Order) : Caller :=
  if next ≤ count then reading count next orders else done (.ok orders)

/-- The caller once it has read the page that it waits for, unless that is not over. -/
def read (outcome? : Nat → Option PageOutcome) : Caller → Option Caller
  | first => (outcome? 1).map fun
    | .ok (orders, count) =>
      if Connection.maxFollowing < count - 1 then done (.error .overflow) else upTo count 2 orders
    | .error fault => done (.error fault)
  | reading count next orders => (outcome? next).map fun
    | .ok (more, _) => upTo count (next + 1) (orders ++ more)
    | .error fault => done (.error fault)
  | done _ => none

end Caller

/-- A fetch on its way: the session, how far every page is, the number below which pages were taken
up, and what the caller does. -/
structure Pool where
  session : Session
  stage : Nat → PageStage
  begun : Nat
  caller : Caller

namespace Pool

/-- A fetch that starts: the caller itself takes up the first page. -/
def start (s : Session) : Pool :=
  ⟨s, fun _ => .waiting, 2, .first⟩

/-- What the pages have given. -/
def outcome? (p : Pool) (number : Nat) : Option PageOutcome :=
  (p.stage number).outcome?

/-- A page under way: it was taken up and is not over. -/
def active (p : Pool) (number : Nat) : Bool :=
  decide (1 ≤ number ∧ number < p.begun) && (p.outcome? number).isNone

/-- How many workers have a page under way. -/
def busy (p : Pool) : Nat :=
  (List.range' 2 (p.begun - 2)).countP p.active

/-- A pool with the stage of a page changed. -/
def setStage (p : Pool) (number : Nat) (stage : PageStage) : Pool :=
  { p with stage := fun n => if n = number then stage else p.stage n }

/-- The fetch has ended: the caller is done, and no page is under way. -/
def Returns (p : Pool) (outcome : Except Failure (List Order)) : Prop :=
  p.caller = .done outcome ∧ ∀ number, p.active number = false

end Pool

/-- What may happen next in a pool. -/
inductive Move
  | turn (number : Nat)
  | take
  | read

namespace BookFetch

/-- A pool after a move, if the move is open. -/
def step (f : BookFetch) (around : Surroundings) : Move → Pool → Option Pool
  | .turn number, p =>
    if p.active number then
      let (session, stage) := f.advance around number p.session (p.stage number)
      some ({ p with session }.setStage number stage)
    else none
  | .take, p =>
    match p.caller with
    | .reading count .. =>
      if p.begun ≤ count ∧ p.busy < min f.workers (count - 1) then
        some { p with begun := p.begun + 1 }
      else none
    | _ => none
  | .read, p => (p.caller.read p.outcome?).map fun caller => { p with caller }

/-- A pool after several moves, each in its surroundings. -/
def run (f : BookFetch) : List (Surroundings × Move) → Pool → Option Pool
  | [], p => some p
  | (around, move) :: rest, p => (f.step around move p).bind (f.run rest)

end BookFetch

end OrderFlow
