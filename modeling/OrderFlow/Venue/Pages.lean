import OrderFlow.Order.Document
import OrderFlow.Venue.Connection

/-!
# Pages of the order book

The order book of a venue comes in pages. The first page tells how many there are; the others
are asked for after it, each whatever becomes of those before. The book is complete or it is
not had at all: of several failures that of the lowest page counts.
-/

namespace OrderFlow

namespace Connection

open Exchange

/-- Where the order books of structures are. -/
def structuresPath : Url := ⟨"/markets/structures"⟩

/-- The header that tells the count of pages. -/
def pageCountHeader : String := "X-Pages"

/-- The count of pages that a header tells, one if it is absent. -/
def pageCount : Option String → Except Failure Nat
  | none => .ok 1
  | some text =>
    match readInteger text with
    | .ok n => if n < 1 then .error (.fetch (.pageCount text)) else .ok n.toNat
    | .error _ => .error (.fetch (.pageCount text))

/-- The headers of a request for pages. -/
def pageHeaders (forceRefresh : Bool) : Headers :=
  if forceRefresh then [("Cache-Control", "no-cache")] else []

/-- The orders of a page, and the count of pages. -/
def page (c : Connection) (around : Surroundings) (venue : VenueId) (forceRefresh : Bool)
    (number : Nat) : Exchange (List Order × Nat) := do
  let url ← lift ((structuresPath.add ⟨Text.natText venue.val⟩).mapError .value)
  let (body, headers) ←
    c.request around url (some [("page", Text.natText number)]) (pageHeaders forceRefresh) true
  let orders ← lift <| (Order.checkPage body).toExcept fun issues =>
    .fetch (.malformed number venue.val issues)
  return (orders, ← lift (pageCount (headers.find? pageCountHeader)))

/-- The most pages that may follow the first one. -/
def maxFollowing : Nat := 9223372036854775807

/-- The orders of `count` pages from a page on, each with what became of it. -/
def following (c : Connection) (around : Surroundings) (venue : VenueId) (forceRefresh : Bool)
    (number : Nat) : (count : Nat) → Exchange (List (Except Failure (List Order)))
  | 0 => return []
  | count + 1 => do
    let outcome ← settled (c.page around venue forceRefresh number)
    let rest ← following c around venue forceRefresh (number + 1) count
    return outcome.map (·.1) :: rest

/-- All orders of a venue, in the order of pages. -/
def orders (c : Connection) (around : Surroundings) (venue : VenueId) (forceRefresh : Bool) :
    Exchange (List Order) := do
  let (first, count) ← c.page around venue forceRefresh 1
  if maxFollowing < count - 1 then throw .overflow
  let rest ← c.following around venue forceRefresh 2 (count - 1)
  return first ++ (← lift (rest.mapM id)).flatten

end Connection

end OrderFlow
