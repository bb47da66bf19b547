import OrderFlow.Binary64.Basic
import OrderFlow.Text.Blank
import OrderFlow.Url
import OrderFlow.Value.Obstacle

/-!
# Requests and replies

What goes to the venue and what comes back. A request is answered by a response, or it does
not reach the venue, or the system fails below it.
-/

namespace OrderFlow

/-- The header fields of a message. -/
abbrev Headers := List (String × String)

namespace Headers

/-- Header fields with one field set. -/
def set (name value : String) : Headers → Headers
  | [] => [(name, value)]
  | (n, v) :: rest => if n = name then (n, value) :: rest else (n, v) :: set name value rest

/-- Header fields with others set one after the other. -/
def setAll (hs more : Headers) : Headers :=
  more.foldl (fun hs h => hs.set h.1 h.2) hs

/-- The last field of a name in capitals or small letters. -/
def find? (hs : Headers) (name : String) : Option String :=
  (hs.reverse.find? fun h => Text.lower h.1 = Text.lower name).map (·.2)

end Headers

/-- A request to the venue. -/
structure Request where
  url : Url
  params : Option (List (String × String))
  headers : Headers
  timeout : Binary64

/-- The body of a response: its text, unless the response names an encoding in which its bytes
cannot be read, and the room for reading a document from it. -/
structure Body where
  text : Option String
  room : Room

/-- A body with a text. -/
instance : Coe String Body :=
  ⟨fun text => ⟨some text, .standard⟩⟩

/-- A response of the venue. -/
structure Response where
  status : Int
  headers : Headers
  body : Body

/-- What becomes of a request. -/
inductive Reply
  | response (response : Response)
  | unreachable (text : String)
  | broken (text : String)

/-- What a request meets: how it is answered. -/
abbrev Transport := Request → Reply

end OrderFlow
