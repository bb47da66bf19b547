import OrderFlow.Identifier

/-!
# Addresses of databases

An address names a backend, behind an optional plus sign a dialect, then a server with a user
and a socket number, and a database. The store works with a file or with memory, so that its
address names no server.
-/

namespace OrderFlow

/-- The parts of an address that the store looks at. -/
structure DatabaseAddress where
  backend : String
  namesServer : Bool
  path : Option String
deriving DecidableEq

namespace DatabaseAddress

/-- A character of a backend's name; all characters beyond ASCII count as letters. -/
def isNameChar (c : Char) : Bool :=
  c.isAlphanum || c == '_' || c == '+' || 127 < c.toNat

/-- A user and a password before the last sign that ends them, and what follows. -/
def splitUser (cs : List Char) : List Char × List Char :=
  let run := cs.takeWhile fun c => c ≠ ':' && c ≠ '/'
  let rest := cs.drop run.length
  let password := rest.takeWhile (· ≠ '@')
  if rest.head? = some ':' ∧ password.length < rest.length then
    (run ++ password.drop 1, rest.drop (password.length + 1))
  else
    let tail := (run.reverse.takeWhile (· ≠ '@')).reverse
    if tail.length < run.length then (run.take (run.length - tail.length - 1), tail ++ rest)
    else ([], cs)

/-- A host, which may stand in brackets, and what follows. -/
def splitHost (cs : List Char) : List Char × List Char :=
  let run := cs.takeWhile fun c => c ≠ '/' && c ≠ '?'
  let inside := (run.reverse.dropWhile (· ≠ ']')).reverse
  if cs.head? = some '[' ∧ 2 < inside.length then (inside, cs.drop inside.length)
  else
    let host := run.takeWhile (· ≠ ':')
    (host, cs.drop host.length)

/-- A socket number behind a colon, which is an integer unless it is empty, and what follows. -/
def splitSocket (cs : List Char) : Except Failure (Bool × List Char) :=
  match cs with
  | ':' :: rest =>
    let digits := rest.takeWhile fun c => c ≠ '/' && c ≠ '?'
    if digits.isEmpty then .ok (false, rest)
    else
      match readInteger (String.ofList digits) with
      | .ok n => .ok (n ≠ 0, rest.drop digits.length)
      | .error fault => .error (.value fault)
  | _ => .ok (false, cs)

/-- The address that a text writes. What follows the database is not looked at. -/
def read (s : String) : Except Failure DatabaseAddress := do
  let name := s.toList.takeWhile isNameChar
  let rest := s.toList.drop name.length
  if name.isEmpty || rest.take 3 ≠ "://".toList then throw .databaseAddress
  let (user, rest) := splitUser (rest.drop 3)
  let (host, rest) := splitHost rest
  let (hasSocket, rest) ← splitSocket rest
  let path := match rest with
    | '/' :: path => some (String.ofList (path.takeWhile (· ≠ '?')))
    | _ => none
  return ⟨String.ofList (name.takeWhile (· ≠ '+')),
    !user.isEmpty || !host.isEmpty || hasSocket, path⟩

/-- The backend that keeps its tables in a file or in memory. -/
def localBackend : String := "sqlite"

/-- The backend that keeps its tables on a server. -/
def serverBackend : String := "postgresql"

/-- The path of a database in memory. -/
def memoryPath : String := ":memory:"

/-- The address of a supported database. -/
def check (s : String) : Except Failure DatabaseAddress := do
  let address ← read s
  if address.backend ≠ localBackend ∧ address.backend ≠ serverBackend then
    throw (.persistence (.backend address.backend))
  if address.backend = localBackend ∧ address.namesServer then throw .databaseAddress
  return address

/-- The file of a database; one in memory has none. -/
def file? (a : DatabaseAddress) : Option String :=
  a.path.filter fun path => !path.isEmpty && path ≠ memoryPath

end DatabaseAddress

end OrderFlow
