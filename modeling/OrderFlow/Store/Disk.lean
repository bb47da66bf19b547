import OrderFlow.Store.Address
import OrderFlow.Store.Commit

/-!
# Disks

Where databases are between runs. A database is a file in a directory that has to be there, and
opening it creates the tables that it lacks. A database in memory is new each time and is not
kept.
-/

namespace OrderFlow

/-- The directories of a disk, and its databases by path. -/
structure Disk where
  directories : List String
  files : Keyed String Tables

namespace Disk

/-- One step from a directory, which is given by its segments from the last one on. -/
def descend (path : List (List Char)) (segment : List Char) : List (List Char) :=
  if segment = [] ∨ segment = ['.'] then path
  else if segment = ['.', '.'] then path.tail
  else segment :: path

/-- The directory and the file of a path. -/
def split (path : String) : String × String :=
  let cs := path.toList
  let segments := (cs.splitOn '/').foldl descend []
  let root := if cs.head? = some '/' then "/" else ""
  let text (segments : List (List Char)) : String :=
    root ++ String.ofList (['/'].intercalate segments.reverse)
  (text segments.tail, text segments)

/-- The store of a database. -/
def openStore (d : Disk) (address : DatabaseAddress) : Except Failure Store := do
  if address.backend ≠ DatabaseAddress.localBackend then throw (.persistence .tables)
  match address.file? with
  | none => return .empty
  | some path =>
    let (directory, file) := split path
    if d.directories.contains file || !d.directories.contains directory then
      throw (.persistence .tables)
    return { Store.empty with tables := some ((d.files.get? file).getD .empty) }

/-- A disk with the tables of a store written to its database. -/
def keep (d : Disk) (address : DatabaseAddress) (s : Store) : Disk :=
  match address.file?, s.tables with
  | some path, some tables => { d with files := d.files.put (split path).2 tables }
  | _, _ => d

end Disk

end OrderFlow
