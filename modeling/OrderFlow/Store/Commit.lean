import OrderFlow.Chunk
import OrderFlow.Order.Document
import OrderFlow.Store.Tables
import OrderFlow.Time.Stamp

/-!
# Committing a pass

A pass is written by a series of statements: one for the time or the document of the book that is
there, one for each chunk of rows, and one for the document that takes its place. A statement may
fail when others before it have been executed, because of what it is given or because the database
fails. `Work.atomically` runs them as one transaction, which leaves the
tables as they were if any statement or the commit behind the last one fails.
-/

namespace OrderFlow

/-- Statements on tables; what was written before a failure is still there after it. -/
abbrev Work (α : Type) := ExceptT Failure (StateM Tables) α

namespace Work

variable {α : Type}

/-- A failure of the database inside a transaction. -/
def broken : Failure := .persistence .transaction

/-- Work as a transaction: tables as they were if it fails. -/
def atomically (work : Work α) (t : Tables) : Tables × Except Failure α :=
  match work.run t with
  | (.ok a, after) => (after, .ok a)
  | (.error f, _) => (t, .error f)

/-- A step that does not look at the tables. -/
def lift (x : Except Failure α) : Work α :=
  ExceptT.mk (pure x)

/-- A failure unless a condition holds. -/
def require (condition : Bool) (failure : Failure) : Work Unit :=
  if condition then pure () else throw failure

/-- Statements one after the other and the commit behind the last one. The database fails in
front of the one numbered `fault`, the first statement being number zero. -/
def execute (fault : Option Nat) : List (Work Unit) → Work Unit
  | [] => require (fault != some 0) broken
  | work :: rest => do
    require (fault != some 0) broken
    work
    execute (fault.map (· - 1)) rest

end Work

namespace Tables

open Work

/-- The document of a book. -/
def documentOf (orders : List Order) : Value :=
  .arr (orders.map Order.toValue)

/-- A pass that finds the book of its venue unchanged, if there is one. -/
def keepsBook (t : Tables) (venue : VenueId) (unchanged : Bool) : Bool :=
  unchanged && (t.book? venue).isSome

/-- The time of an unchanged book is moved. One that is to be replaced is loaded. -/
def openBook (room : Room) (venue : VenueId) (now : Instant) (unchanged : Bool) : Work Unit := do
  require (decide (Cell.Fits venue.val)) .overflow
  let t ← get
  if t.keepsBook venue unchanged then set (t.touchBook venue now)
  else
    match t.book? venue with
    | some book => lift ((book.load room).map fun _ => ())
    | none => pure ()

/-- The document of the orders takes the place of a book that is not unchanged. It is made when all
other statements have been executed. -/
def replaceBook (venue : VenueId) (now : Instant) (orders : List Order) (unchanged : Bool) :
    Work Unit := do
  let t ← get
  if t.keepsBook venue unchanged then pure ()
  else
    require (decide (∀ o ∈ orders, o.Legible)) (.persistence .statement)
    set (t.putBook venue ⟨now, documentOf orders⟩)

/-- A row's key and figures fit into cells. -/
def fits (key : TradeKey) (f : DailyFigures) : Bool :=
  decide (Cell.Fits key.venue.val ∧ Cell.Fits key.item.val ∧ f.Fits)

/-- One statement: the figures of a chunk of rows, all computed before any is merged. -/
def mergeRows (now : Instant) (rows : List TradeRow) : Work Unit := do
  let entries ← Work.lift <| rows.mapM fun r => do return (r.key, ← DailyFigures.ofRow now r)
  require (entries.all fun e => fits e.1 e.2) .overflow
  modify fun t => entries.foldl (fun t e => t.mergeFigures e.1 e.2) t

/-- The statements for the rows of a pass. -/
def rowStatements (chunkSize : Int) (now : Instant) (rows : List TradeRow) : List (Work Unit) :=
  match chunks chunkSize rows with
  | .ok pieces => pieces.map (mergeRows now)
  | .error f => [throw f]

/-- All statements of a pass. -/
def statements (room : Room) (chunkSize : Int) (venue : VenueId) (now : Instant)
    (orders : List Order) (unchanged : Bool) (rows : List TradeRow) : List (Work Unit) :=
  openBook room venue now unchanged ::
    (rowStatements chunkSize now rows ++ [replaceBook venue now orders unchanged])

end Tables

/-- A store: its tables, unless they were never created, how many rows a statement takes, and the
room that there is for reading documents. -/
structure Store where
  tables : Option Tables
  chunkSize : Int
  room : Room

namespace Store

/-- The rows that a statement takes unless told otherwise. -/
def defaultChunkSize : Int := 500

/-- A store with empty tables. -/
def empty : Store := ⟨some .empty, defaultChunkSize, .standard⟩

/-- Everything one pass wrote, or nothing. -/
def commitUnder (fault : Option Nat) (s : Store) (venue : VenueId) (observedAt : Stamp)
    (orders : List Order) (unchanged : Bool) (rows : List TradeRow) :
    Store × Except Failure Unit :=
  match observedAt.utc?, s.tables with
  | none, _ => (s, .error .overflow)
  | some _, none => (s, .error Work.broken)
  | some now, some t =>
    let statements := Tables.statements s.room s.chunkSize venue now orders unchanged rows
    let (t, outcome) := (Work.execute fault statements).atomically t
    ({ s with tables := some t }, outcome)

/-- The same on a database that does not fail. -/
def commit (s : Store) (venue : VenueId) (observedAt : Stamp) (orders : List Order)
    (unchanged : Bool) (rows : List TradeRow) : Store × Except Failure Unit :=
  commitUnder none s venue observedAt orders unchanged rows

/-- A store with a document written as the book of a venue, whatever it holds. -/
def putDocument (s : Store) (venue : VenueId) (observedAt : Instant) (payload : Value) :
    Store × Except Failure Unit :=
  match s.tables with
  | none => (s, .error .database)
  | some t =>
    if Cell.Fits venue.val then
      ({ s with tables := some (t.putBook venue ⟨observedAt, payload⟩) }, .ok ())
    else (s, .error .overflow)

end Store

end OrderFlow
