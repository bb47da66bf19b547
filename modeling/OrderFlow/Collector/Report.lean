import OrderFlow.Time.Stamp
import OrderFlow.Value.Basic

/-!
# Reports

What one pass did, and the table that shows it. The table has a title centred above it, a head
and one row; a cell that is wider than its column is cut and ends in an ellipsis.
-/

namespace OrderFlow

/-- What one pass did. -/
structure PassReport where
  observedAt : Stamp
  orderCount : Int
  keyCount : Int
  unchanged : Bool
  hadPrevious : Bool

namespace PassReport

/-- The title of the table. -/
def title : String := "Structure Order Collection"

/-- A column: its head, its cell and its width, or none for one as wide as its cell. -/
structure Column where
  head : String
  cell : String
  width : Option Nat

/-- The columns of a report. -/
def columns (r : PassReport) : List Column :=
  [⟨"Observed at", r.observedAt.text, none⟩,
   ⟨"Orders", Text.intText r.orderCount, some 10⟩,
   ⟨"Aggregate keys", Text.intText r.keyCount, some 14⟩,
   ⟨"Unchanged", Value.boolText r.unchanged, some 10⟩,
   ⟨"Had baseline", Value.boolText r.hadPrevious, some 12⟩]

namespace Column

/-- The width of the text of a column. -/
def size (c : Column) : Nat :=
  c.width.getD (max c.head.length c.cell.length)

/-- A text in a column, cut or filled up to its width. -/
def fit (c : Column) (s : String) : String :=
  if s.length ≤ c.size then s ++ String.ofList (List.replicate (c.size - s.length) ' ')
  else String.ofList (s.toList.take (c.size - 1)) ++ "…"

/-- The border above or below a column. -/
def rule (c : Column) (line : Char) : String :=
  String.ofList (List.replicate (c.size + 2) line)

end Column

/-- A border from its left end, its joints and its right end. -/
def border (cs : List Column) (left : String) (line : Char) (joint right : String) : String :=
  left ++ joint.intercalate (cs.map fun c => c.rule line) ++ right

/-- A row of texts between bars. -/
def cells (cs : List Column) (bar : String) (text : Column → String) : String :=
  bar ++ bar.intercalate (cs.map fun c => " " ++ c.fit (text c) ++ " ") ++ bar

/-- The width of the table. -/
def tableWidth (cs : List Column) : Nat :=
  cs.foldl (fun n c => n + c.size + 3) 1

/-- The lines of the table, without blanks at their ends. -/
def lines (r : PassReport) : List String :=
  let cs := r.columns
  let indent := (tableWidth cs - title.length) / 2
  [String.ofList (List.replicate indent ' ') ++ title,
   border cs "┏" '━' "┳" "┓",
   cells cs "┃" Column.head,
   border cs "┡" '━' "╇" "┩",
   cells cs "│" Column.cell,
   border cs "└" '─' "┴" "┘"]

end PassReport

end OrderFlow
