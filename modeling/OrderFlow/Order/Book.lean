import OrderFlow.Order.Basic

/-!
# Order books

A book holds one order for each identifier. In the book of a list an identifier stands where it
first occurs and has its last entry. Two books are unchanged if they hold the same identifiers
with orders in the same state.
-/

namespace OrderFlow

/-- Orders with distinct identifiers. -/
abbrev Book := List Order

namespace Book

/-- A book with the entry of one identifier set. -/
def put (o : Order) : Book → Book
  | [] => [o]
  | p :: rest => if p.id = o.id then o :: rest else p :: put o rest

/-- The book of a list of orders. -/
def ofOrders (orders : List Order) : Book :=
  orders.foldl (fun book o => book.put o) []

/-- The order of an identifier. -/
def find? (book : Book) (id : OrderId) : Option Order :=
  List.find? (fun o => o.id = id) book

/-- An identifier with an order. -/
def has (book : Book) (id : OrderId) : Bool :=
  (book.find? id).isSome

/-- The identifiers of a book in their order. -/
def ids (book : Book) : List OrderId :=
  book.map (·.id)

/-- Two books between which nothing that matters changed. -/
def unchanged (previous current : Book) : Bool :=
  previous.length == current.length
    && current.all fun c =>
      match previous.find? c.id with
      | some p => p.sameState c
      | none => false

end Book

end OrderFlow
