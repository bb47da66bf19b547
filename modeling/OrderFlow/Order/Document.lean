import OrderFlow.Check.Scalar
import OrderFlow.Check.Time
import OrderFlow.Order.Basic
import OrderFlow.Value.Obstacle

/-!
# Orders as documents

`Order.check` reads an order from the record that the venue sends, `Order.toValue` writes the
record that the store keeps. Prices are written as texts and instants with the mark of UTC. A
record can be written if its integers are short enough.
-/

namespace OrderFlow.Order

open Checked

/-- An order from its parts as they were checked. -/
def ofParts (id : OrderId) (item : ItemId) (isBuy : Bool) (price : Price)
    (remaining total : Nat) (issued : Instant) (duration minimum : Int) (range : String)
    (location : Option Int) : Order :=
  ⟨id, item, isBuy, some price.toNumber, remaining, total, issued, duration, minimum, range,
    location⟩

/-- The order of a record. -/
def check (v : Value) : Checked Order :=
  match v with
  | .obj _ =>
    ofParts <$> required v "order_id" (Check.id .order)
      <*> required v "type_id" (Check.id .item)
      <*> required v "is_buy_order" Check.truth
      <*> required v "price" Check.price
      <*> required v "volume_remain" Check.quantity
      <*> required v "volume_total" Check.quantity
      <*> required v "issued" Check.instant
      <*> required v "duration" Check.integer
      <*> optional v "min_volume" 1 Check.integer
      <*> optional v "range" "region" Check.text
      <*> optional v "location_id" none (nullable Check.integer)
  | _ => defect .notARecord

/-- The orders of a page. -/
def checkPage (v : Value) : Checked (List Order) :=
  list check v

/-- The record of an order. -/
def toValue (o : Order) : Value :=
  .obj [("order_id", .int o.id.val), ("type_id", .int o.item.val),
    ("is_buy_order", .bool o.isBuy), ("price", .ofOption (fun x => .str x.text) o.price),
    ("volume_remain", .int o.remaining), ("volume_total", .int o.total),
    ("issued", .str o.issued.utcText), ("duration", .int o.duration),
    ("min_volume", .int o.minimum), ("range", .str o.range),
    ("location_id", .ofOption .int o.location)]

/-- An order whose integers have few enough digits for a document. -/
def Legible (o : Order) : Prop :=
  ∀ n ∈ [(o.id.val : Int), o.item.val, o.remaining, o.total, o.duration, o.minimum] ++
    o.location.toList, Document.digitCount n ≤ Text.literalDigits

instance (o : Order) : Decidable o.Legible :=
  inferInstanceAs (Decidable (∀ _ ∈ _, _))

end OrderFlow.Order
