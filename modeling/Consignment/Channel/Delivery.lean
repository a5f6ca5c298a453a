import Consignment.Text.Octets

/-! Messages as a subscription hands them out, and the topics they travel on. -/
namespace Consignment

structure Delivery where
  topic : String
  key : Option String
  payload : Bytes
  partition : Int
  offset : Int
deriving DecidableEq

def Delivery.describe (d : Delivery) : String :=
  s!"Delivery \x7b topic: {d.topic}, partition: {d.partition}, offset: {d.offset}, "
    ++ s!"size: {d.payload.length} bytes \x7d"

/-- Who is told that a delivery is done with. It is no part of the delivery, so that two deliveries
compare by what they carry. -/
inductive Receipt
  | none
  | tracked
deriving DecidableEq

namespace Receipt

def describe : Receipt → String
  | .none => "AckHandle(none)"
  | .tracked => "AckHandle(tracked)"

def heard (times : Nat) : Receipt → Nat
  | .none => 0
  | .tracked => times

end Receipt

structure Topics where
  shipment : String
  transaction : String
  shipmentSync : String
deriving DecidableEq

def Topics.consumed (t : Topics) : List String := [t.shipment, t.shipmentSync]

def Topics.standard : Topics := ⟨"SHIPMENT", "TRANSACTION", "SHIPMENT_SYNC"⟩

end Consignment
