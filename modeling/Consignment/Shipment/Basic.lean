import Consignment.Register
import Consignment.Shipment.Status
import Consignment.Timestamp.Basic

/-! Shipments as they travel and as they are stored. Every field may be missing, so that a missing
one is found by validation and not by the reader of the document. -/
namespace Consignment

structure Line where
  sku : Option String
  quantity : Option Int64
deriving DecidableEq

def Line.blank : Line := ⟨none, none⟩

structure Shipment where
  id : Option String
  status : Option Status
  productId : Option String
  quantity : Option Int64
  origin : Option String
  destination : Option String
  lines : List Line
  attributes : Register (Option String)
  updatedAt : Option Timestamp
deriving DecidableEq

namespace Shipment

def blank : Shipment := ⟨none, none, none, none, none, none, [], ∅, none⟩

instance : Inhabited Shipment := ⟨blank⟩

/-- What `incoming` says replaces what is known, field by field. It has no way to take a value back:
a missing field or an empty list of lines says nothing, and attributes are replaced one by one. -/
def overlay (current incoming : Shipment) : Shipment where
  id := incoming.id <|> current.id
  status := incoming.status <|> current.status
  productId := incoming.productId <|> current.productId
  quantity := incoming.quantity <|> current.quantity
  origin := incoming.origin <|> current.origin
  destination := incoming.destination <|> current.destination
  lines := if incoming.lines.isEmpty then current.lines else incoming.lines
  attributes := current.attributes.extend incoming.attributes
  updatedAt := incoming.updatedAt <|> current.updatedAt

def describe (s : Shipment) : String :=
  "Shipment \x7b id: " ++ s.id.getD "<none>" ++ ", status: "
    ++ (s.status.map Status.name).getD "<none>" ++ " \x7d"

end Shipment
end Consignment
