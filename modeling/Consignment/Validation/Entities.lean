import Consignment.Shipment.Basic
import Consignment.Transaction.Basic
import Consignment.Validation.Schema

/-! The rules of shipments, their lines and transactions. -/
namespace Consignment

def Line.schema : Schema Line :=
  .build "shipment_line"
    [⟨⟨"sku", [.required, .notBlank], []⟩, fun l => .ofText l.sku⟩,
     ⟨⟨"quantity", [.required, .positive], []⟩, fun l => .ofInteger l.quantity⟩]

/-- A shipment may lack any field; who needs one asks for it. -/
def Shipment.schema : Schema Shipment :=
  .build "shipment"
    [⟨⟨"id", [.notBlank, .maxLength 64], []⟩, fun s => .ofText s.id⟩,
     ⟨⟨"status", [], []⟩, fun s => .ofText (s.status.map Status.name)⟩,
     ⟨⟨"product_id", [.notBlank], []⟩, fun s => .ofText s.productId⟩,
     ⟨⟨"quantity", [.positive], []⟩, fun s => .ofInteger s.quantity⟩,
     ⟨⟨"origin", [.notBlank], []⟩, fun s => .ofText s.origin⟩,
     ⟨⟨"destination", [.notBlank], []⟩, fun s => .ofText s.destination⟩,
     ⟨⟨"lines", [], []⟩, fun s => .list (s.lines.map fun l => .object (Line.schema.view l))⟩,
     ⟨⟨"attributes", [], [.notBlank, .maxLength 256]⟩, fun s =>
       .map (s.attributes.entries.map fun e => (e.1, .ofText e.2))⟩]

def Transaction.schema : Schema Transaction :=
  .build "transaction"
    [⟨⟨"id", [.notBlank], []⟩, fun t => .ofText t.id⟩,
     ⟨⟨"purpose", [.notBlank, .maxLength 255], []⟩, fun t => .ofText t.purpose⟩,
     ⟨⟨"flow", [], []⟩, fun t => .ofText (t.flow.map Flow.name)⟩,
     ⟨⟨"amount", [.positive], []⟩, fun t => .ofInteger t.amount⟩,
     ⟨⟨"currency", [.length 3 3, .uppercase], []⟩, fun t => .ofText t.currency⟩,
     ⟨⟨"beneficiary", [.notBlank], []⟩, fun t => .ofText t.beneficiary⟩,
     ⟨⟨"provider", [.notBlank], []⟩, fun t => .ofText t.provider⟩]

end Consignment
