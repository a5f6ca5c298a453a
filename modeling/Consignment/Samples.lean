import Consignment.Document

/-! A shipment with every field filled in and a transaction that breaks no rule. -/
namespace Consignment

def sampleTime : Timestamp := ⟨⟨2025, 1, 1⟩, ⟨0, 0, 0, 0⟩, by decide⟩

def Shipment.sample (id : String) (status : Status) : Shipment where
  id := some id
  status := some status
  productId := some "P-42"
  quantity := some 12
  origin := some "WH-NORTH"
  destination := some "WH-SOUTH"
  lines := [⟨some "SKU-1", some 10⟩, ⟨some "SKU-2", some 2⟩]
  attributes := .ofList [("carrier", some "acme")]
  updatedAt := some sampleTime

def Transaction.sample : Transaction where
  id := none
  purpose := some "freight"
  flow := some .outbound
  amount := some 12500
  currency := some "EUR"
  beneficiary := some "Acme Logistics"
  provider := some "sepa"
  createdAt := some sampleTime

end Consignment
