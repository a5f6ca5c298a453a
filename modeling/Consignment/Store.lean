import Consignment.Register
import Consignment.Shipment.Basic

/-! The store of reconciled shipments. -/
namespace Consignment

inductive StoreError
  | database (reason : String)
  | corrupt (id reason : String)
  | missingId
deriving DecidableEq

namespace StoreError

def message : StoreError → String
  | .database reason => "Database error: " ++ reason
  | .corrupt id reason => s!"Corrupt record '{id}': {reason}"
  | .missingId => "Shipment has no id"

def isTransient : StoreError → Bool
  | .database _ => true
  | .corrupt _ _ => false
  | .missingId => false

end StoreError

/-- Each error in `failures` is the answer to one call, lookup or write. -/
@[ext] structure Store where
  records : Register Shipment
  failures : List StoreError
  writes : Nat
deriving DecidableEq

namespace Store

/-- Shipments without an id are left out. -/
def ofShipments (shipments : List Shipment) : Store :=
  ⟨.ofList (shipments.filterMap fun s => s.id.map (·, s)), [], 0⟩

def empty : Store := ⟨∅, [], 0⟩

def fail (errors : List StoreError) (s : Store) : Store :=
  { s with failures := s.failures ++ errors }

def find (id : String) (s : Store) : Except StoreError (Option Shipment) × Store :=
  match s.failures with
  | e :: failures => (.error e, { s with failures })
  | [] => (.ok (s.records.get? id), s)

def upsert (shipment : Shipment) (s : Store) : Except StoreError Unit × Store :=
  match s.failures with
  | e :: failures => (.error e, { s with failures })
  | [] =>
    match shipment.id with
    | none => (.error .missingId, s)
    | some id => (.ok (), { s with records := s.records.put id shipment, writes := s.writes + 1 })

def statusOf (id : String) (s : Store) : Option Status := (s.records.get? id).bind (·.status)

end Store
end Consignment
