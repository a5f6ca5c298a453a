import Consignment.Timestamp.Basic

/-! Records of money that moved. They are only ever added. -/
namespace Consignment

inductive Flow
  | inbound
  | outbound
deriving DecidableEq, Repr

def Flow.name : Flow → String
  | .inbound => "INBOUND"
  | .outbound => "OUTBOUND"

def Flow.named : List (String × Flow) := [.inbound, .outbound].map fun f => (f.name, f)

/-- The amount is in minor units of the currency. -/
structure Transaction where
  id : Option String
  purpose : Option String
  flow : Option Flow
  amount : Option Int64
  currency : Option String
  beneficiary : Option String
  provider : Option String
  createdAt : Option Timestamp
deriving DecidableEq

def Transaction.blank : Transaction := ⟨none, none, none, none, none, none, none, none⟩

end Consignment
