/-! Lifecycle of a shipment. -/
namespace Consignment

inductive Status
  | planned
  | initiated
  | sent
  | delivered
  | rollback
deriving DecidableEq, Repr, Inhabited

namespace Status

def all : List Status := [.planned, .initiated, .sent, .delivered, .rollback]

def name : Status → String
  | .planned => "PLANNED"
  | .initiated => "INITIATED"
  | .sent => "SENT"
  | .delivered => "DELIVERED"
  | .rollback => "ROLLBACK"

def rank : Status → Nat
  | .planned => 0
  | .initiated => 1
  | .sent => 2
  | .delivered => 3
  | .rollback => 4

/-- Where a shipment may go next. Goods may skip a step forward but never come back, and a shipment
that was rolled back stays so. -/
def successors : Status → List Status
  | .planned => [.initiated, .sent, .rollback]
  | .initiated => [.sent, .delivered, .rollback]
  | .sent => [.delivered, .rollback]
  | .delivered => [.rollback]
  | .rollback => []

def isTerminal (s : Status) : Bool := s.successors.isEmpty

def mayBecome (s t : Status) : Bool := s.successors.contains t

theorem rank_lt_of_mayBecome {s t : Status} (h : s.mayBecome t) : s.rank < t.rank := by
  cases s <;> cases t <;> first | decide | simp [mayBecome, successors] at h

def named : List (String × Status) := all.map fun s => (s.name, s)

end Status
end Consignment
