import Consignment.Channel.Broker
import Consignment.DeadLetter
import Consignment.Tally

/-! Everything that producers and consumers share: a clock in milliseconds, the broker, the store,
the sink of dead letters and the counters. -/
namespace Consignment

/-- `drawn` counts the random keys drawn so far. -/
structure Site where
  clock : Nat
  broker : Broker
  store : Store
  sink : Sink
  tally : Tally
  drawn : Nat

namespace Site

def fresh (store : Store) (sink : Sink) : Site := ⟨0, .empty, store, sink, .empty, 0⟩

def await (t : Nat) (s : Site) : Site := { s with clock := max s.clock t }

def increment (c : Counter) (n : Nat) (s : Site) : Site := { s with tally := s.tally.add c n }

end Site
end Consignment
