import Consignment.MessageKey
import Consignment.Stage

/-! Publishing shipments and transactions. What the topic needs is validated before anything is
published; a publish that fails for now is tried again, whatever else goes on meanwhile. -/
namespace Consignment

inductive ProduceError
  | invalid (error : CheckError)
  | rejected (topic key : String) (attempts : Nat) (error : ChannelError)
  | exhausted (topic key : String) (attempts : Nat) (error : ChannelError)
deriving DecidableEq

namespace ProduceError

def message : ProduceError → String
  | .invalid e => e.message
  | .rejected topic _ n e =>
    s!"Publish to '{topic}' rejected after {n} attempt(s): " ++ e.message
  | .exhausted topic _ n e => s!"Publish to '{topic}' failed after {n} attempts: " ++ e.message

def isValidation : ProduceError → Bool
  | .invalid _ => true
  | .rejected _ _ _ _ => false
  | .exhausted _ _ _ _ => false

end ProduceError

namespace Transaction

def required : List String :=
  ["purpose", "flow", "amount", "currency", "beneficiary", "provider"]

end Transaction

namespace Shipment

def publishKey (required : List String) (s : Shipment) : Except CheckError String :=
  match schema.checkMany s required true with
  | .error e => .error e
  | .ok () =>
    match s.id with
    | none => .error (.invalid "id" "is required")
    | some id => .ok (messageKey id)

end Shipment

/-- `randomKey` yields a new key for every number of keys drawn before. -/
structure Producer where
  topics : Topics
  policy : Policy
  randomKey : Nat → String

namespace Producer

/-- A wait that may not go on beyond the deadline; one that would is cut there. -/
def pause (deadline : Option Nat) (d : Span) (s : Nat × Stage) : Except Stage (Nat × Stage) :=
  let wake := s.2.site.clock + d.ticks
  match deadline with
  | none => .ok (s.1, s.2.sleepUntil wake)
  | some t => if t < wake then .error (s.2.sleepUntil t) else .ok (s.1, s.2.sleepUntil wake)

def attempt (topic key : String) (payload : Bytes) (s : Nat × Stage) :
    Except ChannelError Unit × (Nat × Stage) :=
  let site := s.2.site
  let (result, broker) := site.broker.publish site.clock topic key payload
  (result, (s.1 + 1, { s.2 with site := { site with broker } }))

def conclude (topic : String) (calls : Nat) (published : Bool) (s : Stage) : Stage :=
  let s := if 1 < calls then s.onSite (·.increment (.publishRetries topic) (calls - 1)) else s
  s.onSite (·.increment (if published then .published topic else .publishFailed topic) 1)

def describe (topic key : String) : GaveUp ChannelError → ProduceError
  | .aborted n e => .rejected topic key n e
  | .exhausted n e => .exhausted topic key n e

/-- Publishes under the retry policy. At the deadline the call is abandoned, and nothing of it is
counted. -/
def publish (p : Producer) (deadline : Option Nat) (topic key : String) (payload : Bytes)
    (s : Stage) : Except Stage (Except ProduceError String × Stage) :=
  match p.policy.loop ChannelError.isTransient (attempt topic key payload) (pause deadline) 0
      (0, s) with
  | .error cut => .error cut
  | .ok (.ok (), calls, s) => .ok (.ok key, conclude topic calls true s)
  | .ok (.error e, calls, s) => .ok (.error (describe topic key e), conclude topic calls false s)

def produce (p : Producer) (deadline : Option Nat) (shipment : Shipment) (s : Stage) :
    Except Stage (Except ProduceError String × Stage) :=
  match shipment.publishKey ["id"] with
  | .error e => .ok (.error (.invalid e), s)
  | .ok key => p.publish deadline p.topics.shipment key shipment.write s

def produceSync (p : Producer) (deadline : Option Nat) (shipment : Shipment) (s : Stage) :
    Except Stage (Except ProduceError String × Stage) :=
  match shipment.publishKey ["id", "status"] with
  | .error e => .ok (.error (.invalid e), s)
  | .ok key => p.publish deadline p.topics.shipmentSync key shipment.write s

def produceTransaction (p : Producer) (deadline : Option Nat) (t : Transaction) (s : Stage) :
    Except Stage (Except ProduceError String × Stage) :=
  match Transaction.schema.checkMany t Transaction.required true with
  | .error e => .ok (.error (.invalid e), s)
  | .ok () =>
    let key := p.randomKey s.site.drawn
    p.publish deadline p.topics.transaction key t.write
      (s.onSite fun site => { site with drawn := site.drawn + 1 })

end Producer
end Consignment
