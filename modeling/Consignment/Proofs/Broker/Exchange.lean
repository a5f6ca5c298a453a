import Consignment.Channel.Broker

/-! What can happen to a broker, one operation after the other and in any order. Whoever was handed
a delivery keeps it and may acknowledge it at any later time, as often as they like. -/
namespace Consignment

abbrev Item := Except ChannelError Delivery

def Received.item? : Received → Option Item
  | .item i => some i
  | .pending => none
  | .ended => none

/-- A broker and all that it ever handed out. -/
structure Exchange where
  broker : Broker
  handed : List Delivery

namespace Exchange

/-- In `acknowledge`, deliveries are known by their number in the order in which they were handed
out. -/
inductive Op
  | publish (now : Nat) (topic key : String) (payload : Bytes)
  | failPublish (errors : List ChannelError)
  | failSubscribe (error : ChannelError)
  | subscribe (topics : List String)
  | receive (subscription : Nat)
  | acknowledge (handed : Nat)
  | transportError (error : ChannelError)
  | close
  | drop (subscription : Nat)
  | clear
deriving DecidableEq

def empty : Exchange := ⟨.empty, []⟩

def onBroker (f : Broker → Broker) (x : Exchange) : Exchange := { x with broker := f x.broker }

def after (x : Exchange) : Op → Exchange
  | .publish now topic key payload => x.onBroker fun b => (b.publish now topic key payload).2
  | .failPublish errors => x.onBroker (·.failPublish errors)
  | .failSubscribe error => x.onBroker (·.failSubscribe error)
  | .subscribe topics => x.onBroker fun b => (b.subscribe topics).2
  | .receive i =>
    let (r, broker) := x.broker.receive i
    ⟨broker, x.handed ++ (r.item?.bind Except.toOption).toList⟩
  | .acknowledge k =>
    match x.handed[k]? with
    | none => x
    | some d => x.onBroker (·.acknowledge d.topic d.offset)
  | .transportError error => x.onBroker (·.transportError error)
  | .close => x.onBroker (·.close)
  | .drop i => x.onBroker (·.drop i)
  | .clear => x.onBroker (·.clear)

def afterAll (x : Exchange) (ops : List Op) : Exchange := ops.foldl after x

@[simp] theorem afterAll_nil (x : Exchange) : x.afterAll [] = x := rfl

@[simp] theorem afterAll_cons (x : Exchange) (op : Op) (ops : List Op) :
    x.afterAll (op :: ops) = (x.after op).afterAll ops := rfl

theorem afterAll_append (x : Exchange) (ops ops' : List Op) :
    x.afterAll (ops ++ ops') = (x.afterAll ops).afterAll ops' := List.foldl_append

def acknowledged? (x : Exchange) : Op → Option Delivery
  | .acknowledge k => x.handed[k]?
  | _ => none

def accepted (x : Exchange) (op : Op) : List Delivery :=
  (x.after op).broker.log.drop x.broker.log.length

theorem accepted_eq_nil {x : Exchange} {op : Op}
    (h : (x.after op).broker.log.length ≤ x.broker.log.length) : x.accepted op = [] :=
  List.drop_eq_nil_of_le h

theorem accepted_publish (x : Exchange) (now : Nat) (topic key : String) (payload : Bytes)
    (h : x.broker.publishFailures = []) : x.accepted (.publish now topic key payload) =
      [⟨topic, some key, payload, 0, x.broker.nextOffset topic⟩] := by
  simp [accepted, after, onBroker, Broker.publish, h, Broker.accept, Broker.nextOffset]

end Exchange
end Consignment
