import Consignment.Channel.Delivery
import Consignment.Channel.Error
import Consignment.Register

/-! A broker of one partition per topic. It keeps what it accepted, serves subscriptions from the
last acknowledged offset on, and records every call. -/
namespace Consignment

structure Attempt where
  topic : String
  key : String
  payload : Bytes
  time : Nat
  error : Option ChannelError
deriving DecidableEq

/-- Items wait in `queue` until they are received. A subscription that is not live gets no more of
them. -/
structure Subscription where
  topics : List String
  queue : List (Except ChannelError Delivery)
  live : Bool

/-- Errors in the scripts are the answers to the next calls, whoever makes them. -/
structure Broker where
  attempts : List Attempt
  log : List Delivery
  offsets : Register Int
  committed : Register Int
  acks : List (String × Int)
  publishFailures : List ChannelError
  subscribeFailures : List ChannelError
  subscriptions : List Subscription

inductive Received
  | item (i : Except ChannelError Delivery)
  | pending
  | ended

namespace Subscription

def offer (i : Except ChannelError Delivery) (s : Subscription) : Subscription :=
  if s.live then { s with queue := s.queue ++ [i] } else s

def offerOn (topic : String) (d : Delivery) (s : Subscription) : Subscription :=
  if s.topics.contains topic then s.offer (.ok d) else s

def close (s : Subscription) : Subscription := { s with live := false }

def drop (s : Subscription) : Subscription := { s with queue := [], live := false }

def receive (s : Subscription) : Received × Subscription :=
  match s.queue with
  | i :: queue => (.item i, { s with queue })
  | [] => (if s.live then .pending else .ended, s)

@[simp] theorem topics_offer (i : Except ChannelError Delivery) (s : Subscription) :
    (s.offer i).topics = s.topics := by
  unfold offer; split <;> rfl

@[simp] theorem live_offer (i : Except ChannelError Delivery) (s : Subscription) :
    (s.offer i).live = s.live := by
  unfold offer; split <;> rfl

@[simp] theorem topics_offerOn (topic : String) (d : Delivery) (s : Subscription) :
    (s.offerOn topic d).topics = s.topics := by
  unfold offerOn; split <;> simp

@[simp] theorem live_offerOn (topic : String) (d : Delivery) (s : Subscription) :
    (s.offerOn topic d).live = s.live := by
  unfold offerOn; split <;> simp

end Subscription

namespace Broker

def empty : Broker := ⟨[], [], ∅, ∅, [], [], [], []⟩

def nextOffset (b : Broker) (topic : String) : Int := b.offsets.getD topic 0

def committedOffset (b : Broker) (topic : String) : Int := b.committed.getD topic 0

def failPublish (errors : List ChannelError) (b : Broker) : Broker :=
  { b with publishFailures := b.publishFailures ++ errors }

def failSubscribe (error : ChannelError) (b : Broker) : Broker :=
  { b with subscribeFailures := b.subscribeFailures ++ [error] }

def accept (topic key : String) (payload : Bytes) (b : Broker) : Broker :=
  let offset := b.nextOffset topic
  let d : Delivery := ⟨topic, some key, payload, 0, offset⟩
  { b with
    log := b.log ++ [d]
    offsets := b.offsets.put topic (offset + 1)
    subscriptions := b.subscriptions.map (·.offerOn topic d) }

def publish (now : Nat) (topic key : String) (payload : Bytes) (b : Broker) :
    Except ChannelError Unit × Broker :=
  let record (error : Option ChannelError) : Broker :=
    { b with attempts := b.attempts ++ [⟨topic, key, payload, now, error⟩] }
  match b.publishFailures with
  | e :: es => (.error e, { record (some e) with publishFailures := es })
  | [] => (.ok (), (record none).accept topic key payload)

/-- What a subscription opened now starts with. -/
def backlog (b : Broker) (topics : List String) : List Delivery :=
  b.log.filter fun d => topics.contains d.topic && b.committedOffset d.topic ≤ d.offset

def subscribe (topics : List String) (b : Broker) : Except ChannelError Nat × Broker :=
  match b.subscribeFailures with
  | e :: es => (.error e, { b with subscribeFailures := es })
  | [] =>
    let s : Subscription := ⟨topics, (b.backlog topics).map .ok, true⟩
    (.ok b.subscriptions.length, { b with subscriptions := b.subscriptions ++ [s] })

def receive (i : Nat) (b : Broker) : Received × Broker :=
  match b.subscriptions[i]? with
  | none => (.ended, b)
  | some s =>
    let (r, s) := s.receive
    (r, { b with subscriptions := b.subscriptions.set i s })

/-- A committed offset never goes back, whatever is acknowledged late. -/
def acknowledge (topic : String) (offset : Int) (b : Broker) : Broker :=
  { b with
    committed := b.committed.put topic (max (b.committedOffset topic) (offset + 1))
    acks := b.acks ++ [(topic, offset)] }

def transportError (error : ChannelError) (b : Broker) : Broker :=
  { b with subscriptions := b.subscriptions.map (·.offer (.error error)) }

/-- Ends every subscription after what waits in it. -/
def close (b : Broker) : Broker := { b with subscriptions := b.subscriptions.map .close }

def drop (i : Nat) (b : Broker) : Broker :=
  { b with subscriptions := b.subscriptions.modify i .drop }

/-- Forgets all that happened and all that was to fail, but not who is subscribed. -/
def clear (b : Broker) : Broker := { empty with subscriptions := b.subscriptions }

def publishedTo (b : Broker) (topic : String) : List Delivery :=
  b.log.filter fun d => d.topic = topic

def attemptGaps (b : Broker) : List Nat :=
  List.zipWith (fun x y => y.time - x.time) b.attempts (b.attempts.drop 1)

end Broker
end Consignment
