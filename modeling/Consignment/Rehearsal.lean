import Consignment.Producer

/-! Scenes played on a stage. An action may be a single step, a session drained to its end, or a
worker at whose side further actions happen at set times. Each action is answered, and after each
the stage is looked at. -/
namespace Consignment

/-- A stage with the producer that acts on it, the subscriptions opened so far by whoever plays, and
the deliveries taken from them. -/
structure Rehearsal where
  stage : Stage
  producer : Producer
  storeRetry : Policy
  streams : List Nat
  held : List Delivery

namespace Rehearsal

inductive Action
  | publish (topic key : String) (payload : Bytes)
  | failPublish (errors : List ChannelError)
  | failSubscribe (error : ChannelError)
  | failStore (errors : List StoreError)
  | transportError (error : ChannelError)
  | close
  | clear
  | sleep (d : Span)
  | produce (doc : Bytes) (deadline : Option Span)
  | produceSync (doc : Bytes) (deadline : Option Span)
  | produceTransaction (doc : Bytes)
  | consume (payload : Bytes)
  | consumeLast (topic : String)
  | reconcile (doc : Bytes)
  | handle (d : Delivery)
  | subscribe (topics : Option (List String))
  | next (stream : Nat) (acknowledge : Bool)
  | acknowledge (held : Nat)
  | drop (stream : Nat)
  | drain (stream : Nat) (signalAfter : Span)
  | employ (retryDelay : Span) (timeline : List (Span × Action)) (stopAt : Span)
  | find (id : String)
  | upsert (doc : Bytes)
  | statusOf (id : String)
  | records
  | acks
  | committed (topic : String)
  | published (topic : Option String)
  | attempts
  | letters

structure Snapshot where
  clock : Nat
  stored : Nat
  writes : Nat
  attempts : Nat
  log : Nat
  acks : Nat
  letters : Nat
  subscriptions : Nat

/-- In `missing`, the action names a stream or a delivery that is not there. -/
inductive Reply
  | done
  | nothing
  | missing
  | malformed (message : String)
  | channel (error : ChannelError)
  | store (error : StoreError)
  | deadline
  | produced (result : Except ProduceError String)
  | consumed (result : Except ConsumeError Reconciliation)
  | handled (result : Except ConsumeError Reconciliation) (acks : Nat)
  | stream (index : Nat)
  | delivery (d : Delivery)
  | pending
  | ended
  | drained (summary : Summary)
  | employed (topics : List String) (timeline : List (Reply × Snapshot)) (stopped : Nat)
  | found (shipment : Option Shipment)
  | status (status : Option Status)
  | records (records : Register Shipment)
  | acks (acks : List (String × Int))
  | offset (next : Int)
  | deliveries (ds : List Delivery)
  | attempts (attempts : List Attempt) (gaps : List Nat)
  | letters (letters : List DeadLetter)

def site (r : Rehearsal) : Site := r.stage.site

def setSite (site : Site) (r : Rehearsal) : Rehearsal :=
  { r with stage := { r.stage with site } }

def setBroker (broker : Broker) (r : Rehearsal) : Rehearsal :=
  r.setSite { r.site with broker }

def setStore (store : Store) (r : Rehearsal) : Rehearsal :=
  r.setSite { r.site with store }

def answerBroker (answer : Except ChannelError Unit × Broker) (r : Rehearsal) :
    Reply × Rehearsal :=
  match answer with
  | (.ok (), broker) => (.done, r.setBroker broker)
  | (.error e, broker) => (.channel e, r.setBroker broker)

def withDocument {α : Type} (reader : Json.Reader α) (doc : Bytes) (r : Rehearsal)
    (f : α → Reply × Rehearsal) : Reply × Rehearsal :=
  match reader.document doc with
  | .error fault => (.malformed (fault.message doc), r)
  | .ok a => f a

def producing (publish : Stage → Except Stage (Except ProduceError String × Stage))
    (r : Rehearsal) : Reply × Rehearsal :=
  match publish r.stage with
  | .error stage => (.deadline, { r with stage })
  | .ok (result, stage) => (.produced result, { r with stage })

def consuming (f : Store → Except ConsumeError Reconciliation × Store) (r : Rehearsal) :
    Reply × Rehearsal :=
  let (result, store) := f r.site.store
  (.consumed result, r.setStore store)

def deadlineAfter (d : Option Span) (r : Rehearsal) : Option Nat :=
  d.map fun d => r.site.clock + d.ceilMillis

/-- Takes the next item of a stream, if one waits. A delivery is held. -/
def receive (stream : Nat) (acknowledge : Bool) (r : Rehearsal) : Reply × Rehearsal :=
  match r.streams[stream]? with
  | none => (.missing, r)
  | some i =>
    match r.site.broker.receive i with
    | (.pending, _) => (.pending, r)
    | (.ended, _) => (.ended, r)
    | (.item (.error e), broker) => (.channel e, r.setBroker broker)
    | (.item (.ok d), broker) =>
      let broker := if acknowledge then broker.acknowledge d.topic d.offset else broker
      (.delivery d, { r.setBroker broker with held := r.held ++ [d] })

def snapshot (r : Rehearsal) : Snapshot where
  clock := r.site.clock
  stored := r.site.store.records.size
  writes := r.site.store.writes
  attempts := r.site.broker.attempts.length
  log := r.site.broker.log.length
  acks := r.site.broker.acks.length
  letters := r.site.sink.letters.length
  subscriptions := r.site.broker.subscriptions.length

def standardSignal : Span := .ofSeconds (30 * 86400)

def hire (w : Worker) (r : Rehearsal) : Rehearsal :=
  { r with stage := { r.stage with workers := r.stage.workers ++ [w] } }

mutual

/-- In `employ`, a worker starts at once and is told to stop at `stopAt`, counted from its start. -/
def perform (a : Action) (r : Rehearsal) : Reply × Rehearsal :=
  let site := r.site
  match a with
  | .publish topic key payload =>
    r.answerBroker (site.broker.publish site.clock topic key payload)
  | .failPublish errors => (.done, r.setBroker (site.broker.failPublish errors))
  | .failSubscribe error => (.done, r.setBroker (site.broker.failSubscribe error))
  | .failStore errors => (.done, r.setStore (site.store.fail errors))
  | .transportError error => (.done, r.setBroker (site.broker.transportError error))
  | .close => (.done, r.setBroker site.broker.close)
  | .clear => (.done, r.setBroker site.broker.clear)
  | .sleep d => (.done, { r with stage := r.stage.sleep d })
  | .produce doc deadline =>
    r.withDocument Shipment.reader doc fun s =>
      r.producing (r.producer.produce (r.deadlineAfter deadline) s)
  | .produceSync doc deadline =>
    r.withDocument Shipment.reader doc fun s =>
      r.producing (r.producer.produceSync (r.deadlineAfter deadline) s)
  | .produceTransaction doc =>
    r.withDocument Transaction.reader doc fun t =>
      r.producing (r.producer.produceTransaction none t)
  | .consume payload => r.consuming (·.consume payload)
  | .consumeLast topic =>
    match (site.broker.publishedTo topic).getLast? with
    | none => (.nothing, r)
    | some d => r.consuming (·.consume d.payload)
  | .reconcile doc =>
    r.withDocument Shipment.reader doc fun s => r.consuming (·.reconcile s)
  | .handle d =>
    let (result, stage) := r.stage.handle r.storeRetry d
    (.handled result 0, { r with stage })
  | .subscribe topics =>
    match site.broker.subscribe (topics.getD r.producer.topics.consumed) with
    | (.error e, broker) => (.channel e, r.setBroker broker)
    | (.ok i, broker) =>
      (.stream r.streams.length, { r.setBroker broker with streams := r.streams ++ [i] })
  | .next stream acknowledge => r.receive stream acknowledge
  | .acknowledge i =>
    match r.held[i]? with
    | none => (.missing, r)
    | some d => (.done, r.setSite (site.acknowledge d))
  | .drop stream =>
    match r.streams[stream]? with
    | none => (.done, r)
    | some i => (.done, r.setBroker (site.broker.drop i))
  | .drain stream signalAfter =>
    match r.streams[stream]? with
    | none => (.missing, r)
    | some i =>
      let signalAt := site.clock + signalAfter.ticks
      let (session, stage) := r.stage.drain r.storeRetry signalAt (.start i)
      (.drained session.summary,
        { r with stage := stage.onSite fun site => { site with broker := site.broker.drop i } })
  | .employ retryDelay timeline stopAt =>
    let worker := Worker.start r.producer.topics retryDelay r.storeRetry
    let (replies, r) := play site.clock timeline (r.hire worker)
    let r := { r with stage := (r.stage.sleepUntil (site.clock + stopAt.ceilMillis)).dismiss }
    (.employed worker.topics replies r.site.clock, r)
  | .find id =>
    match site.store.find id with
    | (.error e, store) => (.store e, r.setStore store)
    | (.ok found, store) => (.found found, r.setStore store)
  | .upsert doc =>
    r.withDocument Shipment.reader doc fun s =>
      match site.store.upsert s with
      | (.error e, store) => (.store e, r.setStore store)
      | (.ok (), store) => (.done, r.setStore store)
  | .statusOf id => (.status (site.store.statusOf id), r)
  | .records => (.records site.store.records, r)
  | .acks => (.acks site.broker.acks, r)
  | .committed topic => (.offset (site.broker.committedOffset topic), r)
  | .published none => (.deliveries site.broker.log, r)
  | .published (some topic) => (.deliveries (site.broker.publishedTo topic), r)
  | .attempts => (.attempts site.broker.attempts site.broker.attemptGaps, r)
  | .letters => (.letters site.sink.letters, r)

/-- Actions at a worker's side, each at its time after `start` or at once if that is past. The stage
is looked at a millisecond after each, so that the worker has had its turn. -/
def play (start : Nat) (timeline : List (Span × Action)) (r : Rehearsal) :
    List (Reply × Snapshot) × Rehearsal :=
  match timeline with
  | [] => ([], r)
  | (after, a) :: timeline =>
    let r := { r with stage := r.stage.sleepUntil (start + after.ceilMillis) }
    let (reply, r) := r.perform a
    let r := { r with stage := r.stage.sleepUntil (r.site.clock + 1) }
    let (replies, rest) := play start timeline r
    ((reply, r.snapshot) :: replies, rest)

end

def scenes (actions : List Action) (r : Rehearsal) : List (Reply × Snapshot) × Rehearsal :=
  match actions with
  | [] => ([], r)
  | a :: actions =>
    let (reply, r) := r.perform a
    let (replies, last) := scenes actions r
    ((reply, r.snapshot) :: replies, last)

def ready (initial : List Shipment) (sink : Sink) (producer : Producer) (storeRetry : Policy) :
    Rehearsal :=
  ⟨⟨.fresh (.ofShipments initial) sink, []⟩, producer, storeRetry, [], []⟩

end Rehearsal
end Consignment
