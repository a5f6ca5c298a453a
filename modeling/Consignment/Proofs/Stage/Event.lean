import Consignment.Proofs.Broker.Offsets
import Consignment.Proofs.Store.Attempt
import Consignment.Stage

/-! What can happen on a stage, one event after the other, in any order and with every race between
a signal and an item resolved either way. Only workers acknowledge, and a new one comes only when no
other is at work. -/
namespace Consignment

structure Handling where
  delivery : Delivery
  outcome : Except ConsumeError Reconciliation

def Received.delivery? : Received → Option Delivery
  | .item i => i.toOption
  | .pending => none
  | .ended => none

def Site.verdict? (d : Delivery) (site : Site) : Option Handling :=
  let outcome := (site.store.consume d.payload).1
  if ConsumeError.unsettled outcome then none else some ⟨d, outcome⟩

namespace Session

def taken? (signalled signalFirst : Bool) (x : Session) (site : Site) : Option Delivery :=
  match x.phase with
  | .finished => none
  | .retrying d _ due => if due ≤ site.clock then some d else none
  | .listening =>
    if signalled && signalFirst then none
    else (site.broker.receive x.subscription).1.delivery?

def handling? (signalled signalFirst : Bool) (x : Session) (site : Site) : Option Handling :=
  (x.taken? signalled signalFirst site).bind site.verdict?

end Session

namespace Worker

def isStopped (w : Worker) : Bool :=
  match w.phase with
  | .stopped => true
  | .subscribing => false
  | .consuming _ => false
  | .waiting _ => false

def attended? (w : Worker) : Option Nat :=
  match w.phase with
  | .consuming x => some x.subscription
  | .stopped => none
  | .subscribing => none
  | .waiting _ => none

def handling? (signalFirst : Bool) (w : Worker) (site : Site) : Option Handling :=
  match w.phase with
  | .consuming x => x.handling? w.signalled signalFirst site
  | .stopped => none
  | .subscribing => none
  | .waiting _ => none

end Worker

/-- In `watch`, `look` and `leave` somebody who is no worker opens, reads and drops a subscription.
In `work`, `signalFirst` says who wins if a signal and something else are both there. -/
inductive Event
  | publish (topic key : String) (payload : Bytes)
  | failPublish (errors : List ChannelError)
  | failSubscribe (error : ChannelError)
  | failStore (errors : List StoreError)
  | transportError (error : ChannelError)
  | close
  | pass (ms : Nat)
  | watch (topics : List String)
  | look (subscription : Nat)
  | leave (subscription : Nat)
  | hire (delay : Span) (storeRetry : Policy)
  | signal (worker : Nat)
  | work (worker : Nat) (signalFirst : Bool)
deriving DecidableEq

def Event.isPublish : Event → Bool
  | .publish _ _ _ => true
  | _ => false

namespace Stage

def onBroker (f : Broker → Broker) (s : Stage) : Stage :=
  s.onSite fun site => { site with broker := f site.broker }

def isAttended (i : Nat) (s : Stage) : Bool := s.workers.any (·.attended? = some i)

/-- The stage after the event. One that cannot happen leaves it as it is. -/
def after (topics : Topics) (s : Stage) : Event → Stage
  | .publish topic key payload =>
    s.onBroker fun b => (b.publish s.site.clock topic key payload).2
  | .failPublish errors => s.onBroker (·.failPublish errors)
  | .failSubscribe error => s.onBroker (·.failSubscribe error)
  | .failStore errors => s.onSite fun site => { site with store := site.store.fail errors }
  | .transportError error => s.onBroker (·.transportError error)
  | .close => s.onBroker (·.close)
  | .pass ms => s.onSite fun site => site.await (site.clock + ms)
  | .watch topics => s.onBroker fun b => (b.subscribe topics).2
  | .look i => if s.isAttended i then s else s.onBroker fun b => (b.receive i).2
  | .leave i => if s.isAttended i then s else s.onBroker (·.drop i)
  | .hire delay storeRetry =>
    if s.workers.all (·.isStopped) then
      { s with workers := s.workers ++ [.start topics delay storeRetry] }
    else s
  | .signal i => { s with workers := s.workers.modify i .signal }
  | .work i signalFirst =>
    match s.workers[i]? with
    | none => s
    | some w =>
      match w.step? signalFirst s.site with
      | none => s
      | some (w, site) => ⟨site, s.workers.set i w⟩

def handling? (s : Stage) : Event → Option Handling
  | .work i signalFirst =>
    match s.workers[i]? with
    | none => none
    | some w => w.handling? signalFirst s.site
  | _ => none

def afterAll (topics : Topics) (s : Stage) (es : List Event) : Stage :=
  es.foldl (fun s e => s.after topics e) s

def handlings (topics : Topics) : Stage → List Event → List Handling
  | _, [] => []
  | s, e :: es => (s.handling? e).toList ++ handlings topics (s.after topics e) es

@[simp] theorem afterAll_nil (topics : Topics) (s : Stage) : s.afterAll topics [] = s := rfl

@[simp] theorem afterAll_cons (topics : Topics) (s : Stage) (e : Event) (es : List Event) :
    s.afterAll topics (e :: es) = (s.after topics e).afterAll topics es := rfl

theorem afterAll_append (topics : Topics) (s : Stage) (es fs : List Event) :
    s.afterAll topics (es ++ fs) = (s.afterAll topics es).afterAll topics fs :=
  List.foldl_append

theorem exists_of_mem_handlings {topics : Topics} {h : Handling} {s : Stage} {es : List Event}
    (hh : h ∈ s.handlings topics es) :
    ∃ front e back, es = front ++ e :: back ∧ (s.afterAll topics front).handling? e = some h := by
  induction es generalizing s with
  | nil => simp [handlings] at hh
  | cons e es ih =>
    rcases List.mem_append.1 hh with hh | hh
    · exact ⟨[], e, es, rfl, by simpa using hh⟩
    · obtain ⟨front, f, back, rfl, hf⟩ := ih hh
      exact ⟨e :: front, f, back, rfl, hf⟩

theorem afterAll_induction {topics : Topics} {P : List Handling → Stage → Prop} {es : List Event}
    (step : ∀ hs s, ∀ e ∈ es, P hs s → P (hs ++ (s.handling? e).toList) (s.after topics e))
    {hs : List Handling} {s : Stage} (start : P hs s) :
    P (hs ++ s.handlings topics es) (s.afterAll topics es) := by
  induction es generalizing hs s with
  | nil => simpa [handlings] using start
  | cons e es ih =>
    have hrest : ∀ hs s, ∀ f ∈ es, P hs s → P (hs ++ (s.handling? f).toList) (s.after topics f) :=
      fun hs s f hf => step hs s f (by simp [hf])
    simpa [handlings] using ih hrest (step hs s e (by simp) start)

end Stage
end Consignment
