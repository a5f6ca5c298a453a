import Consignment.Consumer.Handle
import Consignment.Retry.Loop

/-! Draining one subscription. A session moves in steps, so that whatever else happens on the site
can happen between them. It listens for a delivery or the signal to shut down; once it has taken a
delivery it hears no signal until that is settled. -/
namespace Consignment

structure Summary where
  reconciled : Nat
  rejected : Nat
  deadLettered : Nat
  transportErrors : Nat
  shutdownRequested : Bool
  storeUnavailable : Bool
deriving DecidableEq

namespace Summary

def blank : Summary := ⟨0, 0, 0, 0, false, false⟩

def processed (s : Summary) : Nat := s.reconciled + s.rejected + s.deadLettered

def record (outcome : Except ConsumeError Reconciliation) (s : Summary) : Summary :=
  match outcome with
  | .ok _ => { s with reconciled := s.reconciled + 1 }
  | .error (.illegal _ _ _) => { s with rejected := s.rejected + 1 }
  | .error _ => { s with deadLettered := s.deadLettered + 1 }

end Summary

/-- In `retrying`, that many attempts at the delivery failed, and the next is due at that time. -/
inductive Session.Phase
  | listening
  | retrying (d : Delivery) (failed due : Nat)
  | finished

structure Session where
  subscription : Nat
  phase : Session.Phase
  summary : Summary

namespace Session

def start (subscription : Nat) : Session := ⟨subscription, .listening, .blank⟩

def finish (s : Session) : Session := { s with phase := .finished }

def shutDown (s : Session) : Session :=
  { s with phase := .finished, summary := { s.summary with shutdownRequested := true } }

/-- A delivery that found the store down is not acknowledged, and nothing after it is taken. -/
def settle (d : Delivery) (outcome : Except ConsumeError Reconciliation) (s : Session)
    (site : Site) : Session × Site :=
  let site := site.conclude d outcome
  let done : Session × Site :=
    ({ s with phase := .listening, summary := s.summary.record outcome }, site.acknowledge d)
  match outcome with
  | .ok _ => done
  | .error e =>
    if e.isTransient then
      ({ s with phase := .finished, summary := { s.summary with storeUnavailable := true } }, site)
    else done

def attempt (p : Policy) (d : Delivery) (failed : Nat) (s : Session) (site : Site) :
    Session × Site :=
  let (result, site) := site.consume d.payload
  match p.next ConsumeError.isTransient failed result with
  | .again wait =>
    ({ s with phase := .retrying d (failed + 1) (site.clock + wait.ticks) }, site)
  | .stop _ => s.settle d result site

def countError (s : Session) : Session :=
  { s with summary := { s.summary with transportErrors := s.summary.transportErrors + 1 } }

/-- What the session does now, or none while it has to wait. When a signal and an item are both
there, `signalFirst` decides. -/
def step? (p : Policy) (signalled signalFirst : Bool) (s : Session) (site : Site) :
    Option (Session × Site) :=
  match s.phase with
  | .finished => none
  | .retrying d failed due => if due ≤ site.clock then some (s.attempt p d failed site) else none
  | .listening =>
    match site.broker.receive s.subscription with
    | (.pending, _) => if signalled then some (s.shutDown, site) else none
    | (.ended, _) =>
      if signalled && signalFirst then some (s.shutDown, site) else some (s.finish, site)
    | (.item (.error _), broker) =>
      if signalled && signalFirst then some (s.shutDown, site)
      else some (s.countError, { site with broker })
    | (.item (.ok d), broker) =>
      if signalled && signalFirst then some (s.shutDown, site)
      else some (s.attempt p d 0 { site with broker })

def due? (s : Session) : Option Nat :=
  match s.phase with
  | .retrying _ _ due => some due
  | .listening => none
  | .finished => none

end Session
end Consignment
