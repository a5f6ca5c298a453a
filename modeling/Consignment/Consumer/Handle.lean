import Consignment.Consumer.Reconcile
import Consignment.Site

/-! One attempt at a delivery, and what is done once its outcome is settled. -/
namespace Consignment.Site

def consume (payload : Bytes) (s : Site) : Except ConsumeError Reconciliation × Site :=
  let (result, store) := s.store.consume payload
  (result, { s with store })

/-- The letter is counted whether or not anyone keeps it. -/
def bury (d : Delivery) (reason : LetterReason) (error : ConsumeError) (s : Site) : Site :=
  let s := s.increment (.deadLettered reason.name) 1
  { s with sink := s.sink.record ⟨d, reason, error.message⟩ }

/-- Counts the outcome of a delivery, and buries what can never be processed. -/
def conclude (d : Delivery) (outcome : Except ConsumeError Reconciliation) (s : Site) : Site :=
  match outcome with
  | .ok _ => s.increment (.reconciled d.topic) 1
  | .error (.illegal _ _ _) => s.increment (.rejected d.topic) 1
  | .error e =>
    if e.isTransient then s.increment (.storeUnavailable d.topic) 1
    else match e.letterReason with
      | some reason => s.bury d reason e
      | none => s

def acknowledge (d : Delivery) (s : Site) : Site :=
  { s with broker := s.broker.acknowledge d.topic d.offset }

@[simp] theorem conclude_store (d : Delivery) (r : Except ConsumeError Reconciliation) (s : Site) :
    (s.conclude d r).store = s.store := by
  unfold conclude
  split
  · rfl
  · rfl
  split
  · rfl
  split <;> rfl

@[simp] theorem conclude_broker (d : Delivery) (r : Except ConsumeError Reconciliation)
    (s : Site) : (s.conclude d r).broker = s.broker := by
  unfold conclude
  split
  · rfl
  · rfl
  split
  · rfl
  split <;> rfl

@[simp] theorem conclude_clock (d : Delivery) (r : Except ConsumeError Reconciliation) (s : Site) :
    (s.conclude d r).clock = s.clock := by
  unfold conclude
  split
  · rfl
  · rfl
  split
  · rfl
  split <;> rfl

end Consignment.Site
