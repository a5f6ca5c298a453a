import Consignment.DeadLetter
import Consignment.Document
import Consignment.Validation.Entities

/-! What one shipment document does to the store. The lifecycle decides alone: a document may be
delivered again at any time, and a status that no longer follows the stored one is refused. -/
namespace Consignment

inductive ConsumeError
  | malformed (reason : String)
  | invalid (error : CheckError)
  | illegal (id : String) (stored incoming : Status)
  | store (error : StoreError)
deriving DecidableEq

namespace ConsumeError

def message : ConsumeError → String
  | .malformed reason => "Failed to deserialize shipment: " ++ reason
  | .invalid e => e.message
  | .illegal id stored incoming =>
    s!"Illegal transition for shipment '{id}': {stored.name} -> {incoming.name}"
  | .store e => e.message

def isTransient : ConsumeError → Bool
  | .store e => e.isTransient
  | _ => false

/-- None for what is no fault of the message, or is one that everyone expects. -/
def letterReason : ConsumeError → Option LetterReason
  | .malformed _ => some .deserialization
  | .invalid _ => some .validation
  | .illegal _ _ _ => none
  | .store e => if e.isTransient then none else some .store

end ConsumeError

inductive Reconciliation
  | created (id : String) (status : Status)
  | updated (id : String) (before : Option Status) (status : Status)
deriving DecidableEq

namespace Shipment

/-- The shipment in a payload that may reach the store: it says which one it is and how it stands,
and breaks no rule. -/
def admitted (payload : Bytes) : Except ConsumeError Shipment :=
  match ofDocument payload with
  | .error f => .error (.malformed (f.message payload))
  | .ok s =>
    match schema.checkMany s ["id", "status"] true with
    | .error e => .error (.invalid e)
    | .ok () =>
      match schema.checkDeclared s with
      | .error e => .error (.invalid e)
      | .ok () => .ok s

def target (incoming : Shipment) : Except ConsumeError (String × Status) :=
  match incoming.id, incoming.status with
  | none, _ => .error (.invalid (.invalid "id" "is required"))
  | some _, none => .error (.invalid (.invalid "status" "is required"))
  | some id, some status => .ok (id, status)

/-- The record to write over what was found, if the lifecycle allows it. A shipment that is not
known yet may start anywhere, and one without a status may go on anywhere. -/
def settle (id : String) (status : Status) (incoming : Shipment) (found : Option Shipment) :
    Except ConsumeError (Shipment × Reconciliation) :=
  match found with
  | none => .ok (incoming, .created id status)
  | some stored =>
    match stored.status with
    | none => .ok (stored.overlay incoming, .updated id none status)
    | some current =>
      if current.mayBecome status then
        .ok (stored.overlay incoming, .updated id (some current) status)
      else .error (.illegal id current status)

theorem not_transient_of_target {incoming : Shipment} {e : ConsumeError}
    (h : incoming.target = .error e) : e.isTransient = false := by
  unfold target at h
  split at h <;> simp at h <;> subst h <;> rfl

theorem not_transient_of_settle {id : String} {status : Status} {incoming : Shipment}
    {found : Option Shipment} {e : ConsumeError}
    (h : incoming.settle id status found = .error e) : e.isTransient = false := by
  unfold settle at h
  split at h
  · simp at h
  split at h
  · simp at h
  split at h <;> simp at h
  subst h; rfl

theorem not_transient_of_admitted {payload : Bytes} {e : ConsumeError}
    (h : admitted payload = .error e) : e.isTransient = false := by
  unfold admitted at h
  split at h
  · simp at h; subst h; rfl
  split at h
  · simp at h; subst h; rfl
  split at h <;> simp at h
  subst h; rfl

end Shipment

namespace Store

/-- Reads, decides and writes. Nothing is written unless both calls succeed. -/
def reconcile (incoming : Shipment) (store : Store) :
    Except ConsumeError Reconciliation × Store :=
  match incoming.target with
  | .error e => (.error e, store)
  | .ok (id, status) =>
    match store.find id with
    | (.error e, store) => (.error (.store e), store)
    | (.ok found, store) =>
      match incoming.settle id status found with
      | .error e => (.error e, store)
      | .ok (record, done) =>
        match store.upsert record with
        | (.error e, store) => (.error (.store e), store)
        | (.ok (), store) => (.ok done, store)

def consume (payload : Bytes) (store : Store) : Except ConsumeError Reconciliation × Store :=
  match Shipment.admitted payload with
  | .error e => (.error e, store)
  | .ok s => store.reconcile s

theorem find_le (id : String) (s : Store) :
    (s.find id).2.failures.length ≤ s.failures.length := by
  unfold find; cases h : s.failures <;> simp [h]

theorem find_lt {id : String} {s t : Store} {e : StoreError} (h : s.find id = (.error e, t)) :
    t.failures.length < s.failures.length := by
  unfold find at h
  cases hs : s.failures with
  | nil => simp [hs] at h
  | cons f fs => simp [hs] at h; simp [← h.2]

theorem upsert_le (record : Shipment) (s : Store) :
    (s.upsert record).2.failures.length ≤ s.failures.length := by
  unfold upsert
  cases h : s.failures with
  | nil => cases record.id <;> simp [h]
  | cons e es => simp

theorem upsert_lt {record : Shipment} {s t : Store} {e : StoreError}
    (h : s.upsert record = (.error e, t)) (he : e.isTransient) :
    t.failures.length < s.failures.length := by
  unfold upsert at h
  cases hs : s.failures with
  | nil =>
    simp only [hs] at h
    split at h <;> simp at h
    simp [← h.1, StoreError.isTransient] at he
  | cons f fs => simp [hs] at h; simp [← h.2]

theorem reconcile_le (incoming : Shipment) (s : Store) :
    (s.reconcile incoming).2.failures.length ≤ s.failures.length := by
  unfold reconcile
  split
  · exact Nat.le_refl _
  · next id status _ =>
    have hf := find_le id s
    split
    · next hfind => simpa [hfind] using hf
    · next found t hfind =>
      rw [hfind] at hf
      split
      · exact hf
      · next record _ _ =>
        have hu := upsert_le record t
        split <;> next hup => rw [hup] at hu; exact Nat.le_trans hu hf

theorem reconcile_lt {incoming : Shipment} {s : Store} {e : ConsumeError}
    (h : (s.reconcile incoming).1 = .error e) (he : e.isTransient) :
    (s.reconcile incoming).2.failures.length < s.failures.length := by
  unfold reconcile at h ⊢
  split at h
  · next ht =>
    obtain rfl := Except.error.inj h
    simp [Shipment.not_transient_of_target ht] at he
  · next id status ht =>
    have hf := find_le id s
    split at h
    · next hfind => simpa [ht, hfind] using find_lt hfind
    · next found t hfind =>
      simp only [hfind] at hf ⊢
      split at h
      · next hs =>
        obtain rfl := Except.error.inj h
        simp [Shipment.not_transient_of_settle hs] at he
      · split at h
        · next hup =>
          obtain rfl := Except.error.inj h
          simp only
          exact Nat.lt_of_lt_of_le (upsert_lt hup he) hf
        · simp at h

theorem consume_le (payload : Bytes) (s : Store) :
    (s.consume payload).2.failures.length ≤ s.failures.length := by
  unfold consume
  split
  · exact Nat.le_refl _
  · exact reconcile_le _ s

theorem consume_lt {payload : Bytes} {s : Store} {e : ConsumeError}
    (h : (s.consume payload).1 = .error e) (he : e.isTransient) :
    (s.consume payload).2.failures.length < s.failures.length := by
  unfold consume at h ⊢
  split at h
  · next ha =>
    obtain rfl := Except.error.inj h
    simp [Shipment.not_transient_of_admitted ha] at he
  · exact reconcile_lt h he

end Store
end Consignment
