import Consignment.Proofs.Store.Backend
import Consignment.Proofs.Store.Sequence

/-! All or nothing. An attempt that fails, at whichever of its calls, leaves the records as they
were; one that is reconciled changes one record, and says what it was changed from and to. -/
namespace Consignment

namespace Shipment
variable {incoming record : Shipment} {id : String} {status : Status} {found : Option Shipment}
  {done : Reconciliation}

theorem admitted_error {payload : Bytes} {e : ConsumeError} (h : admitted payload = .error e) :
    (∃ reason, e = .malformed reason) ∨ ∃ error, e = .invalid error := by
  cases hdoc : ofDocument payload with
  | error fault =>
    rw [admitted, hdoc] at h
    exact .inl ⟨_, (Except.error.inj h).symm⟩
  | ok s =>
    rw [admitted_of_document hdoc] at h
    cases hgate : s.gate with
    | error error =>
      rw [hgate] at h
      exact .inr ⟨error, (Except.error.inj h).symm⟩
    | ok u =>
      rw [hgate] at h
      cases h

def report (id : String) (status : Status) : Option Shipment → Reconciliation
  | none => .created id status
  | some stored => .updated id stored.status status

theorem report_of_settle (h : incoming.settle id status found = .ok (record, done)) :
    done = report id status found := by
  unfold settle at h
  split at h
  · cases h
    rfl
  · next stored =>
    rw [report]
    split at h
    · next hstatus =>
      cases h
      rw [hstatus]
    · next current hstatus =>
      split at h
      · cases h
        rw [hstatus]
      · cases h

/-- Nothing is written that is there already: no status may become itself. -/
theorem ne_of_settle (ht : incoming.target = .ok (id, status))
    (h : incoming.settle id status found = .ok (record, done)) : some record ≠ found := by
  rintro rfl
  have hstatus := status_of_settle ht h
  rcases settle_ok h with ⟨hnone, -⟩ | ⟨stored, hstored, -, hmay⟩
  · cases hnone
  · obtain rfl := Option.some.inj hstored
    have hlt := Status.rank_lt_of_mayBecome (hmay status hstatus)
    exact Nat.lt_irrefl _ hlt

end Shipment

namespace Store

structure Reconciled (id : String) (status : Status) (done : Reconciliation)
    (s t : Store) : Prop where
  reported : done = Shipment.report id status (s.records.get? id)
  record : ∃ record, t.records.get? id = some record ∧ record.id = some id ∧
    record.status = some status
  changed : ∀ other, t.records.get? other ≠ s.records.get? other ↔ other = id
  writes : t.writes = s.writes + 1
  failures : t.failures = s.failures

/-- What an attempt may leave behind. The errors are those that come up while it is at work. -/
def Atomic (payload : Bytes) (errors : List StoreError) (s : Store) :
    Except ConsumeError Reconciliation × Store → Prop
  | (.error e, t) => t.records = s.records ∧ t.writes = s.writes ∧
    match e with
    | .malformed _ => t.failures = s.failures
    | .invalid _ => t.failures = s.failures
    | .illegal _ _ _ => t.failures = s.failures ++ errors
    | .store e => s.failures ++ errors = e :: t.failures
  | (.ok done, t) => ∃ incoming id status, Shipment.ofDocument payload = .ok incoming ∧
    incoming.id = some id ∧ incoming.status = some status ∧ Reconciled id status done s t

/-- The payload is a document that meets all demands, and its status may follow the stored one. -/
def Awaits (s : Store) (payload : Bytes) : Prop :=
  ∃ incoming id status, Shipment.ofDocument payload = .ok incoming ∧ incoming.Acceptable ∧
    incoming.id = some id ∧ incoming.status = some status ∧
    ∀ current, s.statusOf id = some current → current.mayBecome status = true

theorem reconciled_of_settle {s : Store} {incoming record : Shipment} {id : String}
    {status : Status} {done : Reconciliation} (ht : incoming.target = .ok (id, status))
    (h : incoming.settle id status (s.records.get? id) = .ok (record, done)) :
    Reconciled id status done s (s.written id record) where
  reported := Shipment.report_of_settle h
  record := ⟨record, Register.get?_put_self .., Shipment.id_of_settle ht h,
    Shipment.status_of_settle ht h⟩
  changed other := by
    rw [get?_written]
    constructor
    · intro hne
      by_contra hother
      rw [if_neg (Ne.symm hother)] at hne
      exact hne rfl
    · rintro rfl
      rw [if_pos rfl]
      exact Shipment.ne_of_settle ht h
  writes := rfl
  failures := rfl

end Store

namespace Backend
open Store (Atomic)

/-- The store in memory, where errors join the script as soon as the read is done. -/
def interrupted (errors : List StoreError) : Backend Store where
  find id s := ((s.find id).1, (s.find id).2.fail errors)
  upsert := Store.upsert

theorem interrupted_nil : interrupted [] = memory := by
  have hfail : ∀ s : Store, s.fail [] = s := fun s => by simp [Store.fail]
  simp only [interrupted, memory, hfail]

theorem interrupted_cases {incoming : Shipment} {id : String} {status : Status}
    (ht : incoming.target = .ok (id, status)) (errors : List StoreError) (s : Store) :
    let r := (interrupted errors).reconcile incoming s
    (∃ e rest, s.failures ++ errors = e :: rest ∧
      r = (.error (.store e), { s with failures := rest })) ∨
    (∃ e, s.failures = [] ∧ incoming.settle id status (s.records.get? id) = .error e ∧
      r = (.error e, { s with failures := errors })) ∨
    ∃ record done, s.failures ++ errors = [] ∧
      incoming.settle id status (s.records.get? id) = .ok (record, done) ∧
      r = (.ok done, s.written id record) := by
  intro r
  cases hs : s.failures with
  | cons e rest =>
    have hfind : (interrupted errors).find id s =
        (.error e, { s with failures := rest ++ errors }) := by
      simp [interrupted, Store.find, hs, Store.fail]
    exact .inl ⟨e, rest ++ errors, rfl, reconcile_of_find_error ht hfind⟩
  | nil =>
    have hfind : (interrupted errors).find id s =
        (.ok (s.records.get? id), { s with failures := errors }) := by
      simp [interrupted, Store.find, hs, Store.fail]
    cases hsettle : incoming.settle id status (s.records.get? id) with
    | error e => exact .inr (.inl ⟨e, rfl, rfl, reconcile_of_settle_error ht hfind hsettle⟩)
    | ok next =>
      obtain ⟨record, done⟩ := next
      have hr : r = _ := reconcile_of_settle ht hfind hsettle
      cases errors with
      | cons e rest => exact .inl ⟨e, rest, rfl, hr⟩
      | nil =>
        have hid := Shipment.id_of_settle ht hsettle
        have hupsert : (interrupted []).upsert record { s with failures := [] } =
            (.ok (), s.written id record) := by
          simp [interrupted, Store.upsert, hid, hs, Store.written]
        rw [hupsert] at hr
        exact .inr (.inr ⟨record, done, rfl, rfl, hr⟩)

theorem atomic_consume (payload : Bytes) (errors : List StoreError) (s : Store) :
    Atomic payload errors s ((interrupted errors).consume payload s) := by
  unfold consume
  cases hadmitted : Shipment.admitted payload with
  | error e =>
    rcases Shipment.admitted_error hadmitted with ⟨reason, rfl⟩ | ⟨error, rfl⟩
    · exact ⟨rfl, rfl, rfl⟩
    · exact ⟨rfl, rfl, rfl⟩
  | ok incoming =>
    obtain ⟨id, status, ht⟩ := Shipment.target_of_admitted hadmitted
    rcases interrupted_cases ht errors s with ⟨e, rest, hscript, hr⟩ | ⟨e, hs, hsettle, hr⟩ |
      ⟨record, done, -, hsettle, hr⟩
    · simp only [hr]
      exact ⟨rfl, rfl, hscript⟩
    · obtain ⟨current, rfl⟩ := Shipment.settle_error hsettle
      simp only [hr]
      exact ⟨rfl, rfl, by rw [hs, List.nil_append]⟩
    · obtain ⟨hid, hstatus⟩ := Shipment.target_ok ht
      have hdoc := (Shipment.admitted_ok hadmitted).1
      simp only [hr]
      exact ⟨incoming, id, status, hdoc, hid, hstatus, Store.reconciled_of_settle ht hsettle⟩

theorem isOk_consume_iff (payload : Bytes) (errors : List StoreError) (s : Store) :
    ((interrupted errors).consume payload s).1.isOk = true ↔
      s.failures ++ errors = [] ∧ s.Awaits payload := by
  unfold consume
  cases hadmitted : Shipment.admitted payload with
  | error e =>
    refine iff_of_false Bool.false_ne_true ?_
    rintro ⟨-, incoming, id, status, hdoc, hacceptable, -⟩
    rw [Shipment.admitted_of_document hdoc, Shipment.gate_eq_ok_iff.2 hacceptable] at hadmitted
    cases hadmitted
  | ok incoming =>
    obtain ⟨id, status, ht⟩ := Shipment.target_of_admitted hadmitted
    obtain ⟨hid, hstatus⟩ := Shipment.target_ok ht
    have hdoc := (Shipment.admitted_ok hadmitted).1
    rcases interrupted_cases ht errors s with ⟨e, rest, hscript, hr⟩ | ⟨e, hs, hsettle, hr⟩ |
      ⟨record, done, hscript, hsettle, hr⟩
    · simp only [hr]
      refine iff_of_false Bool.false_ne_true ?_
      rw [hscript]
      simp
    · simp only [hr]
      refine iff_of_false Bool.false_ne_true ?_
      rintro ⟨-, other, id', status', hdoc', -, hid', hstatus', hmay⟩
      obtain rfl : incoming = other := Except.ok.inj (hdoc.symm.trans hdoc')
      obtain rfl : id = id' := Option.some.inj (hid.symm.trans hid')
      obtain rfl : status = status' := Option.some.inj (hstatus.symm.trans hstatus')
      obtain ⟨current, hcurrent, hnot, -⟩ := Shipment.settle_refused hsettle
      rw [hmay current hcurrent] at hnot
      cases hnot
    · simp only [hr]
      exact iff_of_true rfl ⟨hscript, incoming, id, status, hdoc,
        Shipment.acceptable_of_admitted hadmitted, hid, hstatus,
        fun _ hcurrent => Shipment.mayBecome_of_settle hsettle hcurrent⟩

end Backend

namespace Store

/-- An attempt writes its record or nothing, whether errors wait in the script or come up between
the read and the write. It writes the record if there are no such errors and the payload is
awaited. -/
theorem consume_all_or_nothing (payload : Bytes) (s : Store) :
    (Atomic payload [] s (s.consume payload) ∧
      ((s.consume payload).1.isOk = true ↔ s.failures = [] ∧ s.Awaits payload)) ∧
    ∀ errors, let r := (Backend.interrupted errors).consume payload s
      Atomic payload errors s r ∧
        (r.1.isOk = true ↔ s.failures ++ errors = [] ∧ s.Awaits payload) := by
  have hall := fun errors =>
    And.intro (Backend.atomic_consume payload errors s) (Backend.isOk_consume_iff payload errors s)
  refine ⟨?_, hall⟩
  have hnone := hall []
  rwa [Backend.interrupted_nil, Backend.memory_consume, List.append_nil] at hnone

example :
    (Backend.interrupted [.database "down"]).consume (Shipment.sample "A" .sent).write empty =
      (.error (.store (.database "down")), empty) := by decide +kernel

end Store
end Consignment
