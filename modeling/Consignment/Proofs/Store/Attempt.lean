import Consignment.Consumer.Reconcile

/-! What one attempt does to a store. It reads, decides and writes; an error in the script stops it
before anything is written, and without one it does what it does in a store that never fails. -/
namespace Consignment

/-- An outcome that a recovered store may still change. -/
def ConsumeError.unsettled (outcome : Except ConsumeError Reconciliation) : Bool :=
  match outcome with
  | .ok _ => false
  | .error e => e.isTransient

def ConsumeError.isStore : ConsumeError → Bool
  | .store _ => true
  | .malformed _ => false
  | .invalid _ => false
  | .illegal _ _ _ => false

namespace Shipment

theorem target_ok {incoming : Shipment} {id : String} {status : Status}
    (h : incoming.target = .ok (id, status)) :
    incoming.id = some id ∧ incoming.status = some status := by
  unfold target at h
  split at h
  · cases h
  · cases h
  · next hid hstatus =>
    simp only [Except.ok.injEq, Prod.mk.injEq] at h
    obtain ⟨rfl, rfl⟩ := h
    exact ⟨hid, hstatus⟩

theorem settle_ok {incoming record : Shipment} {id : String} {status : Status}
    {found : Option Shipment} {done : Reconciliation}
    (h : incoming.settle id status found = .ok (record, done)) :
    (found = none ∧ record = incoming) ∨
      ∃ stored, found = some stored ∧ record = stored.overlay incoming ∧
        ∀ current, stored.status = some current → current.mayBecome status = true := by
  unfold settle at h
  split at h
  · simp only [Except.ok.injEq, Prod.mk.injEq] at h
    exact .inl ⟨rfl, h.1.symm⟩
  · next stored =>
    refine .inr ⟨stored, rfl, ?_⟩
    split at h
    · next hnone =>
      simp only [Except.ok.injEq, Prod.mk.injEq] at h
      refine ⟨h.1.symm, ?_⟩
      intro current hcurrent
      rw [hnone] at hcurrent
      cases hcurrent
    · next current hsome =>
      split at h
      · next hmay =>
        simp only [Except.ok.injEq, Prod.mk.injEq] at h
        refine ⟨h.1.symm, ?_⟩
        intro other hother
        obtain rfl : current = other := Option.some.inj (hsome.symm.trans hother)
        exact hmay
      · cases h

theorem settle_error {incoming : Shipment} {id : String} {status : Status}
    {found : Option Shipment} {e : ConsumeError} (h : incoming.settle id status found = .error e) :
    ∃ current, e = .illegal id current status := by
  unfold settle at h
  split at h
  · cases h
  split at h
  · cases h
  split at h
  · cases h
  · next current _ _ => exact ⟨current, (Except.error.inj h).symm⟩

@[simp] theorem id_overlay (current incoming : Shipment) :
    (current.overlay incoming).id = (incoming.id <|> current.id) := rfl

@[simp] theorem status_overlay (current incoming : Shipment) :
    (current.overlay incoming).status = (incoming.status <|> current.status) := rfl

theorem id_of_settle {incoming record : Shipment} {id : String} {status : Status}
    {found : Option Shipment} {done : Reconciliation} (ht : incoming.target = .ok (id, status))
    (h : incoming.settle id status found = .ok (record, done)) : record.id = some id := by
  obtain ⟨hid, -⟩ := target_ok ht
  rcases settle_ok h with ⟨-, rfl⟩ | ⟨stored, -, rfl, -⟩
  · exact hid
  · simp [hid]

theorem status_of_settle {incoming record : Shipment} {id : String} {status : Status}
    {found : Option Shipment} {done : Reconciliation} (ht : incoming.target = .ok (id, status))
    (h : incoming.settle id status found = .ok (record, done)) : record.status = some status := by
  obtain ⟨-, hstatus⟩ := target_ok ht
  rcases settle_ok h with ⟨-, rfl⟩ | ⟨stored, -, rfl, -⟩
  · exact hstatus
  · simp [hstatus]

end Shipment

namespace Store

def atRest (s : Store) : Store := { s with failures := [] }

@[simp] theorem records_atRest (s : Store) : s.atRest.records = s.records := rfl

@[simp] theorem writes_atRest (s : Store) : s.atRest.writes = s.writes := rfl

def consider (incoming : Shipment) (s : Store) :
    Except ConsumeError (Shipment × Reconciliation) × Store :=
  match incoming.target with
  | .error e => (.error e, s)
  | .ok (id, status) =>
    match s.find id with
    | (.error e, s) => (.error (.store e), s)
    | (.ok found, s) => (incoming.settle id status found, s)

def commit (record : Shipment) (done : Reconciliation) (s : Store) :
    Except ConsumeError Reconciliation × Store :=
  match s.upsert record with
  | (.error e, s) => (.error (.store e), s)
  | (.ok (), s) => (.ok done, s)

theorem reconcile_eq (incoming : Shipment) (s : Store) :
    s.reconcile incoming = match s.consider incoming with
      | (.error e, s) => (.error e, s)
      | (.ok (record, done), s) => s.commit record done := by
  unfold reconcile consider
  cases ht : incoming.target with
  | error e => rfl
  | ok target =>
    obtain ⟨id, status⟩ := target
    rcases hf : s.find id with ⟨answer, t⟩
    cases answer with
    | error e => simp [hf]
    | ok found =>
      simp only [hf]
      cases incoming.settle id status found with
      | error e => rfl
      | ok next => rfl

theorem consider_cases (incoming : Shipment) (s : Store) :
    (∃ e, incoming.target = .error e ∧ s.consider incoming = (.error e, s)) ∨
    ∃ id status, incoming.target = .ok (id, status) ∧
      ((∃ e rest, s.failures = e :: rest ∧
        s.consider incoming = (.error (.store e), { s with failures := rest })) ∨
      (s.failures = [] ∧
        s.consider incoming = (incoming.settle id status (s.records.get? id), s))) := by
  unfold consider find
  cases ht : incoming.target with
  | error e => exact .inl ⟨e, rfl, rfl⟩
  | ok target =>
    obtain ⟨id, status⟩ := target
    refine .inr ⟨id, status, rfl, ?_⟩
    cases hs : s.failures with
    | nil => exact .inr ⟨rfl, rfl⟩
    | cons e rest => exact .inl ⟨e, rest, rfl, rfl⟩

theorem commit_cases {record : Shipment} {id : String} (h : record.id = some id)
    (done : Reconciliation) (s : Store) :
    (∃ e rest, s.failures = e :: rest ∧
      s.commit record done = (.error (.store e), { s with failures := rest })) ∨
    (s.failures = [] ∧ s.commit record done =
      (.ok done, { s with records := s.records.put id record, writes := s.writes + 1 })) := by
  unfold commit upsert
  cases hs : s.failures with
  | nil => exact .inr ⟨rfl, by simp [h]⟩
  | cons e rest => exact .inl ⟨e, rest, rfl, rfl⟩

theorem target_not_store {incoming : Shipment} {e : ConsumeError}
    (h : incoming.target = .error e) : e.isStore = false := by
  unfold Shipment.target at h
  split at h <;> cases h <;> rfl

theorem settle_not_store {incoming : Shipment} {id : String} {status : Status}
    {found : Option Shipment} {e : ConsumeError} (h : incoming.settle id status found = .error e) :
    e.isStore = false := by
  obtain ⟨current, rfl⟩ := Shipment.settle_error h
  rfl

theorem admitted_not_store {payload : Bytes} {e : ConsumeError}
    (h : Shipment.admitted payload = .error e) : e.isStore = false := by
  unfold Shipment.admitted at h
  repeat' split at h
  all_goals cases h
  all_goals rfl

theorem reconcile_cases (incoming : Shipment) (s : Store) :
    (∃ e rest, s.failures = e :: rest ∧
      s.reconcile incoming = (.error (.store e), { s with failures := rest })) ∨
    (∃ e, e.isStore = false ∧ s.reconcile incoming = (.error e, s) ∧
      s.atRest.reconcile incoming = (.error e, s.atRest)) ∨
    ∃ id status record done, s.failures = [] ∧ incoming.target = .ok (id, status) ∧
      incoming.settle id status (s.records.get? id) = .ok (record, done) ∧
      s.reconcile incoming =
        (.ok done, { s with records := s.records.put id record, writes := s.writes + 1 }) := by
  rw [reconcile_eq, reconcile_eq]
  rcases consider_cases incoming s with ⟨e, ht, hd⟩ | ⟨id, status, ht, ⟨e, rest, hs, hd⟩ | ⟨hs, hd⟩⟩
  · refine .inr (.inl ⟨e, target_not_store ht, by rw [hd], ?_⟩)
    simp [consider, ht]
  · exact .inl ⟨e, rest, hs, by rw [hd]⟩
  · have hrest : s.atRest = s := by rw [atRest, ← hs]
    rw [hrest, hd]
    cases hsettle : incoming.settle id status (s.records.get? id) with
    | error e => exact .inr (.inl ⟨e, settle_not_store hsettle, rfl, rfl⟩)
    | ok next =>
      obtain ⟨record, done⟩ := next
      refine .inr (.inr ⟨id, status, record, done, hs, ht, hsettle, ?_⟩)
      rcases commit_cases (Shipment.id_of_settle ht hsettle) done s with ⟨e, rest, hs', -⟩ | ⟨-, hc⟩
      · simp [hs] at hs'
      · exact hc

theorem consume_cases (payload : Bytes) (s : Store) :
    (∃ e rest, s.failures = e :: rest ∧
      s.consume payload = (.error (.store e), { s with failures := rest })) ∨
    (∃ e, e.isStore = false ∧ s.consume payload = (.error e, s) ∧
      s.atRest.consume payload = (.error e, s.atRest)) ∨
    ∃ incoming id status record done, Shipment.admitted payload = .ok incoming ∧
      s.failures = [] ∧ incoming.target = .ok (id, status) ∧
      incoming.settle id status (s.records.get? id) = .ok (record, done) ∧
      s.consume payload =
        (.ok done, { s with records := s.records.put id record, writes := s.writes + 1 }) := by
  unfold consume
  cases ha : Shipment.admitted payload with
  | error e => exact .inr (.inl ⟨e, admitted_not_store ha, rfl, rfl⟩)
  | ok incoming =>
    rcases reconcile_cases incoming s with hfailed | hrefused | ⟨id, status, record, done, h⟩
    · exact .inl hfailed
    · exact .inr (.inl hrefused)
    · exact .inr (.inr ⟨incoming, id, status, record, done, rfl, h⟩)

theorem consume_ok {payload : Bytes} {s t : Store} {done : Reconciliation}
    (h : s.consume payload = (.ok done, t)) :
    ∃ incoming id status record, Shipment.admitted payload = .ok incoming ∧
      incoming.target = .ok (id, status) ∧
      incoming.settle id status (s.records.get? id) = .ok (record, done) ∧
      t = { s with records := s.records.put id record, writes := s.writes + 1 } := by
  rcases consume_cases payload s with ⟨e, rest, -, hc⟩ | ⟨e, -, hc, -⟩ |
    ⟨incoming, id, status, record, done', ha, -, ht, hsettle, hc⟩
  · rw [hc] at h
    cases h
  · rw [hc] at h
    cases h
  · rw [hc] at h
    simp only [Prod.mk.injEq, Except.ok.injEq] at h
    obtain ⟨rfl, rfl⟩ := h
    exact ⟨incoming, id, status, record, ha, ht, hsettle, rfl⟩

theorem consume_of_settled {payload : Bytes} {s : Store}
    (hs : ∀ e ∈ s.failures, e.isTransient = true)
    (h : ConsumeError.unsettled (s.consume payload).1 = false) :
    s.atRest.consume payload = ((s.consume payload).1, (s.consume payload).2.atRest) ∧
      (s.consume payload).2.failures = s.failures := by
  rcases consume_cases payload s with ⟨e, rest, hf, hc⟩ | ⟨e, -, hc, hrest⟩ |
    ⟨incoming, id, status, record, done, -, hf, -, -, hc⟩
  · have he : e.isTransient = true := hs e (by simp [hf])
    simp [hc, ConsumeError.unsettled, ConsumeError.isTransient, he] at h
  · rw [hc, hrest]
    exact ⟨rfl, rfl⟩
  · have hrest : s.atRest = s := by rw [atRest, ← hf]
    rw [hrest, hc]
    simp [atRest, hf]

theorem consume_of_unsettled {payload : Bytes} {s : Store}
    (h : ConsumeError.unsettled (s.consume payload).1 = true) :
    ∃ e, s.failures = e :: (s.consume payload).2.failures ∧
      (s.consume payload).2.atRest = s.atRest := by
  rcases consume_cases payload s with ⟨e, rest, hf, hc⟩ | ⟨e, he, hc, -⟩ |
    ⟨incoming, id, status, record, done, -, -, -, -, hc⟩
  · rw [hc]
    exact ⟨e, hf, rfl⟩
  · rw [hc] at h
    cases e <;>
      simp [ConsumeError.unsettled, ConsumeError.isTransient, ConsumeError.isStore] at h he
  · rw [hc] at h
    cases h

end Store
end Consignment
