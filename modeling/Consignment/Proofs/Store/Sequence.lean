import Consignment.Proofs.Admission
import Consignment.Proofs.Store.Lifecycle

/-! Payloads one after the other in a store that does not fail. What a payload comes to is decided
by the record of the one shipment that it is about. -/
namespace Consignment

namespace Shipment

/-- Which shipment a payload is about, whatever else may be wrong with it. -/
def subject? (payload : Bytes) : Option String := (ofDocument payload).toOption.bind (·.id)

def intent (payload : Bytes) : Except ConsumeError (Shipment × String × Status) :=
  match admitted payload with
  | .error e => .error e
  | .ok incoming =>
    match incoming.target with
    | .error e => .error e
    | .ok (id, status) => .ok (incoming, id, status)

def merged (found : Option Shipment) (incoming : Shipment) : Shipment :=
  found.elim incoming (·.overlay incoming)

theorem ofDocument_of_admitted {payload : Bytes} {s : Shipment} (h : admitted payload = .ok s) :
    ofDocument payload = .ok s := (admitted_ok h).1

variable {payload : Bytes} {incoming : Shipment} {id : String} {status : Status}

theorem intent_ok (h : intent payload = .ok (incoming, id, status)) :
    admitted payload = .ok incoming ∧ incoming.target = .ok (id, status) := by
  unfold intent at h
  split at h
  · cases h
  · next s hadmitted =>
    split at h
    · cases h
    · next htarget =>
      cases h
      exact ⟨hadmitted, htarget⟩

theorem status_of_intent (h : intent payload = .ok (incoming, id, status)) :
    incoming.status = some status :=
  (target_ok (intent_ok h).2).2

theorem subject?_of_intent (h : intent payload = .ok (incoming, id, status)) :
    subject? payload = some id := by
  obtain ⟨hadmitted, htarget⟩ := intent_ok h
  obtain ⟨hid, -⟩ := target_ok htarget
  rw [subject?, ofDocument_of_admitted hadmitted]
  exact hid

theorem intent_of_no_subject (h : subject? payload = none) :
    ∃ e, intent payload = .error e := by
  cases hintent : intent payload with
  | error e => exact ⟨e, rfl⟩
  | ok intent =>
    obtain ⟨incoming, id, status⟩ := intent
    rw [subject?_of_intent hintent] at h
    cases h

theorem intent_not_illegal {e : ConsumeError} (h : intent payload = .error e) (id : String)
    (stored incoming : Status) : e ≠ .illegal id stored incoming := by
  rintro rfl
  unfold intent at h
  split at h
  · next hadmitted =>
    cases h
    unfold admitted at hadmitted
    repeat' split at hadmitted
    all_goals cases hadmitted
  · split at h
    · next htarget =>
      cases h
      unfold target at htarget
      split at htarget <;> cases htarget
    · cases h

theorem merged_of_settle {record : Shipment} {found : Option Shipment} {done : Reconciliation}
    (h : incoming.settle id status found = .ok (record, done)) :
    record = incoming.merged found := by
  rcases settle_ok h with ⟨rfl, rfl⟩ | ⟨stored, rfl, rfl, -⟩ <;> rfl

theorem settle_refused {found : Option Shipment} {e : ConsumeError}
    (h : incoming.settle id status found = .error e) :
    ∃ current, found.bind (·.status) = some current ∧ current.mayBecome status = false ∧
      e = .illegal id current status := by
  unfold settle at h
  split at h
  · cases h
  split at h
  · cases h
  · next stored current hstatus =>
    split at h
    · cases h
    · next hmay => exact ⟨current, hstatus, by simpa using hmay, (Except.error.inj h).symm⟩

theorem mayBecome_of_settle {record : Shipment} {found : Option Shipment} {done : Reconciliation}
    (h : incoming.settle id status found = .ok (record, done)) {current : Status}
    (hcurrent : found.bind (·.status) = some current) : current.mayBecome status = true := by
  obtain ⟨stored, hstored, hstatus⟩ := Option.bind_eq_some_iff.1 hcurrent
  rcases settle_ok h with ⟨hnone, -⟩ | ⟨other, hother, -, hmay⟩
  · rw [hstored] at hnone
    cases hnone
  · rw [hstored] at hother
    cases hother
    exact hmay current hstatus

theorem status_merged (h : incoming.status = some status) (found : Option Shipment) :
    (incoming.merged found).status = some status := by
  cases found <;> simp [merged, h]

end Shipment

namespace Store
variable {s t : Store}

def written (id : String) (record : Shipment) (s : Store) : Store :=
  { s with records := s.records.put id record, writes := s.writes + 1 }

theorem get?_written (id other : String) (record : Shipment) (s : Store) :
    (s.written id record).records.get? other =
      if id = other then some record else s.records.get? other :=
  Register.get?_put ..

theorem statusOf_written (id other : String) (record : Shipment) (s : Store) :
    (s.written id record).statusOf other =
      if id = other then record.status else s.statusOf other := by
  unfold statusOf
  rw [get?_written]
  split <;> rfl

def afterEach (s : Store) (payloads : List Bytes) : Store :=
  payloads.foldl (fun s payload => (s.consume payload).2) s

def answers : Store → List Bytes → List (Except ConsumeError Reconciliation)
  | _, [] => []
  | s, payload :: rest => (s.consume payload).1 :: answers (s.consume payload).2 rest

@[simp] theorem afterEach_cons (s : Store) (payload : Bytes) (rest : List Bytes) :
    s.afterEach (payload :: rest) = (s.consume payload).2.afterEach rest := rfl

theorem afterEach_append (s : Store) (front back : List Bytes) :
    s.afterEach (front ++ back) = (s.afterEach front).afterEach back := List.foldl_append

theorem answers_append (s : Store) (front back : List Bytes) :
    s.answers (front ++ back) = s.answers front ++ (s.afterEach front).answers back := by
  induction front generalizing s with
  | nil => rfl
  | cons payload front ih => simp only [List.cons_append, answers, afterEach_cons, ih]

theorem mem_answers {payloads : List Bytes} {answer : Except ConsumeError Reconciliation} :
    answer ∈ s.answers payloads ↔ ∃ front payload back, payloads = front ++ payload :: back ∧
      ((s.afterEach front).consume payload).1 = answer := by
  constructor
  · intro h
    induction payloads generalizing s with
    | nil => cases h
    | cons payload rest ih =>
      rcases List.mem_cons.1 h with rfl | h
      · exact ⟨[], payload, rest, rfl, rfl⟩
      · obtain ⟨front, other, back, rfl, hanswer⟩ := ih h
        exact ⟨payload :: front, other, back, rfl, hanswer⟩
  · rintro ⟨front, payload, back, rfl, rfl⟩
    simp [answers_append, answers]

/-! ## One payload -/

theorem consume_of_intent_error {payload : Bytes} {e : ConsumeError}
    (h : Shipment.intent payload = .error e) (s : Store) : s.consume payload = (.error e, s) := by
  unfold Shipment.intent at h
  unfold consume
  cases hadmitted : Shipment.admitted payload with
  | error other =>
    simp only [hadmitted] at h ⊢
    rw [Except.error.inj h]
  | ok incoming =>
    simp only [hadmitted, reconcile] at h ⊢
    cases htarget : incoming.target with
    | error other =>
      simp only [htarget] at h ⊢
      rw [Except.error.inj h]
    | ok target => simp [htarget] at h

theorem consume_of_intent {payload : Bytes} {incoming : Shipment} {id : String} {status : Status}
    (h : Shipment.intent payload = .ok (incoming, id, status)) (hs : s.failures = []) :
    s.consume payload = match incoming.settle id status (s.records.get? id) with
      | .error e => (.error e, s)
      | .ok (record, done) => (.ok done, s.written id record) := by
  obtain ⟨hadmitted, htarget⟩ := Shipment.intent_ok h
  have hfind : s.find id = (.ok (s.records.get? id), s) := by simp [find, hs]
  simp only [consume, hadmitted, reconcile, htarget, hfind]
  cases hsettle : incoming.settle id status (s.records.get? id) with
  | error e => rfl
  | ok next =>
    obtain ⟨record, done⟩ := next
    have hid := Shipment.id_of_settle htarget hsettle
    simp [upsert, hs, hid, written]

theorem consume_rest_cases (payload : Bytes) (hs : s.failures = []) :
    (∃ e, Shipment.intent payload = .error e ∧ s.consume payload = (.error e, s)) ∨
    (∃ incoming id status current, Shipment.intent payload = .ok (incoming, id, status) ∧
      s.statusOf id = some current ∧ current.mayBecome status = false ∧
      s.consume payload = (.error (.illegal id current status), s)) ∨
    ∃ incoming id status done, Shipment.intent payload = .ok (incoming, id, status) ∧
      (∀ current, s.statusOf id = some current → current.mayBecome status = true) ∧
      s.consume payload = (.ok done, s.written id (incoming.merged (s.records.get? id))) := by
  cases hintent : Shipment.intent payload with
  | error e => exact .inl ⟨e, rfl, consume_of_intent_error hintent s⟩
  | ok intent =>
    obtain ⟨incoming, id, status⟩ := intent
    right
    rw [consume_of_intent hintent hs]
    cases hsettle : incoming.settle id status (s.records.get? id) with
    | ok next =>
      obtain ⟨record, done⟩ := next
      right
      refine ⟨incoming, id, status, done, rfl, ?_, by rw [Shipment.merged_of_settle hsettle]⟩
      exact fun _ hcurrent => Shipment.mayBecome_of_settle hsettle hcurrent
    | error e =>
      left
      obtain ⟨current, hcurrent, hmay, rfl⟩ := Shipment.settle_refused hsettle
      exact ⟨incoming, id, status, current, rfl, hcurrent, hmay, rfl⟩

theorem intent_of_illegal {payload : Bytes} {id : String} {current status : Status}
    (hs : s.failures = []) (h : (s.consume payload).1 = .error (.illegal id current status)) :
    ∃ incoming, Shipment.intent payload = .ok (incoming, id, status) ∧
      s.statusOf id = some current := by
  rcases consume_rest_cases payload hs with ⟨e, hintent, hc⟩ |
    ⟨incoming, _, _, _, hintent, hcurrent, -, hc⟩ | ⟨_, _, _, _, -, -, hc⟩
  · rw [hc] at h
    exact absurd (Except.error.inj h) (Shipment.intent_not_illegal hintent _ _ _)
  · rw [hc] at h
    cases h
    exact ⟨incoming, hintent, hcurrent⟩
  · rw [hc] at h
    cases h

def Refuses (s : Store) (payload : Bytes) : Prop := ∃ e, s.consume payload = (.error e, s)

theorem refuses_or_writes (payload : Bytes) (hs : s.failures = []) :
    s.Refuses payload ∨
    ∃ incoming id status done, Shipment.intent payload = .ok (incoming, id, status) ∧
      (∀ current, s.statusOf id = some current → current.mayBecome status = true) ∧
      s.consume payload = (.ok done, s.written id (incoming.merged (s.records.get? id))) := by
  rcases consume_rest_cases payload hs with ⟨e, -, h⟩ | ⟨_, id, status, current, -, -, -, h⟩ | h
  · exact .inl ⟨e, h⟩
  · exact .inl ⟨.illegal id current status, h⟩
  · exact .inr h

theorem failures_consume (payload : Bytes) (hs : s.failures = []) :
    (s.consume payload).2.failures = [] := by
  rcases refuses_or_writes payload hs with ⟨e, h⟩ | ⟨incoming, id, status, done, -, -, h⟩
  · rw [h]
    exact hs
  · rw [h]
    exact hs

theorem failures_afterEach (payloads : List Bytes) (hs : s.failures = []) :
    (s.afterEach payloads).failures = [] := by
  induction payloads generalizing s with
  | nil => exact hs
  | cons payload rest ih => exact ih (failures_consume payload hs)

theorem writes_afterEach (payloads : List Bytes) (hs : s.failures = []) :
    (s.afterEach payloads).writes =
      s.writes + (payloads.zip (s.answers payloads)).countP (·.2.isOk) := by
  induction payloads generalizing s with
  | nil => rfl
  | cons payload rest ih =>
    rw [afterEach_cons, ih (failures_consume payload hs)]
    simp only [answers, List.zip_cons_cons, List.countP_cons]
    rcases refuses_or_writes payload hs with ⟨e, h⟩ | ⟨incoming, id, status, done, -, -, h⟩
    · simp [h, Except.isOk, Except.toBool]
    · simp only [h, written, Except.isOk, Except.toBool, if_true]
      omega

end Store
end Consignment
