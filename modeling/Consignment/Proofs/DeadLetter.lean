import Consignment.DeadLetter.Entry
import Consignment.Samples

/-! What becomes of a dead letter that cannot be read back. A row with a column that cannot be read
is corrupt, now and later; but a status that nobody knows is answered like a database out of reach,
as if the same text could be read at another time. -/
namespace Consignment

namespace LetterStatus
variable {text : String} {s : LetterStatus} {e : StoreError}

theorem ofName_name (s : LetterStatus) : ofName s.name = .ok s := by
  cases s <;> rfl

theorem ofName_eq_ok_iff : ofName text = .ok s ↔ text = s.name := by
  refine ⟨fun h => ?_, fun h => h ▸ ofName_name s⟩
  unfold ofName at h
  split at h
  · next t hfind =>
    cases h
    exact (of_decide_eq_true (List.find?_some hfind :)).symm
  · cases h

def unknown (text : String) : StoreError := .database ("Invalid DLQ status: " ++ text)

theorem eq_unknown_of_ofName (h : ofName text = .error e) : e = unknown text := by
  unfold ofName at h
  split at h
  · cases h
  · cases h
    rfl

theorem ofName_eq_error_iff :
    ofName text = .error e ↔ (∀ s : LetterStatus, text ≠ s.name) ∧ e = unknown text := by
  constructor
  · intro h
    refine ⟨fun s hs => ?_, eq_unknown_of_ofName h⟩
    rw [ofName_eq_ok_iff.2 hs] at h
    cases h
  · rintro ⟨hnone, rfl⟩
    cases h : ofName text with
    | ok s => exact absurd (ofName_eq_ok_iff.1 h) (hnone s)
    | error e => rw [eq_unknown_of_ofName h]

theorem final_iff : (∀ e, ofName text = .error e → e.isTransient = false) ↔
    ∃ s : LetterStatus, text = s.name := by
  constructor
  · intro h
    cases hread : ofName text with
    | ok s => exact ⟨s, ofName_eq_ok_iff.1 hread⟩
    | error e =>
      obtain rfl := eq_unknown_of_ofName hread
      cases h _ hread
  · rintro ⟨s, rfl⟩ e h
    rw [ofName_name] at h
    cases h

end LetterStatus

theorem bind_eq_ok {ε α β : Type} {x : Except ε α} {f : α → Except ε β} {b : β} :
    x >>= f = .ok b ↔ ∃ a, x = .ok a ∧ f a = .ok b := by
  cases x <;> simp [bind, Except.bind]

theorem bind_eq_error {ε α β : Type} {x : Except ε α} {f : α → Except ε β} {e : ε} :
    x >>= f = .error e ↔ x = .error e ∨ ∃ a, x = .ok a ∧ f a = .error e := by
  cases x <;> simp [bind, Except.bind]

/-! ## What a row can be refused for -/

def OrCorrupt {α : Type} (x : Except StoreError α) : Prop :=
  ∀ e, x = .error e → ∃ record reason, e = .corrupt record reason

theorem OrCorrupt.ok {α : Type} (a : α) : OrCorrupt (.ok a) := by
  rintro e ⟨⟩

theorem OrCorrupt.bind {α β : Type} {x : Except StoreError α} {f : α → Except StoreError β}
    (hx : OrCorrupt x) (hf : ∀ a, OrCorrupt (f a)) : OrCorrupt (x >>= f) := by
  intro e h
  rcases bind_eq_error.1 h with h | ⟨a, -, h⟩
  · exact hx e h
  · exact hf a e h

namespace LetterRow
variable {row : LetterRow} {a : LetterEntry} {e : StoreError}

section Columns
variable {α : Type} {record name : String} {value : Except String α}

@[simp] theorem column_eq_ok_iff {a : α} : column record name value = .ok a ↔ value = .ok a := by
  constructor
  · intro h
    cases value with
    | ok b =>
      cases h
      rfl
    | error reason => cases h
  · rintro rfl
    rfl

theorem orCorrupt_column : OrCorrupt (column record name value) := by
  intro e h
  cases value with
  | ok a => cases h
  | error reason =>
    cases h
    exact ⟨_, _, rfl⟩

end Columns

/-- The entry that the row holds, column by column. -/
structure Holds (row : LetterRow) (a : LetterEntry) : Prop where
  id : row.id = .ok a.id
  topic : row.topic = .ok a.delivery.topic
  key : row.key = .ok a.delivery.key
  partition : row.partition = .ok a.delivery.partition
  offset : row.offset = .ok a.delivery.offset
  payload : row.payload = .ok a.delivery.payload
  reason : row.reason = .ok a.reason
  message : row.message = .ok a.message
  failedAt : row.failedAt = .ok a.failedAt
  status : row.status = .ok a.status.name
  resolvedAt : row.resolvedAt = .ok a.resolvedAt
  resolvedBy : row.resolvedBy = .ok a.resolvedBy
  notes : row.notes = .ok a.notes

theorem entry_eq_ok_iff : row.entry = .ok a ↔ row.Holds a := by
  simp only [entry, remainder, bind_eq_ok, column_eq_ok_iff, LetterStatus.ofName_eq_ok_iff]
  constructor
  · rintro ⟨id, hid, text, hstatus, status, rfl, topic, htopic, key, hkey, payload, hpayload,
      partition, hpartition, offset, hoffset, reason, hreason, message, hmessage,
      failedAt, hfailedAt, resolvedAt, hresolvedAt, resolvedBy, hresolvedBy, notes, hnotes, ⟨⟩⟩
    exact ⟨hid, htopic, hkey, hpartition, hoffset, hpayload, hreason, hmessage, hfailedAt, hstatus,
      hresolvedAt, hresolvedBy, hnotes⟩
  · intro h
    exact ⟨_, h.id, _, h.status, _, rfl, _, h.topic, _, h.key, _, h.payload, _, h.partition,
      _, h.offset, _, h.reason, _, h.message, _, h.failedAt, _, h.resolvedAt, _, h.resolvedBy,
      _, h.notes, rfl⟩

theorem orCorrupt_remainder (row : LetterRow) (id : Int) (record : String)
    (status : LetterStatus) : OrCorrupt (row.remainder id record status) := by
  unfold remainder
  -- one column after the other
  repeat refine orCorrupt_column.bind fun _ => ?_
  exact .ok _

/-- The row has an id, and a text for a status that is the name of none. -/
def StatusUnknown (row : LetterRow) (text : String) : Prop :=
  (∃ id, row.id = .ok id) ∧ row.status = .ok text ∧ ∀ s : LetterStatus, text ≠ s.name

theorem entry_of_columns {id : Int} {text : String} (hid : row.id = .ok id)
    (hstatus : row.status = .ok text) :
    row.entry = LetterStatus.ofName text >>= row.remainder id s!"failed_messages/{id}" := by
  rw [entry, hid, hstatus]
  rfl

theorem entry_of_statusUnknown {text : String} (h : row.StatusUnknown text) :
    row.entry = .error (LetterStatus.unknown text) := by
  obtain ⟨⟨id, hid⟩, hstatus, hnone⟩ := h
  rw [entry_of_columns hid hstatus, LetterStatus.ofName_eq_error_iff.2 ⟨hnone, rfl⟩]
  rfl

theorem entry_eq_error_cases (h : row.entry = .error e) :
    (∃ text, row.StatusUnknown text) ∨ ∃ record reason, e = .corrupt record reason := by
  unfold entry at h
  rcases bind_eq_error.1 h with h | ⟨id, hid, h⟩
  · exact .inr (orCorrupt_column e h)
  rcases bind_eq_error.1 h with h | ⟨text, htext, h⟩
  · exact .inr (orCorrupt_column e h)
  rcases bind_eq_error.1 h with h | ⟨status, -, h⟩
  · exact .inl ⟨text, ⟨id, column_eq_ok_iff.1 hid⟩, column_eq_ok_iff.1 htext,
      (LetterStatus.ofName_eq_error_iff.1 h).1⟩
  · exact .inr (row.orCorrupt_remainder id _ status e h)

end LetterRow

/-- A text is read as a status if and only if it is the name of one. Every other text is answered
with an error of the database that repeats it, and that is an error to try again, so that none but
names are never answered with one. A row is read as the entry that it holds. One that cannot be read
is corrupt, with a single exception: its id can be read, and its status is a text that is no
name. -/
theorem unknown_status_passes_for_outage (text : String) (row : LetterRow) :
    (∀ s, LetterStatus.ofName text = .ok s ↔ text = s.name) ∧
    (∀ e, LetterStatus.ofName text = .error e ↔
      (∀ s : LetterStatus, text ≠ s.name) ∧ e = .database ("Invalid DLQ status: " ++ text)) ∧
    ((∀ e, LetterStatus.ofName text = .error e → e.isTransient = false) ↔
      ∃ s : LetterStatus, text = s.name) ∧
    (∀ a, row.entry = .ok a ↔ row.Holds a) ∧
    ∀ e, row.entry = .error e →
      (e.isTransient = true ↔ ∃ text, row.StatusUnknown text) ∧
      (e.isTransient = false ↔ ∃ record reason, e = .corrupt record reason) := by
  refine ⟨fun s => LetterStatus.ofName_eq_ok_iff, fun e => LetterStatus.ofName_eq_error_iff,
    LetterStatus.final_iff, fun a => LetterRow.entry_eq_ok_iff, ?_⟩
  intro e h
  have hunknown : ∀ text, row.StatusUnknown text → e = LetterStatus.unknown text := by
    intro text htext
    rw [LetterRow.entry_of_statusUnknown htext] at h
    exact (Except.error.inj h).symm
  rcases LetterRow.entry_eq_error_cases h with ⟨text, htext⟩ | ⟨record, reason, rfl⟩
  · obtain rfl := hunknown text htext
    refine ⟨iff_of_true rfl ⟨text, htext⟩, iff_of_false Bool.false_ne_true.symm ?_⟩
    rintro ⟨record, reason, ⟨⟩⟩
  · refine ⟨iff_of_false Bool.false_ne_true ?_, iff_of_true rfl ⟨record, reason, rfl⟩⟩
    rintro ⟨text, htext⟩
    cases hunknown text htext

/-- The same row with a status that nobody knows, and with a column of another type. -/
theorem unknown_status_passes_for_outage_replayed :
    let row : LetterRow :=
      ⟨.ok 7, .ok "SHIPMENT", .ok none, .ok 0, .ok 4, .ok [], .ok "validation",
        .ok "status is required", .ok sampleTime, .ok "replayed", .ok none, .ok none, .ok none⟩
    let widened : LetterRow :=
      { row with status := .ok "pending", partition := .error "mismatched types" }
    ¬ (∀ e, LetterStatus.ofName "replayed" = .error e → e.isTransient = false) ∧
      (∃ e, row.entry = .error e ∧ e.isTransient = true) ∧
      ∃ e, widened.entry = .error e ∧ e.isTransient = false := by
  intro row widened
  obtain ⟨-, -, hfinal, -, hrow⟩ := unknown_status_passes_for_outage "replayed" row
  obtain ⟨-, -, -, -, hwidened⟩ := unknown_status_passes_for_outage "pending" widened
  have hnone : ∀ s : LetterStatus, "replayed" ≠ s.name := by
    intro s
    cases s <;> decide
  refine ⟨fun h => ?_, ⟨_, rfl, (hrow _ rfl).1.2 ⟨"replayed", ⟨7, rfl⟩, rfl, hnone⟩⟩,
    ⟨_, rfl, (hwidened _ rfl).2.2 ⟨_, _, rfl⟩⟩⟩
  obtain ⟨s, hs⟩ := hfinal.1 h
  exact hnone s hs

/-- No status is called so, and still it is an error to try again. -/
theorem replayed_is_tried_again :
    (∀ s : LetterStatus, "replayed" ≠ s.name) ∧
      ∃ e, LetterStatus.ofName "replayed" = .error e ∧ e.isTransient = true := by
  refine ⟨fun s => ?_, _, rfl, rfl⟩
  cases s <;> decide

end Consignment
