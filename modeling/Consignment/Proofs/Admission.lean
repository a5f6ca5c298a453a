import Consignment.Consumer.Reconcile
import Consignment.Proofs.Validation

/-! What a shipment is known to be once it is admitted: it breaks no rule, and it says which one it
is and how it stands. -/
namespace Consignment.Shipment

/-- It has an id that can stand as a key, and a status. -/
def Identified (s : Shipment) : Prop :=
  (∃ id, s.id = some id ∧ Text.allBlank id = false ∧ id.length ≤ 64) ∧ s.status.isSome

def Passes (s : Shipment) : Prop := schema.checkDeclared s = .ok ()

theorem passes_iff {s : Shipment} :
    s.Passes ↔ ∀ f ∈ schema.fields, f.accepts f.rule.mandatory s = true :=
  Schema.checkDeclared_eq_ok_iff (by decide) (by decide)

instance (s : Shipment) : Decidable s.Passes := decidable_of_iff _ passes_iff.symm

theorem admitted_ok {payload : Bytes} {s : Shipment} (h : admitted payload = .ok s) :
    ofDocument payload = .ok s ∧ schema.checkMany s ["id", "status"] true = .ok () ∧ s.Passes := by
  unfold admitted at h
  split at h
  · cases h
  · next t hdoc =>
    split at h
    · cases h
    · next hmany =>
      split at h
      · cases h
      · next hdeclared =>
        obtain rfl := Except.ok.inj h
        exact ⟨hdoc, hmany, hdeclared⟩

theorem field?_id : schema.field? "id" =
    .ok ⟨⟨"id", [.notBlank, .maxLength 64], []⟩, fun s => .ofText s.id⟩ := rfl

theorem field?_status : schema.field? "status" =
    .ok ⟨⟨"status", [], []⟩, fun s => .ofText (s.status.map Status.name)⟩ := rfl

theorem check_id_iff {s : Shipment} : schema.check s "id" true = .ok () ↔
    ∃ id, s.id = some id ∧ Text.allBlank id = false ∧ id.length ≤ 64 := by
  rw [Schema.check_eq_ok_iff field?_id, FieldRule.accepts]
  cases hid : s.id with
  | none => simp [hid, Value.ofText, Value.isAbsent]
  | some id =>
    by_cases hempty : id = ""
    · simp [hid, hempty, Value.ofText, Value.isAbsent, Text.allBlank]
    · simp [hid, hempty, Value.ofText, Value.isAbsent, Rule.violations, Constraint.checkAll,
        Constraint.check]

theorem check_status_iff {s : Shipment} :
    schema.check s "status" true = .ok () ↔ s.status.isSome := by
  rw [Schema.check_eq_ok_iff field?_status, FieldRule.accepts]
  cases hstatus : s.status with
  | none => simp [hstatus, Value.ofText, Value.isAbsent]
  | some status =>
    have hname : status.name ≠ "" := by cases status <;> decide
    simp [hstatus, hname, Value.ofText, Value.isAbsent, Rule.violations, Constraint.checkAll]

theorem identified_iff {s : Shipment} :
    schema.checkMany s ["id", "status"] true = .ok () ↔ s.Identified := by
  rw [Schema.checkMany, forM_eq_ok, Identified, ← check_id_iff, ← check_status_iff]
  simp

theorem identified_of_admitted {payload : Bytes} {s : Shipment} (h : admitted payload = .ok s) :
    s.Identified := identified_iff.1 (admitted_ok h).2.1

theorem target_of_checkMany {s : Shipment}
    (h : schema.checkMany s ["id", "status"] true = .ok ()) :
    ∃ id status, s.target = .ok (id, status) := by
  obtain ⟨⟨id, hid, -⟩, hstatus⟩ := identified_iff.1 h
  obtain ⟨status, hs⟩ := Option.isSome_iff_exists.1 hstatus
  exact ⟨id, status, by simp [target, hid, hs]⟩

theorem target_of_admitted {payload : Bytes} {s : Shipment} (h : admitted payload = .ok s) :
    ∃ id status, s.target = .ok (id, status) := target_of_checkMany (admitted_ok h).2.1

end Consignment.Shipment
