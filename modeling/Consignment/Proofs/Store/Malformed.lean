import Mathlib.Data.List.ReduceOption
import Consignment.Proofs.Admission
import Consignment.Proofs.Fields
import Consignment.Proofs.Store.Attempt

/-! What is no document never reaches the store. Documents are objects, and also lists, whose items
are taken for the fields in the order in which those are declared. -/
namespace Consignment

open Json (Frame IsDocument)

namespace Shipment

theorem isDocument_of_read {payload : Bytes} {s : Shipment} (h : ofDocument payload = .ok s) :
    ∃ f is, IsDocument f is payload ∧ (f = .list → is.length ≤ members.length) :=
  Json.document_form (fun field hfield => (fields.regular field hfield).formed) h

end Shipment

namespace Store

theorem isDocument_of_consumed {payload : Bytes} {s : Store} {done : Reconciliation}
    (h : (s.consume payload).1 = .ok done) :
    ∃ f is, IsDocument f is payload ∧ (f = .list → is.length ≤ Shipment.members.length) := by
  obtain ⟨incoming, id, status, record, hadmitted, -⟩ := consume_ok (Prod.ext h rfl)
  exact Shipment.isDocument_of_read (Shipment.admitted_ok hadmitted).1

/-- What is neither an object nor a list that is short enough is malformed, and the store is not
even asked. -/
theorem malformed_unless_document {payload : Bytes}
    (hobject : ∀ is, ¬ IsDocument .object is payload)
    (hlist : ∀ is, is.length ≤ Shipment.members.length → ¬ IsDocument .list is payload) :
    ∃ reason, ∀ s : Store, s.consume payload = (.error (.malformed reason), s) := by
  cases h : Shipment.ofDocument payload with
  | ok s =>
    obtain ⟨f, is, hdoc, hlength⟩ := Shipment.isDocument_of_read h
    cases f with
    | list => exact absurd hdoc (hlist is (hlength rfl))
    | object => exact absurd hdoc (hobject is)
  | error fault =>
    refine ⟨fault.message payload, ?_⟩
    intro s
    rw [consume, Shipment.admitted, h]

/-- An object that was cut short. -/
theorem malformed_unless_document_cut :
    let payload := { Shipment.blank with id := some "S-1", status := some .sent }.write.dropLast
    (∀ is, ¬ IsDocument .object is payload) ∧ (∀ is, ¬ IsDocument .list is payload) ∧
      ∃ reason, ∀ s : Store, s.consume payload = (.error (.malformed reason), s) := by
  intro payload
  have hobject := Json.not_isDocument (show Frame.object.closing ∉ payload by decide +kernel)
  have hlist := Json.not_isDocument (show Frame.list.closing ∉ payload by decide +kernel)
  exact ⟨hobject, hlist, malformed_unless_document hobject fun is _ => hlist is⟩

/-- A list is no object, and yet an id and a status in it make a shipment. -/
theorem list_is_consumed :
    let payload := Json.writeList [Json.writeText "S-1", Json.writeText "SENT"]
    (∀ is, ¬ IsDocument .object is payload) ∧ (∃ is, IsDocument .list is payload) ∧
      (empty.consume payload).1 = .ok (.created "S-1" .sent) ∧
      (empty.consume payload).2.statusOf "S-1" = some .sent := by
  intro payload
  have hcreated : (empty.consume payload).1 = .ok (.created "S-1" .sent) := by decide +kernel
  have hobject := Json.not_isDocument (show Frame.object.closing ∉ payload by decide +kernel)
  obtain ⟨f, is, hdoc, -⟩ := isDocument_of_consumed hcreated
  cases f with
  | list => exact ⟨hobject, ⟨is, hdoc⟩, hcreated, by decide +kernel⟩
  | object => exact absurd hdoc (hobject is)

end Store
end Consignment
