import Mathlib.Data.List.ReduceOption
import Consignment.Proofs.Admission
import Consignment.Proofs.Document
import Consignment.Proofs.Store.Attempt
import Consignment.Samples

/-! What an update makes of a record, field by field. What the rules count as absent leaves the
field as it was, and what is present goes into it. An empty text is the exception: the rules count
it as absent, and still it takes the place of the text that was there. -/
namespace Consignment

/-- Whether the rules count a declared field of the object as absent. -/
def Schema.lacks {α : Type} (s : Schema α) (name : String) (object : α) : Bool :=
  (s.fields.find? (·.name = name)).any fun f => (f.value object).isAbsent

namespace Register
variable {α : Type}

theorem get?_extend (r s : Register α) (k : String) :
    (r.extend s).get? k = (s.get? k <|> r.get? k) := get?_foldl_put s.ascending r k

theorem extend_of_isEmpty (r : Register α) {s : Register α} (h : s.isEmpty) : r.extend s = r := by
  rw [extend, List.isEmpty_iff.1 h]
  rfl

end Register

namespace Shipment

/-- The record is the stored one with all that is present in the incoming one, and with its empty
texts. Attributes are present one by one. -/
structure Merged (stored incoming record : Shipment) : Prop where
  id : record.id = if schema.lacks "id" incoming then stored.id else incoming.id
  status : record.status =
    if schema.lacks "status" incoming then stored.status else incoming.status
  productId : record.productId =
    if schema.lacks "product_id" incoming ∧ incoming.productId ≠ some "" then stored.productId
    else incoming.productId
  quantity : record.quantity =
    if schema.lacks "quantity" incoming then stored.quantity else incoming.quantity
  origin : record.origin =
    if schema.lacks "origin" incoming ∧ incoming.origin ≠ some "" then stored.origin
    else incoming.origin
  destination : record.destination =
    if schema.lacks "destination" incoming ∧ incoming.destination ≠ some "" then stored.destination
    else incoming.destination
  lines : record.lines = if schema.lacks "lines" incoming then stored.lines else incoming.lines
  attributes : schema.lacks "attributes" incoming → record.attributes = stored.attributes
  entry : ∀ key, record.attributes.get? key =
    (incoming.attributes.get? key <|> stored.attributes.get? key)
  updatedAt : record.updatedAt =
    if incoming.updatedAt.isNone then stored.updatedAt else incoming.updatedAt

theorem orElse_of_lacking (incoming stored : Option String) : (incoming <|> stored) =
    if (Value.ofText incoming).isAbsent ∧ incoming ≠ some "" then stored else incoming := by
  cases incoming with
  | none => rfl
  | some t =>
    by_cases ht : t = ""
    · simp [ht]
    · simp [Value.ofText, Value.isAbsent, ht]

theorem orElse_of_text {incoming : Option String} (h : incoming ≠ some "")
    (stored : Option String) : (incoming <|> stored) =
      if (Value.ofText incoming).isAbsent then stored else incoming := by
  rw [orElse_of_lacking]
  simp [h]

theorem orElse_of_status (incoming stored : Option Status) : (incoming <|> stored) =
    if (Value.ofText (incoming.map Status.name)).isAbsent then stored else incoming := by
  cases incoming with
  | none => rfl
  | some status => cases status <;> rfl

theorem orElse_of_integer (incoming stored : Option Int64) : (incoming <|> stored) =
    if (Value.ofInteger incoming).isAbsent then stored else incoming := by
  cases incoming <;> rfl

theorem merged_overlay (stored : Shipment) {incoming : Shipment} (h : incoming.id ≠ some "") :
    Merged stored incoming (stored.overlay incoming) where
  id := orElse_of_text h _
  status := orElse_of_status _ _
  productId := orElse_of_lacking _ _
  quantity := orElse_of_integer _ _
  origin := orElse_of_lacking _ _
  destination := orElse_of_lacking _ _
  lines := by
    have hlacks : schema.lacks "lines" incoming = incoming.lines.isEmpty := List.isEmpty_map
    rw [hlacks]
    rfl
  attributes h := by
    have hempty : incoming.attributes.isEmpty := by
      rw [Register.isEmpty, ← h]
      exact List.isEmpty_map.symm
    exact Register.extend_of_isEmpty _ hempty
  entry key := Register.get?_extend _ _ key
  updatedAt := by
    change (incoming.updatedAt <|> stored.updatedAt) = _
    cases incoming.updatedAt <;> rfl

theorem settle_updated {incoming record : Shipment} {id key : String} {status status' : Status}
    {before : Option Status} {found : Option Shipment}
    (h : incoming.settle id status found = .ok (record, .updated key before status')) :
    ∃ stored, found = some stored ∧ key = id ∧ record = stored.overlay incoming := by
  unfold settle at h
  repeat' split at h
  all_goals simp at h
  · exact ⟨_, rfl, h.2.1.symm, h.1.symm⟩
  · exact ⟨_, rfl, h.2.1.symm, h.1.symm⟩

end Shipment

namespace Store

/-- A payload that is answered as an update merges what is present in it into the record of its
shipment, and changes no other record. -/
theorem update_merges_present_fields {s t : Store} {payload : Bytes} {id : String}
    {before : Option Status} {status : Status}
    (h : s.consume payload = (.ok (.updated id before status), t)) :
    ∃ stored incoming record, s.records.get? id = some stored ∧
      Shipment.ofDocument payload = .ok incoming ∧ t.records.get? id = some record ∧
      Shipment.Merged stored incoming record ∧
      ∀ other, other ≠ id → t.records.get? other = s.records.get? other := by
  obtain ⟨incoming, key, status', record, ha, -, hsettle, rfl⟩ := consume_ok h
  obtain ⟨stored, hfound, rfl, rfl⟩ := Shipment.settle_updated hsettle
  have hne : incoming.id ≠ some "" := by
    obtain ⟨⟨text, hid, hblank, -⟩, -⟩ := Shipment.identified_of_admitted ha
    rw [hid]
    rintro ⟨rfl⟩
    simp [Text.allBlank] at hblank
  have hdoc : Shipment.ofDocument payload = .ok incoming := (Shipment.admitted_ok ha).1
  refine ⟨stored, incoming, _, hfound, hdoc, Register.get?_put_self .., ?_, ?_⟩
  · exact Shipment.merged_overlay stored hne
  · intro other hother
    rw [Register.get?_put, if_neg hother.symm]

theorem update_merges_present_fields_moved :
    let s := (empty.consume (Shipment.sample "A" .planned).write).2
    let payload := { Shipment.sample "A" .sent with origin := some "WH-EAST", lines := [] }.write
    ∃ stored incoming record, s.records.get? "A" = some stored ∧
      Shipment.ofDocument payload = .ok incoming ∧
      (s.consume payload).2.records.get? "A" = some record ∧
      Shipment.Merged stored incoming record ∧
      ∀ other, other ≠ "A" → (s.consume payload).2.records.get? other = s.records.get? other := by
  intro s payload
  have h : (s.consume payload).1 = .ok (.updated "A" (some .planned) .sent) := by decide +kernel
  exact update_merges_present_fields (Prod.ext h rfl)

/-- An empty origin is no origin to the rules, and yet the one that was stored is lost. -/
theorem empty_text_replaces :
    let s := (empty.consume (Shipment.sample "A" .planned).write).2
    let incoming := { Shipment.sample "A" .sent with origin := some "" }
    Shipment.ofDocument incoming.write = .ok incoming ∧
      (s.consume incoming.write).1 = .ok (.updated "A" (some .planned) .sent) ∧
      Shipment.schema.lacks "origin" incoming = true ∧
      (s.records.get? "A").bind (·.origin) = some "WH-NORTH" ∧
      ((s.consume incoming.write).2.records.get? "A").bind (·.origin) = some "" := by
  decide +kernel

end Store
end Consignment
