import Consignment.Proofs.Admission

/-! What is asked of a shipment before it may reach the store, field by field and without a word
about the rules that decide it. The checks make two passes over the fields; they find what is wrong
in the order in which it is asked for here. -/
namespace Consignment

def Text.Legible (t : String) : Prop := ∃ c ∈ t.toList, isBlank c = false

theorem Text.legible_iff {t : String} : Legible t ↔ allBlank t = false := by
  simp [Legible, allBlank]

def Line.Complete (l : Line) : Prop :=
  (∃ sku, l.sku = some sku ∧ Text.Legible sku) ∧ ∃ n, l.quantity = some n ∧ 0 < n

namespace Shipment

structure Demand where
  field : String
  Met : Shipment → Prop

/-- A text may be missing or empty, but it may not be blank. -/
def Demand.text (field : String) (text : Shipment → Option String) : Demand :=
  ⟨field, fun s => ∀ t, text s = some t → t = "" ∨ Text.Legible t⟩

def demands : List Demand :=
  [⟨"id", fun s => ∃ id, s.id = some id ∧ Text.Legible id ∧ id.length ≤ 64⟩,
   ⟨"status", fun s => ∃ status, s.status = some status⟩,
   .text "product_id" (·.productId),
   ⟨"quantity", fun s => ∀ n, s.quantity = some n → 0 < n⟩,
   .text "origin" (·.origin),
   .text "destination" (·.destination),
   ⟨"lines", fun s => ∀ l ∈ s.lines, l.Complete⟩,
   ⟨"attributes", fun s => ∀ e ∈ s.attributes.entries, ∀ t, e.2 = some t →
     Text.Legible t ∧ t.length ≤ 256⟩]

def Acceptable (s : Shipment) : Prop := ∀ d ∈ demands, d.Met s

/-- The field is the first of which more is asked than there is. -/
def FirstFault (s : Shipment) (field : String) : Prop :=
  ∃ front d back, demands = front ++ d :: back ∧ d.field = field ∧
    (∀ e ∈ front, e.Met s) ∧ ¬ d.Met s

/-! ## What the rules say -/

def Demand.mandatory (d : Demand) : Bool := ["id", "status"].contains d.field

theorem accepts_text_iff {f : FieldRule Shipment} {text : Shipment → Option String} {s : Shipment}
    (hv : f.value s = .ofText (text s)) (hc : f.rule.constraints = [.notBlank]) :
    f.accepts false s = true ↔ (Demand.text f.name text).Met s := by
  rw [FieldRule.accepts, hv]
  cases ht : text s with
  | none => simp [Demand.text, ht, Value.ofText, Value.isAbsent]
  | some t =>
    by_cases hempty : t = ""
    · simp [Demand.text, ht, hempty, Value.ofText, Value.isAbsent]
    · simp [Demand.text, ht, hempty, hc, Value.ofText, Value.isAbsent, Rule.violations,
        Constraint.checkAll, Constraint.check, Text.legible_iff]

theorem accepts_quantity_iff {f : FieldRule Shipment} {s : Shipment}
    (hv : f.value s = .ofInteger s.quantity) (hc : f.rule.constraints = [.positive]) :
    f.accepts false s = true ↔ ∀ n, s.quantity = some n → 0 < n := by
  rw [FieldRule.accepts, hv]
  cases hn : s.quantity with
  | none => simp [Value.ofInteger, Value.isAbsent]
  | some n =>
    simp [hc, Value.ofInteger, Value.isAbsent, Rule.violations, Constraint.checkAll,
      Constraint.check]

theorem complete_iff {l : Line} : Line.schema.violations l = [] ↔ l.Complete := by
  have hfields : Line.schema.fields =
      [⟨⟨"sku", [.required, .notBlank], []⟩, fun l => .ofText l.sku⟩,
       ⟨⟨"quantity", [.required, .positive], []⟩, fun l => .ofInteger l.quantity⟩] := rfl
  rw [Schema.violations_eq_nil_iff, hfields, List.forall_mem_cons, List.forall_mem_singleton,
    Line.Complete]
  refine and_congr ?_ ?_
  · cases hsku : l.sku with
    | none => simp [FieldRule.accepts, hsku, Value.ofText, Value.isAbsent, Rule.mandatory]
    | some sku =>
      by_cases hempty : sku = ""
      · simp [FieldRule.accepts, hsku, hempty, Value.ofText, Value.isAbsent, Rule.mandatory,
          Text.Legible]
      · simp [FieldRule.accepts, hsku, hempty, Value.ofText, Value.isAbsent, Rule.violations,
          Constraint.checkAll, Constraint.check, Text.legible_iff]
  · cases hquantity : l.quantity with
    | none => simp [FieldRule.accepts, hquantity, Value.ofInteger, Value.isAbsent, Rule.mandatory]
    | some n =>
      simp [FieldRule.accepts, hquantity, Value.ofInteger, Value.isAbsent, Rule.violations,
        Constraint.checkAll, Constraint.check]

theorem accepts_lines_iff {f : FieldRule Shipment} {s : Shipment}
    (hv : f.value s = .list (s.lines.map fun l => .object (Line.schema.view l)))
    (hc : f.rule.constraints = []) (he : f.rule.elements = []) :
    f.accepts f.rule.mandatory s = true ↔ ∀ l ∈ s.lines, l.Complete := by
  rw [FieldRule.accepts_items_iff hv hc, he, List.forall_mem_map]
  refine forall₂_congr fun l _ => ?_
  rw [← complete_iff]
  simp [elementViolations, Constraint.checkAll, Schema.violations]

theorem accepts_attributes_iff {f : FieldRule Shipment} {s : Shipment}
    (hv : f.value s = .map (s.attributes.entries.map fun e => (e.1, .ofText e.2)))
    (hc : f.rule.constraints = []) (he : f.rule.elements = [.notBlank, .maxLength 256]) :
    f.accepts f.rule.mandatory s = true ↔
      ∀ e ∈ s.attributes.entries, ∀ t, e.2 = some t → Text.Legible t ∧ t.length ≤ 256 := by
  rw [FieldRule.accepts_entries_iff hv hc, he, List.forall_mem_map]
  refine forall₂_congr fun e _ => ?_
  cases ht : e.2 with
  | none => simp [Value.ofText, elementViolations]
  | some t =>
    simp [Value.ofText, elementViolations, Constraint.checkAll, Constraint.check,
      Text.legible_iff]

theorem check_iff {s : Shipment} {d : Demand} (hd : d ∈ demands) :
    schema.check s d.field d.mandatory = .ok () ↔ d.Met s := by
  simp only [demands, List.mem_cons, List.not_mem_nil, or_false] at hd
  rcases hd with rfl | rfl | rfl | rfl | rfl | rfl | rfl | rfl
  · simp only [Text.legible_iff]
    exact check_id_iff
  · exact check_status_iff.trans Option.isSome_iff_exists
  · exact (Schema.check_eq_ok_iff rfl _).trans (accepts_text_iff rfl rfl)
  · exact (Schema.check_eq_ok_iff rfl _).trans (accepts_quantity_iff rfl rfl)
  · exact (Schema.check_eq_ok_iff rfl _).trans (accepts_text_iff rfl rfl)
  · exact (Schema.check_eq_ok_iff rfl _).trans (accepts_text_iff rfl rfl)
  · exact (Schema.check_eq_ok_iff rfl _).trans (accepts_lines_iff rfl rfl rfl)
  · exact (Schema.check_eq_ok_iff rfl _).trans (accepts_attributes_iff rfl rfl rfl)

theorem declared_of_demand {d : Demand} (hd : d ∈ demands) :
    ∃ f ∈ schema.fields, schema.field? d.field = .ok f ∧ f.name = d.field := by
  have hfield : ∀ d ∈ demands, ∃ f, schema.field? d.field = .ok f := by
    simp only [demands, List.forall_mem_cons]
    exact ⟨⟨_, rfl⟩, ⟨_, rfl⟩, ⟨_, rfl⟩, ⟨_, rfl⟩, ⟨_, rfl⟩, ⟨_, rfl⟩, ⟨_, rfl⟩, ⟨_, rfl⟩, by simp⟩
  obtain ⟨f, hf⟩ := hfield d hd
  obtain ⟨hmem, hname⟩ := Schema.field?_ok hf
  exact ⟨f, hmem, hf, hname⟩

/-! ## The gate -/

/-- What is checked of a shipment before it may reach the store, in two passes. -/
def gate (s : Shipment) : Except CheckError Unit :=
  match schema.checkMany s ["id", "status"] true with
  | .error e => .error e
  | .ok () => schema.checkDeclared s

theorem admitted_of_document {payload : Bytes} {s : Shipment} (h : ofDocument payload = .ok s) :
    admitted payload = match s.gate with
      | .error e => .error (.invalid e)
      | .ok () => .ok s := by
  unfold admitted gate
  rw [h]
  cases hfirst : schema.checkMany s ["id", "status"] true with
  | error e => simp only [hfirst]
  | ok u => cases hsecond : schema.checkDeclared s <;> simp only [hfirst, hsecond]

/-- The second pass asks nothing more of the fields that the first one was about. -/
theorem gate_eq (s : Shipment) :
    s.gate = demands.forM fun d => schema.check s d.field d.mandatory := by
  let others := ["product_id", "quantity", "origin", "destination", "lines", "attributes"]
  have hfirst : schema.checkMany s ["id", "status"] true =
      (schema.check s "id" true >>= fun _ => schema.check s "status" true >>= fun _ =>
        pure ()) := rfl
  have hsecond : schema.checkDeclared s =
      (schema.check s "id" false >>= fun _ => schema.check s "status" false >>= fun _ =>
        schema.checkMany s others false) := rfl
  have hdemands : (demands.forM fun d => schema.check s d.field d.mandatory) =
      (schema.check s "id" true >>= fun _ => schema.check s "status" true >>= fun _ =>
        schema.checkMany s others false) := rfl
  rw [gate, hfirst, hsecond, hdemands]
  cases hid : schema.check s "id" true with
  | error e => rfl
  | ok u =>
    cases hstatus : schema.check s "status" true with
    | error e => rfl
    | ok u =>
      rw [Schema.check_of_required hid, Schema.check_of_required hstatus]
      rfl

theorem gate_eq_ok_iff {s : Shipment} : s.gate = .ok () ↔ s.Acceptable := by
  rw [gate_eq, forM_eq_ok]
  exact forall₂_congr fun d hd => check_iff hd

theorem acceptable_of_admitted {payload : Bytes} {s : Shipment} (h : admitted payload = .ok s) :
    s.Acceptable := by
  obtain ⟨hdoc, hfirst, hsecond⟩ := admitted_ok h
  rw [← gate_eq_ok_iff, gate, hfirst]
  exact hsecond

theorem firstFault_of_gate {s : Shipment} {e : CheckError} (h : s.gate = .error e) :
    ∃ f ∈ schema.fields, e = .invalid f.name (f.complaint s) ∧ s.FirstFault f.name := by
  rw [gate_eq] at h
  obtain ⟨front, d, back, hsplit, hfront, hd⟩ := exists_of_forM_error h
  have hmem : ∀ x ∈ front ++ d :: back, x ∈ demands := fun x hx => hsplit ▸ hx
  have hdemand : d ∈ demands := hmem d (by simp)
  obtain ⟨f, hf, hfield, hname⟩ := declared_of_demand hdemand
  refine ⟨f, hf, Schema.check_eq_error hfield hd, front, d, back, hsplit, hname.symm, ?_, ?_⟩
  · intro x hx
    exact (check_iff (hmem x (by simp [hx]))).1 (hfront x hx)
  · intro hmet
    rw [(check_iff hdemand).2 hmet] at hd
    cases hd

end Shipment
end Consignment
