import Consignment.Proofs.Admission
import Consignment.Proofs.Store.Desk
import Consignment.Proofs.Validation.Builder

/-! Only documents are judged, never the record that an update makes of one and of what was stored.
Still no rule is broken in the store: each field of the record comes from one of the two, and each
attribute too. -/
namespace Consignment

namespace Register
variable {α : Type}

theorem mem_foldl_put {es : List (String × α)} {r : Register α} {x : String × α}
    (h : x ∈ (es.foldl (fun r e => r.put e.1 e.2) r).entries) : x ∈ es ∨ x ∈ r.entries := by
  induction es generalizing r with
  | nil => exact .inr h
  | cons e es ih =>
    rcases ih h with hx | hx
    · exact .inl (List.mem_cons_of_mem _ hx)
    · rcases mem_place hx with rfl | hx
      · exact .inl (by simp)
      · exact .inr hx

theorem mem_extend {r s : Register α} {x : String × α} (h : x ∈ (r.extend s).entries) :
    x ∈ s.entries ∨ x ∈ r.entries := mem_foldl_put h

end Register

namespace Shipment

theorem apply_orElse {α β : Type} (g : Option α → β) (current incoming : Option α) :
    g (incoming <|> current) = g current ∨ g (incoming <|> current) = g incoming := by
  cases incoming with
  | none => exact .inl rfl
  | some _ => exact .inr rfl

theorem lines_overlay (stored incoming : Shipment) :
    (stored.overlay incoming).lines = stored.lines ∨
      (stored.overlay incoming).lines = incoming.lines := by
  rw [overlay]
  split
  · exact .inl rfl
  · exact .inr rfl

theorem fields_overlay {f : FieldRule Shipment} (hf : f ∈ schema.fields)
    (stored incoming : Shipment) :
    (f.value (stored.overlay incoming) = f.value stored ∨
      f.value (stored.overlay incoming) = f.value incoming) ∨
    (f.rule.constraints = [] ∧
      ∀ s, f.value s = .map (s.attributes.entries.map fun e => (e.1, .ofText e.2))) := by
  have hf := Schema.mem_of_mem_build hf
  simp only [List.mem_cons, List.not_mem_nil, or_false] at hf
  rcases hf with rfl | rfl | rfl | rfl | rfl | rfl | rfl | rfl
  · exact .inl (apply_orElse Value.ofText _ _)
  · exact .inl (apply_orElse (fun s => Value.ofText (Option.map Status.name s)) _ _)
  · exact .inl (apply_orElse Value.ofText _ _)
  · exact .inl (apply_orElse Value.ofInteger _ _)
  · exact .inl (apply_orElse Value.ofText _ _)
  · exact .inl (apply_orElse Value.ofText _ _)
  · rcases lines_overlay stored incoming with h | h
    · exact .inl (.inl (by simp only [h]))
    · exact .inl (.inr (by simp only [h]))
  · exact .inr ⟨rfl, fun _ => rfl⟩

theorem passes_overlay {stored incoming : Shipment} (hs : stored.Passes) (hi : incoming.Passes) :
    (stored.overlay incoming).Passes := by
  rw [passes_iff] at hs hi ⊢
  intro f hf
  have hs := hs f hf
  have hi := hi f hf
  rcases fields_overlay hf stored incoming with (hv | hv) | ⟨hc, hv⟩
  · rw [FieldRule.accepts, hv]
    exact hs
  · rw [FieldRule.accepts, hv]
    exact hi
  · rw [FieldRule.accepts_entries_iff (hv _) hc, List.forall_mem_map] at hs hi ⊢
    intro e he
    rcases Register.mem_extend he with he | he
    · exact hi e he
    · exact hs e he

theorem identified_overlay (stored : Shipment) {incoming : Shipment} (h : incoming.Identified) :
    (stored.overlay incoming).Identified := by
  obtain ⟨⟨id, hid, hlong⟩, hstatus⟩ := h
  refine ⟨⟨id, by simp [hid], hlong⟩, ?_⟩
  obtain ⟨status, hs⟩ := Option.isSome_iff_exists.1 hstatus
  simp [hs]

def Good (s : Shipment) : Prop := s.Identified ∧ s.Passes

theorem good_of_admitted {payload : Bytes} {s : Shipment} (h : admitted payload = .ok s) : s.Good :=
  ⟨identified_of_admitted h, (admitted_ok h).2.2⟩

theorem good_of_settle {incoming record : Shipment} {id : String} {status : Status}
    {found : Option Shipment} {done : Reconciliation} (hi : incoming.Good)
    (hf : ∀ stored, found = some stored → stored.Passes)
    (h : incoming.settle id status found = .ok (record, done)) : record.Good := by
  rcases settle_ok h with ⟨-, rfl⟩ | ⟨stored, hfound, rfl, -⟩
  · exact hi
  · exact ⟨identified_overlay stored hi.1, passes_overlay (hf stored hfound) hi.2⟩

end Shipment

namespace Store

structure Lawful (s : Store) : Prop where
  keyed : s.Keyed
  passes : ∀ id record, s.records.get? id = some record → record.Passes

namespace Lawful
variable {s t : Store}

theorem congr (h : s.Lawful) (ht : t.records = s.records) : t.Lawful := by
  refine ⟨?_, ?_⟩
  · intro id record hget
    rw [ht] at hget
    exact h.keyed id record hget
  · intro id record hget
    rw [ht] at hget
    exact h.passes id record hget

theorem put (h : s.Lawful) {id : String} {record : Shipment} (hid : record.id = some id)
    (hr : record.Passes) (ht : t.records = s.records.put id record) : t.Lawful := by
  have hcase : ∀ other found, t.records.get? other = some found →
      (other = id ∧ found = record) ∨ s.records.get? other = some found := by
    intro other found hget
    rw [ht, Register.get?_put] at hget
    split at hget
    · next heq => exact .inl ⟨heq.symm, (Option.some.inj hget).symm⟩
    · exact .inr hget
  refine ⟨?_, ?_⟩
  · intro other found hget
    rcases hcase other found hget with ⟨rfl, rfl⟩ | hget
    · exact hid
    · exact h.keyed other found hget
  · intro other found hget
    rcases hcase other found hget with ⟨rfl, rfl⟩ | hget
    · exact hr
    · exact h.passes other found hget

theorem ofShipments {shipments : List Shipment} (h : ∀ x ∈ shipments, x.Passes) :
    (Store.ofShipments shipments).Lawful := by
  refine ⟨keyed_ofShipments shipments, ?_⟩
  intro id record hget
  rcases get?_ofList_mem hget with hmem | hnone
  · obtain ⟨x, hx, hentry⟩ := List.mem_filterMap.1 hmem
    obtain ⟨key, -, heq⟩ := Option.map_eq_some_iff.1 hentry
    obtain ⟨rfl, rfl⟩ := Prod.mk.inj heq
    exact h x hx
  · cases hnone

end Lawful
end Store

namespace Desk

/-- No rule is broken in the store, and none will be by what is still to be written. -/
structure Lawful (d : Desk) : Prop where
  store : d.store.Lawful
  drafts : ∀ x ∈ d.drafts, x.1.Good

namespace Lawful
variable {d : Desk}

theorem after (h : d.Lawful) (e : Event) :
    (d.after e).Lawful ∧ ∀ c, d.change? e = some c → c.after.Good := by
  cases e with
  | fail errors => exact ⟨⟨h.store.congr rfl, h.drafts⟩, by simp [change?]⟩
  | read payload =>
    refine ⟨?_, by simp [change?]⟩
    rcases d.read_cases payload with ⟨store, hr, -, ha⟩ |
      ⟨incoming, id, status, record, done, hadmitted, -, -, hs, ha⟩
    · rw [ha]
      exact ⟨h.store.congr hr, h.drafts⟩
    · rw [ha]
      have hgood : record.Good :=
        Shipment.good_of_settle (Shipment.good_of_admitted hadmitted) (h.store.passes id) hs
      refine ⟨h.store, ?_⟩
      intro x hx
      rcases List.mem_append.1 hx with hx | hx
      · exact h.drafts x hx
      · obtain rfl := List.mem_singleton.1 hx
        exact hgood
  | write id =>
    have hrest : ∀ x ∈ d.drafts.filter (·.1.id ≠ some id), x.1.Good := by
      intro x hx
      exact h.drafts x (List.mem_filter.1 hx).1
    rcases d.write_cases id with ⟨hc, ha⟩ | ⟨record, done, hmem, hid, hwrite⟩
    · rw [hc, ha]
      exact ⟨h, by simp⟩
    · rcases hwrite with ⟨hc, store, hr, -, ha⟩ | ⟨hc, ha⟩
      · rw [hc, ha]
        exact ⟨⟨h.store.congr hr, hrest⟩, by simp⟩
      · have hgood : record.Good := h.drafts _ hmem
        rw [hc, ha]
        refine ⟨⟨h.store.put hid hgood.2 rfl, hrest⟩, ?_⟩
        intro c hc
        obtain rfl := Option.some.inj hc
        exact hgood

theorem afterAll (h : d.Lawful) (es : List Event) :
    (d.afterAll es).Lawful ∧ ∀ c ∈ d.changes es, c.after.Good := by
  induction es generalizing d with
  | nil => exact ⟨h, by simp [changes]⟩
  | cons e es ih =>
    obtain ⟨hnext, hone⟩ := h.after e
    obtain ⟨hlast, hothers⟩ := ih hnext
    refine ⟨hlast, ?_⟩
    intro c hc
    rcases List.mem_append.1 hc with hc | hc
    · exact hone c (Option.mem_toList.1 hc)
    · exact hothers c hc

end Lawful
end Desk
end Consignment
