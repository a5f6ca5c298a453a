import Mathlib.Data.List.Pairwise
import Consignment.Document
import Consignment.Proofs.Json.Entries
import Consignment.Proofs.Lookup

/-! The fields of shipments, lines and transactions: no two have one name, each is read wherever it
stands, and none of them touches what another one sets. -/
namespace Consignment

namespace Json
variable {σ : Type}

def Member.Changes (field : Member σ) (change : σ → σ) : Prop :=
  ∃ s rest, field.value.read s = .ok (change, rest)

def Member.Commutes (f g : Member σ) : Prop := f.name ≠ g.name →
  ∀ c d, f.Changes c → g.Changes d → ∀ record, c (d record) = d (c record)

instance : Std.Symm (@Member.Commutes σ) where
  symm _ _ h hne c d hc hd record := (h hne.symm d c hd hc record).symm

theorem Member.changes_of {α : Type} {name : String} {r : Reader α} {set : α → σ → σ}
    {change : σ → σ} (h : (Member.of name r set).Changes change) : ∃ a, change = set a := by
  obtain ⟨s, rest, hread⟩ := h
  obtain ⟨p, -, he⟩ := map_eq_ok.1 hread
  exact ⟨p.1, (congrArg Prod.fst he).symm⟩

theorem Member.commutes_of {α β : Type} {name name' : String} {r : Reader α} {r' : Reader β}
    {set : α → σ → σ} {set' : β → σ → σ}
    (h : ∀ a b record, set a (set' b record) = set' b (set a record)) :
    (Member.of name r set).Commutes (.of name' r' set') := by
  rintro - c d hc hd record
  obtain ⟨a, rfl⟩ := changes_of hc
  obtain ⟨b, rfl⟩ := changes_of hd
  exact h a b record

structure Fields (fields : List (Member σ)) : Prop where
  regular : ∀ field ∈ fields, field.value.Regular
  once : (fields.map Member.name).Nodup
  commute : ∀ f ∈ fields, ∀ g ∈ fields, f.Commutes g

theorem commute_of_pairwise {fields : List (Member σ)} (h : fields.Pairwise Member.Commutes) :
    ∀ f ∈ fields, ∀ g ∈ fields, f.Commutes g :=
  fun _ hf _ hg => h.forall_of_forall (fun _ _ hne => absurd rfl hne) hf hg

end Json

open Json (Fields Member Reader)

theorem Line.fields : Fields Line.members := by
  have htext : Reader.text.orNull.Regular := .orNull (.meaning ..)
  have hinteger : Reader.integer.orNull.Regular := .orNull .integer
  refine ⟨?_, by decide, Json.commute_of_pairwise ?_⟩
  · simp only [Line.members, List.forall_mem_cons]
    exact ⟨Member.regular_of htext .., Member.regular_of hinteger .., by simp⟩
  · simp only [Line.members, List.pairwise_cons, List.forall_mem_cons]
    and_intros <;> first | exact Member.commutes_of fun _ _ _ => rfl | simp

theorem Shipment.fields : Fields Shipment.members := by
  have htext : Reader.text.orNull.Regular := .orNull (.meaning ..)
  have hstatus : Status.reader.orNull.Regular := .orNull (.variant _)
  have hinteger : Reader.integer.orNull.Regular := .orNull .integer
  have hlines : Line.reader.list.Regular := .list (.record Line.fields.regular _ _)
  have hattributes : Shipment.attributesReader.Regular := .map (.entries htext) _
  have htime : Timestamp.reader.orNull.Regular := .orNull (.meaning ..)
  refine ⟨?_, by decide, Json.commute_of_pairwise ?_⟩
  · simp only [Shipment.members, List.forall_mem_cons]
    exact ⟨Member.regular_of htext .., Member.regular_of hstatus .., Member.regular_of htext ..,
      Member.regular_of hinteger .., Member.regular_of htext .., Member.regular_of htext ..,
      Member.regular_of hlines .., Member.regular_of hattributes .., Member.regular_of htime ..,
      by simp⟩
  · simp only [Shipment.members, List.pairwise_cons, List.forall_mem_cons]
    and_intros <;> first | exact Member.commutes_of fun _ _ _ => rfl | simp

theorem Transaction.fields : Fields Transaction.members := by
  have htext : Reader.text.orNull.Regular := .orNull (.meaning ..)
  have hflow : Flow.reader.orNull.Regular := .orNull (.variant _)
  have hinteger : Reader.integer.orNull.Regular := .orNull .integer
  have htime : Timestamp.reader.orNull.Regular := .orNull (.meaning ..)
  refine ⟨?_, by decide, Json.commute_of_pairwise ?_⟩
  · simp only [Transaction.members, List.forall_mem_cons]
    exact ⟨Member.regular_of htext .., Member.regular_of htext .., Member.regular_of hflow ..,
      Member.regular_of hinteger .., Member.regular_of htext .., Member.regular_of htext ..,
      Member.regular_of htext .., Member.regular_of htime .., by simp⟩
  · simp only [Transaction.members, List.pairwise_cons, List.forall_mem_cons]
    and_intros <;> first | exact Member.commutes_of fun _ _ _ => rfl | simp

end Consignment
