import Mathlib.Order.Nat
import Consignment.Document
import Consignment.Proofs.Json.RoundTrip
import Consignment.Proofs.Timestamp.RoundTrip

/-! Shipments, lines and transactions are read as they were written, whatever they hold. So what is
written of a document that was read is its one canonical form. -/
namespace Consignment

open Json (Spells Fills writeOption writeText writeInteger writeObject writeList)

namespace Register
variable {α : Type}

theorem get?_foldl_put {es : List (String × α)} (h : es.Pairwise (·.1 < ·.1)) (r : Register α)
    (k : String) :
    (es.foldl (fun r e => r.put e.1 e.2) r).get? k = (lookup k es <|> r.get? k) := by
  induction es generalizing r with
  | nil => rfl
  | cons e es ih =>
    obtain ⟨hlt, hes⟩ := List.pairwise_cons.1 h
    rw [List.foldl_cons, ih hes, get?_put]
    by_cases hk : e.1 = k
    · subst hk
      rw [lookup_eq_none hlt]
      simp [lookup]
    · simp [lookup, hk]

@[simp] theorem ofList_entries (r : Register α) : ofList r.entries = r := by
  apply ext
  intro k
  rw [ofList, get?_foldl_put r.ascending]
  change (lookup k r.entries <|> none) = lookup k r.entries
  cases lookup k r.entries <;> rfl

end Register

theorem Json.writeOption_map {α β : Type} (write : β → Bytes) (f : α → β) (o : Option α) :
    writeOption write (o.map f) = writeOption (fun a => write (f a)) o := by
  cases o <;> rfl

namespace Status

theorem spells (s : Status) : Spells Status.reader (writeText s.name) s := by
  apply Spells.variant
  cases s <;> decide

theorem spellsOrNull (o : Option Status) :
    Spells Status.reader.orNull (writeOption writeText (o.map name)) o := by
  rw [Json.writeOption_map]
  exact Spells.orNull spells (fun s => by simp [writeText]) o

end Status

namespace Timestamp

theorem spells (t : Timestamp) : Spells Timestamp.reader (writeText t.text) t := by
  apply Spells.meaning
  rw [parse_text]
  rfl

theorem spellsOrNull (o : Option Timestamp) :
    Spells Timestamp.reader.orNull (writeOption writeText (o.map text)) o := by
  rw [Json.writeOption_map]
  exact Spells.orNull spells (fun t => by simp [writeText]) o

end Timestamp

namespace Flow

theorem spells (f : Flow) : Spells Flow.reader (writeText f.name) f := by
  apply Spells.variant
  cases f <;> decide

theorem spellsOrNull (o : Option Flow) :
    Spells Flow.reader.orNull (writeOption writeText (o.map name)) o := by
  rw [Json.writeOption_map]
  exact Spells.orNull spells (fun f => by simp [writeText]) o

end Flow

theorem Line.spells (l : Line) : Spells Line.reader l.write l := by
  apply Fills.spells
  refine .set rfl (by decide) (Spells.textOrNull l.sku) ?_
  refine .set rfl (by decide) (Spells.integerOrNull l.quantity) ?_
  exact .nil _ _

namespace Shipment

theorem spells_attributes (attributes : Register (Option String)) :
    Spells attributesReader
      (writeObject (attributes.entries.map fun e => (e.1, writeOption writeText e.2)))
      attributes := by
  have hentries : Spells (.entries (Json.Reader.text.orNull))
      (writeObject (attributes.entries.map fun e => (e.1, writeOption writeText e.2)))
      attributes.entries := Spells.entries fun e _ => Spells.textOrNull e.2
  have hmap := hentries.map Register.ofList
  rwa [Register.ofList_entries] at hmap

section Members
variable (s : Shipment) {seen : List String} {record : Shipment}

theorem fills_updatedAt (hseen : "updated_at" ∉ seen) :
    Fills members seen record
      [("updated_at", writeOption writeText (s.updatedAt.map Timestamp.text))]
      { record with updatedAt := s.updatedAt } := by
  refine .set rfl hseen (Timestamp.spellsOrNull s.updatedAt) ?_
  exact .nil _ _

theorem fills_attributes (hseen : "attributes" ∉ seen ∧ "updated_at" ∉ seen)
    (hrecord : record.attributes = ∅) :
    Fills members seen record
      ((if s.attributes.isEmpty then []
        else [("attributes", writeObject
          (s.attributes.entries.map fun e => (e.1, writeOption writeText e.2)))])
      ++ [("updated_at", writeOption writeText (s.updatedAt.map Timestamp.text))])
      { record with attributes := s.attributes, updatedAt := s.updatedAt } := by
  cases hempty : s.attributes.isEmpty with
  | true =>
    have hnone : s.attributes = record.attributes := by
      rw [hrecord]
      apply Register.ext
      intro k
      rw [Register.get?, List.isEmpty_iff.1 hempty]
      rfl
    rw [hnone]
    exact fills_updatedAt s hseen.2
  | false =>
    refine .set rfl hseen.1 (spells_attributes s.attributes) ?_
    exact fills_updatedAt s (by simp [hseen.2])

theorem fills_lines (hseen : "lines" ∉ seen ∧ "attributes" ∉ seen ∧ "updated_at" ∉ seen)
    (hlines : record.lines = []) (hattributes : record.attributes = ∅) :
    Fills members seen record
      ((if s.lines.isEmpty then [] else [("lines", writeList (s.lines.map Line.write))])
      ++ ((if s.attributes.isEmpty then []
        else [("attributes", writeObject
          (s.attributes.entries.map fun e => (e.1, writeOption writeText e.2)))])
      ++ [("updated_at", writeOption writeText (s.updatedAt.map Timestamp.text))]))
      { record with lines := s.lines, attributes := s.attributes, updatedAt := s.updatedAt } := by
  cases hempty : s.lines.isEmpty with
  | true =>
    have hnone : s.lines = record.lines := by rw [hlines, List.isEmpty_iff.1 hempty]
    rw [hnone]
    exact fills_attributes s hseen.2 hattributes
  | false =>
    refine .set rfl hseen.1 (Spells.list fun l _ => Line.spells l) ?_
    exact fills_attributes s (by simp [hseen.2]) hattributes

theorem spells : Spells reader s.write s := by
  unfold write
  rw [List.append_assoc, List.append_assoc]
  apply Fills.spells
  refine .set rfl (by decide) (Spells.textOrNull s.id) ?_
  refine .set rfl (by decide) (Status.spellsOrNull s.status) ?_
  refine .set rfl (by decide) (Spells.textOrNull s.productId) ?_
  refine .set rfl (by decide) (Spells.integerOrNull s.quantity) ?_
  refine .set rfl (by decide) (Spells.textOrNull s.origin) ?_
  refine .set rfl (by decide) (Spells.textOrNull s.destination) ?_
  exact fills_lines s (by decide) rfl rfl

end Members

theorem ofDocument_write (s : Shipment) : ofDocument s.write = .ok s := s.spells.document

end Shipment

theorem Transaction.spells (t : Transaction) : Spells Transaction.reader t.write t := by
  apply Fills.spells
  refine .set rfl (by decide) (Spells.textOrNull t.id) ?_
  refine .set rfl (by decide) (Spells.textOrNull t.purpose) ?_
  refine .set rfl (by decide) (Flow.spellsOrNull t.flow) ?_
  refine .set rfl (by decide) (Spells.integerOrNull t.amount) ?_
  refine .set rfl (by decide) (Spells.textOrNull t.currency) ?_
  refine .set rfl (by decide) (Spells.textOrNull t.beneficiary) ?_
  refine .set rfl (by decide) (Spells.textOrNull t.provider) ?_
  refine .set rfl (by decide) (Timestamp.spellsOrNull t.createdAt) ?_
  exact .nil _ _

namespace Json
variable {α : Type} {r : Reader α} {write : α → Bytes}

/-- Every value is read from what is written of it. So whatever document a value was read from, it
is read again from what is written of it, and is then written in the same octets; and two values
are written alike only if they are the same. -/
structure Canonical (r : Reader α) (write : α → Bytes) : Prop where
  written : ∀ v, r.document (write v) = .ok v
  again : ∀ doc v, r.document doc = .ok v → r.document (write v) = .ok v
  stable : ∀ doc v, r.document doc = .ok v → (r.document (write v)).map write = .ok (write v)
  one : ∀ v v', write v = write v' ↔ v = v'

theorem Canonical.of_spells (h : ∀ v, Spells r (write v) v) : Canonical r write := by
  have hread : ∀ v, r.document (write v) = .ok v := fun v => (h v).document
  refine ⟨hread, fun doc v _ => hread v, ?_, ?_⟩
  · intro doc v _
    rw [hread v]
    rfl
  · intro v v'
    refine ⟨fun heq => ?_, congrArg write⟩
    have hsame := hread v
    rw [heq, hread v'] at hsame
    exact (Except.ok.inj hsame).symm

end Json

/-- What is written of a document is its canonical form, whichever of the three it is read as. -/
theorem documents_round_trip :
    Json.Canonical Shipment.reader Shipment.write ∧ Json.Canonical Line.reader Line.write ∧
      Json.Canonical Transaction.reader Transaction.write := by
  refine ⟨?_, ?_, ?_⟩
  · exact .of_spells Shipment.spells
  · exact .of_spells Line.spells
  · exact .of_spells Transaction.spells

/-- Members in another order and one too many, escapes that are not needed, an attribute without a
value and a time at another place. -/
theorem documents_round_trip_respelled :
    let doc := Text.utf8 <| "\x7b \"updated_at\": \"2025-01-01T02:30:00.5+02:00\",\n" ++
      "\"note\": [1e5, \x7b\x7d], \"id\": \"\\u0022\\ud83d\\ude00\\/\\\\\\n\"," ++
      "\"attributes\": \x7b\"b\": null, \"a\": \"\\u0001\"\x7d," ++
      "\"lines\": [\x7b\"quantity\": -9223372036854775808\x7d] \x7d"
    let v : Shipment := { Shipment.blank with
      id := some "\"😀/\\\n"
      lines := [⟨none, some Int64.minValue⟩]
      attributes := .ofList [("a", some "\x01"), ("b", none)]
      updatedAt := some ⟨⟨2025, 1, 1⟩, ⟨0, 30, 0, 500000000⟩, by decide⟩ }
    let written := Text.utf8 <| "\x7b\"id\":\"\\\"😀/\\\\\\n\",\"status\":null," ++
      "\"product_id\":null,\"quantity\":null,\"origin\":null,\"destination\":null," ++
      "\"lines\":[\x7b\"sku\":null,\"quantity\":-9223372036854775808\x7d]," ++
      "\"attributes\":\x7b\"a\":\"\\u0001\",\"b\":null\x7d," ++
      "\"updated_at\":\"2025-01-01T00:30:00.500Z\"\x7d"
    Shipment.reader.document doc = .ok v ∧ v.write = written ∧
      Shipment.reader.document written = .ok v ∧
      (Shipment.reader.document written).map Shipment.write = .ok written := by
  intro doc v written
  obtain ⟨hshipment, -, -⟩ := documents_round_trip
  have hread : Shipment.reader.document doc = .ok v := by decide +kernel
  have hwrite : v.write = written := by decide +kernel
  have hagain := hshipment.again doc v hread
  have hstable := hshipment.stable doc v hread
  rw [hwrite] at hagain hstable
  exact ⟨hread, hwrite, hagain, hstable⟩

end Consignment
