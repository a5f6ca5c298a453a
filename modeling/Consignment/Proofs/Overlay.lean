import Consignment.Proofs.Store.Merge

/-! Updates put over one another. The later one wins, field by field, so that it makes no difference
which of them are combined first, and an update that comes again only becomes the latest. -/
namespace Consignment

section Later
variable {α : Type}

theorem orElse_assoc (a b c : Option α) : (c <|> (b <|> a)) = ((c <|> b) <|> a) := by
  cases c <;> rfl

theorem orElse_none (a : Option α) : (a <|> none) = a := by
  cases a <;> rfl

theorem orElse_self (a : Option α) : (a <|> a) = a := by
  cases a <;> rfl

theorem orElse_again (a b : Option α) : (a <|> (b <|> a)) = (a <|> b) := by
  cases a with
  | none => exact orElse_none b
  | some x => rfl

end Later

namespace Register
variable {α : Type} (r s t : Register α)

theorem extend_assoc : (r.extend s).extend t = r.extend (s.extend t) := by
  apply ext
  intro k
  rw [get?_extend, get?_extend, get?_extend, get?_extend, orElse_assoc]

theorem empty_extend : (∅ : Register α).extend r = r := by
  apply ext
  intro k
  rw [get?_extend]
  exact orElse_none _

theorem extend_empty : r.extend ∅ = r := rfl

theorem extend_self : r.extend r = r := by
  apply ext
  intro k
  rw [get?_extend, orElse_self]

theorem extend_again : (r.extend s).extend r = s.extend r := by
  apply ext
  intro k
  rw [get?_extend, get?_extend, get?_extend, orElse_again]

end Register

namespace Shipment
variable (a b c : Shipment)

theorem overlay_assoc : (a.overlay b).overlay c = a.overlay (b.overlay c) := by
  have hlines : (if c.lines.isEmpty then (if b.lines.isEmpty then a.lines else b.lines)
      else c.lines) = if (if c.lines.isEmpty then b.lines else c.lines).isEmpty then a.lines
      else if c.lines.isEmpty then b.lines else c.lines := by
    cases hc : c.lines.isEmpty <;> simp [hc]
  simp only [overlay, Shipment.mk.injEq]
  exact ⟨orElse_assoc .., orElse_assoc .., orElse_assoc .., orElse_assoc .., orElse_assoc ..,
    orElse_assoc .., hlines, Register.extend_assoc .., orElse_assoc ..⟩

theorem blank_overlay : blank.overlay a = a := by
  have hlines : (if a.lines.isEmpty then [] else a.lines) = a.lines := by
    cases ha : a.lines <;> rfl
  simp only [overlay, blank, orElse_none, hlines, Register.empty_extend]

theorem overlay_blank : a.overlay blank = a := rfl

theorem overlay_self : a.overlay a = a := by
  simp only [overlay, orElse_self, ite_self, Register.extend_self]

theorem overlay_again : (a.overlay b).overlay a = b.overlay a := by
  have hlines : (if a.lines.isEmpty then (if b.lines.isEmpty then a.lines else b.lines)
      else a.lines) = if a.lines.isEmpty then b.lines else a.lines := by
    cases ha : a.lines <;> cases hb : b.lines <;> rfl
  simp only [overlay, orElse_again, hlines, Register.extend_again]

theorem foldl_overlay (current : Shipment) (updates : List Shipment) :
    updates.foldl overlay current = current.overlay (updates.foldl overlay blank) := by
  induction updates generalizing current with
  | nil => rfl
  | cons update updates ih =>
    rw [List.foldl_cons, List.foldl_cons, ih (current.overlay update), blank_overlay, ih update,
      overlay_assoc]

/-- Combining updates is associative, nothing is changed by an update without content or by one that
was just made, and what an update said before is forgotten when it comes again. So any number of
updates is as good as the one they combine to, and a repeated one might as well have come only as
the latest. -/
theorem overlay_idempotent_monoid :
    (∀ a b c : Shipment, (a.overlay b).overlay c = a.overlay (b.overlay c)) ∧
    (∀ a : Shipment, blank.overlay a = a ∧ a.overlay blank = a ∧ a.overlay a = a) ∧
    (∀ a b : Shipment, (a.overlay b).overlay a = b.overlay a) ∧
    (∀ (current : Shipment) (updates : List Shipment),
      updates.foldl overlay current = current.overlay (updates.foldl overlay blank)) ∧
    ∀ (current : Shipment) (before after : List Shipment) (update : Shipment),
      (before ++ update :: after ++ [update]).foldl overlay current =
        (before ++ after ++ [update]).foldl overlay current := by
  refine ⟨overlay_assoc, fun a => ⟨blank_overlay a, overlay_blank a, overlay_self a⟩, overlay_again,
    foldl_overlay, ?_⟩
  intro current before after update
  simp only [List.foldl_append, List.foldl_cons, List.foldl_nil]
  generalize before.foldl overlay current = found
  -- both sides as one overlay over what was there before the update came first
  rw [foldl_overlay (found.overlay update), foldl_overlay found, overlay_assoc, overlay_assoc,
    overlay_assoc, ← overlay_assoc update, overlay_again]

end Shipment
end Consignment
