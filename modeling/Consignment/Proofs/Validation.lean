import Consignment.Proofs.Validation.Table
import Consignment.Validation.Entities

/-! What it says of an object that a check came out well, or which of them did not. A schema whose
names are all there and all different finds each of its fields, so that the declared fields are
judged one by one. -/
namespace Consignment

theorem forM_eq_ok {ε α : Type} {f : α → Except ε Unit} {xs : List α} :
    xs.forM f = .ok () ↔ ∀ x ∈ xs, f x = .ok () := by
  induction xs with
  | nil => simp [pure, Except.pure]
  | cons x xs ih =>
    rw [List.forall_mem_cons, ← ih]
    change (f x >>= fun _ => xs.forM f) = .ok () ↔ _
    cases f x <;> simp [bind, Except.bind]

theorem exists_of_forM_error {ε α : Type} {f : α → Except ε Unit} {xs : List α} {e : ε}
    (h : xs.forM f = .error e) : ∃ front x back, xs = front ++ x :: back ∧
      (∀ y ∈ front, f y = .ok ()) ∧ f x = .error e := by
  induction xs with
  | nil => cases h
  | cons x xs ih =>
    change (f x >>= fun _ => xs.forM f) = .error e at h
    cases hx : f x with
    | error e' =>
      rw [hx] at h
      exact ⟨[], x, xs, rfl, by simp, hx.trans h⟩
    | ok u =>
      rw [hx] at h
      obtain ⟨front, y, back, rfl, hfront, hy⟩ := ih h
      exact ⟨x :: front, y, back, rfl, List.forall_mem_cons.2 ⟨hx, hfront⟩, hy⟩

namespace FieldRule
variable {α : Type}

def accepts (f : FieldRule α) (required : Bool) (object : α) : Bool :=
  if (f.value object).isAbsent then !required else (f.rule.violations (f.value object)).isEmpty

def complaint (f : FieldRule α) (object : α) : String :=
  if (f.value object).isAbsent then "is required"
  else "; ".intercalate (f.rule.violations (f.value object))

end FieldRule

namespace Schema
variable {α : Type} {s : Schema α} {object : α}

theorem indexed_table (s : Schema α) : s.table.Indexed := Table.indexed_build s.fields

theorem field?_ok {name : String} {f : FieldRule α} (h : s.field? name = .ok f) :
    f ∈ s.fields ∧ f.name = name := by
  unfold field? at h
  split at h
  · cases h
  split at h
  · next hfind =>
    obtain rfl := Except.ok.inj h
    rw [table, Table.field?_build] at hfind
    exact ⟨List.mem_reverse.1 (List.mem_of_find?_eq_some hfind),
      by simpa using List.find?_some hfind⟩
  · cases h

theorem check_eq_ok_iff {name : String} {f : FieldRule α} (h : s.field? name = .ok f)
    (required : Bool) :
    s.check object name required = .ok () ↔ f.accepts required object = true := by
  rw [check, h, FieldRule.accepts]
  simp only
  split
  · cases required <;> simp
  · split <;> simp_all

theorem check_eq_error {name : String} {f : FieldRule α} (h : s.field? name = .ok f)
    {required : Bool} {e : CheckError} (he : s.check object name required = .error e) :
    e = .invalid f.name (f.complaint object) := by
  rw [check, h] at he
  simp only at he
  unfold FieldRule.complaint
  split at he
  · next habsent =>
    split at he
    · rw [if_pos habsent]
      exact (Except.error.inj he).symm
    · cases he
  · next hpresent =>
    split at he
    · cases he
    · rw [if_neg hpresent]
      exact (Except.error.inj he).symm

theorem check_of_required {name : String} (h : s.check object name true = .ok ()) :
    s.check object name false = .ok () := by
  unfold check at h ⊢
  split at h
  · cases h
  · simp only
    split
    · rfl
    · next hpresent => simpa only [if_neg hpresent] using h

theorem field?_of_mem (hn : s.fieldNames.Nodup) (he : "" ∉ s.fieldNames) {f : FieldRule α}
    (hf : f ∈ s.fields) : s.field? f.name = .ok f := by
  have hname : f.name ∈ s.fieldNames := List.mem_map_of_mem hf
  have hne : f.name.isEmpty = false := by
    rw [String.isEmpty_eq_false_iff]
    intro hempty
    exact he (hempty ▸ hname)
  have htable : s.table.fields = s.fields := Table.fields_build_of_nodup hn
  have hfound : s.table.field? f.name = some f := by
    rw [s.indexed_table.field?_eq_find?, htable]
    exact find?_of_nodup hn hf
  simp [field?, hne, hfound]

theorem checkDeclared_eq_ok_iff (hn : s.fieldNames.Nodup) (he : "" ∉ s.fieldNames) :
    s.checkDeclared object = .ok () ↔
      ∀ f ∈ s.fields, f.accepts f.rule.mandatory object = true := by
  rw [checkDeclared, forM_eq_ok]
  refine forall₂_congr fun f hf => ?_
  exact check_eq_ok_iff (field?_of_mem hn he hf) _

end Schema

/-! ## Objects and collections -/

theorem violationsIn_eq_nil_iff {fields : List (Rule × Value)} :
    violationsIn fields = [] ↔ ∀ f ∈ fields,
      if f.2.isAbsent then f.1.mandatory = false else f.1.violations f.2 = [] := by
  induction fields with
  | nil => simp [violationsIn]
  | cons f fields ih =>
    obtain ⟨rule, v⟩ := f
    rw [violationsIn, List.append_eq_nil_iff, ih, List.forall_mem_cons]
    cases v.isAbsent <;> simp

theorem Schema.violations_eq_nil_iff {α : Type} {s : Schema α} {object : α} :
    s.violations object = [] ↔ ∀ f ∈ s.fields, f.accepts f.rule.mandatory object = true := by
  rw [violations, violationsIn_eq_nil_iff, view, List.forall_mem_map]
  refine forall₂_congr fun f _ => ?_
  rw [FieldRule.accepts]
  cases (f.value object).isAbsent <;> simp

theorem itemViolations_eq_nil_iff {constraints : List Constraint} {index : Nat} {vs : List Value} :
    itemViolations constraints index vs = [] ↔ ∀ v ∈ vs, elementViolations constraints v = [] := by
  induction vs generalizing index with
  | nil => simp [itemViolations]
  | cons v vs ih => simp [itemViolations, ih]

theorem entryViolations_eq_nil_iff {constraints : List Constraint} {es : List (String × Value)} :
    entryViolations constraints es = [] ↔ ∀ e ∈ es, elementViolations constraints e.2 = [] := by
  induction es with
  | nil => simp [entryViolations]
  | cons e es ih =>
    obtain ⟨key, v⟩ := e
    simp [entryViolations, ih]

namespace FieldRule
variable {α : Type} {f : FieldRule α} {object : α}

theorem accepts_items_iff {vs : List Value} (hv : f.value object = .list vs)
    (hc : f.rule.constraints = []) :
    f.accepts f.rule.mandatory object = true ↔
      ∀ v ∈ vs, elementViolations f.rule.elements v = [] := by
  have hfree : f.rule.mandatory = false := by simp [Rule.mandatory, hc]
  rw [accepts, hv, hfree]
  cases vs with
  | nil => simp [Value.isAbsent]
  | cons v vs =>
    simp [Value.isAbsent, Rule.violations, hc, Constraint.checkAll, itemViolations_eq_nil_iff]

theorem accepts_entries_iff {es : List (String × Value)} (hv : f.value object = .map es)
    (hc : f.rule.constraints = []) :
    f.accepts f.rule.mandatory object = true ↔
      ∀ e ∈ es, elementViolations f.rule.elements e.2 = [] := by
  have hfree : f.rule.mandatory = false := by simp [Rule.mandatory, hc]
  rw [accepts, hv, hfree]
  cases es with
  | nil => simp [Value.isAbsent]
  | cons e es =>
    simp [Value.isAbsent, Rule.violations, hc, Constraint.checkAll, entryViolations_eq_nil_iff]

end FieldRule

end Consignment
