import Consignment.Proofs.Validation.Builder

/-! The two ways to validate an object agree. One looks up each declared field and stops at the
first that has something wrong with it; the other goes through the whole table. Both report what is
wrong with a field in the same words, the one all of them as one detail and the other one by one. -/
namespace Consignment

namespace FieldRule
variable {α : Type} {f : FieldRule α} {object : α}

def messages (f : FieldRule α) (object : α) : List String :=
  if (f.value object).isAbsent then if f.rule.mandatory then ["is required"] else []
  else f.rule.violations (f.value object)

theorem messages_eq_nil_iff :
    f.messages object = [] ↔ f.accepts f.rule.mandatory object = true := by
  rw [messages, accepts]
  cases (f.value object).isAbsent <;> cases f.rule.mandatory <;> simp

theorem complaint_of_messages (h : f.messages object ≠ []) :
    f.complaint object = "; ".intercalate (f.messages object) := by
  rw [messages] at h ⊢
  rw [complaint]
  cases habsent : (f.value object).isAbsent with
  | false => simp
  | true => cases hmandatory : f.rule.mandatory <;> simp_all

end FieldRule

theorem violationsIn_append (fields others : List (Rule × Value)) :
    violationsIn (fields ++ others) = violationsIn fields ++ violationsIn others := by
  induction fields with
  | nil => rfl
  | cons f fields ih =>
    obtain ⟨rule, v⟩ := f
    simp only [List.cons_append, violationsIn, ih, List.append_assoc]

namespace Schema
variable {α : Type} {object : α}

theorem violations_append (entity : String) (fields others : List (FieldRule α)) (object : α) :
    (⟨entity, fields ++ others⟩ : Schema α).violations object =
      (⟨entity, fields⟩ : Schema α).violations object ++
        (⟨entity, others⟩ : Schema α).violations object := by
  simp only [violations, view, List.map_append, violationsIn_append]

theorem violations_cons (entity : String) (f : FieldRule α) (fields : List (FieldRule α))
    (object : α) :
    (⟨entity, f :: fields⟩ : Schema α).violations object =
      (f.messages object).map (f.name ++ " " ++ ·) ++
        (⟨entity, fields⟩ : Schema α).violations object := by
  simp only [violations, view, List.map_cons, violationsIn]
  congr 1
  rw [FieldRule.messages]
  cases (f.value object).isAbsent with
  | false => rfl
  | true =>
    cases f.rule.mandatory with
    | false => rfl
    | true => simp [FieldRule.name, String.append_assoc]

theorem violations_of_accepted {entity : String} {fields : List (FieldRule α)}
    (h : ∀ f ∈ fields, f.accepts f.rule.mandatory object = true) :
    (⟨entity, fields⟩ : Schema α).violations object = [] :=
  violations_eq_nil_iff.2 h

/-- Validation succeeds if and only if there is nothing to report. Otherwise it names the first
field, in the order of declaration, that has something wrong with it, and the report begins with
what is wrong with this field, each of it behind the name, and goes on with the fields after it. -/
theorem first_failure_heads_violations (entity : String) (declared : List (FieldRule α))
    (hnames : ∀ f ∈ declared, f.name ≠ "") (object : α) :
    let s := build entity declared
    (s.checkDeclared object = .ok () ↔ s.violations object = []) ∧
    ∀ e, s.checkDeclared object = .error e → ∃ front f back,
      latest declared = front ++ f :: back ∧
      (∀ g ∈ front, s.check object g.name g.rule.mandatory = .ok ()) ∧
      f.messages object ≠ [] ∧
      e = .invalid f.name ("; ".intercalate (f.messages object)) ∧
      s.violations object = (f.messages object).map (f.name ++ " " ++ ·) ++
        (⟨entity, back⟩ : Schema α).violations object := by
  intro s
  have hempty : "" ∉ s.fieldNames := empty_not_mem_build hnames
  refine ⟨?_, ?_⟩
  · rw [checkDeclared_eq_ok_iff nodup_build hempty, violations_eq_nil_iff]
  · intro e he
    obtain ⟨front, f, back, hsplit, hfront, hf⟩ := exists_of_forM_error he
    have hmem : ∀ g ∈ front ++ f :: back, s.field? g.name = .ok g :=
      fun g hg => field?_of_mem nodup_build hempty (hsplit ▸ hg)
    have hlookup := hmem f (by simp)
    have hmessages : f.messages object ≠ [] := by
      rw [Ne, FieldRule.messages_eq_nil_iff, ← check_eq_ok_iff hlookup, hf]
      simp
    have hpassed : ∀ g ∈ front, g.accepts g.rule.mandatory object = true := fun g hg =>
      (check_eq_ok_iff (hmem g (by simp [hg])) _).1 (hfront g hg)
    refine ⟨front, f, back, fields_build.symm.trans hsplit, hfront, hmessages, ?_, ?_⟩
    · rw [check_eq_error hlookup hf, FieldRule.complaint_of_messages hmessages]
    · have hs : s = ⟨entity, front ++ f :: back⟩ := congrArg (Schema.mk entity) hsplit
      rw [hs, violations_append, violations_of_accepted hpassed, List.nil_append, violations_cons]

/-- A field that is declared twice, with what was declared last, fails before one that stands behind
it. -/
theorem first_failure_heads_violations_redeclared :
    let declared : List (FieldRule Unit) :=
      [⟨⟨"code", [], []⟩, fun _ => .null⟩,
       ⟨⟨"lines", [.maxLength 1], []⟩, fun _ =>
         .list [.null, .object [(⟨"sku", [.required], []⟩, .null)]]⟩,
       ⟨⟨"code", [.notBlank, .maxLength 1], []⟩, fun _ => .text "  "⟩]
    let s := build "crate" declared
    let e := CheckError.invalid "code" "must not be blank; length must be at most 1"
    (∀ f ∈ declared, f.name ≠ "") ∧ s.checkDeclared () = .error e ∧ s.violations () ≠ [] ∧
      ∃ front f back, latest declared = front ++ f :: back ∧
        e = .invalid f.name ("; ".intercalate (f.messages ())) ∧
        s.violations () = (f.messages ()).map (f.name ++ " " ++ ·) ++
          (⟨"crate", back⟩ : Schema Unit).violations () := by
  intro declared s e
  have hnames : ∀ f ∈ declared, f.name ≠ "" := by decide
  have herror : s.checkDeclared () = .error e := by decide +kernel
  obtain ⟨hiff, hfirst⟩ := first_failure_heads_violations "crate" declared hnames ()
  refine ⟨hnames, herror, ?_, ?_⟩
  · rw [Ne, ← hiff, herror]
    simp
  · obtain ⟨front, f, back, hsplit, -, -, he, hviolations⟩ := hfirst e herror
    exact ⟨front, f, back, hsplit, he, hviolations⟩

end Schema
end Consignment
