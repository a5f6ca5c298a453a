import Consignment.Proofs.Validation

/-! What the constraints say of absent values. To be required is the only one that is about absence,
but the empty text is still a text to those that ask for some of it. A field that holds it is left
alone, an element is not. -/
namespace Consignment

namespace Constraint

def needsText : Constraint → Bool
  | .notBlank => true
  | .length min _ => 0 < min
  | .required => false
  | .maxLength _ => false
  | .positive => false
  | .uppercase => false
  | .noNullElements => false

theorem check_empty_text {c : Constraint} (hc : c ≠ .required) :
    c.check (.text "") = none ↔ c.needsText = false := by
  cases c with
  | required => exact absurd rfl hc
  | notBlank => decide
  | length min max => simp [check, needsText]
  | maxLength max => simp [check, needsText]
  | positive => decide
  | uppercase => decide
  | noNullElements => decide

theorem check_absent {c : Constraint} (hc : c ≠ .required) {v : Value} (hv : v.isAbsent = true) :
    c.check v = none ↔ ¬ (v = .text "" ∧ c.needsText = true) := by
  cases v with
  | null => cases c <;> simp_all [check]
  | text s =>
    obtain rfl : s = "" := by simpa [Value.isAbsent] using hv
    simp [check_empty_text hc]
  | integer n => cases hv
  | object fields => cases hv
  | list items =>
    obtain rfl : items = [] := by simpa [Value.isAbsent] using hv
    cases c <;> simp_all [check]
  | map entries =>
    obtain rfl : entries = [] := by simpa [Value.isAbsent] using hv
    cases c <;> simp_all [check]

theorem checkAll_eq_nil_iff {cs : List Constraint} {v : Value} :
    checkAll cs v = [] ↔ ∀ c ∈ cs, c.check v = none := by
  simp [checkAll]

end Constraint

theorem elementViolations_absent {cs : List Constraint} {v : Value} (hv : v.isAbsent = true)
    (hnull : v ≠ .null) : elementViolations cs v = Constraint.checkAll cs v := by
  cases v with
  | null => exact absurd rfl hnull
  | text s => rfl
  | integer n => cases hv
  | object fields => cases hv
  | list items => rfl
  | map entries => rfl

theorem Schema.check_of_absent {α : Type} {s : Schema α} {object : α} {f : FieldRule α}
    (hf : s.field? f.name = .ok f) (hv : (f.value object).isAbsent = true) :
    s.check object f.name false = .ok () := by
  rw [check_eq_ok_iff hf, FieldRule.accepts, if_pos hv]
  rfl

/-- Constraints that do not require anything pass on whatever is absent, except that an empty text
is too little for those that need text. So it is among elements. An absent value of a field is not
held against them, be they what they may. -/
theorem absent_passes_iff {α : Type} {cs : List Constraint} (hcs : .required ∉ cs) {v : Value}
    (hv : v.isAbsent = true) :
    (∀ c ∈ cs, c.check v = none ↔ ¬ (v = .text "" ∧ c.needsText = true)) ∧
    (elementViolations cs v = [] ↔ ¬ (v = .text "" ∧ ∃ c ∈ cs, c.needsText = true)) ∧
    ∀ (s : Schema α) (object : α) (f : FieldRule α), s.field? f.name = .ok f →
      f.value object = v → s.check object f.name false = .ok () := by
  have hcheck : ∀ c ∈ cs, c.check v = none ↔ ¬ (v = .text "" ∧ c.needsText = true) :=
    fun c hc => Constraint.check_absent (fun h => hcs (h ▸ hc)) hv
  refine ⟨hcheck, ?_, ?_⟩
  · by_cases hnull : v = .null
    · simp [hnull, elementViolations]
    · rw [elementViolations_absent hv hnull, Constraint.checkAll_eq_nil_iff,
        forall₂_congr hcheck]
      simp only [not_and, not_exists]
      exact ⟨fun h ht c hc => h c hc ht, fun h c hc ht => h ht c hc⟩
  · intro s object f hf hvalue
    exact Schema.check_of_absent hf (hvalue ▸ hv)

theorem absent_passes_iff_empty_text :
    let cs : List Constraint := [.uppercase, .length 0 3, .maxLength 0]
    let v := Value.text ""
    let f : FieldRule Unit := ⟨⟨"code", [.length 3 3], []⟩, fun _ => v⟩
    let s := Schema.build "crate" [f]
    .required ∉ cs ∧ v.isAbsent = true ∧ (∀ c ∈ cs, c.check v = none) ∧
      elementViolations cs v = [] ∧ s.check () "code" false = .ok () := by
  intro cs v f s
  have hcs : .required ∉ cs := by decide
  obtain ⟨hcheck, helement, hfield⟩ := absent_passes_iff (α := Unit) hcs (v := v) rfl
  refine ⟨hcs, rfl, fun c hc => (hcheck c hc).2 ?_, helement.2 ?_, hfield s () f rfl rfl⟩
  · simp only [cs, List.mem_cons, List.not_mem_nil, or_false] at hc
    rcases hc with rfl | rfl | rfl <;> simp [Constraint.needsText]
  · simp [cs, Constraint.needsText]

/-- An empty text is absent, and still it is blank and too short. -/
theorem empty_text_is_blank :
    let v := Value.text ""
    v.isAbsent = true ∧ Constraint.notBlank.check v = some "must not be blank" ∧
      (Constraint.length 1 3).check v = some "length must be between 1 and 3" ∧
      elementViolations [.notBlank] v = ["must not be blank"] := by
  decide +kernel

end Consignment
