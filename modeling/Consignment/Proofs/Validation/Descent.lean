import Consignment.Proofs.Validation.Builder

/-! How far validation descends into a value. It goes from object to object, and from a collection
to the objects among its elements. A collection among the elements of another is judged as a whole:
nothing is seen of what it holds but how many elements there are and which of them are null. -/
namespace Consignment

namespace Value

/-! ## Objects in a value -/

/-- An object in a value, at any depth. -/
inductive Holds (inner : List (Rule × Value)) : Value → Prop
  | object : Holds inner (.object inner)
  | field {fields : List (Rule × Value)} {rule : Rule} {v : Value} (hmem : (rule, v) ∈ fields)
    (h : Holds inner v) : Holds inner (.object fields)
  | item {items : List Value} {v : Value} (hmem : v ∈ items) (h : Holds inner v) :
    Holds inner (.list items)
  | entry {entries : List (String × Value)} {key : String} {v : Value} (hmem : (key, v) ∈ entries)
    (h : Holds inner v) : Holds inner (.map entries)

/-- An object in a value, with no collection right inside another on the way to it. -/
inductive Shows (inner : List (Rule × Value)) : Value → Prop
  | object : Shows inner (.object inner)
  | field {fields : List (Rule × Value)} {rule : Rule} {v : Value} (hmem : (rule, v) ∈ fields)
    (h : Shows inner v) : Shows inner (.object fields)
  | item {items : List Value} {fields : List (Rule × Value)} (hmem : .object fields ∈ items)
    (h : Shows inner (.object fields)) : Shows inner (.list items)
  | entry {entries : List (String × Value)} {key : String} {fields : List (Rule × Value)}
    (hmem : (key, .object fields) ∈ entries) (h : Shows inner (.object fields)) :
    Shows inner (.map entries)

def isCollection : Value → Bool
  | .list _ => true
  | .map _ => true
  | .null => false
  | .text _ => false
  | .integer _ => false
  | .object _ => false

/-- Somewhere in the value there is a collection right inside another. -/
inductive Nests : Value → Prop
  | item {items : List Value} {v : Value} (hmem : v ∈ items) (hv : v.isCollection = true) :
    Nests (.list items)
  | entry {entries : List (String × Value)} {key : String} {v : Value} (hmem : (key, v) ∈ entries)
    (hv : v.isCollection = true) : Nests (.map entries)
  | inField {fields : List (Rule × Value)} {rule : Rule} {v : Value} (hmem : (rule, v) ∈ fields)
    (h : Nests v) : Nests (.object fields)
  | inItem {items : List Value} {v : Value} (hmem : v ∈ items) (h : Nests v) : Nests (.list items)
  | inEntry {entries : List (String × Value)} {key : String} {v : Value} (hmem : (key, v) ∈ entries)
    (h : Nests v) : Nests (.map entries)

section Objects
variable {inner : List (Rule × Value)} {v : Value}

theorem Holds.object_of_element (h : Holds inner v) (hv : v.isCollection ≠ true) :
    ∃ fields, v = .object fields := by
  cases h with
  | object => exact ⟨_, rfl⟩
  | field hmem h => exact ⟨_, rfl⟩
  | item hmem h => exact absurd rfl hv
  | entry hmem h => exact absurd rfl hv

theorem Holds.shows (h : Holds inner v) (hflat : ¬ Nests v) : Shows inner v := by
  induction h with
  | object => exact .object
  | field hmem h ih => exact .field hmem (ih fun hn => hflat (.inField hmem hn))
  | item hmem h ih =>
    obtain ⟨fields, rfl⟩ := h.object_of_element fun hv => hflat (.item hmem hv)
    exact .item hmem (ih fun hn => hflat (.inItem hmem hn))
  | entry hmem h ih =>
    obtain ⟨fields, rfl⟩ := h.object_of_element fun hv => hflat (.entry hmem hv)
    exact .entry hmem (ih fun hn => hflat (.inEntry hmem hn))

theorem Shows.not_absent (h : Shows inner v) : v.isAbsent = false := by
  cases h with
  | object => rfl
  | field hmem h => rfl
  | item hmem h => cases hmem <;> rfl
  | entry hmem h => cases hmem <;> rfl

theorem violationsIn_of_object {rule : Rule} {fields : List (Rule × Value)}
    (h : rule.violations (.object fields) = []) : violationsIn fields = [] := by
  rw [Rule.violations] at h
  exact (List.append_eq_nil_iff.1 h).2

theorem violations_of_element {constraints : List Constraint} {fields : List (Rule × Value)}
    (h : elementViolations constraints (.object fields) = []) :
    Rule.violations ⟨"", [], []⟩ (.object fields) = [] := by
  rw [elementViolations] at h
  rw [Rule.violations, (List.append_eq_nil_iff.1 h).2]
  rfl

theorem Shows.violationsIn_eq_nil (h : Shows inner v) {rule : Rule} (hv : rule.violations v = []) :
    violationsIn inner = [] := by
  induction h generalizing rule with
  | object => exact violationsIn_of_object hv
  | field hmem h ih =>
    have hfield := violationsIn_eq_nil_iff.1 (violationsIn_of_object hv) _ hmem
    rw [h.not_absent] at hfield
    exact ih hfield
  | item hmem h ih =>
    rw [Rule.violations] at hv
    have hitems := itemViolations_eq_nil_iff.1 (List.append_eq_nil_iff.1 hv).2
    exact ih (violations_of_element (hitems _ hmem))
  | entry hmem h ih =>
    rw [Rule.violations] at hv
    have hentries := entryViolations_eq_nil_iff.1 (List.append_eq_nil_iff.1 hv).2
    exact ih (violations_of_element (hentries _ hmem))

end Objects

/-! ## What is seen of a value -/

def stub : Value → Value
  | .null => .null
  | _ => .integer 0

mutual

/-- What is left of a value when the collections among the elements of others keep no more than the
number of theirs, and which of them are null. -/
def surface : Value → Value
  | .object fields => .object (fieldSurfaces fields)
  | .list items => .list (itemSurfaces items)
  | .map entries => .map (entrySurfaces entries)
  | .null => .null
  | .text s => .text s
  | .integer n => .integer n

def elementSurface : Value → Value
  | .object fields => .object (fieldSurfaces fields)
  | .list items => .list (items.map stub)
  | .map entries => .map (entries.map fun e => (e.1, e.2.stub))
  | .null => .null
  | .text s => .text s
  | .integer n => .integer n

def itemSurfaces : List Value → List Value
  | [] => []
  | v :: vs => elementSurface v :: itemSurfaces vs

def entrySurfaces : List (String × Value) → List (String × Value)
  | [] => []
  | (key, v) :: es => (key, elementSurface v) :: entrySurfaces es

def fieldSurfaces : List (Rule × Value) → List (Rule × Value)
  | [] => []
  | (rule, v) :: fields => (rule, surface v) :: fieldSurfaces fields

end

theorem isNull_stub (v : Value) : v.stub.isNull = v.isNull := by cases v <;> rfl

theorem isNull_elementSurface (v : Value) : (elementSurface v).isNull = v.isNull := by
  cases v <;> rfl

theorem itemSurfaces_eq_map (vs : List Value) : itemSurfaces vs = vs.map elementSurface := by
  induction vs with
  | nil => rfl
  | cons v vs ih => rw [itemSurfaces, ih, List.map_cons]

theorem entrySurfaces_eq_map (es : List (String × Value)) :
    entrySurfaces es = es.map fun e => (e.1, elementSurface e.2) := by
  induction es with
  | nil => rfl
  | cons e es ih =>
    obtain ⟨key, v⟩ := e
    rw [entrySurfaces, ih, List.map_cons]

theorem isAbsent_surface (v : Value) : v.surface.isAbsent = v.isAbsent := by
  cases v <;> simp [surface, isAbsent, itemSurfaces_eq_map, entrySurfaces_eq_map]

end Value

/-! A constraint sees less of a collection than that, and nothing of an object. -/

namespace Constraint
variable {f : Value → Value}

theorem checkAll_list (hf : ∀ v, (f v).isNull = v.isNull) (cs : List Constraint)
    (items : List Value) : checkAll cs (.list (items.map f)) = checkAll cs (.list items) := by
  refine List.filterMap_congr fun c _ => ?_
  cases c <;> simp [check, Value.isAbsent, List.any_map, Function.comp_def, hf]

theorem checkAll_map (hf : ∀ v, (f v).isNull = v.isNull) (cs : List Constraint)
    (entries : List (String × Value)) :
    checkAll cs (.map (entries.map fun e => (e.1, f e.2))) = checkAll cs (.map entries) := by
  have hnull : (entries.map fun e => (e.1, f e.2)).any (fun e => e.2.isNull) =
      entries.any fun e => e.2.isNull := by
    simp [List.any_map, Function.comp_def, hf]
  refine List.filterMap_congr fun c _ => ?_
  cases c with
  | noNullElements =>
    simp only [check]
    rw [hnull]
  | _ => simp [check, Value.isAbsent]

theorem checkAll_object (cs : List Constraint) (fields others : List (Rule × Value)) :
    checkAll cs (.object fields) = checkAll cs (.object others) :=
  List.filterMap_congr fun c _ => by cases c <;> rfl

end Constraint

namespace Value

mutual

theorem violations_surface (rule : Rule) :
    ∀ v : Value, rule.violations v.surface = rule.violations v
  | .object fields => by
    rw [surface, Rule.violations, Rule.violations, fieldSurfaces_violations fields,
      Constraint.checkAll_object]
  | .list items => by
    rw [surface, Rule.violations, Rule.violations, itemSurfaces_violations, itemSurfaces_eq_map,
      Constraint.checkAll_list isNull_elementSurface]
  | .map entries => by
    rw [surface, Rule.violations, Rule.violations, entrySurfaces_violations, entrySurfaces_eq_map,
      Constraint.checkAll_map isNull_elementSurface]
  | .null => rfl
  | .text _ => rfl
  | .integer _ => rfl

theorem elementSurface_violations (cs : List Constraint) :
    ∀ v : Value, elementViolations cs (elementSurface v) = elementViolations cs v
  | .object fields => by
    rw [elementSurface, elementViolations, elementViolations, fieldSurfaces_violations fields,
      Constraint.checkAll_object]
  | .list items => Constraint.checkAll_list isNull_stub cs items
  | .map entries => Constraint.checkAll_map isNull_stub cs entries
  | .null => rfl
  | .text _ => rfl
  | .integer _ => rfl

theorem itemSurfaces_violations (cs : List Constraint) (index : Nat) :
    ∀ vs : List Value, itemViolations cs index (itemSurfaces vs) = itemViolations cs index vs
  | [] => rfl
  | v :: vs => by
    rw [itemSurfaces, itemViolations, itemViolations, elementSurface_violations cs v,
      itemSurfaces_violations cs (index + 1) vs]

theorem entrySurfaces_violations (cs : List Constraint) :
    ∀ es : List (String × Value), entryViolations cs (entrySurfaces es) = entryViolations cs es
  | [] => rfl
  | (key, v) :: es => by
    rw [entrySurfaces, entryViolations, entryViolations, elementSurface_violations cs v,
      entrySurfaces_violations cs es]

theorem fieldSurfaces_violations :
    ∀ fields : List (Rule × Value), violationsIn (fieldSurfaces fields) = violationsIn fields
  | [] => rfl
  | (rule, v) :: fields => by
    rw [fieldSurfaces, violationsIn, violationsIn, violations_surface rule v, isAbsent_surface,
      fieldSurfaces_violations fields]

end

end Value

/-! ## Schemas -/

namespace Schema
variable {α : Type} {s : Schema α} {object other : α}

theorem check_congr (h : ∀ f ∈ s.fields, (f.value object).surface = (f.value other).surface)
    (name : String) (required : Bool) :
    s.check object name required = s.check other name required := by
  unfold check
  cases hf : s.field? name with
  | error e => rfl
  | ok f =>
    have hsurface := h f (field?_ok hf).1
    have habsent : (f.value object).isAbsent = (f.value other).isAbsent := by
      rw [← Value.isAbsent_surface, hsurface, Value.isAbsent_surface]
    have hviolations : f.rule.violations (f.value object) = f.rule.violations (f.value other) := by
      rw [← Value.violations_surface, hsurface, Value.violations_surface]
    simp only [habsent, hviolations]

theorem empty_not_mem_of_ok (h : s.checkDeclared object = .ok ()) : "" ∉ s.fieldNames := by
  intro hmem
  obtain ⟨f, hf, hname⟩ := List.mem_map.1 hmem
  have hcheck := forM_eq_ok.1 h f hf
  rw [hname] at hcheck
  cases hcheck

/-- No object that an object shows in its fields breaks a rule of its own if that object passes. If
no collection in its fields is right inside another, these are all the objects in them. What
collections right inside others hold makes no difference to any object. -/
theorem checkDeclared_descends (entity : String) (declared : List (FieldRule α)) (object : α) :
    let s := build entity declared
    (s.checkDeclared object = .ok () → ∀ f ∈ s.fields, ∀ inner,
      ((f.value object).Shows inner → violationsIn inner = []) ∧
      (¬ (f.value object).Nests → (f.value object).Holds inner → violationsIn inner = [])) ∧
    ∀ other, (∀ f ∈ s.fields, (f.value object).surface = (f.value other).surface) →
      s.checkDeclared object = s.checkDeclared other := by
  intro s
  refine ⟨?_, ?_⟩
  · intro h f hf inner
    have haccepts := (checkDeclared_eq_ok_iff nodup_build (empty_not_mem_of_ok h)).1 h f hf
    have hshown : (f.value object).Shows inner → violationsIn inner = [] := by
      intro hshows
      have hviolations : f.rule.violations (f.value object) = [] := by
        simpa [FieldRule.accepts, hshows.not_absent] using haccepts
      exact hshows.violationsIn_eq_nil hviolations
    exact ⟨hshown, fun hflat hholds => hshown (hholds.shows hflat)⟩
  · intro other hsurface
    have hchecks := check_congr (s := s) hsurface
    simp only [checkDeclared, hchecks]

/-- A box with a label in it, on a pallet, that is packed with others. -/
theorem checkDeclared_descends_boxed :
    let label : List (Rule × Value) := [(⟨"sku", [.required, .notBlank], []⟩, .text "SKU-1")]
    let box : List (Rule × Value) :=
      [(⟨"size", [.positive], []⟩, .integer 2), (⟨"labels", [], []⟩, .map [("top", .object label)])]
    let s : Schema Unit :=
      build "pallet" [⟨⟨"boxes", [.noNullElements], []⟩, fun _ => .list [.object box]⟩]
    s.checkDeclared () = .ok () ∧ violationsIn label = [] ∧ violationsIn box = [] := by
  intro label box s
  have hok : s.checkDeclared () = .ok () := by decide +kernel
  have hall := (checkDeclared_descends "pallet"
    [⟨⟨"boxes", [.noNullElements], []⟩, fun _ => .list [.object box]⟩] ()).1 hok _ (.head _)
  refine ⟨hok, (hall label).1 ?_, (hall box).1 ?_⟩
  · exact .item (.head _) (.field (.tail _ (.head _)) (.entry (.head _) .object))
  · exact .item (.head _) .object

/-- A box in a list of lists is not looked at. -/
theorem box_in_nested_list_unseen :
    let box : List (Rule × Value) := [(⟨"sku", [.required], []⟩, .null)]
    let s : Schema Unit :=
      build "pallet" [⟨⟨"boxes", [], []⟩, fun _ => .list [.list [.object box]]⟩]
    s.checkDeclared () = .ok () ∧ (∃ f ∈ s.fields, (f.value ()).Holds box) ∧
      violationsIn box = ["sku is required"] := by
  intro box s
  refine ⟨by decide +kernel, ⟨_, .head _, ?_⟩, by decide +kernel⟩
  exact .item (.head _) (.item (.head _) .object)

end Schema
end Consignment
