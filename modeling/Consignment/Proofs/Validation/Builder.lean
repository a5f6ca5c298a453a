import Consignment.Proofs.Validation

/-! What a schema holds after its fields were declared one after the other. A field stands where its
name was declared first and is what was declared under it last. -/
namespace Consignment.Schema
variable {α : Type} {entity : String} {declared : List (FieldRule α)}

/-- The fields in the order in which their names came up, each as it was declared last. -/
def latest (declared : List (FieldRule α)) : List (FieldRule α) :=
  (declared.map (·.name)).eraseDups.filterMap fun name => declared.reverse.find? (·.name = name)

theorem fieldNames_build :
    (build entity declared).fieldNames = (declared.map (·.name)).eraseDups :=
  Table.names_build declared

theorem find?_build (name : String) :
    (build entity declared).fields.find? (·.name = name) =
      declared.reverse.find? (·.name = name) := by
  rw [← Table.field?_build]
  exact ((Table.indexed_build declared).field?_eq_find? name).symm

theorem nodup_build : (build entity declared).fieldNames.Nodup :=
  (Table.indexed_build declared).nodup

theorem fields_build : (build entity declared).fields = latest declared := by
  have hfields : _ = (build entity declared).fields :=
    filterMap_find?_of_nodup nodup_build fun _ => id
  have hnames : (build entity declared).fields.map (·.name) = (declared.map (·.name)).eraseDups :=
    fieldNames_build
  rw [← hfields, latest, hnames]
  simp only [find?_build]

theorem mem_of_mem_build {f : FieldRule α} (h : f ∈ (build entity declared).fields) :
    f ∈ declared := by
  rw [fields_build, latest, List.mem_filterMap] at h
  obtain ⟨name, -, hname⟩ := h
  exact List.mem_reverse.1 (List.mem_of_find?_eq_some hname)

theorem empty_not_mem_build (h : ∀ f ∈ declared, f.name ≠ "") :
    "" ∉ (build entity declared).fieldNames := by
  intro hmem
  obtain ⟨f, hf, hname⟩ := List.mem_map.1 hmem
  exact h f (mem_of_mem_build hf) hname

/-! ## Places -/

theorem table_build : (build entity declared).table = Table.build declared :=
  (Table.indexed_build declared).build_fields

theorem field?_build {name : String} (hname : name ≠ "") :
    (build entity declared).field? name =
      match declared.reverse.find? (·.name = name) with
      | some f => .ok f
      | none => .error (.unknownField entity name) := by
  rw [field?, if_neg (by simpa using hname), table_build, Table.field?_build]
  rfl

theorem find?_reverse_eq_some_iff {name : String} {f : FieldRule α} :
    declared.reverse.find? (·.name = name) = some f ↔ ∃ before after,
      declared = before ++ f :: after ∧ f.name = name ∧ ∀ g ∈ after, g.name ≠ name := by
  rw [List.find?_eq_some_iff_append]
  constructor
  · rintro ⟨hf, after, before, hsplit, hafter⟩
    refine ⟨before.reverse, after.reverse, ?_, by simpa using hf, by simpa using hafter⟩
    rw [← List.reverse_reverse declared, hsplit]
    simp
  · rintro ⟨before, after, rfl, hf, hafter⟩
    exact ⟨by simpa using hf, after.reverse, before.reverse, by simp, by simpa using hafter⟩

theorem eraseDups_in_order (names : List String) :
    names.eraseDups.Pairwise fun a b => names.idxOf a < names.idxOf b := by
  induction names using List.reverseRecOn with
  | nil => exact .nil
  | append_singleton names name ih =>
    have hold : ∀ a ∈ names.eraseDups, (names ++ [name]).idxOf a = names.idxOf a :=
      fun a ha => List.idxOf_append_of_mem (List.mem_eraseDups.1 ha)
    have hbefore : names.eraseDups.Pairwise fun a b =>
        (names ++ [name]).idxOf a < (names ++ [name]).idxOf b := by
      refine ih.imp_of_mem fun ha hb hlt => ?_
      rwa [hold _ ha, hold _ hb]
    rw [eraseDups_concat]
    by_cases hname : name ∈ names
    · rwa [if_pos hname, List.append_nil]
    · rw [if_neg hname]
      refine List.pairwise_append.2 ⟨hbefore, List.pairwise_singleton .., ?_⟩
      intro a ha b hb
      obtain rfl := List.mem_singleton.1 hb
      rw [hold a ha, List.idxOf_append_of_notMem hname]
      exact Nat.lt_add_right _ (List.idxOf_lt_length_of_mem (List.mem_eraseDups.1 ha))

/-- A name stands once in the schema, however often it was declared, and the names stand in the
order in which they were declared first. What is found under a name is its last declaration, and
only a name that was never declared is unknown. The places that the declarations left are kept, and
the field at the place of a name is the field of that name. -/
theorem last_declaration_in_first_place (entity : String) (declared : List (FieldRule α)) :
    let s := build entity declared
    let names := declared.map (·.name)
    (s.fieldNames.Nodup ∧ (∀ name, name ∈ s.fieldNames ↔ name ∈ names) ∧
      s.fieldNames.Pairwise fun a b => names.idxOf a < names.idxOf b) ∧
    (∀ name, name ≠ "" →
      (∀ f, s.field? name = .ok f ↔ ∃ before after,
        declared = before ++ f :: after ∧ f.name = name ∧ ∀ g ∈ after, g.name ≠ name) ∧
      (s.field? name = .error (.unknownField entity name) ↔ name ∉ names)) ∧
    s.table = declared.foldl Table.declare .empty ∧
    ∀ name i, s.table.places.get? name = some i ↔ ∃ f, s.fields[i]? = some f ∧ f.name = name := by
  intro s names
  have hnames : s.fieldNames = names.eraseDups := fieldNames_build
  refine ⟨⟨nodup_build, ?_, ?_⟩, ?_, table_build, ?_⟩
  · intro name
    rw [hnames, List.mem_eraseDups]
  · rw [hnames]
    exact eraseDups_in_order names
  · intro name hname
    have hfield : (build entity declared).field? name = _ := field?_build hname
    refine ⟨fun f => ?_, ?_⟩
    · rw [hfield, ← find?_reverse_eq_some_iff]
      cases declared.reverse.find? (·.name = name) <;> simp
    · have hnone : name ∉ names ↔ declared.reverse.find? (·.name = name) = none := by
        simp [names]
      rw [hfield, hnone]
      cases declared.reverse.find? (·.name = name) <;> simp
  · intro name i
    have hplace := Table.indexed_build declared name i
    rw [Table.names, List.getElem?_map, Option.map_eq_some_iff] at hplace
    rw [table_build]
    exact hplace

/-- A code declared twice, with a count of lines in between. -/
theorem last_declaration_in_first_place_redeclared :
    let code (constraints : List Constraint) : FieldRule Unit :=
      ⟨⟨"code", constraints, []⟩, fun _ => .null⟩
    let lines : FieldRule Unit := ⟨⟨"lines", [], []⟩, fun _ => .integer 1⟩
    let s := build "Parcel" [code [.notBlank], lines, code [.required]]
    s.fieldNames = ["code", "lines"] ∧ s.field? "code" = .ok (code [.required]) ∧
      s.field? "weight" = .error (.unknownField "Parcel" "weight") ∧
      s.table.places.get? "lines" = some 1 := by
  intro code lines s
  obtain ⟨-, hfield, -, hplace⟩ :=
    last_declaration_in_first_place "Parcel" [code [.notBlank], lines, code [.required]]
  have hnames : s.fieldNames = ["code", "lines"] := fieldNames_build.trans (by decide)
  refine ⟨hnames, ?_, ?_, ?_⟩
  · exact ((hfield "code" (by decide)).1 _).2 ⟨[code [.notBlank], lines], [], rfl, rfl, by simp⟩
  · exact (hfield "weight" (by decide)).2.2 (by decide)
  · refine (hplace "lines" 1).2 (Option.map_eq_some_iff.1 ?_)
    rw [← List.getElem?_map]
    exact congrArg (·[1]?) hnames

end Consignment.Schema
