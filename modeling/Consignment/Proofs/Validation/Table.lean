import Consignment.Proofs.Lookup
import Consignment.Validation.Schema
import Mathlib.Data.List.Induction

/-! The table of fields that are declared one after the other. Each name stands in it once, where it
came up first, with what was declared under it last. What every declaration keeps is that the place
of a name is where the name stands. -/
namespace Consignment

theorem eraseDups_concat (names : List String) (name : String) :
    (names ++ [name]).eraseDups = names.eraseDups ++ if name ∈ names then [] else [name] := by
  rw [List.eraseDups_append]
  congr 1
  by_cases hname : name ∈ names <;> simp [List.removeAll, List.eraseDups_cons, hname]

namespace Table
variable {α : Type} {t u : Table α} {f : FieldRule α} {declared : List (FieldRule α)}

def names (t : Table α) : List String := t.fields.map fun f => f.name

def Indexed (t : Table α) : Prop := ∀ name i, t.places.get? name = some i ↔ t.names[i]? = some name

namespace Indexed

theorem get?_eq_none_iff (h : t.Indexed) {name : String} :
    t.places.get? name = none ↔ name ∉ t.names := by
  rw [Option.eq_none_iff_forall_ne_some, List.mem_iff_getElem?]
  simp only [Ne, h name, not_exists]

theorem exists_of_mem (h : t.Indexed) {name : String} (hname : name ∈ t.names) :
    ∃ i, t.places.get? name = some i := by
  obtain ⟨i, hi⟩ := List.mem_iff_getElem?.1 hname
  exact ⟨i, (h name i).2 hi⟩

theorem nodup (h : t.Indexed) : t.names.Nodup := by
  rw [List.nodup_iff_getElem?_ne_getElem?]
  intro i j hij hj heq
  have hj' : t.names[j]? = some t.names[j] := List.getElem?_eq_getElem hj
  have hplace := (h t.names[j] j).2 hj'
  rw [(h t.names[j] i).2 (heq.trans hj')] at hplace
  exact Nat.ne_of_lt hij (Option.some.inj hplace)

theorem eq_of_fields (h : t.Indexed) (h' : u.Indexed) (hfields : t.fields = u.fields) : t = u := by
  have hnames : t.names = u.names := by rw [names, names, hfields]
  have hplaces : t.places = u.places := by
    apply Register.ext
    intro name
    apply Option.ext
    intro i
    rw [h name i, h' name i, hnames]
  cases t
  cases u
  simp_all

end Indexed

/-! ## One declaration -/

theorem declare_of_some {i : Nat} (h : t.places.get? f.name = some i) :
    t.declare f = ⟨t.fields.set i f, t.places⟩ := by
  rw [declare, h]

theorem declare_of_none (h : t.places.get? f.name = none) :
    t.declare f = ⟨t.fields ++ [f], t.places.put f.name t.fields.length⟩ := by
  rw [declare, h]

theorem names_declare (h : t.Indexed) (f : FieldRule α) :
    (t.declare f).names = t.names ++ if f.name ∈ t.names then [] else [f.name] := by
  by_cases hf : f.name ∈ t.names
  · obtain ⟨i, hi⟩ := h.exists_of_mem hf
    obtain ⟨hlt, hget⟩ := List.getElem?_eq_some_iff.1 ((h f.name i).1 hi)
    rw [declare_of_some hi, if_pos hf, List.append_nil, names, List.map_set]
    exact (congrArg (t.names.set i) hget.symm).trans (List.set_getElem_self hlt)
  · rw [declare_of_none (h.get?_eq_none_iff.2 hf), if_neg hf, names, List.map_append]
    rfl

theorem Indexed.declare (h : t.Indexed) (f : FieldRule α) : (t.declare f).Indexed := by
  intro name i
  rw [names_declare h]
  by_cases hf : f.name ∈ t.names
  · obtain ⟨j, hj⟩ := h.exists_of_mem hf
    rw [declare_of_some hj, if_pos hf, List.append_nil]
    exact h name i
  · have hlength : t.fields.length = t.names.length := (List.length_map ..).symm
    rw [declare_of_none (h.get?_eq_none_iff.2 hf), if_neg hf, Register.get?_put, hlength]
    by_cases hname : f.name = name
    · subst hname
      have hold : t.names[i]? ≠ some f.name := fun hi => hf (List.mem_of_getElem? hi)
      grind
    · rw [if_neg hname, h name i]
      grind

theorem field?_declare (h : t.Indexed) (f : FieldRule α) (name : String) :
    (t.declare f).field? name = if f.name = name then some f else t.field? name := by
  by_cases hf : f.name ∈ t.names
  · obtain ⟨i, hi⟩ := h.exists_of_mem hf
    obtain ⟨hlt, -⟩ := List.getElem?_eq_some_iff.1 ((h f.name i).1 hi)
    rw [names, List.length_map] at hlt
    rw [declare_of_some hi, field?, field?]
    by_cases hname : f.name = name
    · subst hname
      simp [hi, hlt]
    · cases hj : t.places.get? name with
      | none => simp [hname]
      | some j =>
        have hij : i ≠ j := by
          rintro rfl
          have hsame := ((h name i).1 hj).symm.trans ((h f.name i).1 hi)
          exact hname (Option.some.inj hsame).symm
        simp [hname, hij]
  · rw [declare_of_none (h.get?_eq_none_iff.2 hf), field?, field?]
    by_cases hname : f.name = name
    · simp [hname]
    · cases hj : t.places.get? name with
      | none => simp [Register.get?_put, hname, hj]
      | some j =>
        obtain ⟨hlt, -⟩ := List.getElem?_eq_some_iff.1 ((h name j).1 hj)
        rw [names, List.length_map] at hlt
        simp [Register.get?_put, hname, hj, List.getElem?_append_left hlt]

/-! ## All declarations -/

theorem build_concat (f : FieldRule α) : build (declared ++ [f]) = (build declared).declare f := by
  simp [build]

theorem indexed_build (declared : List (FieldRule α)) : (build declared).Indexed := by
  induction declared using List.reverseRecOn with
  | nil =>
    intro name i
    exact iff_of_false nofun nofun
  | append_singleton ds f ih =>
    rw [build_concat]
    exact ih.declare f

theorem names_build (declared : List (FieldRule α)) :
    (build declared).names = (declared.map fun f => f.name).eraseDups := by
  induction declared using List.reverseRecOn with
  | nil => rfl
  | append_singleton ds f ih =>
    rw [build_concat, names_declare (indexed_build ds), ih, List.map_append, List.map_singleton,
      eraseDups_concat]
    simp only [List.mem_eraseDups]

theorem field?_build (declared : List (FieldRule α)) (name : String) :
    (build declared).field? name = declared.reverse.find? (·.name = name) := by
  induction declared using List.reverseRecOn with
  | nil => rfl
  | append_singleton ds f ih =>
    rw [build_concat, field?_declare (indexed_build ds), ih, List.reverse_concat, List.find?_cons]
    by_cases hf : f.name = name <;> simp [hf]

theorem Indexed.field?_eq_find? (h : t.Indexed) (name : String) :
    t.field? name = t.fields.find? (·.name = name) := by
  rw [field?]
  cases hplace : t.places.get? name with
  | none =>
    have hname := h.get?_eq_none_iff.1 hplace
    symm
    simpa [names] using hname
  | some i =>
    have hi := (h name i).1 hplace
    rw [names, List.getElem?_map, Option.map_eq_some_iff] at hi
    obtain ⟨f, hf, rfl⟩ := hi
    rw [find?_of_nodup h.nodup (List.mem_of_getElem? hf)]
    exact hf

theorem fields_build_of_nodup (h : (declared.map fun f => f.name).Nodup) :
    (build declared).fields = declared := by
  induction declared using List.reverseRecOn with
  | nil => rfl
  | append_singleton ds f ih =>
    rw [List.map_append, List.nodup_append] at h
    have hfields := ih h.1
    have hnew : f.name ∉ (build ds).names := by
      rw [names, hfields]
      intro hmem
      exact h.2.2 f.name hmem f.name (by simp) rfl
    rw [build_concat, declare_of_none ((indexed_build ds).get?_eq_none_iff.2 hnew), hfields]

theorem Indexed.build_fields (h : t.Indexed) : build t.fields = t :=
  (indexed_build t.fields).eq_of_fields h (fields_build_of_nodup h.nodup)

end Table
end Consignment
