/-! Finite maps from text, kept in ascending key order, so that equal contents are equal values. -/
namespace Consignment

structure Register (α : Type) where
  entries : List (String × α)
  ascending : entries.Pairwise (·.1 < ·.1)
deriving DecidableEq

namespace Register
variable {α : Type}

def lookup (k : String) : List (String × α) → Option α
  | [] => none
  | e :: es => if e.1 = k then some e.2 else lookup k es

def place (k : String) (v : α) : List (String × α) → List (String × α)
  | [] => [(k, v)]
  | e :: es =>
    if k < e.1 then (k, v) :: e :: es
    else if k = e.1 then (k, v) :: es
    else e :: place k v es

theorem mem_place {k : String} {v : α} {es : List (String × α)} {e : String × α}
    (h : e ∈ place k v es) : e = (k, v) ∨ e ∈ es := by
  induction es with
  | nil => simpa [place] using h
  | cons a es ih => grind [place]

theorem pairwise_place (k : String) (v : α) {es : List (String × α)}
    (h : es.Pairwise (·.1 < ·.1)) : (place k v es).Pairwise (·.1 < ·.1) := by
  induction es with
  | nil => simp [place]
  | cons a es ih =>
    obtain ⟨ha, hs⟩ := List.pairwise_cons.1 h
    unfold place
    split
    · next hk =>
      refine List.pairwise_cons.2 ⟨fun e he => ?_, h⟩
      rcases List.mem_cons.1 he with rfl | he
      · exact hk
      · exact String.lt_trans hk (ha e he)
    split
    · next hk => exact List.pairwise_cons.2 ⟨fun e he => by simpa [hk] using ha e he, hs⟩
    · next hlt hne =>
      refine List.pairwise_cons.2 ⟨fun e he => ?_, ih hs⟩
      rcases mem_place he with rfl | he
      · exact String.not_le.1 fun hle => hne (String.le_antisymm hle (String.not_lt.1 hlt))
      · exact ha e he

theorem lookup_eq_none {k : String} {es : List (String × α)} (h : ∀ e ∈ es, k < e.1) :
    lookup k es = none := by
  induction es with
  | nil => rfl
  | cons e es ih =>
    have he := h e (by simp)
    have hne : e.1 ≠ k := fun hk => String.lt_irrefl k (hk ▸ he)
    simpa [lookup, hne] using ih fun e' he' => h e' (by simp [he'])

theorem lookup_place (k j : String) (v : α) (es : List (String × α)) :
    lookup j (place k v es) = if k = j then some v else lookup j es := by
  induction es with
  | nil => rfl
  | cons e es ih => grind [place, lookup]

def empty : Register α := ⟨[], .nil⟩

instance : EmptyCollection (Register α) := ⟨empty⟩
instance : Inhabited (Register α) := ⟨empty⟩

def get? (r : Register α) (k : String) : Option α := lookup k r.entries

def put (r : Register α) (k : String) (v : α) : Register α :=
  ⟨place k v r.entries, pairwise_place k v r.ascending⟩

def getD (r : Register α) (k : String) (v : α) : α := (r.get? k).getD v

def size (r : Register α) : Nat := r.entries.length

def isEmpty (r : Register α) : Bool := r.entries.isEmpty

def extend (r s : Register α) : Register α := s.entries.foldl (fun r e => r.put e.1 e.2) r

def ofList (es : List (String × α)) : Register α := es.foldl (fun r e => r.put e.1 e.2) empty

@[simp] theorem get?_empty (k : String) : (empty : Register α).get? k = none := rfl

theorem get?_put (r : Register α) (k j : String) (v : α) :
    (r.put k v).get? j = if k = j then some v else r.get? j :=
  lookup_place k j v r.entries

@[simp] theorem get?_put_self (r : Register α) (k : String) (v : α) :
    (r.put k v).get? k = some v := by simp [get?_put]

theorem lookup_of_lt {k : String} {e : String × α} {es : List (String × α)}
    (h : (e :: es).Pairwise (·.1 < ·.1)) (hk : k < e.1) : lookup k (e :: es) = none :=
  lookup_eq_none fun x hx => by
    rcases List.mem_cons.1 hx with rfl | hx
    · exact hk
    · exact String.lt_trans hk ((List.pairwise_cons.1 h).1 x hx)

private theorem entries_ext {es fs : List (String × α)} (he : es.Pairwise (·.1 < ·.1))
    (hf : fs.Pairwise (·.1 < ·.1)) (h : ∀ k, lookup k es = lookup k fs) : es = fs := by
  induction es generalizing fs with
  | nil =>
    cases fs with
    | nil => rfl
    | cons f fs => simpa [lookup] using h f.1
  | cons e es ih =>
    cases fs with
    | nil => simpa [lookup] using h e.1
    | cons f fs =>
      have hk : e.1 = f.1 := by
        refine String.le_antisymm (String.not_lt.1 fun hlt => ?_) (String.not_lt.1 fun hlt => ?_)
        · have hn := h f.1
          rw [lookup_of_lt he hlt] at hn
          simp [lookup] at hn
        · have hn := h e.1
          rw [lookup_of_lt hf hlt] at hn
          simp [lookup] at hn
      obtain rfl : e = f := Prod.ext hk (by simpa [lookup, hk] using h f.1)
      obtain ⟨he1, he⟩ := List.pairwise_cons.1 he
      obtain ⟨hf1, hf⟩ := List.pairwise_cons.1 hf
      refine congrArg (e :: ·) (ih he hf fun k => ?_)
      by_cases hek : e.1 = k
      · subst hek
        rw [lookup_eq_none he1, lookup_eq_none hf1]
      · simpa [lookup, hek] using h k

theorem ext {r s : Register α} (h : ∀ k, r.get? k = s.get? k) : r = s := by
  cases r with | mk es he => cases s with | mk fs hf =>
  have := entries_ext he hf h
  subst this
  rfl

end Register
end Consignment
