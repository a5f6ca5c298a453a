import Mathlib.Data.List.Nodup

/-! Looking things up by a key that tells them apart. -/
namespace Consignment
variable {α β : Type} [DecidableEq β] {key : α → β} {xs ys : List α}

theorem find?_of_nodup (h : (xs.map key).Nodup) {x : α} (hx : x ∈ xs) :
    xs.find? (fun y => key y = key x) = some x := by
  rw [List.find?_eq_some_iff_append]
  obtain ⟨front, back, rfl⟩ := List.append_of_mem hx
  refine ⟨by simp, front, back, rfl, ?_⟩
  intro y hy
  rw [List.map_append, List.nodup_append] at h
  have hother := h.2.2 (key y) (List.mem_map_of_mem hy) (key x) (by simp)
  simpa using hother

theorem filterMap_find?_of_nodup (h : (xs.map key).Nodup) (hys : ∀ y ∈ ys, y ∈ xs) :
    (ys.map key).filterMap (fun k => xs.find? (fun y => key y = k)) = ys := by
  induction ys with
  | nil => rfl
  | cons y ys ih =>
    have hy := find?_of_nodup h (hys y (by simp))
    simp only [List.map_cons, List.filterMap_cons, hy]
    rw [ih fun z hz => hys z (by simp [hz])]

end Consignment
