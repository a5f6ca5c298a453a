import Consignment.Proofs.Number.Bits

/-! Products of positive floats: the exact product of their units, rounded, where both are finite.
So they grow with their factors, past the largest float too. -/
namespace Consignment.Number
open Float.Model Float.Model.UnpackedFloat

/-! ## Two factors -/

section Factors
variable {x y : Float}

theorem bits_mul_of_unpack {u v : UnpackedFloat} (hx : x.toModel.unpack = u)
    (hy : y.toModel.unpack = v) :
    bits (x * y) = (Float.Model.pack (u.mul Format.binary64 v)).toBits.toNat := by
  rw [← hx, ← hy]
  rfl

theorem bits_mul_finite {m n i j : Nat} (hm : 0 < m) (hn : 0 < n) (hi : 2 ^ 52 ≤ m ∨ i = 0)
    (hj : 2 ^ 52 ≤ n ∨ j = 0) :
    (Float.Model.pack (UnpackedFloat.mul Format.binary64 (.finite .positive m (i - 1074) hm)
      (.finite .positive n (j - 1074) hn))).toBits.toNat = rounded (m * 2 ^ i * (n * 2 ^ j)) := by
  have hexponent : (i : Int) - 1074 + (j - 1074) = ((i + j : Nat) : Int) - 2 * depth := by
    unfold depth
    push_cast
    ring
  have hrange : 2 ^ 52 ≤ m * n ∨ i + j ≤ depth := by
    rcases hi with hi | rfl
    · exact .inl (hi.trans (Nat.le_mul_of_pos_right m hn))
    rcases hj with hj | rfl
    · exact .inl (hj.trans (Nat.le_mul_of_pos_left n hm))
    · exact .inr (Nat.zero_le _)
  rw [Nat.mul_mul_mul_comm, ← Nat.pow_add, ← bits_roundWithAccuracy (Nat.mul_pos hm hn) hrange,
    ← hexponent]
  rfl

theorem bits_mul (hx : 0 < bits x) (hx' : bits x < infinityBits) (hy : 0 < bits y)
    (hy' : bits y < infinityBits) :
    bits (x * y) = rounded (units (bits x) * units (bits y)) := by
  rw [bits_mul_of_unpack (unpack_of_bits hx hx') (unpack_of_bits hy hy')]
  exact bits_mul_finite _ _ (normal_or_exponent_eq_zero _) (normal_or_exponent_eq_zero _)

theorem bits_mul_infinity (hx : 0 < bits x) (hx' : bits x ≤ infinityBits)
    (hy : bits y = infinityBits) : bits (x * y) = infinityBits ∧ bits (y * x) = infinityBits := by
  have hyu := unpack_of_infinityBits hy
  rcases hx'.lt_or_eq with hlt | heq
  · have hxu := unpack_of_bits hx hlt
    rw [bits_mul_of_unpack hxu hyu, bits_mul_of_unpack hyu hxu]
    exact ⟨rfl, rfl⟩
  · have hxu := unpack_of_infinityBits heq
    rw [bits_mul_of_unpack hxu hyu, bits_mul_of_unpack hyu hxu]
    exact ⟨rfl, rfl⟩

theorem bits_mul_le (hx : 0 < bits x) (hx' : bits x ≤ infinityBits) (hy : 0 < bits y)
    (hy' : bits y ≤ infinityBits) : bits (x * y) ≤ infinityBits := by
  rcases hy'.lt_or_eq with hyf | hyi
  · rcases hx'.lt_or_eq with hxf | hxi
    · rw [bits_mul hx hxf hy hyf]
      exact rounded_le _
    · exact (bits_mul_infinity hy hy' hxi).2.le
  · exact (bits_mul_infinity hx hx' hyi).1.le

theorem bits_one_mul (hx : bits x = oneBits) (hy : 0 < bits y) (hy' : bits y ≤ infinityBits) :
    bits (x * y) = bits y ∧ bits (y * x) = bits y := by
  have hpos : 0 < bits x := by rw [hx]; decide
  have hless : bits x < infinityBits := by rw [hx]; decide
  rcases hy'.lt_or_eq with hf | hi
  · rw [bits_mul hpos hless hy hf, bits_mul hy hf hpos hless, hx, units_oneBits, Nat.mul_comm,
      rounded_units hy hf]
    exact ⟨rfl, rfl⟩
  · rw [hi]
    exact bits_mul_infinity hpos hless.le hi

end Factors

/-! ## Order -/

/-- Two positive floats of which the second is not below the first. It may be infinite. -/
structure Ascending (x y : Float) : Prop where
  pos : 0 < bits x
  le : bits x ≤ bits y
  le_infinity : bits y ≤ infinityBits

namespace Ascending
variable {x y v w : Float}

theorem left (h : Ascending x y) : Ascending x x := ⟨h.pos, Nat.le_refl _, h.le.trans h.le_infinity⟩

theorem right (h : Ascending x y) : Ascending y y :=
  ⟨h.pos.trans_le h.le, Nat.le_refl _, h.le_infinity⟩

theorem trans (h : Ascending x y) (h' : Ascending y v) : Ascending x v :=
  ⟨h.pos, h.le.trans h'.le, h'.le_infinity⟩

theorem bits_mul_mono (h : Ascending x v) (h' : Ascending y w) : bits (x * y) ≤ bits (v * w) := by
  have htop := bits_mul_le h.pos h.left.le_infinity h'.pos h'.left.le_infinity
  rcases h.le_infinity.lt_or_eq with hv | hv
  · rcases h'.le_infinity.lt_or_eq with hw | hw
    · rw [bits_mul h.pos (h.le.trans_lt hv) h'.pos (h'.le.trans_lt hw),
        bits_mul h.right.pos hv h'.right.pos hw]
      exact rounded_mono (Nat.mul_le_mul (units_mono h.le) (units_mono h'.le))
    · rwa [(bits_mul_infinity h.right.pos h.le_infinity hw).1]
  · rwa [(bits_mul_infinity h'.right.pos h'.le_infinity hv).2]

theorem one : Ascending 1.0 1.0 := ⟨by decide, Nat.le_refl _, by decide⟩

/-- A factor from one upwards takes nothing away, so that the product is positive too. -/
theorem mul_right (h : Ascending x x) (h' : Ascending 1.0 y) : Ascending x (x * y) := by
  refine ⟨h.pos, ?_, bits_mul_le h.pos h.le_infinity h'.right.pos h'.le_infinity⟩
  rw [← (bits_one_mul (x := 1.0) rfl h.pos h.le_infinity).2]
  exact h.bits_mul_mono h'

theorem one_mul (h : Ascending x y) : Ascending x (1.0 * y) := by
  have hone := (bits_one_mul (x := 1.0) rfl h.right.pos h.le_infinity).1
  exact ⟨h.pos, hone ▸ h.le, hone ▸ h.le_infinity⟩

theorem mul (h : Ascending x v) (h' : Ascending y w) (hone : Ascending 1.0 y) :
    Ascending (x * y) (v * w) :=
  ⟨(h.left.mul_right hone).right.pos, h.bits_mul_mono h',
    bits_mul_le h.right.pos h.le_infinity h'.right.pos h'.le_infinity⟩

theorem of_one_le (hfinite : x.isFinite) (hone : 1.0 ≤ x) : Ascending 1.0 x :=
  have h := bits_of_one_le hfinite hone
  ⟨by decide, h.1, h.2.le⟩

end Ascending
end Consignment.Number
