import Mathlib.Algebra.Order.Ring.Nat

/-! A whole number divided by a power of two and rounded to the nearest, a half to the even
neighbour. The logical model of floats rounds by shifting one bit at a time into two flags; what
comes out is this quotient. -/
namespace Consignment.Number
open Float.Model.UnpackedFloat

/-- `m / 2 ^ k` to the nearest whole number, and to the even one in the middle. -/
def halfEven (m k : Nat) : Nat :=
  if 2 * (m % 2 ^ k) < 2 ^ k then m / 2 ^ k
  else if 2 * (m % 2 ^ k) = 2 ^ k then m / 2 ^ k + m / 2 ^ k % 2
  else m / 2 ^ k + 1

theorem halfEven_mul_two_pow (n k : Nat) : halfEven (n * 2 ^ k) k = n := by
  simp [halfEven]

theorem halfEven_scale (m k j : Nat) : halfEven (m * 2 ^ j) (k + j) = halfEven m k := by
  have hj : 0 < 2 ^ j := Nat.two_pow_pos j
  have hlt : ∀ a b : Nat, 2 * (a * 2 ^ j) < b * 2 ^ j ↔ 2 * a < b := fun a b => by
    rw [← Nat.mul_assoc]
    exact Nat.mul_lt_mul_right hj
  have heq : ∀ a b : Nat, 2 * (a * 2 ^ j) = b * 2 ^ j ↔ 2 * a = b := fun a b => by
    rw [← Nat.mul_assoc]
    exact Nat.mul_left_inj hj.ne'
  simp only [halfEven, Nat.pow_add, Nat.mul_mod_mul_right, Nat.mul_div_mul_right _ _ hj, hlt, heq]

theorem halfEven_mono (k : Nat) {m n : Nat} (h : m ≤ n) : halfEven m k ≤ halfEven n k := by
  have hm := Nat.div_add_mod m (2 ^ k)
  have hn := Nat.div_add_mod n (2 ^ k)
  rcases (Nat.div_le_div_right (c := 2 ^ k) h).lt_or_eq with hlt | heq
  · unfold halfEven
    split_ifs <;> omega
  · rw [heq] at hm
    have hrest : m % 2 ^ k ≤ n % 2 ^ k := by omega
    simp only [halfEven, heq]
    split_ifs <;> omega

theorem halfEven_le {m n k : Nat} (h : m ≤ n * 2 ^ k) : halfEven m k ≤ n :=
  halfEven_mul_two_pow n k ▸ halfEven_mono k h

theorem le_halfEven {m n k : Nat} (h : n * 2 ^ k ≤ m) : n ≤ halfEven m k :=
  halfEven_mul_two_pow n k ▸ halfEven_mono k h

/-! ## Rounding by shifts -/

/-- What is left of `m` after `k` shifts: the whole part, whether half a unit or more was shifted
out, and whether what was shifted out differs from that half. -/
def shifted (m k : Nat) : ExtendedMantissa :=
  ⟨m / 2 ^ k, 2 ^ k ≤ 2 * (m % 2 ^ k), 2 * (m % 2 ^ k) % 2 ^ k ≠ 0⟩

theorem shiftRightOne_shifted (m k : Nat) : (shifted m k).shiftRightOne = shifted m (k + 1) := by
  have hless : m % 2 ^ k < 2 ^ k := Nat.mod_lt _ (Nat.two_pow_pos k)
  have hsplit : m % 2 ^ (k + 1) = m % 2 ^ k + 2 ^ k * (m / 2 ^ k % 2) := by
    rw [Nat.pow_succ, Nat.mod_mul]
  have hround : m / 2 ^ k % 2 ≠ 0 ↔ 2 ^ (k + 1) ≤ 2 * (m % 2 ^ (k + 1)) := by
    rw [hsplit, Nat.pow_succ']
    rcases Nat.mod_two_eq_zero_or_one (m / 2 ^ k) with hbit | hbit <;> rw [hbit] <;> omega
  have hrest : 2 * (m % 2 ^ (k + 1)) % 2 ^ (k + 1) = 2 * (m % 2 ^ k) := by
    rw [Nat.pow_succ', Nat.mul_mod_mul_left, ← Nat.pow_succ',
      Nat.mod_mod_of_dvd _ ⟨2, Nat.pow_succ ..⟩]
  have hsticky : 2 ^ k ≤ 2 * (m % 2 ^ k) ∨ 2 * (m % 2 ^ k) % 2 ^ k ≠ 0 ↔
      2 * (m % 2 ^ (k + 1)) % 2 ^ (k + 1) ≠ 0 := by
    rw [hrest]
    rcases Nat.lt_or_ge (2 * (m % 2 ^ k)) (2 ^ k) with h | h
    · rw [Nat.mod_eq_of_lt h]
      omega
    · have hpos : 0 < 2 ^ k := Nat.two_pow_pos k
      omega
  unfold shifted ExtendedMantissa.shiftRightOne
  congr 1
  · rw [Nat.div_div_eq_div_mul, Nat.pow_succ]
  · exact Bool.eq_iff_iff.2 (by simpa using hround)
  · simp only [← hsticky, Bool.decide_or]

theorem shiftRight_exact (m k : Nat) :
    ExtendedMantissa.ofMantissaAndAccuracy m .exact >>> k = shifted m k := by
  induction k with
  | zero =>
    simp [shifted, ExtendedMantissa.ofMantissaAndAccuracy, HShiftRight.hShiftRight, Nat.repeat,
      Nat.mod_one]
  | succ k ih =>
    rw [← shiftRightOne_shifted, ← ih]
    rfl

theorem roundedMantissa_mk (m : Nat) (half sticky : Bool) :
    (ExtendedMantissa.mk m half sticky).roundedMantissa =
      if half then (if sticky then m + 1 else m + m % 2) else m := by
  cases half <;> cases sticky <;> rfl

theorem roundedMantissa_shifted (m k : Nat) : (shifted m k).roundedMantissa = halfEven m k := by
  have hless : m % 2 ^ k < 2 ^ k := Nat.mod_lt _ (Nat.two_pow_pos k)
  have hpos : 0 < 2 ^ k := Nat.two_pow_pos k
  rw [shifted, roundedMantissa_mk, halfEven]
  rcases Nat.lt_trichotomy (2 * (m % 2 ^ k)) (2 ^ k) with h | h | h
  · simp [h, Nat.not_le_of_lt h]
  · simp [h]
  · have hrest : 2 * (m % 2 ^ k) % 2 ^ k = 2 * (m % 2 ^ k) - 2 ^ k := by
      rw [Nat.mod_eq_sub_mod h.le, Nat.mod_eq_of_lt (by omega)]
    have hsome : 2 * (m % 2 ^ k) % 2 ^ k ≠ 0 := by omega
    rw [if_pos (decide_eq_true h.le), if_pos (decide_eq_true hsome), if_neg h.asymm, if_neg h.ne']

end Consignment.Number
