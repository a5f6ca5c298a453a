import Consignment.Proofs.Number.HalfEven
import Mathlib.Tactic.Ring

/-! How the logical model of floats rounds a positive product, a quotient or a whole number: to the
nearest float, a half to the even one. The result is given by its bits, read as a number, since
these grow with the float. -/
namespace Consignment.Number
open Float.Model Float.Model.UnpackedFloat

def infinityBits : Nat := 0x7ff0000000000000

/-- The least positive float is `2` to minus this power. Kept closed, so that no power of it is
computed. -/
@[irreducible] def depth : Nat := 1074

/-! ## Packing -/

theorem toNat_packComponents (e : BitVec 11) (m : BitVec 52) :
    (packComponents Format.binary64 .positive e m).toNat = e.toNat * 2 ^ 52 + m.toNat := by
  have hm := m.isLt
  unfold packComponents
  rw [BitVec.toNat_append, BitVec.toNat_append, ← Nat.shiftLeft_add_eq_or_of_lt hm]
  simp [Sign.toBitVec, Nat.shiftLeft_eq]

/-- The leading bit of the mantissa is not stored, and counts as one step of the exponent. -/
theorem bits_pack {m : Nat} (j : Nat) (hpos : 0 < m) (hlt : m < 2 ^ 53) (h : 2 ^ 52 ≤ m ∨ j = 0) :
    (Float.Model.pack (.finite .positive m (j - 1074) hpos)).toBits.toNat =
      min infinityBits (j * 2 ^ 52 + m) := by
  have hlog : m.log2 + 1 = 53 ↔ 2 ^ 52 ≤ m := by
    have hle := Nat.le_log2 (n := m) (k := 52) hpos.ne'
    have hless := Nat.log2_lt (n := m) (k := 53) hpos.ne'
    omega
  have hbiased : ((j : Int) - 1074 + 1023 + 52).toNat = j + 1 := by omega
  change BitVec.toNat (if 2 ^ 11 ≤ ((j : Int) - 1074 + 1023 + 52).toNat + 1 then
      packedInfinity Format.binary64 .positive
    else if m.log2 + 1 = 53 then
      packComponents Format.binary64 .positive
        (BitVec.ofNat 11 ((j : Int) - 1074 + 1023 + 52).toNat) (BitVec.ofNat 52 m)
    else packComponents Format.binary64 .positive 0#11 (BitVec.ofNat 52 m)) = _
  rw [hbiased, infinityBits]
  split_ifs with hinfinite hnormal
  · rw [show (packedInfinity Format.binary64 Sign.positive).toNat = 0x7ff0000000000000 from rfl]
    omega
  · have hm := hlog.1 hnormal
    rw [toNat_packComponents, BitVec.toNat_ofNat, BitVec.toNat_ofNat]
    omega
  · have hm := mt hlog.2 hnormal
    rw [toNat_packComponents, BitVec.toNat_ofNat, BitVec.toNat_ofNat]
    omega

/-! ## Two shifts -/

theorem log2_lt_of_lt {m k : Nat} (hk : 0 < k) (h : m < 2 ^ k) : m.log2 < k := by
  rcases Nat.eq_zero_or_pos m with rfl | hm
  · simpa using hk
  · exact (Nat.log2_lt hm.ne').2 h

theorem log2_mono {m n : Nat} (h : m ≤ n) : m.log2 ≤ n.log2 := by
  rcases Nat.eq_zero_or_pos m with rfl | hm
  · simp
  · exact (Nat.le_log2 (hm.trans_le h).ne').2 ((Nat.log2_self_le hm.ne').trans h)

theorem log2_mul_two_pow {m : Nat} (hm : m ≠ 0) (j : Nat) : (m * 2 ^ j).log2 = m.log2 + j := by
  have hj : 0 < 2 ^ j := Nat.two_pow_pos j
  rw [Nat.log2_eq_iff (Nat.mul_ne_zero hm hj.ne')]
  constructor
  · rw [Nat.pow_add]
    exact Nat.mul_le_mul_right _ (Nat.log2_self_le hm)
  · rw [Nat.add_right_comm, Nat.pow_add]
    exact (Nat.mul_lt_mul_right hj).2 Nat.lt_log2_self

theorem targetExponent_eq (m : Nat) (e : Int) :
    Format.binary64.targetExponent (totalExponent m e) = max (m.log2 + e - 52) (-1074) := by
  show max ((m.log2 : Int) + 1 + e - 53) (-1074) = _
  omega

theorem shiftToTargetExponent_eq {m : Nat} {e : Int} {k : Nat}
    (h : (max (m.log2 + e - 52) (-1074) - e).toNat = k) :
    shiftToTargetExponent Format.binary64 m e .exact = (shifted m k, e + k) := by
  simp only [shiftToTargetExponent, shiftToExponent, targetExponent_eq, h, shiftRight_exact]

def settled (s : ExtendedMantissa × Int) : UnpackedFloat :=
  if h : s.1.mantissa = 0 then .zero .positive
  else .finite .positive s.1.mantissa s.2 (Nat.pos_of_ne_zero h)

/-- Rounding shifts once to round, and once more where that carried into a further bit. -/
theorem roundWithAccuracy_of_shift {m k : Nat} {e e' : Int}
    (h : shiftToTargetExponent Format.binary64 m e .exact = (shifted m k, e')) :
    roundWithAccuracy Format.binary64 .positive m e .exact =
      settled (shiftToTargetExponent Format.binary64 (halfEven m k) e' .exact) := by
  rw [← roundedMantissa_shifted]
  show settled (shiftToTargetExponent Format.binary64
    (shiftToTargetExponent Format.binary64 m e .exact).1.roundedMantissa
    (shiftToTargetExponent Format.binary64 m e .exact).2 .exact) = _
  rw [h]

theorem bits_settled {x : ExtendedMantissa} {j : Nat} (hlt : x.mantissa < 2 ^ 53)
    (h : 2 ^ 52 ≤ x.mantissa ∨ j = 0) :
    (Float.Model.pack (settled (x, (j : Int) - 1074))).toBits.toNat =
      min infinityBits (j * 2 ^ 52 + x.mantissa) := by
  rw [settled]
  by_cases hzero : x.mantissa = 0
  · obtain rfl : j = 0 := by omega
    rw [dif_pos hzero, hzero]
    rfl
  · rw [dif_neg hzero]
    exact bits_pack j (Nat.pos_of_ne_zero hzero) hlt h

/-- Where rounding carries into a further bit, the second shift drops the zero that it leaves
behind. The bits are then the same as if nothing had been shifted. -/
theorem bits_roundWithAccuracy_of_exponent {m : Nat} {e : Int} {j k : Nat}
    (hj : max (m.log2 + e - 52) (-1074) = (j : Int) - 1074) (hk : e + k = (j : Int) - 1074)
    (hq : halfEven m k ≤ 2 ^ 53) (hq' : 2 ^ 52 ≤ halfEven m k ∨ j = 0) :
    (Float.Model.pack (roundWithAccuracy Format.binary64 .positive m e .exact)).toBits.toNat =
      min infinityBits (j * 2 ^ 52 + halfEven m k) := by
  have hfirst : shiftToTargetExponent Format.binary64 m e .exact =
      (shifted m k, (j : Int) - 1074) := by
    rw [shiftToTargetExponent_eq (k := k) (by omega), hk]
  rw [roundWithAccuracy_of_shift hfirst]
  generalize halfEven m k = q at *
  rcases hq.lt_or_eq with hlt | rfl
  · have hlog := log2_lt_of_lt (by decide) hlt
    have hsecond : shiftToTargetExponent Format.binary64 q ((j : Int) - 1074) .exact =
        (shifted q 0, (j : Int) - 1074) := by
      rw [shiftToTargetExponent_eq (k := 0) (by omega)]
      simp
    have hsame : (shifted q 0).mantissa = q := Nat.div_one q
    rw [hsecond, bits_settled (by rwa [hsame]) (by rwa [hsame]), hsame]
  · have hsecond : shiftToTargetExponent Format.binary64 (2 ^ 53) ((j : Int) - 1074) .exact =
        (shifted (2 ^ 53) 1, ((j + 1 : Nat) : Int) - 1074) := by
      rw [shiftToTargetExponent_eq (k := 1) (by rw [Nat.log2_two_pow]; omega)]
      congr 1
      omega
    have hhalf : (shifted (2 ^ 53) 1).mantissa = 2 ^ 52 := rfl
    rw [hsecond, bits_settled (by rw [hhalf]; decide) (.inl hhalf.ge), hhalf]
    omega

/-! ## As a function -/

/-- The bits of the float nearest to `n / 2 ^ (2 * depth)`. Every product of two floats is such a
fraction. -/
def rounded (n : Nat) : Nat :=
  min infinityBits ((n.log2 - (depth + 52)) * 2 ^ 52 +
    halfEven n (n.log2 - (depth + 52) + depth))

theorem rounded_le (n : Nat) : rounded n ≤ infinityBits := Nat.min_le_left _ _

theorem halfEven_le_top (n : Nat) : halfEven n (n.log2 - (depth + 52) + depth) ≤ 2 ^ 53 := by
  apply halfEven_le
  rw [← Nat.pow_add]
  exact (Nat.lt_log2_self.trans_le (Nat.pow_le_pow_right two_pos (by omega))).le

theorem le_halfEven_of_normal {n : Nat} (h : 0 < n.log2 - (depth + 52)) :
    2 ^ 52 ≤ halfEven n (n.log2 - (depth + 52) + depth) := by
  apply le_halfEven
  rw [← Nat.pow_add]
  exact (Nat.pow_le_pow_right two_pos (by omega)).trans
    (Nat.log2_self_le (by rintro rfl; simp at h))

theorem rounded_mono {m n : Nat} (h : m ≤ n) : rounded m ≤ rounded n := by
  have hlog := log2_mono h
  have hm := halfEven_le_top m
  rcases (Nat.sub_le_sub_right hlog (depth + 52)).lt_or_eq with hlt | heq
  · have hn := le_halfEven_of_normal (Nat.zero_lt_of_lt hlt)
    unfold rounded
    omega
  · rw [rounded, rounded, heq]
    exact min_le_min_left _ (Nat.add_le_add_left (halfEven_mono _ h) _)

/-- `m * 2 ^ j / 2 ^ (2 * depth)` is rounded to the nearest float, unless the mantissa is too short
to fill one that the exponent asks for. -/
theorem bits_roundWithAccuracy {m j : Nat} (hm : 0 < m) (h : 2 ^ 52 ≤ m ∨ j ≤ depth) :
    (Float.Model.pack
      (roundWithAccuracy Format.binary64 .positive m (j - 2 * depth : Int) .exact)).toBits.toNat =
      rounded (m * 2 ^ j) := by
  have hlog := log2_mul_two_pow hm.ne' j
  have hnormal := Nat.le_log2 (n := m) (k := 52) hm.ne'
  have htop := halfEven_le_top (m * 2 ^ j)
  have hlow := le_halfEven_of_normal (n := m * 2 ^ j)
  unfold rounded
  generalize hp : (m * 2 ^ j).log2 - (depth + 52) = p at *
  have hshift : p + depth = p + depth - j + j := by unfold depth at *; omega
  rw [hshift, halfEven_scale] at htop hlow ⊢
  unfold depth at *
  exact bits_roundWithAccuracy_of_exponent (by omega) (by omega) htop (by omega)

end Consignment.Number
