import Consignment.Proofs.Number.Product

/-! Whole numbers as floats, and floats cut to words. Below `2 ^ 53` a whole number is a float,
products are exact, and the word that comes back is the number that went in. -/
namespace Consignment.Number
open Float.Model Float.Model.UnpackedFloat

/-! ## Floats from whole numbers -/

theorem bits_roundWithAccuracy_whole {n s : Nat} (hn : 0 < n) (hs : s ≤ 2 * depth)
    (h : 2 ^ 52 ≤ n * 2 ^ s) :
    (Float.Model.pack
      (roundWithAccuracy Format.binary64 .positive (n * 2 ^ s) (-s) .exact)).toBits.toNat =
      rounded (n * 2 ^ (2 * depth)) := by
  have hm : 0 < n * 2 ^ s := Nat.mul_pos hn (Nat.two_pow_pos s)
  have hexponent : ((2 * depth - s : Nat) : Int) - 2 * depth = -s := by omega
  have hround := bits_roundWithAccuracy (j := 2 * depth - s) hm (.inl h)
  rwa [hexponent, Nat.mul_assoc, ← Nat.pow_add, Nat.add_sub_cancel' hs] at hround

theorem round_whole (n : Nat) :
    UnpackedFloat.round Format.binary64 .positive n 0 =
      roundWithAccuracy Format.binary64 .positive (n * 2 ^ (52 - n.log2))
        (-(52 - n.log2 : Nat)) .exact := by
  have htarget : (-Format.binary64.targetExponent (totalExponent n 0)).toNat = 52 - n.log2 := by
    rw [targetExponent_eq]
    omega
  simp only [UnpackedFloat.round, decreaseExponent, Int.zero_sub, htarget, Nat.shiftLeft_eq]

theorem bits_toFloat {n : UInt64} (hpos : 0 < n.toNat) :
    bits n.toFloat = rounded (n.toNat * 2 ^ (2 * depth)) := by
  have hgt : compare (n.toNat : Int) 0 = .gt := Int.compare_eq_gt.2 (Int.natCast_pos.2 hpos)
  have hnormal : 2 ^ 52 ≤ n.toNat * 2 ^ (52 - n.toNat.log2) := by
    rw [← Nat.le_log2 (Nat.mul_pos hpos (Nat.two_pow_pos _)).ne', log2_mul_two_pow hpos.ne']
    omega
  rw [← bits_roundWithAccuracy_whole hpos (by unfold depth; omega) hnormal, ← round_whole]
  show (Float.Model.pack
    (UnpackedFloat.normalize Format.binary64 n.toNat 0 .positive)).toBits.toNat = _
  rw [UnpackedFloat.normalize, hgt]
  rfl

theorem rounded_whole {n : Nat} (hpos : 0 < n) (h : n < 2 ^ 53) :
    rounded (n * 2 ^ (2 * depth)) < infinityBits ∧ 0 < rounded (n * 2 ^ (2 * depth)) ∧
      units (rounded (n * 2 ^ (2 * depth))) = n * 2 ^ depth := by
  obtain ⟨b, hb, hb', hunits⟩ := exists_units_eq hpos h
  rw [Nat.two_mul, Nat.pow_add, ← Nat.mul_assoc, ← hunits, rounded_units hb hb']
  exact ⟨hb', hb, rfl⟩

theorem bits_ofNat_of_lt {n : Nat} (hpos : 0 < n) (h : n < 2 ^ 53) :
    bits (Float.ofNat n) = rounded (n * 2 ^ (2 * depth)) := by
  have hfloat : Float.ofNat n = n.toUInt64.toFloat * Float.ofBits 0x3ff0000000000000 := by
    show Float.ofScientific n false 0 = _
    rw [Float.ofScientific, dif_pos ⟨h, by decide⟩]
    rfl
  have hword : n.toUInt64.toNat = n := Nat.mod_eq_of_lt (by omega)
  have hfirst : bits n.toUInt64.toFloat = rounded (n * 2 ^ (2 * depth)) := by
    rw [bits_toFloat (by rwa [hword]), hword]
  obtain ⟨hfinite, hrounded, -⟩ := rounded_whole hpos h
  rw [← hfirst] at hfinite hrounded
  rw [hfloat, ← hfirst]
  exact (bits_one_mul rfl hrounded hfinite.le).2

theorem bits_ofNat_of_ge {n : Nat} (h : 2 ^ 53 ≤ n) :
    bits (Float.ofNat n) = rounded (n * 2 ^ (2 * depth)) := by
  have hpos : 0 < n := (Nat.two_pow_pos 53).trans_le h
  have hfloat : Float.ofNat n = .ofModel (Float.Model.ofScientific n 0) := by
    show Float.ofScientific n false 0 = _
    rw [Float.ofScientific, dif_neg fun hsmall => h.not_gt hsmall.1]
    rfl
  have hnormal : 2 ^ 52 ≤ n * 2 ^ 53 := by omega
  rw [hfloat, ← bits_roundWithAccuracy_whole hpos (by unfold depth; omega) hnormal]
  show (Float.Model.pack (UnpackedFloat.ofScientific Format.binary64 n 0)).toBits.toNat = _
  have hwhole : n <<< Format.binary64.mantissaBits * 10 ^ (0 : Int).toNat = n * 2 ^ 53 := by
    rw [Nat.shiftLeft_eq]
    exact Nat.mul_one _
  rw [UnpackedFloat.ofScientific, dif_neg hpos.ne', if_neg (by decide), if_neg, if_pos le_rfl]
  · rw [← hwhole]
    rfl
  · have hexponents : (0 : Int) ≤ 2 ^ Format.binary64.exponentBits := by decide
    omega

theorem bits_ofNat {n : Nat} (hpos : 0 < n) :
    bits (Float.ofNat n) = rounded (n * 2 ^ (2 * depth)) := by
  rcases Nat.lt_or_ge n (2 ^ 53) with hless | hmore
  · exact bits_ofNat_of_lt hpos hless
  · exact bits_ofNat_of_ge hmore

theorem oneBits_le_rounded {n : Nat} (hpos : 0 < n) : oneBits ≤ rounded (n * 2 ^ (2 * depth)) := by
  have hone : rounded (2 ^ (2 * depth)) = oneBits := by
    rw [Nat.two_mul, Nat.pow_add, ← units_oneBits]
    nth_rewrite 2 [units_oneBits]
    exact rounded_units (by decide) (by decide)
  rw [← hone]
  exact rounded_mono (Nat.le_mul_of_pos_left _ hpos)

theorem Ascending.ofNat {m n : Nat} (hpos : 0 < m) (h : m ≤ n) :
    Ascending (.ofNat m) (.ofNat n) := by
  refine ⟨?_, ?_, ?_⟩
  · rw [bits_ofNat hpos]
    exact (by decide : 0 < oneBits).trans_le (oneBits_le_rounded hpos)
  · rw [bits_ofNat hpos, bits_ofNat (hpos.trans_le h)]
    exact rounded_mono (Nat.mul_le_mul_right _ h)
  · rw [bits_ofNat (hpos.trans_le h)]
    exact rounded_le _

/-! ## Words from floats -/

theorem roundToInt_eq (m j : Nat) :
    roundToInt .positive m (j - 1074) = (m * 2 ^ j / 2 ^ depth : Nat) := by
  have hmantissa : ∀ n k,
      ((ExtendedMantissa.ofMantissaAndAccuracy n .exact) >>> k).mantissa = n / 2 ^ k :=
    fun n k => congrArg ExtendedMantissa.mantissa (shiftRight_exact n k)
  simp only [roundToInt, decreaseExponent, shiftToExponent, hmantissa, Sign.apply, Nat.shiftLeft_eq]
  congr 1
  rcases Nat.le_total depth j with h | h
  · obtain ⟨i, rfl⟩ := Nat.exists_eq_add_of_le h
    have hleft : (((depth + i : Nat) : Int) - 1074 - 0).toNat = i := by unfold depth; omega
    have hright : (0 - (((depth + i : Nat) : Int) - 1074 - (i : Int))).toNat = 0 := by
      unfold depth
      omega
    rw [hleft, hright, Nat.pow_zero, Nat.div_one, Nat.add_comm, Nat.pow_add, ← Nat.mul_assoc,
      Nat.mul_div_cancel _ (Nat.two_pow_pos depth)]
  · obtain ⟨i, hi⟩ := Nat.exists_eq_add_of_le h
    have hleft : ((j : Int) - 1074 - 0).toNat = 0 := by unfold depth at h; omega
    have hright : (0 - ((j : Int) - 1074 - ((0 : Nat) : Int))).toNat = i := by
      unfold depth at hi
      omega
    rw [hleft, hright, Nat.pow_zero, Nat.mul_one, hi, Nat.add_comm, Nat.pow_add,
      Nat.mul_div_mul_right _ _ (Nat.two_pow_pos j)]

theorem toNat_ofNatClamp (n : Nat) : (UInt64.ofNatClamp n).toNat = min n (2 ^ 64 - 1) := by
  unfold UInt64.ofNatClamp UInt64.size
  split
  · rw [UInt64.toNat_ofNatLT]
    omega
  · rw [UInt64.toNat_ofNatLT]
    omega

section Word
variable {x y : Float}

theorem toNat_toUInt64_of_unpack {u : UnpackedFloat} (hx : x.toModel.unpack = u) :
    x.toUInt64.toNat = min (u.toInt 0 (2 ^ 64 - 1)).toNat (2 ^ 64 - 1) := by
  rw [← hx]
  exact toNat_ofNatClamp _

theorem toUInt64_of_bits (hpos : 0 < bits x) (h : bits x < infinityBits) :
    x.toUInt64.toNat = min (units (bits x) / 2 ^ depth) (2 ^ 64 - 1) := by
  rw [toNat_toUInt64_of_unpack (unpack_of_bits hpos h)]
  show min (roundToInt .positive (mantissa (bits x)) (exponent (bits x) - 1074)).toNat _ = _
  rw [roundToInt_eq]
  rfl

theorem toUInt64_of_infinityBits (h : bits x = infinityBits) : x.toUInt64.toNat = 2 ^ 64 - 1 := by
  rw [toNat_toUInt64_of_unpack (unpack_of_infinityBits h)]
  rfl

theorem Ascending.toUInt64_le (h : Ascending x y) : x.toUInt64.toNat ≤ y.toUInt64.toNat := by
  rcases h.le_infinity.lt_or_eq with hlt | heq
  · rw [toUInt64_of_bits h.pos (h.le.trans_lt hlt), toUInt64_of_bits h.right.pos hlt]
    exact min_le_min_right _ (Nat.div_le_div_right (units_mono h.le))
  · rw [toUInt64_of_infinityBits heq]
    exact Nat.le_of_lt_succ x.toUInt64.toNat_lt

theorem zero_mul_cases (u : UnpackedFloat) :
    UnpackedFloat.mul Format.binary64 (.zero .positive) u = .notANumber ∨
      ∃ s, UnpackedFloat.mul Format.binary64 (.zero .positive) u = .zero s := by
  cases u with
  | notANumber => exact .inl rfl
  | infinity s => exact .inl rfl
  | zero s => exact .inr ⟨_, rfl⟩
  | finite s m e hm => exact .inr ⟨_, rfl⟩

/-- No growth of nothing, even where the product is no number. -/
theorem toUInt64_zero_mul (x : Float) : (Float.ofNat 0 * x).toUInt64.toNat = 0 := by
  have hzero : (Float.ofNat 0).toModel.unpack = .zero .positive := rfl
  show (Float.Model.pack (UnpackedFloat.mul Format.binary64 (Float.ofNat 0).toModel.unpack
    x.toModel.unpack)).toUInt64.toNat = 0
  rw [hzero]
  rcases zero_mul_cases x.toModel.unpack with h | ⟨s, h⟩ <;> rw [h]
  · rfl
  · cases s <;> rfl

end Word

/-! ## Exact arithmetic -/

def IsWhole (x : Float) (n : Nat) : Prop := 0 < n ∧ bits x = bits (.ofNat n)

namespace IsWhole
variable {x y : Float} {m n : Nat}

theorem ofNat (h : 0 < n) : IsWhole (.ofNat n) n := ⟨h, rfl⟩

theorem finite (h : IsWhole x n) (hn : n < 2 ^ 53) :
    0 < bits x ∧ bits x < infinityBits ∧ units (bits x) = n * 2 ^ depth := by
  obtain ⟨hfinite, hpos, hunits⟩ := rounded_whole h.1 hn
  rw [h.2, bits_ofNat h.1]
  exact ⟨hpos, hfinite, hunits⟩

theorem mul (hx : IsWhole x m) (hy : IsWhole y n) (h : m * n < 2 ^ 53) :
    IsWhole (x * y) (m * n) := by
  obtain ⟨hxpos, hxf, hxu⟩ := hx.finite ((Nat.le_mul_of_pos_right m hy.1).trans_lt h)
  obtain ⟨hypos, hyf, hyu⟩ := hy.finite ((Nat.le_mul_of_pos_left n hx.1).trans_lt h)
  refine ⟨Nat.mul_pos hx.1 hy.1, ?_⟩
  rw [bits_mul hxpos hxf hypos hyf, hxu, hyu, bits_ofNat (Nat.mul_pos hx.1 hy.1),
    Nat.mul_mul_mul_comm, ← Nat.pow_add, Nat.two_mul]

theorem toUInt64 (h : IsWhole x n) (hn : n < 2 ^ 53) : x.toUInt64.toNat = n := by
  obtain ⟨hpos, hfinite, hunits⟩ := h.finite hn
  rw [toUInt64_of_bits hpos hfinite, hunits, Nat.mul_div_cancel _ (Nat.two_pow_pos depth)]
  omega

end IsWhole
end Consignment.Number
