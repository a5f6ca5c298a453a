import Consignment.Proofs.Number.Bits

/-! Quotients that are floats. The logical model divides with as many further bits as the result can
need, so that a quotient which is a float leaves no rest, and nothing is left to round. -/
namespace Consignment.Number
open Float.Model Float.Model.UnpackedFloat

def widening (m n : Nat) : Nat := min (53 + n.log2 - m.log2) depth

theorem divCore_eq (m n : Nat) :
    divCore Format.binary64 m 0 n 0 =
      (m * 2 ^ widening m n / n, -(widening m n : Int),
        accuracyOfFraction (m * 2 ^ widening m n % n) n) := by
  have htarget : Format.binary64.targetExponent (totalExponent m 0 - totalExponent n 0) =
      max ((m.log2 : Int) - n.log2 - 53) (-1074) := by
    show max ((m.log2 : Int) + 1 + 0 - (n.log2 + 1 + 0) - 53) (-1074) = _
    omega
  have hexponent : min (0 - 0) (Format.binary64.targetExponent
      (totalExponent m 0 - totalExponent n 0)) = -(widening m n : Int) := by
    rw [htarget]
    unfold widening depth
    omega
  have hshift : (0 - 0 - -(widening m n : Int)).toNat = widening m n := by omega
  simp only [divCore, hexponent, hshift, Nat.shiftLeft_eq]

section Exact
variable {m n c : Nat}

/-- The dividend is wide enough for the last bit of the quotient. -/
theorem depth_le_exponent_add_widening (hm : 0 < m) (hn : 0 < n) (hc : 0 < c)
    (h : m * 2 ^ depth = n * units c) : depth ≤ exponent c + widening m n := by
  have hlog : m.log2 + depth = (n * mantissa c).log2 + exponent c := by
    rw [← log2_mul_two_pow hm.ne', h, units, ← Nat.mul_assoc,
      log2_mul_two_pow (Nat.mul_pos hn (mantissa_pos hc)).ne']
  have hless : (n * mantissa c).log2 < n.log2 + 1 + 53 := by
    apply log2_lt_of_lt (by omega)
    rw [Nat.pow_add]
    exact Nat.mul_lt_mul'' Nat.lt_log2_self (mantissa_lt c)
  unfold widening
  omega

theorem widened_eq (hm : 0 < m) (hn : 0 < n) (hc : 0 < c) (h : m * 2 ^ depth = n * units c) :
    m * 2 ^ widening m n =
      n * (mantissa c * 2 ^ (exponent c + widening m n - depth)) := by
  have hle := depth_le_exponent_add_widening hm hn hc h
  apply Nat.eq_of_mul_eq_mul_right (Nat.two_pow_pos depth)
  calc
    m * 2 ^ widening m n * 2 ^ depth = m * 2 ^ depth * 2 ^ widening m n := by
      rw [Nat.mul_right_comm]
    _ = n * (mantissa c * 2 ^ (exponent c + widening m n)) := by
      rw [h, units, Nat.mul_assoc, Nat.mul_assoc, ← Nat.pow_add]
    _ = n * (mantissa c * 2 ^ (exponent c + widening m n - depth)) * 2 ^ depth := by
      rw [Nat.mul_assoc, Nat.mul_assoc, ← Nat.pow_add, Nat.sub_add_cancel hle]

theorem bits_div_of_exact (hm : 0 < m) (hn : 0 < n) (hc : 0 < c) (hc' : c < infinityBits)
    (h : m * 2 ^ depth = n * units c) :
    (Float.Model.pack (UnpackedFloat.div Format.binary64 (.finite .positive m 0 hm)
      (.finite .positive n 0 hn))).toBits.toNat = c := by
  have hle := depth_le_exponent_add_widening hm hn hc h
  have hwide : widening m n ≤ depth := min_le_right _ _
  have hwidened := widened_eq hm hn hc h
  have hquotient := Nat.div_eq_of_eq_mul_right hn hwidened
  have hrest : m * 2 ^ widening m n % n = 0 := by rw [hwidened, Nat.mul_mod_right]
  have hdiv : UnpackedFloat.div Format.binary64 (.finite .positive m 0 hm)
      (.finite .positive n 0 hn) = roundWithAccuracy Format.binary64 .positive
        (mantissa c * 2 ^ (exponent c + widening m n - depth)) (-(widening m n : Int)) .exact := by
    show roundWithAccuracy Format.binary64 .positive (divCore Format.binary64 m 0 n 0).1
      (divCore Format.binary64 m 0 n 0).2.1 (divCore Format.binary64 m 0 n 0).2.2 = _
    rw [divCore_eq, hquotient, hrest]
    rfl
  have hpos : 0 < mantissa c * 2 ^ (exponent c + widening m n - depth) :=
    Nat.mul_pos (mantissa_pos hc) (Nat.two_pow_pos _)
  have hfull : 2 ^ 52 ≤ mantissa c * 2 ^ (exponent c + widening m n - depth) ∨
      2 * depth - widening m n ≤ depth := by
    rcases normal_or_exponent_eq_zero c with hnormal | hzero
    · exact .inl (hnormal.trans (Nat.le_mul_of_pos_right _ (Nat.two_pow_pos _)))
    · exact .inr (by omega)
  have hround := bits_roundWithAccuracy hpos hfull
  have hexponent :
      ((2 * depth - widening m n : Nat) : Int) - 2 * depth = -(widening m n : Int) := by
    omega
  have hscale : exponent c + widening m n - depth + (2 * depth - widening m n) =
      exponent c + depth := by omega
  rw [hexponent, Nat.mul_assoc, ← Nat.pow_add, hscale, Nat.pow_add, ← Nat.mul_assoc] at hround
  rw [hdiv, hround]
  exact rounded_units hc hc'

end Exact
end Consignment.Number
