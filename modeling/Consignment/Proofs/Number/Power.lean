import Consignment.Number.Power
import Consignment.Proofs.Number.Whole
import Mathlib.Data.Nat.EvenOddRec

/-! Powers by repeated squaring. From one upwards they grow with the exponent, however the products
on the way are rounded, and powers of whole numbers are exact as long as they fit in a mantissa. -/
namespace Consignment.Number

theorem powerFrom_zero (acc x : Float) : powerFrom acc x 0 = acc := by
  rw [powerFrom]
  rfl

theorem powerFrom_even (acc x : Float) (n : Nat) :
    powerFrom acc x (2 * n) = powerFrom acc (x * x) n := by
  have heven : ¬ 2 * n % 2 = 1 := by omega
  have hhalf : 2 * n / 2 = n := by omega
  rw [powerFrom]
  simp only [if_neg heven, hhalf]
  split
  · next h => rw [h, powerFrom_zero]
  · rfl

theorem powerFrom_odd (acc x : Float) (n : Nat) :
    powerFrom acc x (2 * n + 1) = powerFrom (acc * x) (x * x) n := by
  have hodd : (2 * n + 1) % 2 = 1 := by omega
  have hhalf : (2 * n + 1) / 2 = n := by omega
  rw [powerFrom]
  simp only [if_pos hodd, hhalf]
  split
  · next h => rw [h, powerFrom_zero]
  · rfl

theorem power_one (x : Float) : power x 1 = 1.0 * x := by
  rw [power, show 1 = 2 * 0 + 1 from rfl, powerFrom_odd, powerFrom_zero]

/-! ## Growth -/

section Growth
variable {a b x : Float} (n : Nat)

theorem powerFrom_mono (hx : Ascending 1.0 x) (h : Ascending a b) :
    Ascending (powerFrom a x n) (powerFrom b x n) := by
  induction n using Nat.evenOddRec generalizing a b x with
  | h0 => rwa [powerFrom_zero, powerFrom_zero]
  | h_even n ih =>
    rw [powerFrom_even, powerFrom_even]
    exact ih (hx.trans (hx.right.mul_right hx)) h
  | h_odd n ih =>
    rw [powerFrom_odd, powerFrom_odd]
    exact ih (hx.trans (hx.right.mul_right hx)) (h.mul hx.right hx)

/-- One more factor is worth as much as what was gathered so far, if that is at most one factor. An
odd exponent gathers a factor more, at most one of the squares with which the induction goes on. -/
theorem powerFrom_le_succ (ha : Ascending 1.0 a) (h : Ascending a x) :
    Ascending (powerFrom a x n) (powerFrom 1.0 x (n + 1)) := by
  have hx := ha.trans h
  induction n using Nat.evenOddRec generalizing a x with
  | h0 =>
    rw [powerFrom_zero, show 0 + 1 = 2 * 0 + 1 from rfl, powerFrom_odd, powerFrom_zero]
    exact h.one_mul
  | h_even n ih =>
    rw [powerFrom_even, powerFrom_odd]
    exact powerFrom_mono n (hx.trans (hx.right.mul_right hx)) h.one_mul
  | h_odd n ih =>
    have hgathered := ha.trans (h.left.mul_right hx)
    have hsquare := h.mul hx.right hx
    rw [powerFrom_odd, show 2 * n + 1 + 1 = 2 * (n + 1) by omega, powerFrom_even]
    exact ih hgathered hsquare (hgathered.trans hsquare)

theorem power_le_succ (hx : Ascending 1.0 x) : Ascending (power x n) (power x (n + 1)) :=
  powerFrom_le_succ n .one hx

theorem one_le_power (hx : Ascending 1.0 x) : Ascending 1.0 (power x n) := by
  induction n with
  | zero =>
    rw [power, powerFrom_zero]
    exact .one
  | succ n ih => exact ih.trans (power_le_succ n hx)

end Growth

/-! ## Whole numbers -/

namespace IsWhole
variable {acc x : Float} {a m n : Nat}

/-- The square after the last factor is not used, and need not fit. -/
theorem square_of_fits (hx : n = 0 ∨ IsWhole x m) (ha : 0 < a) (h : a * (m * m) ^ n < 2 ^ 53) :
    n = 0 ∨ IsWhole (x * x) (m * m) := by
  rcases Nat.eq_zero_or_pos n with hn | hn
  · exact .inl hn
  · have hwhole := hx.resolve_left hn.ne'
    have hsquare : m * m ≤ (m * m) ^ n := Nat.le_self_pow hn.ne' _
    have hfits := (hsquare.trans (Nat.le_mul_of_pos_left _ ha)).trans_lt h
    exact .inr (hwhole.mul hwhole hfits)

theorem powerFrom (hacc : IsWhole acc a) (hx : n = 0 ∨ IsWhole x m) (h : a * m ^ n < 2 ^ 53) :
    IsWhole (powerFrom acc x n) (a * m ^ n) := by
  induction n using Nat.evenOddRec generalizing acc x a m with
  | h0 => rwa [powerFrom_zero, Nat.pow_zero, Nat.mul_one]
  | h_even n ih =>
    rw [Nat.pow_mul, Nat.pow_two] at h ⊢
    rw [powerFrom_even]
    exact ih hacc (square_of_fits (hx.imp_left (by omega)) hacc.1 h) h
  | h_odd n ih =>
    have hwhole := hx.resolve_left (Nat.succ_ne_zero _)
    have hsplit : a * m ^ (2 * n + 1) = a * m * (m * m) ^ n := by
      rw [Nat.pow_succ', Nat.pow_mul, Nat.pow_two, Nat.mul_assoc]
    have hrest : 0 < (m * m) ^ n := Nat.pow_pos (Nat.mul_pos hwhole.1 hwhole.1)
    rw [hsplit] at h ⊢
    rw [powerFrom_odd]
    have hacc' := hacc.mul hwhole ((Nat.le_mul_of_pos_right _ hrest).trans_lt h)
    exact ih hacc' (square_of_fits (.inr hwhole) hacc'.1 h) h

theorem power (hx : IsWhole x m) (h : m ^ n < 2 ^ 53) : IsWhole (power x n) (m ^ n) := by
  have hone : IsWhole 1.0 1 := ⟨Nat.one_pos, by decide⟩
  have hpower := hone.powerFrom (.inr hx) (by rwa [Nat.one_mul])
  rwa [Nat.one_mul] at hpower

end IsWhole
end Consignment.Number
