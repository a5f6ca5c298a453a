import Consignment.Proofs.Number.Power
import Consignment.Retry.Policy

/-! The waits of a policy. Whole milliseconds under a whole multiplier grow as a geometric series to
the digit, and under any multiplier from one upwards no wait is shorter than the one before it,
except where the first wait keeps a part of a millisecond that the others drop. -/
namespace Consignment.Policy
open Number

def grown (p : Policy) (retry : Nat) : Nat :=
  (Float.ofNat p.initial.wholeMillis * power p.multiplier (min retry maxExponent)).toUInt64.toNat

theorem nanos_delay_zero (p : Policy) : (p.delay 0).nanos = min p.initial.nanos p.max.nanos := by
  rw [delay, if_pos rfl]
  exact Span.nanos_min ..

theorem nanos_delay_of_pos (p : Policy) {retry : Nat} (h : 0 < retry) :
    (p.delay retry).nanos = min (p.grown retry * 1000000) p.max.nanos := by
  rw [delay, if_neg h.ne']
  exact Span.nanos_min ..

/-! ## Growth -/

section Growth
variable {p : Policy}

theorem grown_le_succ (h : Ascending 1.0 p.multiplier) (retry : Nat) :
    p.grown retry ≤ p.grown (retry + 1) := by
  have hpower : Ascending (power p.multiplier (min retry maxExponent))
      (power p.multiplier (min (retry + 1) maxExponent)) := by
    rcases Nat.lt_or_ge retry maxExponent with hless | hmore
    · rw [Nat.min_eq_left hless.le, Nat.min_eq_left hless]
      exact power_le_succ retry h
    · rw [Nat.min_eq_right hmore, Nat.min_eq_right (hmore.trans (Nat.le_succ _))]
      exact (one_le_power _ h).right
  unfold grown
  rcases Nat.eq_zero_or_pos p.initial.wholeMillis with hnone | hsome
  · rw [hnone, toUInt64_zero_mul]
    exact Nat.zero_le _
  · exact ((Ascending.ofNat hsome le_rfl).mul hpower (one_le_power _ h)).toUInt64_le

theorem grown_one (h : Ascending 1.0 p.multiplier) :
    p.grown 1 = (Float.ofNat p.initial.wholeMillis * p.multiplier).toUInt64.toNat := by
  have hpower : bits (power p.multiplier 1) = bits p.multiplier := by
    rw [power_one]
    exact (bits_one_mul rfl h.right.pos h.le_infinity).1
  have hup : Ascending (power p.multiplier 1) p.multiplier :=
    ⟨hpower ▸ h.right.pos, hpower.le, h.le_infinity⟩
  have hdown : Ascending p.multiplier (power p.multiplier 1) :=
    ⟨h.right.pos, hpower.ge, hpower ▸ h.le_infinity⟩
  rw [grown, show min 1 maxExponent = 1 from rfl]
  rcases Nat.eq_zero_or_pos p.initial.wholeMillis with hnone | hsome
  · rw [hnone, toUInt64_zero_mul, toUInt64_zero_mul]
  · have hinitial := Ascending.ofNat hsome le_rfl
    exact Nat.le_antisymm (hinitial.mul hup (one_le_power 1 h)).toUInt64_le
      (hinitial.mul hdown h).toUInt64_le

theorem wholeMillis_le_grown (h : Ascending 1.0 p.multiplier)
    (hfits : p.initial.wholeMillis < 2 ^ 53)
    (retry : Nat) : p.initial.wholeMillis ≤ p.grown retry := by
  rcases Nat.eq_zero_or_pos p.initial.wholeMillis with hnone | hsome
  · omega
  · rw [← (IsWhole.ofNat hsome).toUInt64 hfits]
    exact ((Ascending.ofNat hsome le_rfl).mul_right (one_le_power _ h)).toUInt64_le

theorem delay_le_succ_of_pos (h : Ascending 1.0 p.multiplier) {n : Nat} (hn : 0 < n) :
    p.delay n ≤ p.delay (n + 1) := by
  show (p.delay n).nanos ≤ (p.delay (n + 1)).nanos
  rw [nanos_delay_of_pos p hn, nanos_delay_of_pos p (Nat.succ_pos n)]
  exact min_le_min_right _ (Nat.mul_le_mul_right _ (grown_le_succ h n))

/-- The first wait is above the second only by a part of a millisecond that the cap leaves in place
and growth does not make up for. -/
theorem delay_zero_le_one_iff (h : Ascending 1.0 p.multiplier)
    (hfits : p.initial.wholeMillis < 2 ^ 53) :
    p.delay 0 ≤ p.delay 1 ↔
      p.initial.nanos % 1000000 = 0 ∨ p.max.nanos ≤ p.initial.wholeMillis * 1000000 ∨
        p.initial.wholeMillis < p.grown 1 := by
  have hgrown := wholeMillis_le_grown h hfits 1
  show (p.delay 0).nanos ≤ (p.delay 1).nanos ↔ _
  rw [nanos_delay_zero, nanos_delay_of_pos p Nat.one_pos]
  unfold Span.wholeMillis at *
  omega

end Growth

/-- A policy whose multiplier is a number from one upwards never waits shorter than before from the
second wait on. From the first one on it does so just if that has no part of a millisecond, or the
cap takes it away, or the first growth makes up for it. -/
theorem delay_le_succ (p : Policy) (hfinite : p.multiplier.isFinite) (hone : 1.0 ≤ p.multiplier) :
    (∀ n, 0 < n → p.delay n ≤ p.delay (n + 1)) ∧
    (p.initial.wholeMillis < 2 ^ 53 →
      ((∀ n, p.delay n ≤ p.delay (n + 1)) ↔
        p.initial.nanos % 1000000 = 0 ∨ p.max.nanos ≤ p.initial.wholeMillis * 1000000 ∨
        p.initial.wholeMillis <
          (Float.ofNat p.initial.wholeMillis * p.multiplier).toUInt64.toNat)) := by
  have h := Ascending.of_one_le hfinite hone
  refine ⟨fun n hn => delay_le_succ_of_pos h hn, fun hfits => ?_⟩
  rw [← grown_one h, ← delay_zero_le_one_iff h hfits]
  constructor
  · intro hall
    exact hall 0
  · intro hseam n
    rcases Nat.eq_zero_or_pos n with rfl | hn
    · exact hseam
    · exact delay_le_succ_of_pos h hn

/-- One and a half milliseconds that triple. -/
theorem delay_le_succ_tripled :
    let p : Policy := { standard with initial := ⟨1500000, by decide⟩ }
    p.multiplier.isFinite ∧ 1.0 ≤ p.multiplier ∧ ∀ n, p.delay n ≤ p.delay (n + 1) := by
  intro p
  have hfinite : p.multiplier.isFinite := by decide
  have hone : 1.0 ≤ p.multiplier := by decide
  have hgrows : p.initial.wholeMillis <
      (Float.ofNat p.initial.wholeMillis * p.multiplier).toUInt64.toNat := by decide
  exact ⟨hfinite, hone, ((p.delay_le_succ hfinite hone).2 (by decide)).2 (.inr (.inr hgrows))⟩

/-- Half a millisecond does not triple, but vanishes. -/
theorem delay_shrinks_below_millisecond :
    let p : Policy := { standard with initial := ⟨500000, by decide⟩ }
    p.multiplier.isFinite ∧ 1.0 ≤ p.multiplier ∧ ¬ p.delay 0 ≤ p.delay 1 := by
  intro p
  have hfirst : (p.delay 0).nanos = 500000 := nanos_delay_zero p
  have hsecond : (p.delay 1).nanos = 0 := by
    have hnone : p.initial.wholeMillis = 0 := by decide
    rw [nanos_delay_of_pos p Nat.one_pos, grown, hnone, toUInt64_zero_mul]
    rfl
  refine ⟨by decide, by decide, ?_⟩
  show ¬ (p.delay 0).nanos ≤ (p.delay 1).nanos
  omega

/-! ## The geometric law -/

theorem grown_eq {p : Policy} {i m : Nat} (hinitial : p.initial.nanos = i * 1000000)
    (hmultiplier : p.multiplier = .ofNat m) (hm : 1 ≤ m) {n : Nat} (h : i * m ^ n < 2 ^ 53) :
    p.grown n = i * m ^ n := by
  have hwhole : p.initial.wholeMillis = i := by
    unfold Span.wholeMillis
    omega
  rw [grown, hwhole, hmultiplier]
  rcases Nat.eq_zero_or_pos i with rfl | hi
  · rw [toUInt64_zero_mul, Nat.zero_mul]
  have hpower : m ^ n < 2 ^ 53 := (Nat.le_mul_of_pos_left _ hi).trans_lt h
  have hexponent : m ^ min n maxExponent = m ^ n := by
    rcases hm.lt_or_eq with htwo | rfl
    · have hfew : n < 53 := (Nat.pow_lt_pow_iff_right Nat.one_lt_two).1
        ((Nat.pow_le_pow_left htwo n).trans_lt hpower)
      rw [Nat.min_eq_left (by unfold maxExponent; omega)]
    · rw [Nat.one_pow, Nat.one_pow]
  rw [← hexponent] at h hpower ⊢
  exact ((IsWhole.ofNat hi).mul ((IsWhole.ofNat hm).power hpower) h).toUInt64 h

/-- A whole number of milliseconds under a whole multiplier grows as a geometric series up to the
cap, as long as its terms fit in a mantissa. -/
theorem delay_geometric (p : Policy) {i m : Nat} (hinitial : p.initial.nanos = i * 1000000)
    (hmultiplier : p.multiplier = .ofNat m) (hm : 1 ≤ m) (n : Nat) (h : i * m ^ n < 2 ^ 53) :
    (p.delay n).nanos = min (i * m ^ n * 1000000) p.max.nanos := by
  rcases Nat.eq_zero_or_pos n with rfl | hn
  · rw [nanos_delay_zero, hinitial, Nat.pow_zero, Nat.mul_one]
  · rw [nanos_delay_of_pos p hn, grown_eq hinitial hmultiplier hm h]

/-- The standard policy waits 27 seconds before its fourth retry. -/
theorem delay_geometric_standard :
    standard.initial.nanos = 1000 * 1000000 ∧ standard.multiplier = .ofNat 3 ∧
      1000 * 3 ^ 3 < 2 ^ 53 ∧ (standard.delay 3).nanos = 27000000000 := by
  have hmultiplier : standard.multiplier = .ofNat 3 := by decide
  exact ⟨rfl, hmultiplier, by decide,
    standard.delay_geometric (i := 1000) rfl hmultiplier (by decide) 3 (by decide)⟩

end Consignment.Policy
