import Consignment.Proofs.Number.Rounding

/-! A positive float is told by its bits, read as a number: they hold its mantissa and exponent,
which together say how many of the smallest float make it up, and both grow with the float. -/
namespace Consignment.Number
open Float.Model Float.Model.UnpackedFloat

/-! ## Mantissa and exponent -/

def mantissa (b : Nat) : Nat := if b < 2 ^ 52 then b else 2 ^ 52 + b % 2 ^ 52

def exponent (b : Nat) : Nat := b / 2 ^ 52 - 1

/-- How often the smallest float fits in the one with these bits. -/
def units (b : Nat) : Nat := mantissa b * 2 ^ exponent b

theorem mantissa_pos {b : Nat} (h : 0 < b) : 0 < mantissa b := by
  unfold mantissa
  split <;> omega

theorem mantissa_lt (b : Nat) : mantissa b < 2 ^ 53 := by
  unfold mantissa
  split <;> omega

theorem normal_or_exponent_eq_zero (b : Nat) : 2 ^ 52 ≤ mantissa b ∨ exponent b = 0 := by
  unfold exponent mantissa
  split <;> omega

theorem eq_exponent_add_mantissa (b : Nat) : b = exponent b * 2 ^ 52 + mantissa b := by
  unfold exponent mantissa
  split <;> omega

theorem mantissa_exponent_of_eq {b j m : Nat} (hb : b = j * 2 ^ 52 + m) (hm : m < 2 ^ 53)
    (h : 2 ^ 52 ≤ m ∨ j = 0) : mantissa b = m ∧ exponent b = j := by
  unfold exponent mantissa
  split <;> omega

theorem units_mono {b c : Nat} (h : b ≤ c) : units b ≤ units c := by
  have hb := eq_exponent_add_mantissa b
  have hc := eq_exponent_add_mantissa c
  have hless := mantissa_lt b
  have hless' := mantissa_lt c
  have hnormal := normal_or_exponent_eq_zero b
  have hnormal' := normal_or_exponent_eq_zero c
  rcases Nat.lt_trichotomy (exponent b) (exponent c) with hlt | heq | hgt
  · have hbelow : mantissa b ≤ mantissa c * 2 := by omega
    calc
      units b ≤ mantissa c * 2 * 2 ^ exponent b := Nat.mul_le_mul_right _ hbelow
      _ = mantissa c * 2 ^ (exponent b + 1) := by rw [Nat.pow_succ', Nat.mul_assoc]
      _ ≤ units c := Nat.mul_le_mul_left _ (Nat.pow_le_pow_right two_pos hlt)
  · unfold units
    rw [heq]
    exact Nat.mul_le_mul_right _ (by omega)
  · omega

theorem rounded_units {b : Nat} (hpos : 0 < b) (h : b < infinityBits) :
    rounded (units b * 2 ^ depth) = b := by
  have hm := (mantissa_pos hpos).ne'
  have hb := eq_exponent_add_mantissa b
  have hnormal := normal_or_exponent_eq_zero b
  have hless := log2_lt_of_lt (by decide) (mantissa_lt b)
  have hle := Nat.le_log2 (n := mantissa b) (k := 52) hm
  have hlog : (mantissa b * 2 ^ (exponent b + depth)).log2 - (depth + 52) = exponent b := by
    rw [log2_mul_two_pow hm]
    omega
  rw [units, Nat.mul_assoc, ← Nat.pow_add, rounded, hlog, halfEven_mul_two_pow, ← hb]
  exact min_eq_right h.le

theorem exists_units_eq {n : Nat} (hpos : 0 < n) (h : n < 2 ^ 53) :
    ∃ b, 0 < b ∧ b < infinityBits ∧ units b = n * 2 ^ depth := by
  obtain ⟨s, hs⟩ : ∃ s, n.log2 + s = 52 :=
    ⟨52 - n.log2, by have := log2_lt_of_lt (by decide) h; omega⟩
  have hlog : (n * 2 ^ s).log2 = 52 := (log2_mul_two_pow hpos.ne' s).trans hs
  have hne : n * 2 ^ s ≠ 0 := Nat.mul_ne_zero hpos.ne' (Nat.two_pow_pos s).ne'
  obtain ⟨hnormal, hless⟩ := (Nat.log2_eq_iff hne).1 hlog
  obtain ⟨hm, he⟩ := mantissa_exponent_of_eq (b := (depth - s) * 2 ^ 52 + n * 2 ^ s) rfl hless
    (.inl hnormal)
  refine ⟨(depth - s) * 2 ^ 52 + n * 2 ^ s, by omega, by unfold infinityBits depth; omega, ?_⟩
  rw [units, hm, he, Nat.mul_assoc, ← Nat.pow_add]
  congr 2
  unfold depth
  omega

def oneBits : Nat := 0x3ff0000000000000

theorem units_oneBits : units oneBits = 2 ^ depth := by
  have hm : mantissa oneBits = 2 ^ 52 := rfl
  have he : 52 + exponent oneBits = depth := by unfold depth; rfl
  rw [units, hm, ← Nat.pow_add, he]

/-! ## Bits of a float -/

theorem toNat_unpackExponent (b : BitVec 64) :
    (@unpackExponent Format.binary64 b).toNat = b.toNat / 2 ^ 52 % 2 ^ 11 := by
  simp [unpackExponent, Nat.shiftRight_eq_div_pow]

theorem toNat_unpackSign (b : BitVec 64) :
    (@unpackSign Format.binary64 b).toNat = b.toNat / 2 ^ 63 % 2 := by
  show (BitVec.extractLsb 63 63 b).toNat = _
  simp [Nat.shiftRight_eq_div_pow]

theorem toNat_unpackMantissa (b : BitVec 64) :
    (@unpackMantissa Format.binary64 b).toNat = b.toNat % 2 ^ 52 := by
  simp [unpackMantissa]

theorem toNat_one_append (v : BitVec 52) : (1#1 ++ v).toNat = 2 ^ 52 + v.toNat := by
  rw [BitVec.toNat_append, ← Nat.shiftLeft_add_eq_or_of_lt v.isLt]
  rfl

theorem unpack_eq (b : BitVec 64) :
    UnpackedFloat.unpack Format.binary64 b =
      if @unpackExponent Format.binary64 b = -1#11 then
        if @unpackMantissa Format.binary64 b = 0#52 then
          .infinity (Sign.ofBitVec (@unpackSign Format.binary64 b))
        else .notANumber
      else if @unpackExponent Format.binary64 b = 0#11 then
        if h : @unpackMantissa Format.binary64 b = 0#52 then
          .zero (Sign.ofBitVec (@unpackSign Format.binary64 b))
        else
          .finite (Sign.ofBitVec (@unpackSign Format.binary64 b))
            (@unpackMantissa Format.binary64 b).toNat
            ((@unpackExponent Format.binary64 b).toNat - 1075 + 1)
            (Nat.pos_of_ne_zero fun hzero => h (BitVec.eq_of_toNat_eq hzero))
      else
        .finite (Sign.ofBitVec (@unpackSign Format.binary64 b))
          (1#1 ++ @unpackMantissa Format.binary64 b).toNat
          ((@unpackExponent Format.binary64 b).toNat - 1075)
          (by rw [toNat_one_append]; omega) := rfl

theorem finite_congr {s : Sign} {m n : Nat} {e f : Int} {hm : 0 < m} {hn : 0 < n} (h : m = n)
    (h' : e = f) : UnpackedFloat.finite s m e hm = .finite s n f hn := by
  subst h h'
  rfl

section Finite
variable {b : BitVec 64}

theorem toNat_unpackExponent_of_lt (h : b.toNat < infinityBits) :
    (@unpackExponent Format.binary64 b).toNat = b.toNat / 2 ^ 52 := by
  unfold infinityBits at h
  rw [toNat_unpackExponent]
  omega

theorem unpackExponent_ne_of_lt (h : b.toNat < infinityBits) :
    @unpackExponent Format.binary64 b ≠ -1#11 := by
  intro hall
  have he := toNat_unpackExponent_of_lt h
  have hfield : (-1#11).toNat = 2047 := rfl
  unfold infinityBits at h
  rw [hall] at he
  omega

theorem unpackSign_of_lt (h : b.toNat < infinityBits) : @unpackSign Format.binary64 b = 0#1 := by
  unfold infinityBits at h
  apply BitVec.eq_of_toNat_eq
  rw [toNat_unpackSign, BitVec.toNat_ofNat]
  omega

theorem unpack_of_lt (hpos : 0 < b.toNat) (h : b.toNat < infinityBits) :
    UnpackedFloat.unpack Format.binary64 b =
      .finite .positive (mantissa b.toNat) (exponent b.toNat - 1074) (mantissa_pos hpos) := by
  have hm := toNat_unpackMantissa b
  have he := toNat_unpackExponent_of_lt h
  rw [unpack_eq, if_neg (unpackExponent_ne_of_lt h), unpackSign_of_lt h]
  by_cases hzero : @unpackExponent Format.binary64 b = 0#11
  · have hfield : b.toNat / 2 ^ 52 = 0 := by rw [← he, hzero]; rfl
    have hsmall : b.toNat < 2 ^ 52 := by omega
    have hsome : @unpackMantissa Format.binary64 b ≠ 0#52 := by
      intro hnone
      have hrest : b.toNat % 2 ^ 52 = 0 := by rw [← hm, hnone]; rfl
      omega
    rw [if_pos hzero, dif_neg hsome]
    refine finite_congr ?_ ?_
    · rw [mantissa, if_pos hsmall, hm, Nat.mod_eq_of_lt hsmall]
    · rw [exponent, he, hfield]
      rfl
  · have hfield : b.toNat / 2 ^ 52 ≠ 0 := fun hnone =>
      hzero (BitVec.eq_of_toNat_eq (he.trans hnone))
    have hlarge : ¬ b.toNat < 2 ^ 52 := fun hlt => hfield (Nat.div_eq_of_lt hlt)
    rw [if_neg hzero]
    refine finite_congr ?_ ?_
    · rw [mantissa, if_neg hlarge, toNat_one_append, hm]
    · rw [exponent, he]
      omega

theorem toNat_of_positive {v : BitVec 1} (h : Sign.ofBitVec v = .positive) : v.toNat = 0 := by
  rcases BitVec.eq_zero_or_eq_one v with rfl | rfl
  · rfl
  · cases h

theorem fields_of_unpack {m : Nat} {e : Int} {hm : 0 < m}
    (h : UnpackedFloat.unpack Format.binary64 b = .finite .positive m e hm) :
    @unpackExponent Format.binary64 b ≠ -1#11 ∧
      Sign.ofBitVec (@unpackSign Format.binary64 b) = .positive := by
  rw [unpack_eq] at h
  by_cases hall : @unpackExponent Format.binary64 b = -1#11
  · rw [if_pos hall] at h
    by_cases hnone : @unpackMantissa Format.binary64 b = 0#52
    · rw [if_pos hnone] at h
      cases h
    · rw [if_neg hnone] at h
      cases h
  refine ⟨hall, ?_⟩
  rw [if_neg hall] at h
  by_cases hzero : @unpackExponent Format.binary64 b = 0#11
  · rw [if_pos hzero] at h
    by_cases hnone : @unpackMantissa Format.binary64 b = 0#52
    · rw [dif_pos hnone] at h
      cases h
    · rw [dif_neg hnone] at h
      exact (finite.inj h).1
  · rw [if_neg hzero] at h
    exact (finite.inj h).1

end Finite

def bits (x : Float) : Nat := x.toBits.toNat

section Float
variable {x : Float}

theorem unpack_of_bits (hpos : 0 < bits x) (h : bits x < infinityBits) :
    x.toModel.unpack = .finite .positive (mantissa (bits x)) (exponent (bits x) - 1074)
      (mantissa_pos hpos) := unpack_of_lt hpos h

theorem unpack_of_infinityBits (h : bits x = infinityBits) :
    x.toModel.unpack = .infinity .positive := by
  have hbits : x.toModel.toBits.toBitVec = 0x7ff0000000000000#64 := BitVec.eq_of_toNat_eq h
  rw [Float.Model.unpack, hbits]
  rfl

variable {m : Nat} {e : Int} {hm : 0 < m}

theorem bits_pos_of_unpack (h : x.toModel.unpack = .finite .positive m e hm) : 0 < bits x := by
  refine Nat.pos_of_ne_zero fun hzero => ?_
  have hbits : x.toModel.toBits.toBitVec = 0#64 := BitVec.eq_of_toNat_eq hzero
  rw [Float.Model.unpack, hbits] at h
  cases h

theorem bits_lt_of_unpack (h : x.toModel.unpack = .finite .positive m e hm) :
    bits x < infinityBits := by
  have hword := x.toBits.toBitVec.isLt
  have hsign := toNat_unpackSign x.toBits.toBitVec
  have hexponent := toNat_unpackExponent x.toBits.toBitVec
  obtain ⟨hfield, hpositive⟩ := fields_of_unpack (b := x.toBits.toBitVec) h
  have hless : (@unpackExponent Format.binary64 x.toBits.toBitVec).toNat ≠ 2047 :=
    fun hall => hfield (BitVec.eq_of_toNat_eq hall)
  have hnot := toNat_of_positive hpositive
  show x.toBits.toBitVec.toNat < infinityBits
  unfold infinityBits
  omega

theorem bits_of_one_le (hfinite : x.isFinite) (hone : 1.0 ≤ x) :
    oneBits ≤ bits x ∧ bits x < infinityBits := by
  have hle :
      UnpackedFloat.le (.finite .positive (2 ^ 52) (-52) (by decide)) x.toModel.unpack = true :=
    of_decide_eq_true hone
  change x.toModel.unpack.isFinite = true at hfinite
  cases hx : x.toModel.unpack with
  | notANumber =>
    rw [hx] at hfinite
    cases hfinite
  | infinity s =>
    rw [hx] at hfinite
    cases hfinite
  | zero s =>
    rw [hx] at hle
    cases hle
  | finite s m e hm =>
    cases s with
    | negative =>
      rw [hx] at hle
      cases hle
    | positive =>
      have hpos := bits_pos_of_unpack hx
      have hless := bits_lt_of_unpack hx
      refine ⟨Nat.le_of_not_lt fun hbelow => ?_, hless⟩
      rw [unpack_of_bits hpos hless] at hle
      have hgt : compare (-52 : Int) (exponent (bits x) - 1074) = .gt := by
        rw [Int.compare_eq_gt]
        unfold oneBits at hbelow
        unfold exponent
        omega
      change ((compare (-52 : Int) (exponent (bits x) - 1074)).then
        (compare (2 ^ 52) (mantissa (bits x)))).isLE = true at hle
      rw [hgt] at hle
      cases hle

end Float
end Consignment.Number
