import Consignment.Number.Decimal
import Consignment.Proofs.Number.Quotient

/-! A float of at least one has no more than 52 binary places, hence no more than 52 decimal ones:
written with all of them it is read as itself. -/
namespace Consignment.Number
open Float.Model Float.Model.UnpackedFloat

/-- No float of at least one has more places than that. -/
def places : Nat := 52

def decimals (b : Nat) : Nat := mantissa b * 2 ^ (exponent b + places - depth) * 5 ^ places

section Exact
variable {b : Nat}

theorem depth_le_exponent_add_places (h : oneBits ≤ b) : depth ≤ exponent b + places := by
  unfold oneBits at h
  unfold depth exponent places
  omega

theorem decimals_pos (h : 0 < b) : 0 < decimals b :=
  Nat.mul_pos (Nat.mul_pos (mantissa_pos h) (Nat.two_pow_pos _)) (Nat.pow_pos (by decide))

theorem decimals_mul (h : oneBits ≤ b) : decimals b * 2 ^ depth = 10 ^ places * units b := by
  have hle := depth_le_exponent_add_places h
  calc
    decimals b * 2 ^ depth =
        mantissa b * 2 ^ (exponent b + places - depth) * 2 ^ depth * 5 ^ places := by
      rw [decimals, Nat.mul_right_comm]
    _ = mantissa b * (2 ^ exponent b * 2 ^ places) * 5 ^ places := by
      rw [Nat.mul_assoc (mantissa b), ← Nat.pow_add, Nat.sub_add_cancel hle, Nat.pow_add]
    _ = units b * (2 * 5) ^ places := by
      rw [← Nat.mul_assoc, Nat.mul_assoc, ← Nat.mul_pow, units]
    _ = 10 ^ places * units b := Nat.mul_comm _ _

end Exact

theorem eq_of_bits {x y : Float} (h : bits x = bits y) : x = y := by
  cases x with | ofModel a =>
  cases y with | ofModel b =>
  have hword : a.toBits = b.toBits := UInt64.toNat_inj.1 h
  cases a
  cases b
  cases hword
  rfl

theorem ofScientific_decimals {x : Float} (hone : oneBits ≤ bits x) (h : bits x < infinityBits) :
    Float.ofScientific (decimals (bits x)) true places = x := by
  have hpos : 0 < bits x := (by decide : 0 < oneBits).trans_le hone
  have hm := decimals_pos hpos
  have hten : 0 < 10 ^ places := Nat.pow_pos (by decide)
  -- There are more places than the table of exact powers of ten has.
  have hslow : Float.ofScientific (decimals (bits x)) true places =
      .ofModel (Float.Model.ofScientific (decimals (bits x)) (-52)) := by
    rw [Float.ofScientific, dif_neg fun hfew => absurd hfew.2 (by decide)]
    rfl
  have hexponents : (2 : Int) ^ Format.binary64.exponentBits = 2048 := rfl
  have hquotient : UnpackedFloat.ofScientific Format.binary64 (decimals (bits x)) (-52) =
      UnpackedFloat.div Format.binary64 (.finite .positive (decimals (bits x)) 0 hm)
        (.finite .positive (10 ^ places) 0 hten) := by
    rw [UnpackedFloat.ofScientific, dif_neg hm.ne', if_neg (by decide), if_neg, if_neg (by decide)]
    · rfl
    · rw [hexponents]
      omega
  apply eq_of_bits
  rw [hslow]
  show (Float.Model.pack (UnpackedFloat.ofScientific Format.binary64 _ _)).toBits.toNat = _
  rw [hquotient]
  exact bits_div_of_exact hm hten hpos h (decimals_mul hone)

/-! ## Text -/

theorem toLower_of_isDigit {c : Char} (h : c.isDigit = true) : c.toLower = c := by
  have hupper : ¬ (c.val ≥ 'A'.val ∧ c.val ≤ 'Z'.val) := by
    intro hletter
    simp only [Char.isDigit, Bool.and_eq_true, decide_eq_true_eq, UInt32.le_iff_toNat_le] at h
    have hlow := UInt32.le_iff_toNat_le.1 hletter.1
    have hhigh : c.val.toNat ≤ 57 := h.2
    have hA : 'A'.val.toNat = 65 := rfl
    omega
  exact dif_neg hupper

theorem named?_of_isDigit {c : Char} (h : c.isDigit = true) (cs : List Char) :
    named? (c :: cs) = none := by
  have hname : ∀ d ds, String.ofList ((c :: cs).map Char.toLower) = String.ofList (d :: ds) →
      d.isDigit = true := by
    intro d ds heq
    have hlist := String.ofList_injective heq
    rw [List.map_cons, toLower_of_isDigit h] at hlist
    rwa [← (List.cons.inj hlist).1]
  unfold named?
  split
  · rename_i heq
    exact absurd (hname 'i' _ heq) (by decide)
  · rename_i heq
    exact absurd (hname 'i' _ heq) (by decide)
  · rename_i heq
    exact absurd (hname 'n' _ heq) (by decide)
  · rfl

theorem splitSign_of_isDigit {c : Char} (h : c.isDigit = true) (cs : List Char) :
    splitSign (c :: cs) = (false, c :: cs) := by
  unfold splitSign
  split
  · rename_i heq
    cases heq
    cases h
  · rename_i heq
    cases heq
    cases h
  · rfl

section Digits
variable {digits : List Char}

theorem unsigned?_of_digits (hne : digits ≠ []) (hdigits : ∀ c ∈ digits, c.isDigit = true)
    {rest : List Char} (hrest : ∃ c cs, rest = c :: cs ∧ c.isDigit = false ∧ c ≠ '.') :
    unsigned? (digits ++ rest) = (exponent? rest).map (nearest (ofDigits digits)) := by
  obtain ⟨c, cs, rfl, hc, hpoint⟩ := hrest
  have htake : (digits ++ c :: cs).takeWhile Char.isDigit = digits := by
    rw [List.takeWhile_append_of_pos hdigits, List.takeWhile_cons_of_neg (by simp [hc]),
      List.append_nil]
  have hdrop : (digits ++ c :: cs).dropWhile Char.isDigit = c :: cs := by
    rw [List.dropWhile_append_of_pos hdigits, List.dropWhile_cons_of_neg (by simp [hc])]
  simp [unsigned?, htake, hdrop, hne, hpoint]

theorem float?_of_digits (hne : digits ≠ []) (hdigits : ∀ c ∈ digits, c.isDigit = true)
    {rest : List Char} {e : Int} (hrest : exponent? ('e' :: rest) = some e) :
    float? (digits ++ 'e' :: rest) = some (nearest (ofDigits digits) e) := by
  obtain ⟨c, cs, rfl⟩ := List.exists_cons_of_ne_nil hne
  have hc := hdigits c (by simp)
  have hread := unsigned?_of_digits hne hdigits ⟨'e', rest, rfl, by decide, by decide⟩
  rw [hrest] at hread
  rw [List.cons_append] at hread ⊢
  simp [float?, splitSign_of_isDigit hc, named?_of_isDigit hc, hread]

end Digits

def written (x : Float) : List Char := Nat.toDigits 10 (decimals (bits x)) ++ "e-52".toList

theorem nearest_decimals {x : Float} (hone : oneBits ≤ bits x) (h : bits x < infinityBits) :
    nearest (decimals (bits x)) (-52) = x := by
  have hm := decimals_pos ((by decide : 0 < oneBits).trans_le hone)
  rw [nearest, if_neg hm.ne', if_neg (by decide), if_neg (by omega), if_pos (by decide)]
  exact ofScientific_decimals hone h

theorem float?_written {x : Float} (hfinite : x.isFinite) (hone : 1.0 ≤ x) :
    float? (written x) = some x := by
  obtain ⟨hle, hless⟩ := bits_of_one_le hfinite hone
  have hvalue : ofDigits (Nat.toDigits 10 (decimals (bits x))) = decimals (bits x) :=
    Nat.ofDigitChars_ten_toDigits
  have hread := float?_of_digits (Nat.toDigits_ne_nil (b := 10) (n := decimals (bits x)))
    (fun c hc => Nat.isDigit_of_mem_toDigits (by decide) (by decide) hc)
    (show exponent? "e-52".toList = some (-52) by decide)
  rw [hvalue, nearest_decimals hle hless] at hread
  exact hread

end Consignment.Number
