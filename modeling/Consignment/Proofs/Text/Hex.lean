import Consignment.Text.Octets

/-! Hexadecimal text read back. Octets are written with two small digits each, from which they can
be told again, so that no two runs of octets are written alike. -/
namespace Consignment.Text

def hexDigits : List Char :=
  ['0', '1', '2', '3', '4', '5', '6', '7', '8', '9', 'a', 'b', 'c', 'd', 'e', 'f']

def hexValue? (c : Char) : Option Nat := hexDigits.idxOf? c.toLower

def ofHexDigits? : List Char → Option Bytes
  | [] => some []
  | [_] => none
  | c :: d :: cs => do
    let high ← hexValue? c
    let low ← hexValue? d
    return UInt8.ofNat (16 * high + low) :: (← ofHexDigits? cs)

/-- The octets that pairs of digits stand for, if nothing but such pairs is there. -/
def ofHex? (s : String) : Option Bytes := ofHexDigits? s.toList

section Digits
variable {n : Nat}

theorem hexValue?_hexDigit (h : n < 16) : hexValue? (hexDigit n) = some n :=
  (by decide : ∀ n < 16, hexValue? (hexDigit n) = some n) n h

theorem hexDigit_mem (h : n < 16) : hexDigit n ∈ hexDigits :=
  (by decide : ∀ n < 16, hexDigit n ∈ hexDigits) n h

end Digits

theorem high_lt (b : UInt8) : b.toNat / 16 < 16 := by
  have hb := b.toNat_lt
  omega

theorem low_lt (b : UInt8) : b.toNat % 16 < 16 := Nat.mod_lt _ (by decide)

theorem ofHexDigits?_hexPair_append (x : UInt8) (cs : List Char) :
    ofHexDigits? (hexPair x ++ cs) = (ofHexDigits? cs).map (x :: ·) := by
  have hvalue : UInt8.ofNat (16 * (x.toNat / 16) + x.toNat % 16) = x := by
    rw [Nat.div_add_mod, UInt8.ofNat_toNat]
  simp only [hexPair, List.cons_append, List.nil_append, ofHexDigits?,
    hexValue?_hexDigit (high_lt x), hexValue?_hexDigit (low_lt x)]
  cases ofHexDigits? cs with
  | none => rfl
  | some xs => exact congrArg (fun y => some (y :: xs)) hvalue

theorem ofHexDigits?_flatMap (b : Bytes) : ofHexDigits? (b.flatMap hexPair) = some b := by
  induction b with
  | nil => rfl
  | cons x xs ih => rw [List.flatMap_cons, ofHexDigits?_hexPair_append, ih, Option.map_some]

theorem ofHex?_hex (b : Bytes) : ofHex? (hex b) = some b := by
  rw [ofHex?, hex, String.toList_ofList, ofHexDigits?_flatMap]

theorem hex_inj {a b : Bytes} : hex a = hex b ↔ a = b := by
  refine ⟨fun h => ?_, congrArg hex⟩
  have hsome := congrArg ofHex? h
  rw [ofHex?_hex, ofHex?_hex] at hsome
  exact Option.some.inj hsome

theorem length_hex (b : Bytes) : (hex b).length = 2 * b.length := by
  rw [hex, String.length_ofList]
  induction b with
  | nil => rfl
  | cons x xs ih =>
    rw [List.flatMap_cons, List.length_append, ih, List.length_cons]
    exact (Nat.add_comm _ _).trans (Nat.mul_succ 2 _).symm

theorem mem_hexDigits_of_mem_hex {b : Bytes} {c : Char} (h : c ∈ (hex b).toList) :
    c ∈ hexDigits := by
  rw [hex, String.toList_ofList] at h
  obtain ⟨x, -, hc⟩ := List.mem_flatMap.1 h
  simp only [hexPair, List.mem_cons, List.not_mem_nil, or_false] at hc
  rcases hc with rfl | rfl
  · exact hexDigit_mem (high_lt x)
  · exact hexDigit_mem (low_lt x)

end Consignment.Text
