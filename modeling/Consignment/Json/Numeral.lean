import Consignment.Json.Fault

/-! Numerals: their form, checked while they are read or passed over, and their value. A numeral
without a point or exponent that fits 64 bits is an integer, any other a float. -/
namespace Consignment.Json

def isDigit (b : UInt8) : Bool := 0x30 ≤ b && b ≤ 0x39

def digitValue (b : UInt8) : Nat := b.toNat - 0x30

/-- The digits of a numeral. There is a point exactly if there are digits behind it. -/
structure Numeral where
  negative : Bool
  whole : Bytes
  part : Bytes
  exponent : Option (Bool × Bytes)
deriving DecidableEq, Repr

def wholeDigits (atEnd : Cause) : Bytes → Except Fault (Bytes × Bytes)
  | [] => refuse atEnd []
  | c :: s =>
    if c = 0x30 then
      if (s.head?.map isDigit).getD false then refuseNext .invalidNumber s else .ok ([c], s)
    else if isDigit c then .ok (c :: s.takeWhile isDigit, s.dropWhile isDigit)
    else refuse .invalidNumber s

def partDigits (atEnd : Cause) : Bytes → Except Fault (Bytes × Bytes)
  | [] => .ok ([], [])
  | c :: s =>
    if c ≠ 0x2e then .ok ([], c :: s)
    else if s = [] then refuse atEnd []
    else if s.takeWhile isDigit = [] then refuseNext .invalidNumber s
    else .ok (s.takeWhile isDigit, s.dropWhile isDigit)

def exponentDigits (atEnd : Cause) (negative : Bool) :
    Bytes → Except Fault (Option (Bool × Bytes) × Bytes)
  | [] => refuse atEnd []
  | c :: s =>
    if isDigit c then .ok (some (negative, c :: s.takeWhile isDigit), s.dropWhile isDigit)
    else refuse .invalidNumber s

def exponentPart (atEnd : Cause) : Bytes → Except Fault (Option (Bool × Bytes) × Bytes)
  | [] => .ok (none, [])
  | c :: s =>
    if c ≠ 0x65 ∧ c ≠ 0x45 then .ok (none, c :: s)
    else match s with
      | [] => refuse atEnd []
      | c :: r =>
        if c = 0x2d then exponentDigits atEnd true r
        else if c = 0x2b then exponentDigits atEnd false r
        else exponentDigits atEnd false (c :: r)

/-- The numeral at the front. `atEnd` is the fault of a document that ends within it. -/
def numeral (atEnd : Cause) (s : Bytes) : Except Fault (Numeral × Bytes) :=
  let negative := s.head? = some 0x2d
  match wholeDigits atEnd (if negative then s.tail else s) with
  | .error f => .error f
  | .ok (whole, s) =>
    match partDigits atEnd s with
    | .error f => .error f
    | .ok (part, s) =>
      match exponentPart atEnd s with
      | .error f => .error f
      | .ok (exponent, s) => .ok (⟨negative, whole, part, exponent⟩, s)

inductive Numeric
  | integer (n : Int)
  | float (x : Float)
deriving DecidableEq

def Numeric.found : Numeric → Found
  | .integer n => .integer n
  | .float x => .float x

def absorb (n : Nat) : Bytes → Nat × Nat
  | [] => (n, 0)
  | d :: ds =>
    if 10 * n + digitValue d < 0x10000000000000000 then
      let (m, k) := absorb (10 * n + digitValue d) ds
      (m, k + 1)
    else (n, 0)

def powerOfTen (n : Nat) : Float := Float.ofScientific 1 false n

/-- `x * 10 ^ e` by one multiplication or division, after divisions by the greatest power of ten
when the exponent is below all of them. Nothing comes of a product that is not finite. -/
def scaled (x : Float) (e : Int) : Option Float :=
  if 0 ≤ e then
    if e ≤ 308 then
      let y := x * powerOfTen e.toNat
      if y.isInf then none else some y
    else if x == 0.0 then some x
    else none
  else if -308 ≤ e then some (x / powerOfTen (-e).toNat)
  else if x == 0.0 then some x
  else scaled (x / powerOfTen 308) (e + 308)
termination_by (-e).toNat
decreasing_by omega

/-- An exponent is read while it fits 31 bits: its value, or the number of digits behind the one
that overflows. -/
def exponentValue (n : Nat) : Bytes → Except Nat Nat
  | [] => .ok n
  | d :: ds =>
    if 10 * n + digitValue d < 0x80000000 then exponentValue (10 * n + digitValue d) ds
    else .error ds.length

/-- The value of the numeral with `rest` behind it. A magnitude that no float reaches is refused
where it shows: at the exponent's digit that is too much, or at the end. -/
def Numeral.value (n : Numeral) (rest : Bytes) : Except Fault Numeric :=
  let (significand, taken) := absorb 0 n.whole
  let left := n.whole.length - taken
  let signed (x : Float) : Numeric := .float (if n.negative then -x else x)
  if left = 0 ∧ n.part = [] ∧ n.exponent = none then
    if n.negative = false then .ok (.integer significand)
    else if 0 < significand ∧ significand ≤ 0x8000000000000000 then .ok (.integer (-significand))
    else .ok (.float (-(Float.ofNat significand)))
  else
    let (significand, behind) := absorb significand n.part
    let start : Int := left - behind
    let finish (e : Int) : Except Fault Numeric :=
      match scaled (Float.ofNat significand) e with
      | some x => .ok (signed x)
      | none => refuse .numberOutOfRange rest
    match n.exponent with
    | none => finish start
    | some (negative, digits) =>
      match exponentValue 0 digits with
      | .ok e => finish (if negative then start - e else start + e)
      | .error more =>
        if significand ≠ 0 ∧ negative = false then .error ⟨.numberOutOfRange, rest.length + more⟩
        else .ok (signed 0.0)

theorem length_dropWhile_le (p : UInt8 → Bool) (s : Bytes) :
    (s.dropWhile p).length ≤ s.length := (List.dropWhile_sublist p).length_le

theorem wholeDigits_takes {c : Cause} {s d rest : Bytes} (h : wholeDigits c s = .ok (d, rest)) :
    rest.length < s.length := by
  have := length_dropWhile_le isDigit
  unfold wholeDigits at h
  grind [refuse, refuseNext]

theorem partDigits_takes {c : Cause} {s d rest : Bytes} (h : partDigits c s = .ok (d, rest)) :
    rest.length ≤ s.length := by
  have := length_dropWhile_le isDigit
  unfold partDigits at h
  grind [refuse, refuseNext]

theorem exponentPart_takes {c : Cause} {s rest : Bytes} {e : Option (Bool × Bytes)}
    (h : exponentPart c s = .ok (e, rest)) : rest.length ≤ s.length := by
  have := length_dropWhile_le isDigit
  unfold exponentPart exponentDigits at h
  grind [refuse]

theorem numeral_takes {c : Cause} {s rest : Bytes} {n : Numeral}
    (h : numeral c s = .ok (n, rest)) : rest.length < s.length := by
  unfold numeral at h
  simp only at h
  split at h
  · simp at h
  · next hw =>
    split at h
    · simp at h
    · next hp =>
      split at h
      · simp at h
      · next he =>
        have h1 := wholeDigits_takes hw
        have h2 := partDigits_takes hp
        have h3 := exponentPart_takes he
        have h4 : (if s.head? = some 0x2d then s.tail else s).length ≤ s.length := by
          split <;> simp
        simp only [Except.ok.injEq, Prod.mk.injEq] at h
        obtain ⟨-, rfl⟩ := h
        grind

end Consignment.Json
