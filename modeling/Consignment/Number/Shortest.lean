/-! The shortest decimal text that reads back as a float. The value is taken apart into
`mantissa * 2 ^ scale`, and for one, two, … seventeen digits the two decimals next to it are tested
against the interval of reals that round to it. -/
namespace Consignment.Number

structure Decimal where
  digits : Nat
  scale : Int
deriving DecidableEq, Repr

/-- Numerators over one denominator: the value and the ends of its rounding interval, which belong
to it when the mantissa is even. -/
structure Target where
  value : Nat
  low : Nat
  high : Nat
  denominator : Nat
  closed : Bool

/-- The interval reaches half a step to either side, but only a quarter step down from a power of
two, below which the steps are half as long. -/
def Target.ofBits (bits : UInt64) : Target :=
  let field := (bits >>> 52).toNat % 2048
  let fraction := bits.toNat % 0x10000000000000
  let mantissa := if field = 0 then fraction else fraction + 0x10000000000000
  let scale : Int := (max field 1 : Nat) - 1077
  let below := if fraction = 0 ∧ 1 < field then 1 else 2
  let up := 1 <<< scale.toNat
  { value := 4 * mantissa * up
    low := (4 * mantissa - below) * up
    high := (4 * mantissa + 2) * up
    denominator := 1 <<< (-scale).toNat
    closed := mantissa % 2 = 0 }

def Target.holds (t : Target) (d : Nat) (scale : Int) : Bool :=
  let n := d * Nat.pow 10 scale.toNat * t.denominator
  let unit := Nat.pow 10 (-scale).toNat
  if t.closed then t.low * unit ≤ n && n ≤ t.high * unit
  else t.low * unit < n && n < t.high * unit

/-- The place of the first digit: `10 ^ place` is at most the value and a tenth of it is not. -/
def Target.place (t : Target) : Int :=
  if t.denominator ≤ t.value then (Nat.toDigits 10 (t.value / t.denominator)).length - 1
  else
    match (List.range 400).find? fun j => t.denominator ≤ t.value * Nat.pow 10 j with
    | some j => -(j : Int)
    | none => 0

/-- Of the two neighbours on the grid of `10 ^ scale` the one that holds, the nearer if both do, and
the even one in the middle. -/
def Target.neighbour? (t : Target) (scale : Int) : Option Nat :=
  let n := t.value * Nat.pow 10 (-scale).toNat
  let unit := t.denominator * Nat.pow 10 scale.toNat
  let below := n / unit
  let twice := 2 * (n % unit)
  match t.holds below scale, t.holds (below + 1) scale with
  | true, true =>
    if twice < unit ∨ (twice = unit ∧ below % 2 = 0) then some below else some (below + 1)
  | true, false => some below
  | false, true => some (below + 1)
  | false, false => none

def stripZeros (d : Decimal) : Decimal :=
  if h : d.digits ≠ 0 ∧ d.digits % 10 = 0 then stripZeros ⟨d.digits / 10, d.scale + 1⟩ else d
termination_by d.digits
decreasing_by omega

def shortest (bits : UInt64) : Decimal :=
  let t := Target.ofBits bits
  match (List.range 17).findSome? fun (n : Nat) =>
      let scale := t.place - n
      (t.neighbour? scale).map fun d => stripZeros ⟨d, scale⟩ with
  | some d => d
  | none => ⟨0, 0⟩

def zeros (n : Nat) : String := String.ofList (List.replicate n '0')

/-- Positional while the point falls within sixteen digits or at most five places before the first
one, with a signed exponent otherwise. -/
def Decimal.text (d : Decimal) : String :=
  let digits := Nat.repr d.digits
  let point : Int := digits.length + d.scale
  if 0 ≤ d.scale ∧ point ≤ 16 then digits ++ zeros d.scale.toNat ++ ".0"
  else if 0 < point ∧ point ≤ 16 then
    String.ofList (digits.toList.take point.toNat) ++ "."
      ++ String.ofList (digits.toList.drop point.toNat)
  else if -5 < point ∧ point ≤ 0 then "0." ++ zeros (-point).toNat ++ digits
  else
    let lead := String.ofList (digits.toList.take 1)
    let rest := String.ofList (digits.toList.drop 1)
    let sign := if 0 < point then "+" else ""
    lead ++ (if rest.isEmpty then "" else "." ++ rest) ++ "e" ++ sign ++ Int.repr (point - 1)

def floatText (x : Float) : String :=
  let bits := x.toBits
  let sign := if bits >>> 63 = 1 then "-" else ""
  sign ++ (if bits <<< 1 = 0 then "0.0" else (shortest (bits &&& 0x7fffffffffffffff)).text)

end Consignment.Number
