import Consignment.Number.Power
import Consignment.Span

/-! How often to try, and how long to wait between attempts. -/
namespace Consignment

/-- `maxAttempts` counts the first attempt too. -/
structure Policy where
  maxAttempts : Nat
  initial : Span
  max : Span
  multiplier : Float
deriving DecidableEq

namespace Policy

def standard : Policy := ⟨5, .ofMillis 1000, .ofMillis 30000, 3.0⟩

instance : Inhabited Policy := ⟨standard⟩

/-- Whether this is the standard policy. Multipliers are compared as numbers. -/
def isStandard (p : Policy) : Bool :=
  p.maxAttempts = standard.maxAttempts && p.initial = standard.initial && p.max = standard.max
    && p.multiplier == standard.multiplier

/-- At least one, whatever the policy says. -/
def attempts (p : Policy) : Nat := Nat.max p.maxAttempts 1

def maxExponent : Nat := 0x7fffffff

/-- The wait before retry number `retry`, counted from 0. Growth is computed in whole milliseconds,
so that only the first wait keeps what the policy says below them. A product that is no number or is
negative counts as zero, one that is too large as the largest word. -/
def delay (p : Policy) (retry : Nat) : Span :=
  if retry = 0 then min p.initial p.max
  else
    let ms := Float.ofNat p.initial.wholeMillis * Number.power p.multiplier (min retry maxExponent)
    min (.ofMillis ms.toUInt64) p.max

/-- The sum of `count` waits from retry number `retry` on over what is already summed, or none once
it exceeds every span. -/
def totalFrom (p : Policy) (sum : Span) (retry : Nat) : Nat → Option Span
  | 0 => some sum
  | count + 1 =>
    match sum.add? (p.delay retry) with
    | none => none
    | some sum => totalFrom p sum (retry + 1) count

def worstCase (p : Policy) : Option Span := p.totalFrom .zero 0 (p.attempts - 1)

def overflow : String := "overflow in iter::sum over durations"

end Policy
end Consignment
