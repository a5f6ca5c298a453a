/-! Powers of a float by repeated squaring. The order of the multiplications decides the last bit of
the result, so it is part of the definition. -/
namespace Consignment.Number

def powerFrom (acc x : Float) (n : Nat) : Float :=
  let acc := if n % 2 = 1 then acc * x else acc
  if n / 2 = 0 then acc else powerFrom acc (x * x) (n / 2)
termination_by n
decreasing_by omega

def power (x : Float) (n : Nat) : Float := powerFrom 1.0 x n

end Consignment.Number
