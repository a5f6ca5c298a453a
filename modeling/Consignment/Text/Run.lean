/-! Sets of characters as runs of code points, the form in which character properties are
tabulated. -/
namespace Consignment.Text

/-- Every `stride`-th code point from `first` through `last`. A stride of two picks one case out of
a block in which the cases alternate. -/
structure Run where
  first : Nat
  last : Nat
  stride : Nat
deriving DecidableEq, Repr

def Run.covers (r : Run) (n : Nat) : Bool :=
  r.first ≤ n && n ≤ r.last && (n - r.first) % r.stride == 0

def tabulated (runs : List Run) (c : Char) : Bool := runs.any (·.covers c.toNat)

end Consignment.Text
