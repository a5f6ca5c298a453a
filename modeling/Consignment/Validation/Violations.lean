import Consignment.Validation.Value

/-! Violations of the rules of a value and of what it holds. -/
namespace Consignment

mutual

def Rule.violations (rule : Rule) : Value → List String
  | .object fields => Constraint.checkAll rule.constraints (.object fields) ++ violationsIn fields
  | .list items =>
    Constraint.checkAll rule.constraints (.list items) ++ itemViolations rule.elements 0 items
  | .map entries =>
    Constraint.checkAll rule.constraints (.map entries) ++ entryViolations rule.elements entries
  | .null => Constraint.checkAll rule.constraints .null
  | .text s => Constraint.checkAll rule.constraints (.text s)
  | .integer n => Constraint.checkAll rule.constraints (.integer n)

/-- An element may be null, and an object among the elements has rules of its own. -/
def elementViolations (constraints : List Constraint) : Value → List String
  | .null => []
  | .object fields => Constraint.checkAll constraints (.object fields) ++ violationsIn fields
  | .text s => Constraint.checkAll constraints (.text s)
  | .integer n => Constraint.checkAll constraints (.integer n)
  | .list items => Constraint.checkAll constraints (.list items)
  | .map entries => Constraint.checkAll constraints (.map entries)

def itemViolations (constraints : List Constraint) (index : Nat) : List Value → List String
  | [] => []
  | v :: vs =>
    (elementViolations constraints v).map (s!"[{index}] " ++ ·)
      ++ itemViolations constraints (index + 1) vs

def entryViolations (constraints : List Constraint) : List (String × Value) → List String
  | [] => []
  | (key, v) :: es =>
    (elementViolations constraints v).map (s!"[{key}] " ++ ·) ++ entryViolations constraints es

def violationsIn : List (Rule × Value) → List String
  | [] => []
  | (rule, v) :: fields =>
    (if v.isAbsent then if rule.mandatory then [rule.name ++ " is required"] else []
     else (rule.violations v).map (rule.name ++ " " ++ ·))
    ++ violationsIn fields

end

end Consignment
