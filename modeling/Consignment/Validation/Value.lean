import Consignment.Text.Blank
import Consignment.Text.Lowercase

/-! Values as validation sees them, and the constraints on one value. -/
namespace Consignment

/-- Lengths count characters of text and entries of a collection. -/
inductive Constraint
  | required
  | notBlank
  | maxLength (max : Nat)
  | length (min max : Nat)
  | positive
  | uppercase
  | noNullElements
deriving DecidableEq, Repr

def Constraint.describe : Constraint → String
  | .required => "Required"
  | .notBlank => "NotBlank"
  | .maxLength n => s!"MaxLength({n})"
  | .length min max => s!"Length \x7b min: {min}, max: {max} \x7d"
  | .positive => "Positive"
  | .uppercase => "Uppercase"
  | .noNullElements => "NoNullElements"

structure Rule where
  name : String
  constraints : List Constraint
  elements : List Constraint
deriving DecidableEq, Repr

def Rule.mandatory (r : Rule) : Bool := r.constraints.contains .required

/-- A nested object comes with its own rules, each beside the value it governs. -/
inductive Value
  | null
  | text (s : String)
  | integer (n : Int64)
  | object (fields : List (Rule × Value))
  | list (items : List Value)
  | map (entries : List (String × Value))

namespace Value

def ofText : Option String → Value
  | none => .null
  | some s => .text s

def ofInteger : Option Int64 → Value
  | none => .null
  | some n => .integer n

def isNull : Value → Bool
  | .null => true
  | _ => false

def isAbsent : Value → Bool
  | .null => true
  | .text s => s.isEmpty
  | .list items => items.isEmpty
  | .map entries => entries.isEmpty
  | .integer _ => false
  | .object _ => false

end Value

namespace Constraint

/-- The message of the violation, if there is one. A constraint is silent on kinds of values that it
is not about. -/
def check (c : Constraint) (v : Value) : Option String :=
  let flag (broken : Bool) (message : String) := if broken then some message else none
  match c, v with
  | .required, v => flag v.isAbsent "is required"
  | .notBlank, .text s => flag (Text.allBlank s) "must not be blank"
  | .maxLength max, .text s => flag (max < s.length) s!"length must be at most {max}"
  | .maxLength max, .list items => flag (max < items.length) s!"size must be at most {max}"
  | .maxLength max, .map entries => flag (max < entries.length) s!"size must be at most {max}"
  | .length min max, .text s =>
    flag (s.length < min || max < s.length) s!"length must be between {min} and {max}"
  | .positive, .integer n => flag (n ≤ 0) "must be greater than 0"
  | .uppercase, .text s => flag (s.toList.any Text.isLowercase) "must be uppercase"
  | .noNullElements, .list items => flag (items.any Value.isNull) "must not contain null elements"
  | .noNullElements, .map entries =>
    flag (entries.any fun e => e.2.isNull) "must not contain null elements"
  | _, _ => none

def checkAll (cs : List Constraint) (v : Value) : List String := cs.filterMap (·.check v)

end Constraint
end Consignment
