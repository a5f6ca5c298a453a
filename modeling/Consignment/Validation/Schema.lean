import Consignment.Register
import Consignment.Validation.Violations

/-! Schemas: the declared fields of an entity and how each is read from it. -/
namespace Consignment

inductive CheckError
  | invalid (field detail : String)
  | unknownField (entity field : String)
  | missingFieldName
deriving DecidableEq, Repr

namespace CheckError

def message : CheckError → String
  | .invalid field detail => field ++ " " ++ detail
  | .unknownField entity field => s!"unknown field '{field}' on {entity}"
  | .missingFieldName => "field name must not be empty"

def isValidation : CheckError → Bool
  | .invalid _ _ => true
  | .unknownField _ _ => false
  | .missingFieldName => false

end CheckError

structure FieldRule (α : Type) where
  rule : Rule
  value : α → Value

def FieldRule.name {α : Type} (f : FieldRule α) : String := f.rule.name

structure Table (α : Type) where
  fields : List (FieldRule α)
  places : Register Nat

namespace Table
variable {α : Type}

def empty : Table α := ⟨[], ∅⟩

/-- A field of a known name takes the place of the earlier one. -/
def declare (t : Table α) (f : FieldRule α) : Table α :=
  match t.places.get? f.name with
  | some i => { t with fields := t.fields.set i f }
  | none => ⟨t.fields ++ [f], t.places.put f.name t.fields.length⟩

def build (declared : List (FieldRule α)) : Table α := declared.foldl declare empty

def field? (t : Table α) (name : String) : Option (FieldRule α) :=
  (t.places.get? name).bind (t.fields[·]?)

end Table

structure Schema (α : Type) where
  entity : String
  fields : List (FieldRule α)

namespace Schema
variable {α : Type}

def build (entity : String) (declared : List (FieldRule α)) : Schema α :=
  ⟨entity, (Table.build declared).fields⟩

def table (s : Schema α) : Table α := .build s.fields

def fieldNames (s : Schema α) : List String := s.fields.map (·.name)

def field? (s : Schema α) (name : String) : Except CheckError (FieldRule α) :=
  if name.isEmpty then .error .missingFieldName
  else match s.table.field? name with
    | some f => .ok f
    | none => .error (.unknownField s.entity name)

/-- An absent value fails only when it is required, a present one when it breaks its rule. -/
def check (s : Schema α) (object : α) (name : String) (required : Bool) :
    Except CheckError Unit :=
  match s.field? name with
  | .error e => .error e
  | .ok f =>
    let v := f.value object
    if v.isAbsent then if required then .error (.invalid f.name "is required") else .ok ()
    else match f.rule.violations v with
      | [] => .ok ()
      | violations => .error (.invalid f.name ("; ".intercalate violations))

def checkMany (s : Schema α) (object : α) (names : List String) (required : Bool) :
    Except CheckError Unit :=
  names.forM fun name => s.check object name required

def checkDeclared (s : Schema α) (object : α) : Except CheckError Unit :=
  s.fields.forM fun f => s.check object f.name f.rule.mandatory

/-- The object as a value, each field beside its rule. -/
def view (s : Schema α) (object : α) : List (Rule × Value) :=
  s.fields.map fun f => (f.rule, f.value object)

def violations (s : Schema α) (object : α) : List String := violationsIn (s.view object)

end Schema
end Consignment
