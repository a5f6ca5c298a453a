import Consignment.Number.Shortest
import Consignment.Text.Octets
import Consignment.Text.Quoted
import Consignment.Timestamp.Fault

/-! Why a document is refused, and where. A fault is placed by the number of octets left when it was
found; the line and column follow from the document. -/
namespace Consignment.Json

inductive Found
  | null
  | boolean (b : Bool)
  | integer (n : Int)
  | float (x : Float)
  | text (s : String)
  | sequence
  | map
deriving DecidableEq

def Found.describe : Found → String
  | .null => "null"
  | .boolean b => s!"boolean `{b}`"
  | .integer n => s!"integer `{n}`"
  | .float x => s!"floating point `{Number.floatText x}`"
  | .text s => s!"string {Text.quoted s}"
  | .sequence => "sequence"
  | .map => "map"

inductive Cause
  | endInValue
  | endInText
  | endInList
  | endInObject
  | expectedValue
  | expectedWord
  | expectedColon
  | expectedListEnd
  | expectedObjectEnd
  | keyMustBeText
  | trailingComma
  | trailingCharacters
  | invalidNumber
  | numberOutOfRange
  | invalidEscape
  | unfinishedPair
  | loneSurrogate
  | controlCharacter
  | invalidUnicode
  | wrongType (found : Found) (expected : String)
  | wrongValue (found : Found) (expected : String)
  | unknownVariant (name : String) (known : List String)
  | duplicateField (name : String)
  | timestamp (fault : Timestamp.Fault)
deriving DecidableEq

/-- Two alternatives are joined by a word, more of them listed. -/
def alternatives (names : List String) : String :=
  match names.map fun n => s!"`{n}`" with
  | [a] => a
  | [a, b] => s!"{a} or {b}"
  | names => "one of " ++ ", ".intercalate names

def Cause.message : Cause → String
  | .endInValue => "EOF while parsing a value"
  | .endInText => "EOF while parsing a string"
  | .endInList => "EOF while parsing a list"
  | .endInObject => "EOF while parsing an object"
  | .expectedValue => "expected value"
  | .expectedWord => "expected ident"
  | .expectedColon => "expected `:`"
  | .expectedListEnd => "expected `,` or `]`"
  | .expectedObjectEnd => "expected `,` or `\x7d`"
  | .keyMustBeText => "key must be a string"
  | .trailingComma => "trailing comma"
  | .trailingCharacters => "trailing characters"
  | .invalidNumber => "invalid number"
  | .numberOutOfRange => "number out of range"
  | .invalidEscape => "invalid escape"
  | .unfinishedPair => "unexpected end of hex escape"
  | .loneSurrogate => "lone leading surrogate in hex escape"
  | .controlCharacter => "control character (\\u0000-\\u001F) found while parsing a string"
  | .invalidUnicode => "invalid unicode code point"
  | .wrongType found expected => s!"invalid type: {found.describe}, expected {expected}"
  | .wrongValue found expected => s!"invalid value: {found.describe}, expected {expected}"
  | .unknownVariant name known => s!"unknown variant `{name}`, expected {alternatives known}"
  | .duplicateField name => s!"duplicate field `{name}`"
  | .timestamp fault => fault.message

structure Fault where
  cause : Cause
  left : Nat
deriving DecidableEq

def Fault.before (f : Fault) (doc : Bytes) : Bytes := doc.take (doc.length - f.left)

def Fault.line (f : Fault) (doc : Bytes) : Nat := (f.before doc).count 0x0a + 1

def Fault.column (f : Fault) (doc : Bytes) : Nat :=
  ((f.before doc).reverse.takeWhile (· ≠ 0x0a)).length

def Fault.message (f : Fault) (doc : Bytes) : String :=
  s!"{f.cause.message} at line {f.line doc} column {f.column doc}"

def refuse {α : Type} (c : Cause) (s : Bytes) : Except Fault α := .error ⟨c, s.length⟩

/-- A fault at the first octet of `s`, which its place includes. -/
def refuseNext {α : Type} (c : Cause) (s : Bytes) : Except Fault α := .error ⟨c, s.length - 1⟩

theorem map_eq_ok {ε α β : Type} {f : α → β} {x : Except ε α} {b : β} :
    x.map f = .ok b ↔ ∃ a, x = .ok a ∧ f a = b := by
  cases x <;> simp [Except.map]

@[simp] theorem refuse_ne_ok {α : Type} {c : Cause} {s : Bytes} {a : α} : refuse c s ≠ .ok a := by
  simp [refuse]

@[simp] theorem refuseNext_ne_ok {α : Type} {c : Cause} {s : Bytes} {a : α} :
    refuseNext c s ≠ .ok a := by
  simp [refuseNext]

end Consignment.Json
