/-! Why a text is not a timestamp. -/
namespace Consignment

inductive Timestamp.Fault
  | invalid
  | tooShort
  | outOfRange
  | impossible
  | trailing
deriving DecidableEq, Repr

def Timestamp.Fault.message : Timestamp.Fault → String
  | .invalid => "input contains invalid characters"
  | .tooShort => "premature end of input"
  | .outOfRange => "input is out of range"
  | .impossible => "no possible date and time matching input"
  | .trailing => "trailing input"

end Consignment
