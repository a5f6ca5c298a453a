import Consignment.Channel.Delivery
import Consignment.Store

/-! Messages that can never be processed, and where they are kept. -/
namespace Consignment

inductive LetterReason
  | deserialization
  | validation
  | store
deriving DecidableEq

def LetterReason.name : LetterReason → String
  | .deserialization => "deserialization"
  | .validation => "validation"
  | .store => "store"

structure DeadLetter where
  delivery : Delivery
  reason : LetterReason
  message : String
deriving DecidableEq

/-- A sink may be missing, and one that is there may refuse every letter. In `faltering` each answer
says whether the next letter is kept; after the last of them all are. -/
inductive Sink
  | absent
  | refusing
  | keeping (letters : List DeadLetter)
  | faltering (answers : List Bool) (letters : List DeadLetter)
deriving DecidableEq

namespace Sink

def record (letter : DeadLetter) : Sink → Sink
  | .absent => .absent
  | .refusing => .refusing
  | .keeping letters => .keeping (letters ++ [letter])
  | .faltering [] letters => .faltering [] (letters ++ [letter])
  | .faltering (true :: answers) letters => .faltering answers (letters ++ [letter])
  | .faltering (false :: answers) letters => .faltering answers letters

def letters : Sink → List DeadLetter
  | .absent => []
  | .refusing => []
  | .keeping letters => letters
  | .faltering _ letters => letters

end Sink

inductive LetterStatus
  | pending
  | processing
  | resolved
  | discarded
deriving DecidableEq

namespace LetterStatus

def all : List LetterStatus := [.pending, .processing, .resolved, .discarded]

def name : LetterStatus → String
  | .pending => "pending"
  | .processing => "processing"
  | .resolved => "resolved"
  | .discarded => "discarded"

def ofName (name : String) : Except StoreError LetterStatus :=
  match all.find? (·.name = name) with
  | some s => .ok s
  | none => .error (.database ("Invalid DLQ status: " ++ name))

end LetterStatus
end Consignment
