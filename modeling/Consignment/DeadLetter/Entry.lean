import Consignment.DeadLetter

/-! Dead letters as a database keeps them, a row for each, until somebody has looked into them. -/
namespace Consignment

structure LetterEntry where
  id : Int
  delivery : Delivery
  reason : String
  message : String
  failedAt : Timestamp
  status : LetterStatus
  resolvedAt : Option Timestamp
  resolvedBy : Option String
  notes : Option String
deriving DecidableEq

/-- Every column holds a value or tells why there is none of its type. -/
structure LetterRow where
  id : Except String Int
  topic : Except String String
  key : Except String (Option String)
  partition : Except String Int
  offset : Except String Int
  payload : Except String Bytes
  reason : Except String String
  message : Except String String
  failedAt : Except String Timestamp
  status : Except String String
  resolvedAt : Except String (Option Timestamp)
  resolvedBy : Except String (Option String)
  notes : Except String (Option String)

namespace LetterRow

/-- Where a column cannot be read, the record is corrupt. -/
def column {α : Type} (record name : String) (value : Except String α) : Except StoreError α :=
  value.mapError fun e => .corrupt record s!"column '{name}': {e}"

def remainder (row : LetterRow) (id : Int) (record : String) (status : LetterStatus) :
    Except StoreError LetterEntry := do
  let topic ← column record "topic" row.topic
  let key ← column record "message_key" row.key
  let payload ← column record "payload" row.payload
  let partition ← column record "partition_id" row.partition
  let offset ← column record "message_offset" row.offset
  let reason ← column record "reason" row.reason
  let message ← column record "error_message" row.message
  let failedAt ← column record "failed_at" row.failedAt
  let resolvedAt ← column record "resolved_at" row.resolvedAt
  let resolvedBy ← column record "resolved_by" row.resolvedBy
  let notes ← column record "resolution_notes" row.notes
  let delivery : Delivery := ⟨topic, key, payload, partition, offset⟩
  return { id, delivery, reason, message, failedAt, status, resolvedAt, resolvedBy, notes }

def entry (row : LetterRow) : Except StoreError LetterEntry := do
  let id ← column "failed_messages" "id" row.id
  let record := s!"failed_messages/{id}"
  let status ← LetterStatus.ofName (← column record "status" row.status)
  row.remainder id record status

end LetterRow
end Consignment
