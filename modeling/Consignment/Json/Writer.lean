import Consignment.Text.Octets

/-! The compact written form of JSON values: no blanks, and only the escapes that are needed. -/
namespace Consignment.Json

/-- Quotes, backslashes and controls are escaped, by a letter where there is one. -/
def writeOctet (b : UInt8) : Bytes :=
  if b = 0x22 then [0x5c, 0x22]
  else if b = 0x5c then [0x5c, 0x5c]
  else if b = 0x08 then [0x5c, 0x62]
  else if b = 0x09 then [0x5c, 0x74]
  else if b = 0x0a then [0x5c, 0x6e]
  else if b = 0x0c then [0x5c, 0x66]
  else if b = 0x0d then [0x5c, 0x72]
  else if b < 0x20 then
    [0x5c, 0x75, 0x30, 0x30, 0x30 + b / 16, if b % 16 < 10 then 0x30 + b % 16 else 0x57 + b % 16]
  else [b]

def writeText (s : String) : Bytes := 0x22 :: (Text.utf8 s).flatMap writeOctet ++ [0x22]

def writeInteger (n : Int64) : Bytes := Text.utf8 (Int.repr n.toInt)

def writeNull : Bytes := [0x6e, 0x75, 0x6c, 0x6c]

def writeOption {α : Type} (write : α → Bytes) : Option α → Bytes
  | none => writeNull
  | some a => write a

def separated : List Bytes → Bytes
  | [] => []
  | [b] => b
  | b :: bs => b ++ 0x2c :: separated bs

def writeList (items : List Bytes) : Bytes := 0x5b :: separated items ++ [0x5d]

def writeMember (name : String) (value : Bytes) : Bytes := writeText name ++ 0x3a :: value

def writeObject (members : List (String × Bytes)) : Bytes :=
  0x7b :: separated (members.map fun m => writeMember m.1 m.2) ++ [0x7d]

end Consignment.Json
