/-! Octets of a message and the text they spell. -/
namespace Consignment

abbrev Bytes := List UInt8

namespace Text

def utf8 (s : String) : Bytes := s.toUTF8.data.toList

def ofUtf8? (b : Bytes) : Option String := String.fromUTF8? ⟨b.toArray⟩

@[simp] theorem ofUtf8?_utf8 (s : String) : ofUtf8? (utf8 s) = some s := by
  simpa [ofUtf8?, utf8, String.fromUTF8?] using ⟨s.isValidUTF8, rfl⟩

def textualPrefix (b : Bytes) : Nat :=
  ((List.range (b.length + 1)).reverse.find? fun n => (ofUtf8? (b.take n)).isSome).getD 0

def hexDigit (n : Nat) : Char := Char.ofNat (if n < 10 then 0x30 + n else 0x57 + n)

def hexPair (b : UInt8) : List Char := [hexDigit (b.toNat / 16), hexDigit (b.toNat % 16)]

def hex (b : Bytes) : String := String.ofList (b.flatMap hexPair)

end Text
end Consignment
