import Consignment.Text.Invisible

/-! Text between quotes, as diagnostics show it: on one line, with every character visible. -/
namespace Consignment.Text

/-- The quote and the backslash are escaped by a backslash, the common controls by a letter, and
whatever else cannot be seen by its code point. -/
def escaped (c : Char) : String :=
  match c with
  | '\x22' => "\\\""
  | '\\' => "\\\\"
  | '\n' => "\\n"
  | '\r' => "\\r"
  | '\t' => "\\t"
  | '\x00' => "\\0"
  | c =>
    if isInvisible c then "\\u\x7b" ++ String.ofList (Nat.toDigits 16 c.toNat) ++ "\x7d"
    else c.toString

def quoted (s : String) : String := "\"" ++ String.join (s.toList.map escaped) ++ "\""

def quotedList (texts : List String) : String :=
  "[" ++ ", ".intercalate (texts.map quoted) ++ "]"

example : quoted "a\"b\u200b\x07" = "\"a\\\"b\\u\x7b200b\x7d\\u\x7b7\x7d\"" := by decide +kernel

end Consignment.Text
