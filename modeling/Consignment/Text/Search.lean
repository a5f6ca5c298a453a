/-! Looking for a word in a text. -/
namespace Consignment.Text

def occurs (word : List Char) : List Char → Bool
  | [] => word.isEmpty
  | c :: cs => word.isPrefixOf (c :: cs) || occurs word cs

def mentions (s word : String) : Bool := occurs word.toList s.toList

end Consignment.Text
