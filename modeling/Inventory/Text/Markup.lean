/-!
Texts inside markup: the characters that markup takes for itself are written as entities.
-/
namespace Inventory.Text

/-- The entity of a character that markup takes for itself, else the character. -/
def escapeChar : Char → List Char
  | '&' => "&amp;".toList
  | '<' => "&lt;".toList
  | '>' => "&gt;".toList
  | '"' => "&quot;".toList
  | '\'' => "&#x27;".toList
  | c => [c]

/-- A text as it stands in content and in attribute values. -/
def escape (s : String) : List Char :=
  s.toList.flatMap escapeChar

end Inventory.Text
