import SaveNames.Basic
import SaveNames.Json.Basic
import SaveNames.Text.HexDigit

/-!
# Printing JSON

A value is printed either on one line without any blanks, or with each item and member on a
line of its own, indented by two spaces for each level. Strings escape the quote, the
backslash and the control characters, and nothing else.
-/

namespace SaveNames
namespace Json

/-! ## Strings -/

/-- The spelling of a character inside a string. -/
def escape (ch : Char) : Text :=
  if ch = '"' then ['\\', '"']
  else if ch = '\\' then ['\\', '\\']
  else if ch = '\x08' then ['\\', 'b']
  else if ch = '\x0c' then ['\\', 'f']
  else if ch = '\n' then ['\\', 'n']
  else if ch = '\r' then ['\\', 'r']
  else if ch = '\t' then ['\\', 't']
  else if ch.toNat < 0x20 then
    ['\\', 'u', '0', '0', HexDigit.lower (ch.toNat / 16), HexDigit.lower (ch.toNat % 16)]
  else [ch]

/-- A string between its quotes. -/
def quoted (value : String) : Text := '"' :: (value.toList.flatMap escape ++ ['"'])

/-! ## Layouts -/

/-- Where a printer puts blanks. -/
structure Style where
  /-- The text in front of an item or a closing bracket, by its level. -/
  newline : Nat → Text
  /-- The text between a member's name and its value. -/
  colon : Text

/-- Everything on one line, without blanks. -/
def Style.compact : Style := ⟨fun _ => [], [':']⟩

/-- Each item on a line of its own. -/
def Style.indented : Style := ⟨fun level => '\n' :: List.replicate (2 * level) ' ', [':', ' ']⟩

/-! ## Values -/

mutual

/-- The text of a value whose first line is at the given level. -/
def render (style : Style) (level : Nat) : Json → Text
  | .null => "null".toList
  | .bool true => "true".toList
  | .bool false => "false".toList
  | .number spelling => spelling.toList
  | .string value => quoted value
  | .array [] => ['[', ']']
  | .array (item :: rest) =>
    '[' :: (style.newline (level + 1) ++ render style (level + 1) item
      ++ renderItems style (level + 1) rest ++ style.newline level ++ [']'])
  | .object [] => ['{', '}']
  | .object ((name, value) :: rest) =>
    '{' :: (style.newline (level + 1) ++ quoted name ++ style.colon
      ++ render style (level + 1) value ++ renderMembers style (level + 1) rest
      ++ style.newline level ++ ['}'])

/-- The texts of the items behind the first, each with its comma in front. -/
def renderItems (style : Style) (level : Nat) : List Json → Text
  | [] => []
  | item :: rest =>
    ',' :: (style.newline level ++ render style level item ++ renderItems style level rest)

/-- The texts of the members behind the first, each with its comma in front. -/
def renderMembers (style : Style) (level : Nat) : List (String × Json) → Text
  | [] => []
  | (name, value) :: rest =>
    ',' :: (style.newline level ++ quoted name ++ style.colon ++ render style level value
      ++ renderMembers style level rest)

end

/-- The text of a value in a layout. -/
def print (style : Style) (value : Json) : String := String.ofList (render style 0 value)

end Json
end SaveNames
