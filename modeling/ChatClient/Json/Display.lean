import ChatClient.Json.Token
import ChatClient.Text.Quoted

/-!
# Values in messages

A message that rejects a value shows it: texts quoted, constants by the names
`None`, `True` and `False`, items and members separated by a comma and a space.
-/

namespace ChatClient.Json

mutual

/-- A value as a message shows it. -/
def display : Json → List Char
  | .null => ['N', 'o', 'n', 'e']
  | .bool true => ['T', 'r', 'u', 'e']
  | .bool false => ['F', 'a', 'l', 's', 'e']
  | .int n => intText n
  | .float x => Layout.display.number x
  | .str s => Text.quoted s
  | .arr [] => ['[', ']']
  | .arr (x :: xs) => '[' :: (display x ++ displayItems xs ++ [']'])
  | .obj [] => ['\x7b', '\x7d']
  | .obj ((k, x) :: xs) =>
    '\x7b' :: (Text.quoted k ++ [':', ' '] ++ display x ++ displayMembers xs ++ ['\x7d'])

/-- Further items. -/
def displayItems : List Json → List Char
  | [] => []
  | x :: xs => ',' :: ' ' :: (display x ++ displayItems xs)

/-- Further members. -/
def displayMembers : List (String × Json) → List Char
  | [] => []
  | (k, x) :: xs =>
    ',' :: ' ' :: (Text.quoted k ++ [':', ' '] ++ display x ++ displayMembers xs)

end

/-- A value as a message shows it. -/
def shown (value : Json) : String := String.ofList value.display

/-- A value that is a message itself. A text is not quoted then. -/
def told : Json → String
  | .str s => s
  | value => value.shown

end ChatClient.Json
