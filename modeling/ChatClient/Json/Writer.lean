import ChatClient.Json.Token

/-!
# Writing JSON

The compact text of a value is the concatenation of its tokens, with no gap
between them. `Json.spelling` gives the tokens and says nothing about
characters; `Token.spell` does the rest.
-/

namespace ChatClient.Json

mutual

/-- The tokens of a value. -/
def spelling : Json → List Token
  | .null => [.null]
  | .bool b => [.bool b]
  | .int n => [.int n]
  | .float x => [.float x]
  | .str s => [.str s]
  | .arr [] => [.openArray, .closeArray]
  | .arr (x :: xs) => .openArray :: (spelling x ++ spellingItems xs ++ [.closeArray])
  | .obj [] => [.openObject, .closeObject]
  | .obj ((k, x) :: xs) =>
    .openObject :: .str k :: .colon :: (spelling x ++ spellingMembers xs ++ [.closeObject])

/-- Further items, each behind a comma. -/
def spellingItems : List Json → List Token
  | [] => []
  | x :: xs => .comma :: (spelling x ++ spellingItems xs)

/-- Further members, each behind a comma. -/
def spellingMembers : List (String × Json) → List Token
  | [] => []
  | (k, x) :: xs => .comma :: .str k :: .colon :: (spelling x ++ spellingMembers xs)

end

/-- The text of a value, with floats in the given layout. -/
def write (layout : Layout) (value : Json) : String :=
  String.ofList (value.spelling.flatMap (Token.spell layout))

/-- The compact text of a value, as it is sent. -/
def compact (value : Json) : String := value.write .compact

/-- The token is no integer of too many digits. -/
def Token.isShort : Token → Bool
  | .int n => digitCount n ≤ Numeral.longest
  | _ => true

/-- A message can show the value, as no integer in it has too many digits. -/
def isShowable (value : Json) : Bool := value.spelling.all Token.isShort

end ChatClient.Json
