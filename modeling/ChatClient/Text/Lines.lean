/-!
# Lines

A text falls into lines at every character that ends one. A carriage return and the
line feed behind it end a line together. What stands behind the last end is a line
only if it is not empty, so no line is lost and none is made up.
-/

namespace ChatClient.Text

/-- The characters that end a line. -/
def isLineEnd (c : Char) : Bool :=
  (0x0A ≤ c.toNat && c.toNat ≤ 0x0D) || (0x1C ≤ c.toNat && c.toNat ≤ 0x1E) ||
    c.toNat == 0x85 || c.toNat == 0x2028 || c.toNat == 0x2029

/-- The lines of a text of which `line` has been read already, last character first. -/
def linesAfter (line : List Char) : List Char → List String
  | [] => if line.isEmpty then [] else [String.ofList line.reverse]
  | '\r' :: '\n' :: cs => String.ofList line.reverse :: linesAfter [] cs
  | c :: cs =>
    if isLineEnd c then String.ofList line.reverse :: linesAfter [] cs
    else linesAfter (c :: line) cs

/-- The lines of a text. -/
def lines (text : String) : List String := linesAfter [] text.toList

end ChatClient.Text
