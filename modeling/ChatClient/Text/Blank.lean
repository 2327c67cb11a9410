/-!
# White space

Two classes of blank characters occur in the client. `isSpace` is the Unicode
property White_Space, which numbers written as text may carry at their ends.
`isBlank` adds the four information separators and decides whether a text
counts as empty. Both are closed lists, so membership is decidable by
evaluation.
-/

namespace ChatClient.Text

/-- The Unicode property White_Space. -/
def isSpace (c : Char) : Bool :=
  (9 ≤ c.toNat && c.toNat ≤ 13) || c.toNat == 0x20 || c.toNat == 0x85 ||
    c.toNat == 0xA0 || c.toNat == 0x1680 || (0x2000 ≤ c.toNat && c.toNat ≤ 0x200A) ||
    c.toNat == 0x2028 || c.toNat == 0x2029 || c.toNat == 0x202F ||
    c.toNat == 0x205F || c.toNat == 0x3000

/-- White space together with the information separators U+001C to U+001F. -/
def isBlank (c : Char) : Bool :=
  isSpace c || (0x1C ≤ c.toNat && c.toNat ≤ 0x1F)

/-- The characters up to and including the last one that fails `p`. -/
def trimEnd (p : Char → Bool) (cs : List Char) : List Char :=
  (cs.reverse.dropWhile p).reverse

/-- The characters between the first and the last one that fail `p`. -/
def trim (p : Char → Bool) (cs : List Char) : List Char :=
  trimEnd p (cs.dropWhile p)

/-- A text of blank characters only, the empty one included. -/
def isBlankText (s : String) : Bool :=
  s.toList.all isBlank

end ChatClient.Text
