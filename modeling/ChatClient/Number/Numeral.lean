import ChatClient.Number.Binary64
import ChatClient.Text.Blank

/-!
# Numbers written as text

Settings and loosely typed services give numbers as texts. Either kind of number
may be set off by white space, and low lines may group its digits.

The text of an integer is cleaned before it is read: a plus sign, leading zeros,
a fraction of zeros and single low lines are taken away. What is left must be
digits, perhaps behind a minus sign. Leading zeros take everything with them that
groups digits, and they end at a minus sign too.

The text of a float is read as it is. Only if that fails, and no white space is
around it, all low lines are taken away, and it is read again.
-/

namespace ChatClient.Numeral

/-- The greatest number of digits that are read. -/
def longest : Nat := 4300

/-- The digits of a text that is nothing else, one at least. -/
def digits? (cs : List Char) : Option (List Char) :=
  if !cs.isEmpty && cs.all Char.isDigit then some cs else none

/-- The number that a list of digits denotes. -/
def ofDigits (ds : List Char) : Nat := Nat.ofDigitChars 10 ds 0

/-- A sign, if there is one, and what follows it. -/
def signed : List Char → Bool × List Char
  | '-' :: cs => (true, cs)
  | '+' :: cs => (false, cs)
  | cs => (false, cs)

/-- What comes before the first character that satisfies `p`, and the rest
that begins with it. -/
def splitAt (p : Char → Bool) (cs : List Char) : List Char × List Char :=
  (cs.takeWhile (!p ·), cs.dropWhile (!p ·))

/-- Two low lines stand side by side. -/
def hasDoubleLow : List Char → Bool
  | '_' :: '_' :: _ => true
  | _ :: cs => hasDoubleLow cs
  | [] => false

/-- A text without its low lines, if it has some that stand alone and not at an
end. -/
def withoutLow? (cs : List Char) : Option (List Char) :=
  if cs.contains '_' && cs.head? ≠ some '_' && cs.getLast? ≠ some '_' && !hasDoubleLow cs then
    some (cs.filter (· ≠ '_'))
  else none

/-! ## Integers -/

/-- Why a text gives no integer. -/
inductive Fault where
  | notNumeral
  | tooLong
  deriving DecidableEq, Repr

/-- A text without a plus sign. No second sign may follow it. -/
def withoutPlus? : List Char → Option (List Char)
  | '+' :: '-' :: _ => none
  | '+' :: cs => some cs
  | cs => some cs

/-- What follows zeros and low lines of which `last` is the last. A point keeps it
before it, and so does the end of the text. -/
def behindZeros? (last : Char) : List Char → Option (List Char)
  | [] => some [last]
  | c :: cs =>
    if c = '0' ∨ c = '_' then behindZeros? c cs
    else if c.isDigit ∨ c = '-' then some (c :: cs)
    else if c = '.' then some (last :: c :: cs)
    else none

/-- A text without leading zeros, if it begins as an integer does. -/
def withoutZeros? : List Char → Option (List Char)
  | '0' :: cs => behindZeros? '0' cs
  | c :: cs => if c.isDigit ∨ c = '-' then some (c :: cs) else none
  | [] => none

/-- A text without a point and the zeros behind it, if there is nothing else
behind the point. -/
def withoutZeroFraction (cs : List Char) : List Char :=
  match splitAt (· = '.') cs with
  | (whole, _ :: zeros) => if !zeros.isEmpty && zeros.all (· = '0') then whole else cs
  | (_, []) => cs

/-- The text of an integer, cleaned. -/
def cleaned? (cs : List Char) : Option (List Char) := do
  let cs ← withoutZeros? (← withoutPlus? (Text.trim Text.isSpace cs))
  let cs := withoutZeroFraction cs
  return (withoutLow? cs).getD cs

/-- The natural number of digits without leading zeros. A number that is too long
is told from other texts by its first digits. -/
def natural (cs : List Char) : Except Fault Nat :=
  let (digits, rest) := splitAt (!·.isDigit) cs
  match digits with
  | [] => .error .notNumeral
  | first :: more =>
    if first = '0' then if more.isEmpty && rest.isEmpty then .ok 0 else .error .notNumeral
    else if longest < digits.length then .error .tooLong
    else if rest.isEmpty then .ok (ofDigits digits)
    else .error .notNumeral

/-- The integer that a text denotes. -/
def int (text : String) : Except Fault Int :=
  match cleaned? text.toList with
  | some ('-' :: cs) => (natural cs).map fun n => -(n : Int)
  | some cs => (natural cs).map fun n => (n : Int)
  | none => .error .notNumeral

/-! ## Floats -/

/-- The digits of a part that may be missing altogether. -/
def part? (cs : List Char) : Option (List Char) :=
  if cs.isEmpty then some [] else digits? cs

/-- The value of an exponent such as `e-3`, or zero where there is none. -/
def exponent? : List Char → Option Int
  | [] => some 0
  | _ :: cs =>
    let (negative, body) := signed cs
    (digits? body).map fun ds => if negative then -(ofDigits ds : Int) else ofDigits ds

/-- The float that an unsigned decimal denotes. -/
def decimal? (negative : Bool) (cs : List Char) : Option Binary64 := do
  let (mantissa, power) := splitAt (fun c => c = 'e' || c = 'E') cs
  let (whole, fraction) := splitAt (· = '.') mantissa
  let whole ← part? whole
  let fraction ← part? (fraction.drop 1)
  let power ← exponent? power
  if whole.isEmpty && fraction.isEmpty then none
  else some (.ofDecimal negative (ofDigits (whole ++ fraction)) (power - fraction.length))

/-- The float of a text without white space and low lines: a decimal, or one of
the names of infinity and NaN in any case of letters. -/
def plainFloat? (cs : List Char) : Option Binary64 :=
  let (negative, body) := signed cs
  let word := String.ofList (body.map Char.toLower)
  if word = "inf" ∨ word = "infinity" then some (.infinite negative)
  else if word = "nan" then some .nan
  else decimal? negative body

/-- The float that a text denotes. -/
def float? (text : String) : Option Binary64 :=
  (plainFloat? (Text.trim Text.isSpace text.toList)).or
    ((withoutLow? text.toList).bind plainFloat?)

end ChatClient.Numeral
