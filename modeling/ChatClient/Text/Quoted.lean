import ChatClient.Text.Hex
import ChatClient.Text.Printable

/-!
# Quoted texts in messages

A text that is quoted inside a message stands between single quotes, or between
double quotes when it holds a single quote and no double one. What cannot be
printed is escaped, so a message never breaks its line.
-/

namespace ChatClient.Text

/-- The quotation mark that needs no escape if one of the two does not occur. -/
def quoteMark (cs : List Char) : Char :=
  if cs.contains '\'' && !cs.contains '"' then '"' else '\''

/-- The escape of an unprintable character: two, four or eight digits. -/
def escapeCode (c : Char) : List Char :=
  if c.toNat < 0x100 then '\\' :: 'x' :: hexDigits 2 c.toNat
  else if c.toNat < 0x10000 then '\\' :: 'u' :: hexDigits 4 c.toNat
  else '\\' :: 'U' :: hexDigits 8 c.toNat

/-- One character of a quoted text. -/
def quotedChar (mark c : Char) : List Char :=
  if c = mark ∨ c = '\\' then ['\\', c]
  else if c = '\n' then ['\\', 'n']
  else if c = '\r' then ['\\', 'r']
  else if c = '\t' then ['\\', 't']
  else if isPrintable c then [c]
  else escapeCode c

/-- A text between quotation marks. -/
def quoted (s : String) : List Char :=
  let mark := quoteMark s.toList
  mark :: (s.toList.flatMap (quotedChar mark) ++ [mark])

end ChatClient.Text
