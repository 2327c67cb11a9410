import ChatClient.Environment.Reference
import ChatClient.Notice
import ChatClient.Text.Blank

/-!
# Environment files

A file that sets variables, one statement after the other:

    export NAME = value   # a comment

A name may stand between single quotes. A value between quotes may hold line
breaks, and escapes: between single quotes those of the quote and the backslash,
between double quotes those of control characters too. Any other value ends with
its line or with a comment. A name without an equals sign has no value. A line
that cannot be read is skipped, and a notice tells which one it was. A byte order
mark in front of the text is no part of it.
-/

namespace ChatClient.EnvironmentFile

/-- What one statement says. -/
inductive Statement where
  | nothing
  | names (name : String) (value : Option String)
  | unreadable
  deriving DecidableEq, Repr

/-- What was read, or the place where reading failed. -/
abbrev Scan := Except (List Char)

/-- A blank that does not end the line. -/
def isInlineBlank (c : Char) : Bool := Text.isBlank c && c ≠ '\n'

/-- The text behind the end of the line. -/
def nextLine (cs : List Char) : List Char := (cs.dropWhile (· ≠ '\n')).drop 1

/-- Every line break as one character. -/
def unifyBreaks : List Char → List Char
  | [] => []
  | '\r' :: '\n' :: cs => '\n' :: unifyBreaks cs
  | '\r' :: cs => '\n' :: unifyBreaks cs
  | c :: cs => c :: unifyBreaks cs

/-! ## Values -/

/-- The text up to the closing quote. A character behind a backslash closes nothing. -/
def quotedBody? (quote : Char) : List Char → Option (List Char × List Char)
  | [] => none
  | '\\' :: c :: cs =>
    (quotedBody? quote cs).map fun (body, rest) => ('\\' :: c :: body, rest)
  | c :: cs =>
    if c = quote then some ([], cs)
    else (quotedBody? quote cs).map fun (body, rest) => (c :: body, rest)

/-- Escapes replaced by what they stand for. What is no escape is left alone. -/
def unescape (meaning : Char → Option Char) : List Char → List Char
  | [] => []
  | '\\' :: c :: cs =>
    match meaning c with
    | some d => d :: unescape meaning cs
    | none => '\\' :: unescape meaning (c :: cs)
  | c :: cs => c :: unescape meaning cs

/-- The escapes between single quotes. -/
def plainEscape : Char → Option Char
  | '\\' => some '\\'
  | '\'' => some '\''
  | _ => none

/-- The escapes between double quotes. -/
def controlEscape : Char → Option Char
  | '"' => some '"'
  | 'a' => some '\x07'
  | 'b' => some '\x08'
  | 'f' => some '\x0c'
  | 'n' => some '\n'
  | 'r' => some '\r'
  | 't' => some '\t'
  | 'v' => some '\x0b'
  | c => plainEscape c

/-- A value between quotes. -/
def quotedValue (quote : Char) (meaning : Char → Option Char) (cs : List Char) :
    Scan (String × List Char) :=
  match quotedBody? quote cs with
  | some (body, rest) => .ok (String.ofList (unescape meaning body), rest)
  | none => .error cs

/-- A line up to a comment, which a blank sets apart. -/
def withoutComment (afterBlank : Bool) : List Char → List Char
  | [] => []
  | c :: cs =>
    if afterBlank && c = '#' then [] else c :: withoutComment (Text.isBlank c) cs

/-- A value of any form. -/
def value : List Char → Scan (String × List Char)
  | '\'' :: cs => quotedValue '\'' plainEscape cs
  | '"' :: cs => quotedValue '"' controlEscape cs
  | cs =>
    let line := cs.takeWhile (· ≠ '\n')
    .ok (String.ofList (Text.trimEnd Text.isBlank (withoutComment false line)),
      cs.dropWhile (· ≠ '\n'))

/-! ## Statements -/

/-- The text behind the word `export`, if blanks follow it. -/
def withoutExport (cs : List Char) : List Char :=
  match cs with
  | 'e' :: 'x' :: 'p' :: 'o' :: 'r' :: 't' :: c :: rest =>
    if isInlineBlank c then rest.dropWhile isInlineBlank else cs
  | _ => cs

/-- A character of a name without quotes. -/
def inBareName (c : Char) : Bool := c ≠ '=' && c ≠ '#' && !Text.isBlank c

/-- The name of a statement, or none where a comment begins. -/
def name? (cs : List Char) : Scan (Option String × List Char) :=
  match cs with
  | '#' :: _ => .ok (none, cs)
  | '\'' :: behind =>
    match behind.takeWhile (· ≠ '\''), behind.dropWhile (· ≠ '\'') with
    | c :: name, _ :: rest => .ok (some (String.ofList (c :: name)), rest)
    | _, _ => .error cs
  | _ =>
    match cs.takeWhile inBareName with
    | [] => .error cs
    | name => .ok (some (String.ofList name), cs.dropWhile inBareName)

/-- The value behind an equals sign. Where blanks and a comment follow the sign,
the value is empty. -/
def assigned (cs : List Char) : Scan (String × List Char) :=
  match cs.takeWhile isInlineBlank, cs.dropWhile isInlineBlank with
  | _ :: _, '#' :: comment => .ok ("", '#' :: comment)
  | _, rest => value rest

/-- The equals sign and the value, if there is one. -/
def value? (cs : List Char) : Scan (Option String × List Char) := do
  match cs.dropWhile isInlineBlank with
  | '=' :: behind =>
    let (text, rest) ← assigned behind
    return (some text, rest)
  | rest => return (none, rest)

/-- The end of the line, perhaps with a comment before it. -/
def lineEnd (cs : List Char) : Scan (List Char) :=
  match cs.dropWhile isInlineBlank with
  | [] => .ok []
  | '\n' :: rest => .ok rest
  | '#' :: comment => .ok (nextLine comment)
  | other => .error other

/-- A statement that can be read. -/
def readable (cs : List Char) : Scan (Statement × List Char) := do
  let (name, cs) ← name? (withoutExport cs)
  let (value, cs) ← value? cs
  let cs ← lineEnd cs
  match name with
  | some name => return (.names name value, cs)
  | none => return (.nothing, cs)

/-- The first statement of a text that begins with no blank. Where it cannot be
read, the rest of the line belongs to it. -/
def statement (cs : List Char) : Statement × List Char :=
  match readable cs with
  | .ok result => result
  | .error place => (.unreadable, nextLine place)

/-- The statements of a text, each with the number of the line from which on it
was looked for. -/
def statementsFrom (line : Nat) (cs : List Char) : List (Nat × Statement) :=
  match cs.dropWhile Text.isBlank with
  | [] => []
  | start =>
    let (content, rest) := statement start
    if rest.length < cs.length then
      let next := line + (cs.take (cs.length - rest.length)).count '\n'
      (line, content) :: statementsFrom next rest
    else [(line, content)]
termination_by cs.length

/-- A text without the byte order mark in front of it. -/
def withoutMark : List Char → List Char
  | '\ufeff' :: cs => cs
  | cs => cs

/-- The statements of a file. -/
def statements (text : String) : List (Nat × Statement) :=
  statementsFrom 1 (unifyBreaks (withoutMark text.toList))

/-! ## Variables -/

/-- What references in a file see: the variables set before, and then those of
the process. A variable that is only named counts as empty. -/
def visible (environment : Environment) (earlier : Variables) (name : String) : Option String :=
  match earlier.get? name with
  | some value => some (value.getD "")
  | none => environment.get? name

/-- The variables after one more statement. -/
def assign (environment : Environment) (earlier : Variables) :
    Nat × Statement → Variables
  | (_, .names name value) =>
    earlier.set name (value.map fun text =>
      String.ofList (Environment.expand (visible environment earlier) text.toList))
  | _ => earlier

/-- The variables that a file sets. -/
def toVariables (environment : Environment) (text : String) : Variables :=
  (statements text).foldl (assign environment) []

/-- The lines of a file that cannot be read. -/
def skippedLines (text : String) : List Notice :=
  (statements text).filterMap fun
    | (line, .unreadable) => some (.lineSkipped line)
    | _ => none

end ChatClient.EnvironmentFile
