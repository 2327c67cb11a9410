import ChatClient.Text.DecimalDigit
import ChatClient.Text.Quoted

/-!
# Arguments of the console

The console takes three options. An option may be shortened as long as only one
begins that way, and its value follows as the next argument or behind an equals
sign. Two hyphens there are no value. All arguments are classified before the first
of them is used.
-/

namespace ChatClient.Console

/-- What the arguments ask for. -/
structure Arguments where
  model : Option String
  tools : Bool
  logFile : Option String
  deriving DecidableEq, Repr

/-- The options of the console. -/
inductive ConsoleOption where
  | help
  | model
  | tools
  | logFile
  deriving DecidableEq, Repr

namespace ConsoleOption

/-- All options. -/
def all : List ConsoleOption := [.help, .model, .tools, .logFile]

/-- The long name of an option. -/
def name : ConsoleOption → String
  | .help => "--help"
  | .model => "--model"
  | .tools => "--tools"
  | .logFile => "--log-file"

/-- What an option is called in a message. -/
def title : ConsoleOption → String
  | .help => "-h/--help"
  | option => option.name

end ConsoleOption

/-- What an argument is before it is used. -/
inductive Argument where
  /-- An option, perhaps with a value of its own. -/
  | chosen (option : ConsoleOption) (value : Option (List Char))
  /-- The short option for help, and the letters behind it or behind an equals sign. -/
  | helpLetters (letters : List Char)
  /-- Something that looks like an option. -/
  | unknown
  /-- Anything else. -/
  | plain
  /-- All further arguments are plain. -/
  | separator
  deriving DecidableEq, Repr

namespace Argument

/-- The part before the first equals sign, and the part behind it. -/
def split (cs : List Char) : List Char × Option (List Char) :=
  match cs.dropWhile (· ≠ '=') with
  | _ :: value => (cs.takeWhile (· ≠ '='), some value)
  | [] => (cs, none)

/-- The options whose names begin this way. -/
def candidates (start : List Char) : List ConsoleOption :=
  ConsoleOption.all.filter fun option => start.isPrefixOf option.name.toList

/-- A text without the end of its line. -/
def withoutLineEnd (cs : List Char) : List Char :=
  if cs.getLast? = some '\n' then cs.dropLast else cs

/-- A negative number: a minus sign, and digits of any script with at most one point
among them, which digits follow. -/
def isNegativeNumber (cs : List Char) : Bool :=
  match withoutLineEnd cs with
  | '-' :: rest =>
    let fraction := rest.dropWhile Text.isDecimalDigit
    match fraction with
    | [] => !rest.isEmpty
    | '.' :: digits => !digits.isEmpty && digits.all Text.isDecimalDigit
    | _ => false
  | _ => false

/-- What an argument is if no option begins that way. -/
def other (cs : List Char) : Argument :=
  if isNegativeNumber cs || cs.contains ' ' then .plain else .unknown

/-- What an argument is, or the options among which it does not decide. -/
def classify (argument : String) : Except (List ConsoleOption) Argument :=
  match argument.toList with
  | '-' :: '-' :: [] => .ok .separator
  | '-' :: '-' :: cs =>
    let (start, value) := split ('-' :: '-' :: cs)
    match candidates start with
    | [option] => .ok (.chosen option value)
    | [] => .ok (other ('-' :: '-' :: cs))
    | several => .error several
  | '-' :: 'h' :: '=' :: [] => .ok (.chosen .help (some []))
  | '-' :: 'h' :: '=' :: letters => .ok (.helpLetters letters)
  | '-' :: 'h' :: letters => .ok (.helpLetters letters)
  | '-' :: c :: cs => .ok (other ('-' :: c :: cs))
  | _ => .ok .plain

end Argument

/-- What becomes of the arguments. -/
inductive Invocation where
  | run (arguments : Arguments)
  | help
  | refused (message : String)
  deriving DecidableEq, Repr

namespace Invocation

/-- A message about an option. -/
def refusal (option : ConsoleOption) (message : String) : Invocation :=
  .refused s!"argument {option.title}: {message}"

/-- The message about a value that an option does not take. -/
def ignoredValue (option : ConsoleOption) (value : List Char) : Invocation :=
  refusal option
    ("ignored explicit argument " ++ String.ofList (Text.quoted (String.ofList value)))

/-- Letters behind the short option for help. Each of them has to be that option again,
or nothing is shown. -/
def helpLetters : List Char → Invocation
  | [] => .help
  | 'h' :: letters => helpLetters letters
  | letters => ignoredValue .help letters

/-- The value behind an equals sign. -/
def valueOf (cs : List Char) : Option String :=
  if cs = ['-', '-'] then none else some (String.ofList cs)

/-- The arguments are used one after the other. Plain and unknown ones are left
over, and so is everything behind a separator. -/
def consume (arguments : Arguments) (left : List String) :
    List (String × Argument) → Invocation
  | [] =>
    if left.isEmpty then .run arguments
    else .refused ("unrecognized arguments: " ++ " ".intercalate left.reverse)
  | (_, .chosen .help none) :: _ => .help
  | (_, .helpLetters letters) :: _ => helpLetters letters
  | (_, .chosen .tools none) :: rest => consume { arguments with tools := true } left rest
  | (_, .chosen .model (some value)) :: rest =>
    consume { arguments with model := valueOf value } left rest
  | (_, .chosen .logFile (some value)) :: rest =>
    consume { arguments with logFile := valueOf value } left rest
  | (_, .chosen option (some value)) :: _ => ignoredValue option value
  | (_, .chosen .model none) :: (value, .plain) :: rest =>
    consume { arguments with model := some value } left rest
  | (_, .chosen .logFile none) :: (value, .plain) :: rest =>
    consume { arguments with logFile := some value } left rest
  | (_, .chosen option none) :: _ => refusal option "expected one argument"
  | (text, .unknown) :: rest | (text, .plain) :: rest | (text, .separator) :: rest =>
    consume arguments (text :: left) rest

/-- All arguments with what they are. Behind a separator all are plain. -/
def classifyAll : List String → Except (String × List ConsoleOption) (List (String × Argument))
  | [] => .ok []
  | text :: rest =>
    match Argument.classify text with
    | .error several => .error (text, several)
    | .ok .separator => .ok ((text, .separator) :: rest.map fun plain => (plain, .plain))
    | .ok argument => do return (text, argument) :: (← classifyAll rest)

/-- What becomes of the arguments. -/
def ofArguments (arguments : List String) : Invocation :=
  match classifyAll arguments with
  | .ok classified => consume ⟨none, false, none⟩ [] classified
  | .error (text, several) =>
    .refused (s!"ambiguous option: {text} could match " ++
      ", ".intercalate (several.map ConsoleOption.name))

end Invocation

/-! ## Texts -/

/-- What the console is called. -/
def programName : String := "stream_chat_example.py"

/-- How the console is called, line by line. -/
def usageLines : List String :=
  [s!"usage: {programName} [-h] [--model MODEL] [--tools]",
    "                              [--log-file LOG_FILE]"]

/-- The description of the console and its options. -/
def helpLines : List String :=
  usageLines ++
    ["", "Baichuan streaming chat", "", "options:",
      "  -h, --help           show this help message and exit", "  --model MODEL", "  --tools",
      "  --log-file LOG_FILE"]

/-- What is said about arguments that are refused. -/
def refusalLines (message : String) : List String :=
  usageLines ++ [s!"{programName}: error: {message}"]

end ChatClient.Console
