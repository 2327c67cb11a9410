import ChatClient.Failure

/-!
# Levels of logging

A level is a number, and some numbers have names. A flag may stand for a level, zero
or one, and is still shown as a flag.
-/

namespace ChatClient

/-- A level of logging. -/
inductive LogLevel where
  | number (value : Int)
  | flag (value : Bool)
  deriving DecidableEq, Repr

namespace LogLevel

/-- The number that a level is compared by. -/
def value : LogLevel → Int
  | .number n => n
  | .flag b => if b then 1 else 0

/-- The JSON value of a level. -/
def json : LogLevel → Json
  | .number n => .int n
  | .flag b => .bool b

/-- The level that a value is. -/
def ofJson? : Json → Option LogLevel
  | .int n => some (.number n)
  | .bool b => some (.flag b)
  | _ => none

/-- The level of a severity. -/
def ofSeverity (severity : Severity) : LogLevel := .number severity.number

/-- The name of a level. -/
def name (level : LogLevel) : String :=
  if level.value = 0 then "NOTSET"
  else
    match Severity.all.find? (·.number = level.value) with
    | some severity => severity.name
    | none => s!"Level {level.json.shown}"

/-- The names of levels, two of them with a second name. -/
def names : List (String × Int) :=
  ("NOTSET", 0) :: ("WARN", Severity.warning.number) :: ("FATAL", Severity.critical.number) ::
    Severity.all.map fun severity => (severity.name, severity.number)

/-- The level that a value asks for. A text is a name, and `null` leaves the level as
it is. -/
def choose (current : LogLevel) : Json → Except Failure LogLevel
  | .null => .ok current
  | .str name =>
    match names.lookup name with
    | some n => .ok (.number n)
    | none => .error (.unknownLevel name)
  | value =>
    match ofJson? value with
    | some level => .ok level
    | none => .error (if value.isShowable then .notLevel value else .unshowable)

end LogLevel

end ChatClient
