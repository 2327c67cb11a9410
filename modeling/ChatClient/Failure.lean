import ChatClient.Json.Display
import ChatClient.Json.Reader
import ChatClient.Record

/-!
# Failures

Everything that can go wrong, as causes. A failure that the client words itself
has a message, a list of problems speaks for itself, and what the client builds on
brings its own words.
-/

namespace ChatClient

/-- The kinds of named values that can be looked up. -/
inductive NameKind where
  | role
  | chatModel
  | finishReason
  deriving DecidableEq, Repr

namespace NameKind

/-- What a kind of names is called in a message. -/
def title : NameKind → String
  | .role => "Role"
  | .chatModel => "ChatModel"
  | .finishReason => "ChatCompletionFinishReason"

end NameKind

/-- Where settings come from, next to the values given in the program. -/
inductive SettingsOrigin where
  | environment
  | file
  deriving DecidableEq, Repr

namespace SettingsOrigin

/-- What an origin is called in a message. -/
def title : SettingsOrigin → String
  | .environment => "EnvSettingsSource"
  | .file => "DotEnvSettingsSource"

end SettingsOrigin

/-- Why something that the client builds on fails, such as the system that opens its log
files or the library that carries its requests: what the failure is called there, and its
message, if that is the same on every system. -/
structure OutsideFault where
  title : String
  message : Option String
  deriving DecidableEq, Repr

/-- A cause of failure. -/
inductive Failure where
  /-- A value does not decode to a record of the kind. -/
  | invalid (kind : RecordKind) (problems : List Problem)
  /-- A value is no name of the kind. -/
  | unknownName (kind : NameKind) (value : Json)
  /-- A value cannot be shown in a message, as an integer in it has too many digits. -/
  | unshowable
  /-- A text is not JSON. -/
  | unreadable (error : Json.ReadError)
  /-- A schema is given by something else than a text. -/
  | schemaNotText (value : Json)
  /-- There is no usage to account for. -/
  | noUsage
  /-- There is no chunk to merge. -/
  | noChunk
  /-- The base URL is given by something else than a text. -/
  | urlNotText (value : Json)
  /-- Something that the client builds on fails. -/
  | outside (fault : OutsideFault)
  /-- A request for one answer asks for a stream. -/
  | mustNotStream
  /-- A request for a stream does not ask for one. -/
  | mustStream
  /-- The service refused the call, or broke off its stream. -/
  | service (message : String)
  /-- The value of a setting is not JSON. -/
  | unreadableSetting (field : String) (origin : SettingsOrigin)
  /-- A value of any form is too deep to be dumped. -/
  | tooDeep
  /-- A value of any form is too deep to be written. -/
  | tooDeepForText
  /-- A level of logging has a name that is not known. -/
  | unknownLevel (name : String)
  /-- A level of logging is neither a number nor a name. -/
  | notLevel (value : Json)
  /-- The level of a record is not an integer. -/
  | levelNotInteger
  /-- A channel of logging is given by something else than a text. -/
  | channelNotText
  /-- Logging is set up with more than a level and a file. -/
  | setupArguments (count : Nat)
  /-- A log file is given by something else than a text. -/
  | fileNotText (value : Json)
  deriving DecidableEq, Repr

namespace Failure

/-- What kind of value it is, in a message. -/
def typeTitle : Json → String
  | .null => "NoneType"
  | .bool _ => "bool"
  | .int _ => "int"
  | .float _ => "float"
  | .str _ => "str"
  | .arr _ => "list"
  | .obj _ => "dict"

/-- The message about a value that is too deep. -/
def tooDeepMessage : String := "Maximum serialization depth exceeded"

/-- The message of a failure, if it has one. -/
def message? : Failure → Option String
  | .invalid .. => none
  | .unknownName kind value => some s!"{value.shown} is not a valid {kind.title}"
  | .unshowable =>
    some (s!"Exceeds the limit ({Numeral.longest} digits) for integer string conversion; " ++
      "use sys.set_int_max_str_digits() to increase the limit")
  | .unreadable error => some error.message
  | .schemaNotText value =>
    some s!"the JSON object must be str, bytes or bytearray, not {typeTitle value}"
  | .noUsage => some "Baichuan usage must not be None"
  | .noChunk => some "'NoneType' object has no attribute 'choices'"
  | .urlNotText value => some s!"'{typeTitle value}' object has no attribute 'rstrip'"
  | .outside fault => fault.message
  | .mustNotStream => some "Request must set the stream property to false."
  | .mustStream => some "Request must set the stream property to true."
  | .service message => some message
  | .unreadableSetting field origin =>
    some s!"error parsing value for field \"{field}\" from source \"{origin.title}\""
  | .tooDeep => some tooDeepMessage
  | .tooDeepForText => some ("Error serializing to JSON: ValueError: " ++ tooDeepMessage)
  | .unknownLevel name => some s!"Unknown level: {(Json.str name).shown}"
  | .notLevel value => some s!"Level not an integer or a valid string: {value.shown}"
  | .levelNotInteger => some "level must be an integer"
  | .channelNotText => some "A logger name must be a string"
  | .setupArguments count =>
    some s!"setup_logging() takes from 0 to 2 positional arguments but {count} were given"
  | .fileNotText value =>
    some s!"expected str, bytes or os.PathLike object, not {typeTitle value}"

end Failure

/-- The decoded value, or the failure that its problems are. -/
def Decoded.check {α : Type} (kind : RecordKind) (decoded : Decoded α) : Except Failure α :=
  decoded.outcome.mapError (.invalid kind)

/-! ## Named values -/

namespace NameKind

/-- The names of a kind, each with the constant that stands for it. -/
def listing : NameKind → List (String × String)
  | .role => Role.all.map fun role => (constant role.name, role.name)
  | .chatModel => ChatModel.all.map fun model => (constant model.name, model.name)
  | .finishReason => FinishReason.all.map fun reason => (constant reason.name, reason.name)
where
  /-- The constant of a name: its letters as capitals, joined by low lines. -/
  constant (name : String) : String :=
    String.ofList (name.toList.map fun c => if c = '-' then '_' else c.toUpper)

/-- The constant for a value that is a name of the kind. -/
def lookUp (kind : NameKind) (value : Json) : Except Failure String :=
  match value with
  | .str name =>
    match kind.listing.find? (·.2 = name) with
    | some (constant, _) => .ok constant
    | none => .error (.unknownName kind value)
  | _ => .error (if value.isShowable then .unknownName kind value else .unshowable)

end NameKind

end ChatClient
