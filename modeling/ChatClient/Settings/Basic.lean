import ChatClient.Endpoint
import ChatClient.Request

/-!
# Settings

Everything about a client that can be set from outside.
-/

namespace ChatClient

/-- The settings of a client. -/
structure Settings where
  apiKey : Option String
  baseUrl : String
  maxRetries : Int
  timeout : Binary64
  logLevel : String
  chat : ChatProperties
  deriving DecidableEq, Repr

namespace Settings

/-- The level of logging where none is set. -/
def defaultLogLevel : String := "INFO"

/-- The settings of the given members. -/
def decode (fields : Members) : Decoded Settings :=
  Settings.mk
    <$> fields.optional "api_key" Decoder.text
    <*> fields.withDefault "base_url" Endpoint.defaultBaseUrl Decoder.text
    <*> fields.withDefault "max_retries" Endpoint.defaultMaxRetries Decoder.int
    <*> fields.withDefault "timeout" Endpoint.defaultTimeout Decoder.number
    <*> fields.withDefault "log_level" defaultLogLevel Decoder.text
    <*> fields.withDefault "chat" ChatProperties.default ChatProperties.decode

/-- The JSON object of settings. -/
def dump (nulls : NullFields) (settings : Settings) : Json :=
  nulls.record
    [("api_key", settings.apiKey.map .str), ("base_url", some (.str settings.baseUrl)),
      ("max_retries", some (.int settings.maxRetries)),
      ("timeout", some (.float settings.timeout)),
      ("log_level", some (.str settings.logLevel)),
      ("chat", some (settings.chat.dump nulls))]

/-- The endpoint that these settings lead to. -/
def endpoint (transport : Transport) (environment : Environment) (settings : Settings) :
    Except Failure Endpoint :=
  Endpoint.connect transport environment (.ofOption (settings.apiKey.map .str))
    (.str settings.baseUrl) (.int settings.maxRetries) (.float settings.timeout)

end Settings

end ChatClient
