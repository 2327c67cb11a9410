import ChatClient.Environment
import ChatClient.Failure
import ChatClient.Text.Blank

/-!
# Endpoints

Where requests go and with which key. The base URL may be given with or without
its version suffix and with any number of slashes behind it; the key is taken
from the environment when none is given. What carries the requests is a library of its
own, which decides whether an endpoint can be used.
-/

namespace ChatClient

/-- Where requests go. The key, the number of retries and the timeout are handed on as
they are given. -/
structure Endpoint where
  baseUrl : String
  apiKey : Json
  maxRetries : Json
  timeout : Json
  deriving DecidableEq, Repr

/-- The library that carries requests, where and when a client is set up: the key that it
uses for an endpoint, perhaps one that it has found itself, or why it cannot be set up. -/
abbrev Transport := Endpoint → Except OutsideFault Json

/-- A transport that needs a key, and asks for nothing else. -/
def Transport.keyed : Transport := fun endpoint =>
  if endpoint.apiKey.isFalsy then .error ⟨"OpenAIError", none⟩ else .ok endpoint.apiKey

namespace Endpoint

/-- The root of the service. -/
def defaultBaseUrl : String := "https://api.baichuan-ai.com"

/-- The number of retries where none is given. -/
def defaultMaxRetries : Int := 5

/-- The timeout in seconds where none is given, 600. -/
def defaultTimeout : Binary64 := .ofInt 600

/-- The suffix that every base URL ends in. -/
def version : List Char := ['/', 'v', '1']

/-- A URL with the version suffix and without slashes behind it. -/
def normalise (url : String) : String :=
  let root := Text.trimEnd (· = '/') url.toList
  String.ofList (if version.isSuffixOf root then root else root ++ version)

/-- The variable that holds the key. -/
def keyVariable : String := "BAICHUAN_API_KEY"

/-- The key that is handed on: the one given, or that of the environment if it counts as
nothing. There may be none. -/
def ownKey (environment : Environment) (given : Json) : Json :=
  if given.isFalsy then .ofOption ((environment.get? keyVariable).map .str) else given

/-- The endpoint that a client is set up with. -/
def connect (transport : Transport) (environment : Environment)
    (apiKey baseUrl maxRetries timeout : Json) : Except Failure Endpoint :=
  match baseUrl with
  | .str url =>
    let own : Endpoint := ⟨normalise url, ownKey environment apiKey, maxRetries, timeout⟩
    match transport own with
    | .ok key => .ok { own with apiKey := key }
    | .error fault => .error (.outside fault)
  | value => .error (.urlNotText value)

end Endpoint

end ChatClient
