import ChatClient.Json.Reader

/-!
# Nested containers

A text that is not trusted is read only if its containers are not nested too deep. The
text is judged from its beginning on, so a fault that comes before the first container
too many is found as ever.
-/

namespace ChatClient.Json

/-- The greatest number of containers around a value. -/
def greatestNesting : Nat := 988

namespace Reader

/-- How many containers are open. One of them may be held in what is expected. -/
def openCount (reader : Reader) : Nat :=
  match reader.expected with
  | .value => reader.around.length
  | .nothing _ => 0
  | _ => reader.around.length + 1

/-- The first token that opens a container too many. -/
def overdeep? (reader : Reader) : List Placed → Option Placed
  | [] => none
  | placed :: rest =>
    match reader.step placed with
    | .error _ => none
    | .ok next =>
      if greatestNesting < next.openCount then some placed else overdeep? next rest

end Reader

/-- A text was refused for the nesting of its containers. -/
def ReadError.isNesting (error : ReadError) : Bool :=
  match error.fault with
  | .tooNested _ => true
  | _ => false

/-- The containers of a text are not nested too deep. -/
def checkNesting (text : String) : Except ReadError Unit :=
  let cs := text.toList
  match Reader.start.overdeep? (tokens (some Numeral.longest) cs) with
  | some placed => .error (.locate cs ⟨.tooNested (placed.token = .openArray), placed.place⟩)
  | none => .ok ()

/-- The value that a text denotes whose containers are not nested too deep. -/
def readNested (text : String) : Except ReadError Json := do
  checkNesting text
  read text

end ChatClient.Json
