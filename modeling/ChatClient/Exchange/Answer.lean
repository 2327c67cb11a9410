import ChatClient.Exchange.Journal
import ChatClient.Record.Depth

/-!
# Exchanges in one piece

A request that is not streamed makes one call and gets one answer, which is
decoded as a completion.
-/

namespace ChatClient

/-- What an exchange gave, and what it left behind. -/
structure Exchange where
  journal : Journal
  outcome : Except Failure Completion

namespace Request

/-- The exchange of a request, where the service refuses the call with a message
or replies with a JSON value. -/
def complete (request : Request) (reply : Except String Json) : Exchange :=
  if request.stream = some true then ⟨.empty, .error .mustNotStream⟩
  else if !request.isSendable then ⟨.empty, .error .tooDeep⟩
  else
    let called := Journal.call request.callArguments ++
      Journal.noted [.completionRequested request.model]
    match reply with
    | .error message => ⟨called, .error (.service message)⟩
    | .ok value =>
      let decoded := Completion.decode value
      ⟨called ++ Journal.noted decoded.notices, decoded.check .completion⟩

end Request

end ChatClient
