import ChatClient.Failure

/-!
# Token accounting

What a completion cost, in the words of the bill: tokens that were read and
tokens that were generated.
-/

namespace ChatClient

/-- The tokens of one completion. -/
structure Accounting where
  promptTokens : Option Int
  generationTokens : Option Int
  totalTokens : Option Int
  deriving DecidableEq, Repr

namespace Accounting

/-- The accounting of a usage. A completion without one cannot be accounted for. -/
def ofUsage : Option Usage → Except Failure Accounting
  | some usage => .ok ⟨usage.promptTokens, usage.completionTokens, usage.totalTokens⟩
  | none => .error .noUsage

/-- The usage that an accounting came from. -/
def usage (accounting : Accounting) : Usage where
  promptTokens := accounting.promptTokens
  completionTokens := accounting.generationTokens
  totalTokens := accounting.totalTokens

/-- An accounting in one line, the one of its usage. -/
def describe (accounting : Accounting) : String := accounting.usage.describe

end Accounting

end ChatClient
