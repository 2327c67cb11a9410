import ChatClient.Entries

/-!
# Environments

The variables that a program is started with, and the variables that some other
source offers. The latter may name a variable without giving it a value.
-/

namespace ChatClient

/-- The variables of a process. -/
abbrev Environment := Entries String

/-- The variables of a source. A variable without a value is named only. -/
abbrev Variables := Entries (Option String)

/-- The variables of a process all have values. -/
def Environment.toVariables (environment : Environment) : Variables :=
  environment.map fun (name, value) => (name, some value)

end ChatClient
