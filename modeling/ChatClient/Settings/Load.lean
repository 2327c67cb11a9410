import ChatClient.Environment.File
import ChatClient.Settings.Basic
import ChatClient.Settings.Source

/-!
# Loading settings

Settings are gathered from what the program gives itself, from its environment
and from a file, and everything else takes its default. A stronger source lies
over a weaker one leaf by leaf, so a source that gives one option of the chat
leaves the others to the rest.
-/

namespace ChatClient

/-- Where settings come from besides the program. -/
structure SettingsSources where
  environment : Environment
  /-- The text of the environment file, if there is one. -/
  file : Option String
  deriving DecidableEq, Repr

/-- What loading gave, and the notices given on the way. -/
structure Loading where
  notices : List Notice
  outcome : Except Failure Settings
  deriving Repr

namespace SettingsSources

/-- The texts of the files that are read. -/
def texts (sources : SettingsSources) (rules : SettingsRules) : List String :=
  sources.file.toList.flatMap fun text => List.replicate rules.readings text

/-- The variables of the files that are read. -/
def fileVariables (sources : SettingsSources) (rules : SettingsRules) : Variables :=
  match sources.texts rules with
  | text :: _ => EnvironmentFile.toVariables sources.environment text
  | [] => []

/-- The members of all sources, the stronger over the weaker ones. -/
def gather (sources : SettingsSources) (given : Members) : Except Failure Members := do
  let rules := SettingsRules.ofMembers given
  let stronger ← Settings.members rules .environment sources.environment.toVariables
  let weaker ← Settings.members rules .file (sources.fileVariables rules)
  return weaker.overlay (stronger.overlay (Settings.givenMembers rules given))

/-- The settings of these sources, under those that the program gives. -/
def load (sources : SettingsSources) (given : Members) : Loading where
  notices := (sources.texts (.ofMembers given)).flatMap EnvironmentFile.skippedLines
  outcome := sources.gather given >>= fun members => (Settings.decode members).check .settings

end SettingsSources

end ChatClient
