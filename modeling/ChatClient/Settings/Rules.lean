import ChatClient.Environment
import ChatClient.Json.Basic
import ChatClient.Text.Lowercase

/-!
# Rules for reading settings

How variables are named, which of them count, and which files are read. A program
may ask for other rules along with the settings that it gives: members whose names
begin with a low line. Some of these are followed here. What a program asks for with any
other, such as a directory of secrets or arguments of the command line, is kept by its
name only: with none of them, nothing but the followed rules decides.
-/

namespace ChatClient

/-- The rules for reading settings. -/
structure SettingsRules where
  /-- How the names of all variables begin. -/
  family : String
  /-- What joins the names on the way to a nested setting. -/
  joint : String
  /-- How often a name is cut at the joint, if there is a limit. -/
  cuts : Option Nat
  /-- The case of letters in names counts. -/
  caseCounts : Bool
  /-- Variables without text do not count. -/
  skipsEmpty : Bool
  /-- The text that stands for no value, if there is one. -/
  nullWord : Option String
  /-- The files that are read, in their order. -/
  files : List String
  /-- The names of what else a program asks for. -/
  further : List String
  deriving DecidableEq, Repr

namespace SettingsRules

/-- The name of the environment file. -/
def environmentFile : String := ".env"

/-- The rules where the program asks for no others. -/
def standard : SettingsRules where
  family := "BAICHUAN_"
  joint := "__"
  cuts := none
  caseCounts := false
  skipsEmpty := false
  nullWord := none
  files := [environmentFile]
  further := []

/-! ## Rules that a program asks for -/

/-- The text of a member, or the standard one. -/
def textOr (standard : String) : Option Json → String
  | some (.str s) => s
  | _ => standard

/-- The flag of a member, or the standard one. -/
def flagOr (standard : Bool) : Option Json → Bool
  | some (.bool b) => b
  | _ => standard

/-- The number of cuts for a depth of nesting, which is one less. -/
def cutsFor : Option Json → Option Nat
  | some (.int n) => if 1 ≤ n then some (n.toNat - 1) else none
  | _ => none

/-- The names of files: none, one or several. -/
def filesOr (standard : List String) : Option Json → List String
  | some (.str path) => [path]
  | some (.arr paths) => paths.filterMap fun
      | .str path => some path
      | _ => none
  | some _ => []
  | none => standard

/-- The names of the members that say which rules to follow. -/
def followed : List String :=
  ["_env_prefix", "_env_nested_delimiter", "_env_nested_max_split", "_case_sensitive",
    "_env_ignore_empty", "_env_parse_none_str", "_env_file"]

/-- The member is no setting, and none of the rules that are followed. -/
def isFurther (name : String) : Bool := name.toList.head? = some '_' && name ∉ followed

/-- The rules that the members of a program ask for. -/
def ofMembers (given : Members) : SettingsRules where
  family := textOr standard.family (given.get? "_env_prefix")
  joint := textOr standard.joint (given.get? "_env_nested_delimiter")
  cuts := cutsFor (given.get? "_env_nested_max_split")
  caseCounts := flagOr standard.caseCounts (given.get? "_case_sensitive")
  skipsEmpty := flagOr standard.skipsEmpty (given.get? "_env_ignore_empty")
  nullWord := match given.get? "_env_parse_none_str" with
    | some (.str word) => some word
    | _ => none
  files := filesOr standard.files (given.get? "_env_file")
  further := (given.map Prod.fst).filter isFurther

/-! ## Names and values -/

/-- A name as it is compared. -/
def spell (rules : SettingsRules) (name : String) : String :=
  if rules.caseCounts then name else Text.lowercase name

/-- The name of the variable that gives a setting. -/
def variableName (rules : SettingsRules) (field : String) : String :=
  rules.spell (rules.family ++ field)

/-- The text is the one that stands for no value. -/
def isNull (rules : SettingsRules) (text : String) : Bool := rules.nullWord = some text

/-- The variables that count, by their names as they are compared. Of two that
then have one name, the later one counts. -/
def select (rules : SettingsRules) (source : Variables) : Variables :=
  (source.filter fun (_, value) => !(rules.skipsEmpty && value = some "")).foldl
    (fun found (name, value) => found.set (rules.spell name) value) []

/-- A path leads to the environment file of the working directory. -/
def leadsToFile (path : String) : Bool :=
  !path.startsWith "/" &&
    (path.splitOn "/").filter (fun part => part ≠ "" ∧ part ≠ ".") = [environmentFile]

/-- How often the environment file is read. -/
def readings (rules : SettingsRules) : Nat := rules.files.countP leadsToFile

end SettingsRules

end ChatClient
