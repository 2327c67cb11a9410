import ChatClient.Failure
import ChatClient.Json.Nesting
import ChatClient.Json.Overlay
import ChatClient.Settings.Rules

/-!
# Sources of settings

A source is a list of variables. A variable whose name is the beginning of all
names and the name of a setting gives that setting; unless the rules say
otherwise, it begins with `BAICHUAN_`, and the case of its letters does not count.
What belongs to the chat can be given as JSON in one variable, or leaf by leaf:
then the names on the way to the leaf are joined, by two low lines unless the
rules say otherwise.

A source yields members that are still to be decoded. Texts stay texts, but for
the parts that have a structure of their own.
-/

namespace ChatClient.Settings

/-- The settings that are plain values. -/
def plainFields : List String := ["api_key", "base_url", "max_retries", "timeout", "log_level"]

/-- The settings of the chat. -/
def chatFields : List String := ["enabled", "options"]

/-- The settings of the chat options. -/
def optionFields : List String :=
  ["model", "temperature", "top_p", "top_k", "max_tokens", "tools", "tool_choice"]

/-- The value of a variable, which may stand for no value. -/
def textValue (rules : SettingsRules) (text : String) : Json :=
  if rules.isNull text then .null else .str text

/-- The member of a plain setting. -/
def plainMember? (rules : SettingsRules) (source : Variables) (field : String) :
    Option (String × Json) :=
  match source.get? (rules.variableName field) with
  | some (some text) => some (field, textValue rules text)
  | _ => none

/-! ## Leaves of the chat -/

/-- The parts of a text between occurrences of a mark, of which so many count as
there may be cuts. The characters of the mark that come next are skipped. -/
def partsAt (mark : List Char) : (skipped : Nat) → (cuts : Option Nat) → List Char →
    List (List Char)
  | _, _, [] => [[]]
  | skipped + 1, cuts, _ :: cs => partsAt mark skipped cuts cs
  | 0, cuts, c :: cs =>
    if cuts ≠ some 0 ∧ mark.isPrefixOf (c :: cs) then
      [] :: partsAt mark (mark.length - 1) (cuts.map (· - 1)) cs
    else
      match partsAt mark 0 cuts cs with
      | [] => [[c]]
      | part :: parts => (c :: part) :: parts

/-- The path to the leaf of the chat that a variable gives. -/
def chatPath? (rules : SettingsRules) (name : String) : Option (List String) :=
  let stem := (rules.variableName "chat" ++ rules.joint).toList
  let cs := name.toList
  if !rules.joint.isEmpty && stem.isPrefixOf cs then
    some ((partsAt rules.joint.toList 0 rules.cuts (cs.drop stem.length)).map String.ofList)
  else none

/-- A name on a path stands for a field, also with the beginning of all variables. -/
def standsFor (rules : SettingsRules) (field name : String) : Bool :=
  let name := rules.spell name
  name = field || name = rules.variableName field

/-- The value of a leaf. The chat options must be JSON, tools are read as JSON if
they can be; all others are texts. What is nested too deep is refused even so. -/
def leaf (rules : SettingsRules) (path : List String) (text : String) :
    Except Json.ReadError Json :=
  match path with
  | [options] =>
    if standsFor rules "options" options && !text.isEmpty then Json.readNested text
    else .ok (textValue rules text)
  | [options, tools] =>
    if standsFor rules "options" options && standsFor rules "tools" tools then
      match Json.readNested text with
      | .ok value => .ok value
      | .error error =>
        if error.isNesting then .error error else .ok (textValue rules text)
    else .ok (textValue rules text)
  | _ => .ok (textValue rules text)

/-- The tree of leaves with the leaf of one more variable. -/
def growTree (rules : SettingsRules) (tree : Json) :
    String × Option String → Except Json.ReadError Json
  | (name, text) =>
    match chatPath? rules name, text with
    | none, _ => .ok tree
    | some path, none => .ok (tree.graft path .null)
    | some path, some text => do return tree.graft path (← leaf rules path text)

/-- All leaves of the chat. -/
def chatTree (rules : SettingsRules) (source : Variables) : Except Json.ReadError Json :=
  source.foldlM (growTree rules) (.obj [])

/-! ## The whole chat -/

/-- Members whose names are brought to the spelling of the fields that they mean. -/
def spelled (fields : List String) (members : Members) : Members :=
  members.foldl (fun found (name, value) =>
    found.set ((fields.find? (· = Text.lowercase name)).getD name) value) []

/-- The chat options under the names of their fields. -/
def spelledOptions : String × Json → String × Json
  | (name, .obj members) =>
    (name, .obj (if name = "options" then spelled optionFields members else members))
  | member => member

/-- The chat under the names of its fields, where the case of letters does not
count. -/
def spelledChat (rules : SettingsRules) : Json → Json
  | .obj members =>
    .obj (if rules.caseCounts then members
      else (spelled chatFields members).map spelledOptions)
  | value => value

/-- The chat that variables give. A leaf of its own counts more than the same
leaf in the JSON of the whole chat. -/
def chat? (rules : SettingsRules) (source : Variables) :
    Except Json.ReadError (Option Json) :=
  match source.get? (rules.variableName "chat") with
  | some (some text) =>
    if rules.isNull text then .ok (some .null)
    else do
      match ← Json.readNested text with
      | .obj members =>
        return some (spelledChat rules ((Json.obj members).overlay (← chatTree rules source)))
      | value => return value.toOption
  | _ => do
    match ← chatTree rules source with
    | .obj [] => return none
    | tree => return some (spelledChat rules tree)

/-- The members that a source gives. -/
def members (rules : SettingsRules) (origin : SettingsOrigin) (source : Variables) :
    Except Failure Members :=
  let source := rules.select source
  match chat? rules source with
  | .ok chat =>
    .ok (plainFields.filterMap (plainMember? rules source) ++
      chat.toList.map fun value => ("chat", value))
  | .error error =>
    .error (if error.isNesting then .unreadable error else .unreadableSetting "chat" origin)

/-! ## Settings that the program gives -/

/-- The members of a program under the names of the settings. Of several that mean
one setting, the first counts. -/
def givenMembers (rules : SettingsRules) (given : Members) : Members :=
  (plainFields ++ ["chat"]).filterMap fun field =>
    (given.find? fun member => rules.spell member.1 = field).map fun member =>
      (field, member.2)

end ChatClient.Settings
