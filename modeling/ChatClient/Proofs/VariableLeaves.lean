import ChatClient.Proofs.ReadBack
import ChatClient.Proofs.SettingLeaves
import ChatClient.Settings.Source

/-!
# Leaves that variables give

A variable that is named after a leaf gives this leaf. Where a source names leaves
of the chat in no other way, the members that it gives hold at the path of every
leaf what the variable of the leaf says, and nothing else is at these paths. The
tree of the chat grows by one variable at a time: its own path gets a value, and
the paths of the other leaves go another way.
-/

namespace ChatClient

/-! ## Variables of leaves -/

namespace Setting

/-- The name of the variable that gives a leaf, in small letters. -/
def variableName (setting : Setting) : String := "baichuan_" ++ "__".intercalate setting.path

/-- The leaf belongs to the chat. -/
def isNested (setting : Setting) : Bool := 1 < setting.path.length

/-- The value that a text stands for: tools are read as JSON where they can be, and
everything else is the text itself. -/
def valueOf (setting : Setting) (text : String) : Json :=
  if setting = tools then (Json.readNested text).toOption.getD (.str text) else .str text

/-- The variable of a leaf in a source, whatever the case of its letters. Of several the last
one counts. -/
def lastNamed? (setting : Setting) (source : Variables) : Option (Option String) :=
  (source.reverse.find? fun entry => Text.lowercase entry.1 = setting.variableName).map Prod.snd

/-- What a source gives for a leaf. A variable that is named without a value gives no value
to a leaf of the chat, and nothing to others. -/
def ofVariables? (setting : Setting) (source : Variables) : Option Json :=
  match setting.lastNamed? source with
  | some (some text) => some (setting.valueOf text)
  | some none => if setting.isNested then some .null else none
  | none => none

end Setting

/-- The leaves of the chat are given by their own names: no variable gives the chat, its
options or a part of a leaf. -/
def NamesLeaves (source : Variables) : Prop :=
  ∀ entry ∈ source, Text.lowercase entry.1 ≠ "baichuan_chat" ∧
    ("baichuan_chat__".toList <+: (Text.lowercase entry.1).toList →
      ∃ setting : Setting, Text.lowercase entry.1 = setting.variableName)

instance (source : Variables) : Decidable (NamesLeaves source) :=
  inferInstanceAs (Decidable (∀ entry ∈ source, _))

/-! ## Selected variables -/

namespace SettingsRules

/-- The last of the variables of one name counts. -/
theorem get?_select (source : Variables) (name : String) :
    (standard.select source).get? name =
      (source.reverse.find? fun entry => Text.lowercase entry.1 = name).map Prod.snd := by
  have hall : (source.filter fun entry =>
      !(standard.skipsEmpty && decide (entry.2 = some ""))) = source :=
    List.filter_eq_self.mpr fun _ _ => rfl
  unfold select
  rw [hall]
  clear hall
  induction source using List.reverseRecOn with
  | nil => rfl
  | append_singleton source entry ih =>
    have hspell : standard.spell entry.1 = Text.lowercase entry.1 := rfl
    rw [List.foldl_append, List.foldl_cons, List.foldl_nil, Entries.get?_set, ih, hspell,
      List.reverse_append, List.reverse_singleton, List.singleton_append, List.find?_cons]
    by_cases hname : Text.lowercase entry.1 = name
    · simp [hname]
    · simp [hname, Ne.symm hname]

/-- Every name is selected once. -/
theorem nodup_select (source : Variables) :
    ((standard.select source).map Prod.fst).Nodup := by
  unfold select
  generalize source.filter _ = kept
  induction kept using List.reverseRecOn with
  | nil => exact List.nodup_nil
  | append_singleton kept entry ih =>
    rw [List.foldl_append]
    exact Entries.nodup_set ih _ _

end SettingsRules

/-! ## Trees of leaves -/

namespace Setting

/-- The value of a leaf that a variable gives which is there. -/
def ofVariable (setting : Setting) : Option String → Json
  | some text => setting.valueOf text
  | none => .null

/-- A variable that is named gives a value to a leaf of the chat in any case. -/
theorem ofVariables?_of_isNested {setting : Setting} (hnested : setting.isNested)
    (source : Variables) :
    setting.ofVariables? source = (setting.lastNamed? source).map setting.ofVariable := by
  unfold ofVariables?
  rcases setting.lastNamed? source with _ | _ | text
  · rfl
  · exact if_pos hnested
  · rfl

/-- The names on the way from the chat to one of its leaves. -/
def chatPath (setting : Setting) : List String := setting.path.tail

/-- A leaf of the chat lies in it. -/
theorem path_of_isNested {setting : Setting} (hnested : setting.isNested) :
    setting.path = "chat" :: setting.chatPath := by
  revert hnested
  cases setting <;> decide

/-- A leaf that does not belong to the chat is a plain setting. -/
theorem path_of_not_isNested {setting : Setting} (hplain : ¬setting.isNested) :
    ∃ name ∈ Settings.plainFields, setting.path = [name] ∧
      SettingsRules.standard.variableName name = setting.variableName := by
  revert hplain
  cases setting <;> decide +kernel

/-- A leaf of the chat is its flag or one of its options. -/
theorem chatPath_cases {setting : Setting} (hnested : setting.isNested) :
    setting.chatPath = ["enabled"] ∨
      ∃ name ∈ Settings.optionFields, setting.chatPath = ["options", name] := by
  revert hnested
  cases setting <;> decide

/-- Different leaves of the chat have paths that go different ways. -/
theorem not_chatPath_prefix {setting other : Setting} (hsetting : setting.isNested)
    (hother : other.isNested) (hne : setting ≠ other) : ¬setting.chatPath <+: other.chatPath := by
  revert hsetting hother hne
  cases setting <;> cases other <;> decide

/-- Different leaves have different variables. -/
theorem variableName_inj {setting other : Setting}
    (hname : setting.variableName = other.variableName) : setting = other := by
  revert hname
  cases setting <;> cases other <;> decide

end Setting

namespace Settings

/-- The variable of a leaf of the chat leads to its path. -/
theorem chatPath?_variableName {setting : Setting} (hnested : setting.isNested) :
    chatPath? .standard setting.variableName = some setting.chatPath := by
  revert hnested
  cases setting <;> decide +kernel

/-- A variable leads to no leaf of the chat where its name does not begin like that of one. -/
theorem chatPath?_of_not_prefix {name : String}
    (hname : ¬"baichuan_chat__".toList <+: name.toList) : chatPath? .standard name = none := by
  have hstem : (SettingsRules.standard.variableName "chat" ++
      SettingsRules.standard.joint).toList = "baichuan_chat__".toList := by decide
  have hfalse : ("baichuan_chat__".toList.isPrefixOf name.toList) = false := by
    rwa [Bool.eq_false_iff, ne_eq, List.isPrefixOf_iff_prefix]
  unfold chatPath?
  simp only [hstem, hfalse, Bool.and_false, Bool.false_eq_true, if_false]

/-- The variables of other leaves do not begin like those of the chat. -/
theorem chatPath?_of_not_isNested {setting : Setting} (hplain : ¬setting.isNested) :
    chatPath? .standard setting.variableName = none := by
  revert hplain
  cases setting <;> decide +kernel

/-- A text stands for the value of its leaf, where tools can be read. -/
theorem leaf_eq_valueOf {setting : Setting} (hnested : setting.isNested) {text : String}
    (hread : setting = .tools → ∃ value, Json.readNested text = .ok value) :
    leaf .standard setting.chatPath text = .ok (setting.valueOf text) := by
  cases setting
  case tools =>
    obtain ⟨value, hvalue⟩ := hread rfl
    have hnames : standsFor .standard "options" "options" = true ∧
        standsFor .standard "tools" "tools" = true := by decide
    simp [leaf, Setting.chatPath, Setting.path, hnames, hvalue, Setting.valueOf, Except.toOption]
  case apiKey | baseUrl | maxRetries | timeout | logLevel => contradiction
  all_goals rfl

/-- The variable of a leaf of the chat grows the tree at the path of the leaf. -/
theorem growTree_variableName {setting : Setting} (hnested : setting.isNested)
    {text : Option String}
    (hread : setting = .tools → ∀ tools ∈ text, ∃ value, Json.readNested tools = .ok value)
    (tree : Json) :
    growTree .standard tree (setting.variableName, text) =
      .ok (tree.graft setting.chatPath (setting.ofVariable text)) := by
  unfold growTree
  simp only [chatPath?_variableName hnested]
  cases text with
  | none => rfl
  | some text =>
    have hleaf := leaf_eq_valueOf hnested fun htools => hread htools text rfl
    simp only [hleaf]
    rfl

/-- Members with names that are fields, each once. -/
def AreFields (fields : List String) (members : Members) : Prop :=
  (members.map Prod.fst).Nodup ∧ ∀ name ∈ members.map Prod.fst, name ∈ fields

/-- Another field can be given a value. -/
theorem AreFields.set {fields : List String} {members : Members}
    (hfields : AreFields fields members) {name : String} (hname : name ∈ fields) (value : Json) :
    AreFields fields (Entries.set members name value) := by
  refine ⟨Entries.nodup_set hfields.1 name value, fun other hother => ?_⟩
  rw [Entries.map_fst_set] at hother
  split at hother
  · exact hfields.2 other hother
  · rcases List.mem_append.mp hother with hold | hnew
    · exact hfields.2 other hold
    · rwa [List.mem_singleton.mp hnew]

/-- Fields under their own names are spelled already. -/
theorem AreFields.spelled_eq {fields : List String} {members : Members}
    (hfields : AreFields fields members) (hsmall : ∀ name ∈ fields, Text.lowercase name = name) :
    spelled fields members = members := by
  obtain ⟨hnodup, hnames⟩ := hfields
  unfold spelled
  induction members using List.reverseRecOn with
  | nil => rfl
  | append_singleton members member ih =>
    obtain ⟨name, value⟩ := member
    rw [List.map_append, List.nodup_append] at hnodup
    have hname : name ∈ fields := hnames name (by simp)
    have hfound : fields.find? (· = Text.lowercase name) = some name := by
      rw [hsmall name hname]
      cases hfind : fields.find? (· = name) with
      | none => simpa using List.find?_eq_none.mp hfind name hname
      | some found =>
        have heq := List.find?_some hfind
        rw [of_decide_eq_true heq]
    have hnew : name ∉ members.map Prod.fst := fun hold => hnodup.2.2 name hold name (by simp) rfl
    rw [List.foldl_append, ih hnodup.1 fun other hother => hnames other (by simp [hother])]
    simp only [List.foldl_cons, List.foldl_nil, hfound, Option.getD_some]
    exact Entries.set_of_not_mem hnew value

/-- The members of a chat in which every leaf has its own name. -/
structure IsChatTree (members : Members) : Prop where
  /-- The members are fields of the chat. -/
  fields : AreFields chatFields members
  /-- The options are an object of chat options. -/
  options : ∀ value, Entries.get? members "options" = some value →
    ∃ options, value = .obj options ∧ AreFields optionFields options

namespace IsChatTree

variable {members : Members}

/-- The paths to the leaves of the chat can be followed. -/
theorem isOpenAlong (htree : IsChatTree members) {setting : Setting}
    (hnested : setting.isNested) : (Json.obj members).IsOpenAlong setting.chatPath := by
  rcases Setting.chatPath_cases hnested with hpath | ⟨name, _, hpath⟩
  · rw [hpath]
    exact ⟨htree.fields.1, fun _ _ => trivial⟩
  · rw [hpath]
    refine ⟨htree.fields.1, fun value hvalue => ?_⟩
    obtain ⟨options, rfl, hoptions⟩ := htree.options value hvalue
    exact ⟨hoptions.1, fun _ _ => trivial⟩

/-- A chat stays one where a leaf is grafted. -/
theorem graft (htree : IsChatTree members) {setting : Setting} (hnested : setting.isNested)
    (value : Json) :
    ∃ members', (Json.obj members).graft setting.chatPath value = .obj members' ∧
      IsChatTree members' := by
  rcases Setting.chatPath_cases hnested with hpath | ⟨name, hname, hpath⟩
  · rw [hpath]
    refine ⟨_, rfl, htree.fields.set (by decide) _, fun found hfound => ?_⟩
    rw [Entries.get?_set, if_neg (by decide)] at hfound
    exact htree.options found hfound
  · rw [hpath]
    refine ⟨_, rfl, htree.fields.set (by decide) _, fun found hfound => ?_⟩
    rw [Entries.get?_set, if_pos rfl, Option.some.injEq] at hfound
    obtain ⟨options, hoptions, hfields⟩ : ∃ options,
        (Entries.get? members "options").getD (.obj []) = .obj options ∧
          AreFields optionFields options := by
      cases hmember : Entries.get? members "options" with
      | none => exact ⟨[], rfl, List.nodup_nil, by simp⟩
      | some old => exact htree.options old hmember
    rw [hoptions] at hfound
    exact ⟨_, hfound.symm, hfields.set hname _⟩

/-- A chat under the names of its leaves is spelled already. -/
theorem spelledChat_eq (htree : IsChatTree members) :
    spelledChat .standard (.obj members) = .obj members := by
  have hoptions : ∀ member ∈ members, spelledOptions member = member := by
    rintro ⟨name, value⟩ hmember
    unfold spelledOptions
    split
    · next inner heq =>
      obtain ⟨rfl, rfl⟩ := Prod.mk.inj heq
      split
      · next hname =>
        have hget := Entries.get?_of_mem htree.fields.1 hmember
        rw [hname] at hget
        obtain ⟨options, hobj, hfields⟩ := htree.options _ hget
        obtain rfl : inner = options := by simpa using hobj
        rw [hfields.spelled_eq (by decide)]
      · rfl
    · rfl
  have hspelled := htree.fields.spelled_eq (by decide)
  have hmap : members.map spelledOptions = members := by
    conv_rhs => rw [← List.map_id members]
    exact List.map_congr_left hoptions
  unfold spelledChat
  simp only [hspelled, hmap]
  rfl

end IsChatTree

/-- Variables that give leaves of the chat by the names of these, and tools that can be read. -/
structure GivesLeaves (source : Variables) : Prop where
  /-- Every name is there once. -/
  nodup : (source.map Prod.fst).Nodup
  /-- What begins like a leaf of the chat is the variable of a leaf. -/
  names : ∀ entry ∈ source, "baichuan_chat__".toList <+: entry.1.toList →
    ∃ setting : Setting, entry.1 = setting.variableName
  /-- Tools can be read. -/
  tools : ∀ text, (Setting.tools.variableName, some text) ∈ source →
    ∃ value, Json.readNested text = .ok value

/-- The members of a chat that show the leaves that variables give, and no others. -/
structure ShowsLeaves (source : Variables) (members : Members) : Prop where
  /-- The members make a chat. -/
  tree : IsChatTree members
  /-- At the path of a leaf is what its variable says. -/
  leaves : ∀ setting : Setting, setting.isNested →
    (Json.obj members).at? setting.chatPath =
      (source.get? setting.variableName).map setting.ofVariable

/-- Without variables there are no leaves. -/
theorem showsLeaves_nil : ShowsLeaves [] [] := by
  refine ⟨⟨⟨List.nodup_nil, by simp⟩, by simp⟩, fun setting hnested => ?_⟩
  rcases Setting.chatPath_cases hnested with hpath | ⟨_, _, hpath⟩ <;> rw [hpath] <;> rfl

namespace GivesLeaves

variable {source : Variables} {name : String} {text : Option String}

/-- The first of the variables give leaves where all do. -/
theorem of_concat (hgives : GivesLeaves (source ++ [(name, text)])) : GivesLeaves source where
  nodup := by
    have hnodup := hgives.nodup
    rw [List.map_append, List.nodup_append] at hnodup
    exact hnodup.1
  names entry hentry := hgives.names entry (List.mem_append_left _ hentry)
  tools text htext := hgives.tools text (List.mem_append_left _ htext)

/-- The last of the variables has a name of its own. -/
theorem get?_concat (hgives : GivesLeaves (source ++ [(name, text)])) (other : String) :
    Entries.get? (source ++ [(name, text)]) other =
      if other = name then some text else Entries.get? source other := by
  have hnodup := hgives.nodup
  rw [List.map_append, List.nodup_append] at hnodup
  have hnew : name ∉ source.map Prod.fst := fun hold => hnodup.2.2 name hold name (by simp) rfl
  rw [← Entries.set_of_not_mem hnew, Entries.get?_set]

/-- A variable that is not that of a leaf of the chat leads nowhere in it. -/
theorem chatPath?_last (hgives : GivesLeaves (source ++ [(name, text)]))
    (hother : ∀ setting : Setting, setting.isNested → setting.variableName ≠ name) :
    chatPath? .standard name = none := by
  by_cases hprefix : "baichuan_chat__".toList <+: name.toList
  · obtain ⟨setting, hname⟩ := hgives.names (name, text) (by simp) hprefix
    have hplain : ¬setting.isNested := fun hnested => hother setting hnested hname.symm
    rw [show name = setting.variableName from hname]
    exact chatPath?_of_not_isNested hplain
  · exact chatPath?_of_not_prefix hprefix

/-- One more variable adds its leaf, and the other leaves stay. -/
theorem growTree_last (hgives : GivesLeaves (source ++ [(name, text)])) {members : Members}
    (hshows : ShowsLeaves source members) :
    ∃ members', growTree .standard (.obj members) (name, text) = .ok (.obj members') ∧
      ShowsLeaves (source ++ [(name, text)]) members' := by
  obtain ⟨htree, hleaves⟩ := hshows
  -- the variable is that of a leaf of the chat, or the tree does not grow
  by_cases hleaf : ∃ setting : Setting, setting.isNested ∧ name = setting.variableName
  · obtain ⟨setting, hnested, rfl⟩ := hleaf
    have hread : setting = .tools →
        ∀ tools ∈ text, ∃ value, Json.readNested tools = .ok value := by
      rintro rfl tools rfl
      exact hgives.tools tools (by simp)
    have hgrow := growTree_variableName hnested hread (.obj members)
    obtain ⟨members', hgraft, htree'⟩ := htree.graft hnested (setting.ofVariable text)
    refine ⟨members', by rw [hgrow, hgraft], htree', fun other hother => ?_⟩
    rw [← hgraft, hgives.get?_concat]
    by_cases hsame : other = setting
    · rw [if_pos (congrArg Setting.variableName hsame), hsame,
        Json.at?_graft_self (htree.isOpenAlong hnested), Option.map_some]
    · rw [if_neg fun hname => hsame (Setting.variableName_inj hname),
        Json.at?_graft_of_apart _ (Setting.not_chatPath_prefix hnested hother (Ne.symm hsame))
          (Setting.not_chatPath_prefix hother hnested hsame), hleaves other hother]
  · have hother : ∀ setting : Setting, setting.isNested → setting.variableName ≠ name :=
      fun setting hnested hname => hleaf ⟨setting, hnested, hname.symm⟩
    refine ⟨members, ?_, htree, fun setting hnested => ?_⟩
    · simp only [growTree, hgives.chatPath?_last hother]
    · rw [hgives.get?_concat, if_neg (hother setting hnested), hleaves setting hnested]

/-- Variables that give leaves make a chat that shows them. -/
theorem exists_chatTree (hgives : GivesLeaves source) :
    ∃ members, chatTree .standard source = .ok (.obj members) ∧ ShowsLeaves source members := by
  unfold chatTree
  induction source using List.reverseRecOn with
  | nil => exact ⟨[], rfl, showsLeaves_nil⟩
  | append_singleton source entry ih =>
    obtain ⟨members, hrun, hshows⟩ := ih hgives.of_concat
    obtain ⟨members', hgrow, hshows'⟩ := hgives.growTree_last hshows
    refine ⟨members', ?_, hshows'⟩
    rw [List.foldlM_append, hrun]
    exact (bind_pure (growTree .standard (.obj members) entry)).trans hgrow

end GivesLeaves

/-- What is selected from variables that name leaves of the chat gives these leaves. -/
theorem givesLeaves_select {source : Variables} (hnames : NamesLeaves source)
    (htools : ∀ text, Setting.tools.lastNamed? source = some (some text) →
      ∃ value, Json.readNested text = .ok value) :
    GivesLeaves (SettingsRules.standard.select source) := by
  have hnodup := SettingsRules.nodup_select source
  refine ⟨hnodup, fun entry hentry hprefix => ?_, fun text htext => ?_⟩
  · have hfound := Entries.get?_of_mem hnodup hentry
    rw [SettingsRules.get?_select] at hfound
    obtain ⟨found, hfind, _⟩ := Option.map_eq_some_iff.mp hfound
    have hname : Text.lowercase found.1 = entry.1 := by simpa using List.find?_some hfind
    have hmem : found ∈ source := List.mem_reverse.mp (List.mem_of_find?_eq_some hfind)
    rw [← hname] at hprefix ⊢
    exact (hnames found hmem).2 hprefix
  · have hfound := Entries.get?_of_mem hnodup htext
    rw [SettingsRules.get?_select] at hfound
    exact htools text hfound

/-- The chat of variables that name its leaves. -/
theorem exists_chat {source : Variables} (hnames : NamesLeaves source)
    (htools : ∀ text, Setting.tools.lastNamed? source = some (some text) →
      ∃ value, Json.readNested text = .ok value) :
    ∃ chat, chat? .standard (SettingsRules.standard.select source) = .ok chat ∧
      (∀ setting : Setting, setting.isNested → ∀ value ∈ chat,
        value.IsOpenAlong setting.chatPath) ∧
      ∀ setting : Setting, setting.isNested →
        chat.bind (·.at? setting.chatPath) =
          (setting.lastNamed? source).map setting.ofVariable := by
  have hwhole : (SettingsRules.standard.select source).get?
      (SettingsRules.standard.variableName "chat") = none := by
    have hname : SettingsRules.standard.variableName "chat" = "baichuan_chat" := by decide
    rw [hname, SettingsRules.get?_select, Option.map_eq_none_iff, List.find?_eq_none]
    intro entry hentry
    simpa using (hnames entry (List.mem_reverse.mp hentry)).1
  obtain ⟨members, hrun, htree, hleaves⟩ := (givesLeaves_select hnames htools).exists_chatTree
  have hfound : ∀ setting : Setting, setting.isNested →
      (Json.obj members).at? setting.chatPath =
        (setting.lastNamed? source).map setting.ofVariable := by
    intro setting hnested
    rw [hleaves setting hnested, SettingsRules.get?_select]
    rfl
  unfold chat?
  rw [hwhole, hrun]
  cases members with
  | nil =>
    -- a chat without leaves is not given at all
    refine ⟨none, rfl, by simp, fun setting hnested => ?_⟩
    rw [← hfound setting hnested]
    rcases Setting.chatPath_cases hnested with hpath | ⟨_, _, hpath⟩ <;> rw [hpath] <;> rfl
  | cons member members =>
    refine ⟨some (.obj (member :: members)), ?_, ?_, ?_⟩
    · exact congrArg (fun value => Except.ok (some value)) htree.spelledChat_eq
    · rintro setting hnested value hvalue
      obtain rfl := Option.some.inj hvalue
      exact htree.isOpenAlong hnested
    · exact hfound

/-- The member of a plain setting has its name. -/
theorem fst_of_mem_plainMember? {rules : SettingsRules} {source : Variables} (name : String) :
    ∀ entry ∈ plainMember? rules source name, entry.1 = name := by
  intro entry hentry
  unfold plainMember? at hentry
  split at hentry
  · rw [← Option.some.inj hentry]
  · contradiction

/-- The member of a plain setting holds what the variable of its leaf says. -/
theorem map_snd_plainMember? {setting : Setting} (hplain : ¬setting.isNested) {name : String}
    (hvariable : SettingsRules.standard.variableName name = setting.variableName)
    (source : Variables) :
    (plainMember? .standard (SettingsRules.standard.select source) name).map Prod.snd =
      setting.ofVariables? source := by
  unfold plainMember? Setting.ofVariables?
  rw [hvariable, SettingsRules.get?_select, ← Setting.lastNamed?]
  rcases setting.lastNamed? source with _ | _ | text
  · rfl
  · exact (if_neg hplain).symm
  · have htools : setting ≠ .tools := by
      rintro rfl
      exact hplain rfl
    simp [Setting.valueOf, htools, textValue, SettingsRules.isNull, SettingsRules.standard]

/-- The members of the plain settings and of the chat. -/
def withChat (rules : SettingsRules) (source : Variables) (chat : Option Json) : Members :=
  plainFields.filterMap (plainMember? rules source) ++ chat.toList.map fun value => ("chat", value)

section WithChat

variable (rules : SettingsRules) (source : Variables) (chat : Option Json)

/-- Every setting has one member. -/
theorem nodup_withChat : ((withChat rules source chat).map Prod.fst).Nodup := by
  have hplain : ((plainFields.filterMap (plainMember? rules source)).map Prod.fst).Sublist
      plainFields :=
    Entries.map_fst_filterMap_sublist fst_of_mem_plainMember? plainFields
  have hchat : ((chat.toList.map fun value => ("chat", value)).map Prod.fst).Sublist ["chat"] := by
    cases chat <;> simp
  have hall : (plainFields ++ ["chat"]).Nodup := by decide
  rw [withChat, List.map_append]
  exact List.Nodup.sublist (hplain.append hchat) hall

/-- The member of a setting is the plain one, or that of the chat. -/
theorem get?_withChat (name : String) :
    Entries.get? (withChat rules source chat) name =
      if name ∈ plainFields then (plainMember? rules source name).map Prod.snd
      else if name = "chat" then chat else none := by
  have happend : Entries.get? (withChat rules source chat) name =
      (Entries.get? (plainFields.filterMap (plainMember? rules source)) name).or
        (Entries.get? (chat.toList.map fun value => ("chat", value)) name) :=
    List.lookup_append
  have hchat : Entries.get? (chat.toList.map fun value => ("chat", value)) name =
      if name = "chat" then chat else none := by
    cases chat with
    | none => simp
    | some value => exact Entries.get?_cons "chat" name value []
  rw [happend, hchat, Entries.get?_filterMap fst_of_mem_plainMember?]
  by_cases hname : name ∈ plainFields
  · have hne : name ≠ "chat" := by
      rintro rfl
      exact absurd hname (by decide)
    rw [if_pos hname, if_pos hname, if_neg hne, Option.or_none]
  · rw [if_neg hname, if_neg hname, Option.none_or]

end WithChat

/-- A source that names the leaves of the chat gives members in which every leaf has what its
variable says. -/
theorem exists_members {source : Variables} (hnames : NamesLeaves source)
    (htools : ∀ text, Setting.tools.lastNamed? source = some (some text) →
      ∃ value, Json.readNested text = .ok value) (origin : SettingsOrigin) :
    ∃ found, Settings.members .standard origin source = .ok found ∧
      ∀ setting : Setting, (Json.obj found).IsOpenAlong setting.path ∧
        (Json.obj found).at? setting.path = setting.ofVariables? source := by
  obtain ⟨chat, hchat, hopen, hleaves⟩ := exists_chat hnames htools
  have hnodup := nodup_withChat .standard (SettingsRules.standard.select source) chat
  have hget := get?_withChat .standard (SettingsRules.standard.select source) chat
  refine ⟨withChat .standard (SettingsRules.standard.select source) chat, ?_, fun setting => ?_⟩
  · unfold Settings.members
    simp only [hchat]
    rfl
  · by_cases hnested : setting.isNested
    · have hmember := hget "chat"
      rw [if_neg (by decide), if_pos rfl] at hmember
      rw [Setting.path_of_isNested hnested, setting.ofVariables?_of_isNested hnested,
        ← hleaves setting hnested, Json.at?, hmember]
      refine ⟨⟨hnodup, fun value hvalue => ?_⟩, rfl⟩
      rw [hmember] at hvalue
      exact hopen setting hnested value hvalue
    · obtain ⟨name, hname, hpath, hvariable⟩ := setting.path_of_not_isNested hnested
      rw [hpath, Json.at?_singleton, hget, if_pos hname, map_snd_plainMember? hnested hvariable]
      exact ⟨⟨hnodup, fun _ _ => trivial⟩, rfl⟩

end Settings

end ChatClient
