import ChatClient.Proofs.VariableLeaves
import ChatClient.Settings.Load

/-!
# Which source gives a leaf

Settings come from the program, the environment and the environment file, in this
order, and what none of them gives has a default. Where the sources give leaves,
this holds for each leaf by itself: it is decoded from the strongest source that
gives it. So a leaf does not change with another one, nor with a weaker source
than its own. The leaves of the file are those after its references were
resolved, which may lead to variables of the environment.
-/

namespace ChatClient

/-- Where a leaf can come from, the strongest origin first. -/
inductive LeafOrigin where
  | program
  | environment
  | file
  deriving DecidableEq, Repr

instance (p : LeafOrigin → Prop) [DecidablePred p] : Decidable (∀ origin, p origin) :=
  decidable_of_iff (p .program ∧ p .environment ∧ p .file)
    ⟨fun ⟨h, h', h''⟩ origin => by cases origin <;> assumption, fun h => ⟨h _, h _, h _⟩⟩

/-- How many origins are stronger. -/
def LeafOrigin.rank : LeafOrigin → Nat
  | program => 0
  | environment => 1
  | file => 2

namespace SettingsSources

/-- The variables that the environment file sets, with its references resolved. -/
def written (sources : SettingsSources) : Variables :=
  sources.file.elim [] (EnvironmentFile.toVariables sources.environment)

end SettingsSources

namespace Setting

/-- What the program gives for a leaf. The case of letters counts only inside of the chat, and
of several members for one setting the first counts. -/
def ofProgram? (setting : Setting) (given : Members) : Option Json :=
  match setting.path with
  | name :: path =>
    (given.find? fun member => Text.lowercase member.1 = name).bind (·.2.at? path)
  | [] => none

/-- What an origin gives for a leaf. -/
def offered? (setting : Setting) (sources : SettingsSources) (given : Members) :
    LeafOrigin → Option Json
  | .program => setting.ofProgram? given
  | .environment => setting.ofVariables? sources.environment.toVariables
  | .file => setting.ofVariables? sources.written

/-- What the strongest of the origins that give a leaf gives for it. -/
def strongest? (setting : Setting) (sources : SettingsSources) (given : Members) : Option Json :=
  (setting.offered? sources given .program).or
    ((setting.offered? sources given .environment).or (setting.offered? sources given .file))

end Setting

/-- Sources that give leaves of settings, with values that can be decoded. -/
structure LeafSources (sources : SettingsSources) (given : Members) : Prop where
  /-- The chat of the program and its options are objects, with every name once. -/
  program : ∀ member ∈ given.find? fun member => Text.lowercase member.1 = "chat",
    ∀ setting : Setting, setting.isNested → member.2.IsOpenAlong setting.chatPath
  /-- The environment gives the leaves of the chat by their own names. -/
  environment : NamesLeaves sources.environment.toVariables
  /-- The file gives the leaves of the chat by their own names. -/
  file : NamesLeaves sources.written
  /-- Whatever is given for a leaf can be decoded. -/
  decodes : ∀ (setting : Setting) (origin : LeafOrigin),
    ∀ value ∈ setting.offered? sources given origin,
      ∃ decoded, (setting.decode (some value)).outcome = .ok decoded

instance (sources : SettingsSources) (given : Members) : Decidable (LeafSources sources given) :=
  decidable_of_iff (_ ∧ _ ∧ _ ∧ _)
    ⟨fun ⟨hprogram, henvironment, hfile, hdecodes⟩ => ⟨hprogram, henvironment, hfile, hdecodes⟩,
      fun h => ⟨h.program, h.environment, h.file, h.decodes⟩⟩

/-! ## What sources give -/

namespace Setting

/-- A leaf has a default. -/
theorem exists_decode_none (setting : Setting) :
    ∃ decoded, (setting.decode none).outcome = .ok decoded := by
  cases setting <;> exact ⟨_, rfl⟩

/-- No leaf is decoded from an object that variables give. -/
theorem ofVariables?_ne_obj {setting : Setting} {source : Variables}
    (hdecodes : ∀ value ∈ setting.ofVariables? source,
      ∃ decoded, (setting.decode (some value)).outcome = .ok decoded)
    (members : Members) : setting.ofVariables? source ≠ some (.obj members) := by
  intro hobj
  have hdecoded := hdecodes _ hobj
  unfold ofVariables? at hobj
  split at hobj
  · next text _ =>
    by_cases htools : setting = .tools
    · subst htools
      obtain ⟨_, hdecoded⟩ := hdecoded
      cases hdecoded
    · rw [valueOf, if_neg htools] at hobj
      cases hobj
  · split at hobj <;> cases hobj
  · cases hobj

/-- Tools that can be decoded can be read. -/
theorem exists_readNested {source : Variables}
    (hdecodes : ∀ value ∈ tools.ofVariables? source,
      ∃ decoded, (tools.decode (some value)).outcome = .ok decoded)
    {text : String} (htext : tools.lastNamed? source = some (some text)) :
    ∃ value, Json.readNested text = .ok value := by
  cases hread : Json.readNested text with
  | ok value => exact ⟨value, rfl⟩
  | error error =>
    have hoffered : tools.ofVariables? source = some (.str text) := by
      unfold ofVariables?
      simp only [htext, valueOf, hread]
      rfl
    obtain ⟨_, hdecoded⟩ := hdecodes _ hoffered
    cases hdecoded

end Setting

namespace SettingsSources

/-- The environment file is read once. -/
theorem readings_standard : SettingsRules.standard.readings = 1 := by
  have hparts : ".env".splitOn "/" = [".env"] := by
    -- a text is cut by well-founded recursion, which is opened character by character
    unfold String.splitOn
    rw [if_neg (by decide)]
    iterate 4 rw [String.splitOnAux, if_neg (by decide +kernel), if_neg (by decide +kernel)]
    rw [String.splitOnAux, if_pos (by decide +kernel)]
    decide +kernel
  have hleads : SettingsRules.leadsToFile SettingsRules.environmentFile = true := by
    rw [SettingsRules.leadsToFile, SettingsRules.environmentFile, hparts]
    decide +kernel
  change List.countP _ [SettingsRules.environmentFile] = 1
  rw [List.countP_cons_of_pos hleads, List.countP_nil]

/-- The variables of the files that are read are those of the environment file. -/
theorem fileVariables_standard (sources : SettingsSources) :
    sources.fileVariables .standard = sources.written := by
  unfold fileVariables texts written
  rw [readings_standard]
  cases sources.file <;> rfl

/-- The members of a program are those of the settings that it gives. -/
theorem get?_givenMembers (given : Members) {name : String}
    (hname : name ∈ Settings.plainFields ++ ["chat"]) :
    Entries.get? (Settings.givenMembers .standard given) name =
      (given.find? fun member => Text.lowercase member.1 = name).map Prod.snd := by
  unfold Settings.givenMembers
  rw [Entries.get?_filterMap _ _ name, if_pos hname, Option.map_map]
  · rfl
  · intro field entry hentry
    obtain ⟨member, _, rfl⟩ := Option.map_eq_some_iff.mp hentry
    rfl

/-- Every setting is given once. -/
theorem nodup_givenMembers (given : Members) :
    ((Settings.givenMembers .standard given).map Prod.fst).Nodup := by
  have hall : (Settings.plainFields ++ ["chat"]).Nodup := by decide
  refine List.Nodup.sublist (Entries.map_fst_filterMap_sublist ?_ _) hall
  intro field entry hentry
  obtain ⟨member, _, rfl⟩ := Option.map_eq_some_iff.mp hentry
  rfl

variable {sources : SettingsSources} {given : Members}

/-- The members of a program hold at the paths of the leaves what it gives for these. -/
theorem program_members (hleaves : LeafSources sources given) (setting : Setting) :
    (Json.obj (Settings.givenMembers .standard given)).IsOpenAlong setting.path ∧
      (Json.obj (Settings.givenMembers .standard given)).at? setting.path =
        setting.offered? sources given .program := by
  unfold Setting.offered? Setting.ofProgram?
  by_cases hnested : setting.isNested
  · have hget := get?_givenMembers given
      (show "chat" ∈ Settings.plainFields ++ ["chat"] by decide)
    rw [Setting.path_of_isNested hnested, Json.at?, hget, Option.bind_map]
    refine ⟨⟨nodup_givenMembers given, fun value hvalue => ?_⟩, rfl⟩
    rw [hget] at hvalue
    obtain ⟨member, hmember, rfl⟩ := Option.map_eq_some_iff.mp hvalue
    exact hleaves.program member hmember setting hnested
  · obtain ⟨name, hname, hpath, _⟩ := setting.path_of_not_isNested hnested
    have hget := get?_givenMembers given (List.mem_append_left ["chat"] hname)
    rw [hpath, Json.at?, hget, Option.bind_map]
    exact ⟨⟨nodup_givenMembers given, fun _ _ => trivial⟩, rfl⟩

/-- The members that the environment gives, with the leaves that it gives. -/
theorem environment_members (hleaves : LeafSources sources given) :
    ∃ found, Settings.members .standard .environment sources.environment.toVariables =
        .ok found ∧
      ∀ setting : Setting, (Json.obj found).IsOpenAlong setting.path ∧
        (Json.obj found).at? setting.path = setting.offered? sources given .environment :=
  Settings.exists_members hleaves.environment
    (fun _ => Setting.exists_readNested (hleaves.decodes .tools .environment)) .environment

/-- The members that the environment file gives, with the leaves that it gives. -/
theorem file_members (hleaves : LeafSources sources given) :
    ∃ found, Settings.members .standard .file (sources.fileVariables .standard) = .ok found ∧
      ∀ setting : Setting, (Json.obj found).IsOpenAlong setting.path ∧
        (Json.obj found).at? setting.path = setting.offered? sources given .file := by
  rw [fileVariables_standard]
  exact Settings.exists_members hleaves.file
    (fun _ => Setting.exists_readNested (hleaves.decodes .tools .file)) .file

/-! ## What settings come of it -/

/-- What the strongest origin gives for a leaf can be decoded, and so can its default. -/
theorem exists_decode_strongest (hleaves : LeafSources sources given) (setting : Setting) :
    ∃ decoded, (setting.decode (setting.strongest? sources given)).outcome = .ok decoded := by
  cases hstrongest : setting.strongest? sources given with
  | none => exact setting.exists_decode_none
  | some value =>
    simp only [Setting.strongest?, Option.or_eq_some_iff] at hstrongest
    rcases hstrongest with hprogram | ⟨_, henvironment | ⟨_, hfile⟩⟩
    · exact hleaves.decodes setting .program value hprogram
    · exact hleaves.decodes setting .environment value henvironment
    · exact hleaves.decodes setting .file value hfile

/-- What is gathered from the sources holds at the path of every leaf what the strongest
origin gives. -/
theorem exists_gather (hrules : SettingsRules.ofMembers given = .standard)
    (hleaves : LeafSources sources given) :
    ∃ found, sources.gather given = .ok found ∧
      ∀ setting : Setting, (Json.obj found).IsOpenAlong setting.path ∧
        (Json.obj found).at? setting.path = setting.strongest? sources given := by
  obtain ⟨stronger, hstronger, hstrongerLeaves⟩ := environment_members hleaves
  obtain ⟨weaker, hweaker, hweakerLeaves⟩ := file_members hleaves
  refine ⟨weaker.overlay (stronger.overlay (Settings.givenMembers .standard given)), ?_, ?_⟩
  · unfold gather
    simp only [hrules, hstronger, hweaker]
    rfl
  · intro setting
    obtain ⟨hprogramOpen, hprogram⟩ := program_members hleaves setting
    obtain ⟨hstrongerOpen, hstrongerLeaf⟩ := hstrongerLeaves setting
    obtain ⟨hweakerOpen, hweakerLeaf⟩ := hweakerLeaves setting
    -- what variables give for a leaf is no object, so it is replaced and not merged
    obtain ⟨hupper, hupperOpen⟩ := Json.at?_overlay hstrongerOpen hprogramOpen (by
      rw [hstrongerLeaf]
      exact Setting.ofVariables?_ne_obj (hleaves.decodes setting .environment))
    obtain ⟨hall, hallOpen⟩ := Json.at?_overlay hweakerOpen hupperOpen (by
      rw [hweakerLeaf]
      exact Setting.ofVariables?_ne_obj (hleaves.decodes setting .file))
    refine ⟨hallOpen, hall.trans ?_⟩
    rw [hupper, hprogram, hstrongerLeaf, hweakerLeaf, Setting.strongest?, Option.or_assoc]

/-- Settings are loaded leaf by leaf. -/
theorem exists_load (hrules : SettingsRules.ofMembers given = .standard)
    (hleaves : LeafSources sources given) :
    ∃ settings, (sources.load given).outcome = .ok settings ∧
      ∀ setting : Setting, (setting.decode (setting.strongest? sources given)).outcome =
        .ok (setting.read settings) := by
  obtain ⟨found, hgather, hfound⟩ := exists_gather hrules hleaves
  choose values hvalues using exists_decode_strongest hleaves
  refine ⟨Setting.assemble values, ?_, fun setting => ?_⟩
  · have hdecode : (Settings.decode found).outcome = .ok (Setting.assemble values) := by
      apply Settings.decode_of_leaves fun setting => (hfound setting).1
      intro setting
      rw [(hfound setting).2, hvalues, Setting.read_assemble]
    unfold load
    simp only [hgather]
    exact congrArg (Except.mapError _) hdecode
  · rw [hvalues, Setting.read_assemble]

end SettingsSources

/-- Other sources, which give one leaf otherwise than before in one origin, and nothing else. -/
def ChangesOnly (changed : Setting) (changedOrigin : LeafOrigin) (sources : SettingsSources)
    (given : Members) (sources' : SettingsSources) (given' : Members) : Prop :=
  ∀ (setting : Setting) (origin : LeafOrigin), setting ≠ changed ∨ origin ≠ changedOrigin →
    setting.offered? sources' given' origin = setting.offered? sources given origin

instance (changed : Setting) (changedOrigin : LeafOrigin) (sources : SettingsSources)
    (given : Members) (sources' : SettingsSources) (given' : Members) :
    Decidable (ChangesOnly changed changedOrigin sources given sources' given') :=
  inferInstanceAs (Decidable (∀ (_ : Setting) (_ : LeafOrigin), _ → _))

namespace Setting

variable {sources sources' : SettingsSources} {given given' : Members}

/-- A leaf does not notice a change of another one, nor a change in a weaker origin than one
that gives it. -/
theorem strongest?_eq_of_changesOnly {changed : Setting} {changedOrigin : LeafOrigin}
    (hchanges : ChangesOnly changed changedOrigin sources given sources' given')
    {setting : Setting}
    (happart : setting ≠ changed ∨ ∃ stronger : LeafOrigin, stronger.rank < changedOrigin.rank ∧
      setting.offered? sources given stronger ≠ none) :
    setting.strongest? sources' given' = setting.strongest? sources given := by
  rcases happart with hother | ⟨stronger, hrank, hgiven⟩
  · unfold strongest?
    rw [hchanges setting .program (.inl hother), hchanges setting .environment (.inl hother),
      hchanges setting .file (.inl hother)]
  · have hsame : ∀ origin, origin ≠ changedOrigin →
        setting.offered? sources' given' origin = setting.offered? sources given origin :=
      fun origin horigin => hchanges setting origin (.inr horigin)
    rw [← Option.isSome_iff_ne_none] at hgiven
    -- what comes behind the stronger origin does not count, before the change and after it
    unfold strongest?
    cases changedOrigin with
    | program => exact absurd hrank (Nat.not_lt_zero _)
    | environment =>
      obtain rfl : stronger = .program := by
        cases stronger <;> first | rfl | contradiction
      rw [hsame .program (by decide), Option.or_of_isSome hgiven, Option.or_of_isSome hgiven]
    | file =>
      have hupper : ((setting.offered? sources given .program).or
          (setting.offered? sources given .environment)).isSome := by
        rw [Option.isSome_or]
        cases stronger with
        | program => rw [hgiven, Bool.true_or]
        | environment => rw [hgiven, Bool.or_true]
        | file => exact absurd hrank (Nat.lt_irrefl _)
      rw [hsame .program (by decide), hsame .environment (by decide), ← Option.or_assoc,
        ← Option.or_assoc, Option.or_of_isSome hupper, Option.or_of_isSome hupper]

end Setting

/-- **Precedence.** Where sources give leaves of settings, every leaf is decoded from the
program if this gives it, otherwise from the environment, otherwise from the file, and has
its default otherwise. Where only one leaf is given otherwise in one origin, no other leaf
changes, and this leaf does not change either if a stronger origin gives it. -/
theorem SettingsSources.load_leafwise {sources : SettingsSources} {given : Members}
    (hrules : SettingsRules.ofMembers given = .standard) (hleaves : LeafSources sources given) :
    ∃ settings, (sources.load given).outcome = .ok settings ∧
      (∀ setting : Setting, (setting.decode (setting.strongest? sources given)).outcome =
        .ok (setting.read settings)) ∧
      ∀ (changed : Setting) (origin : LeafOrigin) (sources' : SettingsSources) (given' : Members),
        SettingsRules.ofMembers given' = .standard → LeafSources sources' given' →
        ChangesOnly changed origin sources given sources' given' →
        ∃ settings', (sources'.load given').outcome = .ok settings' ∧
          ∀ setting : Setting,
            (setting ≠ changed ∨ ∃ stronger : LeafOrigin, stronger.rank < origin.rank ∧
              setting.offered? sources given stronger ≠ none) →
            setting.read settings' = setting.read settings := by
  obtain ⟨settings, hload, hdecode⟩ := exists_load hrules hleaves
  refine ⟨settings, hload, hdecode, ?_⟩
  intro changed origin sources' given' hrules' hleaves' hchanges
  obtain ⟨settings', hload', hdecode'⟩ := exists_load hrules' hleaves'
  refine ⟨settings', hload', fun setting happart => ?_⟩
  have hsame := hdecode' setting
  rw [Setting.strongest?_eq_of_changesOnly hchanges happart, hdecode setting] at hsame
  exact (Except.ok.inj hsame).symm

/-- Options of a program that say how many candidates count. -/
def givenTopK : Members := [("chat", .obj [("options", .obj [("top_k", .int 5)])])]

/-- Sources that share the settings of a chat, the number of candidates among them. -/
def sharedOptions (topK : String) : SettingsSources where
  environment := [("BAICHUAN_API_KEY", "me"), ("Baichuan_Chat__Options__Model", "Baichuan3-Turbo"),
    ("BAICHUAN_CHAT__OPTIONS__TOP_K", topK)]
  file := some "BAICHUAN_CHAT__ENABLED=no\nBAICHUAN_BASE_URL=https://$\x7bBAICHUAN_API_KEY\x7d\n"

/-- The program says how many candidates count, and the rest comes from where it is given. -/
theorem load_leafwise_sharedOptions :
    (SettingsRules.ofMembers givenTopK = .standard ∧ LeafSources (sharedOptions "7") givenTopK) ∧
    ∃ settings, ((sharedOptions "7").load givenTopK).outcome = .ok settings ∧
      settings.chat.options.topK = some 5 ∧
      settings.chat.options.model = "Baichuan3-Turbo" ∧
      settings.chat.enabled = false ∧
      settings.baseUrl = "https://me" ∧
      settings.logLevel = "INFO" ∧
      ∃ settings', ((sharedOptions "8").load givenTopK).outcome = .ok settings' ∧
        ∀ setting : Setting, setting.read settings' = setting.read settings := by
  have hrules : SettingsRules.ofMembers givenTopK = .standard := by decide
  have hseven : LeafSources (sharedOptions "7") givenTopK := by decide +kernel
  have height : LeafSources (sharedOptions "8") givenTopK := by decide +kernel
  have hchanges : ChangesOnly .topK .environment (sharedOptions "7") givenTopK
      (sharedOptions "8") givenTopK := by decide +kernel
  obtain ⟨settings, hload, hdecode, hchanged⟩ := SettingsSources.load_leafwise hrules hseven
  obtain ⟨settings', hload', hsame⟩ := hchanged _ _ _ _ hrules height hchanges
  have hread : ∀ (setting : Setting) (offered : Option Json) {value : setting.Value},
      setting.strongest? (sharedOptions "7") givenTopK = offered →
        (setting.decode offered).outcome = .ok value → setting.read settings = value := by
    rintro setting _ value rfl hvalue
    exact Except.ok.inj ((hdecode setting).symm.trans hvalue)
  refine ⟨⟨hrules, hseven⟩, settings, hload, ?_, ?_, ?_, ?_, ?_, settings', hload', ?_⟩
  · exact hread .topK (some (.int 5)) (by decide +kernel) rfl
  · exact hread .model (some (.str "Baichuan3-Turbo")) (by decide +kernel) rfl
  · exact hread .enabled (some (.str "no")) (by decide +kernel) rfl
  · exact hread .baseUrl (some (.str "https://me")) (by decide +kernel) rfl
  · exact hread .logLevel none (by decide +kernel) rfl
  · intro setting
    apply hsame
    by_cases htop : setting = .topK
    · refine .inr ⟨.program, by decide, ?_⟩
      subst htop
      decide +kernel
    · exact .inl htop

/-- A key in the file. -/
def keyInFile : SettingsSources := ⟨[], some "BAICHUAN_API_KEY=d\n"⟩

/-- Sources whose file refers to the key in the environment. -/
def keyInAddress (key : String) : SettingsSources :=
  ⟨[("BAICHUAN_API_KEY", key)], some "BAICHUAN_BASE_URL=https://$\x7bBAICHUAN_API_KEY\x7d\n"⟩

/-- A program can ask for other rules, under which the file is not read; and a file can refer
to a variable that also gives another leaf. -/
theorem not_forall_load_leafwise :
    (¬∀ (sources : SettingsSources) (given : Members), LeafSources sources given →
      ∃ settings, (sources.load given).outcome = .ok settings ∧
        ∀ setting : Setting, (setting.decode (setting.strongest? sources given)).outcome =
          .ok (setting.read settings)) ∧
    ¬∀ (environment environment' : Environment) (file : Option String) (given : Members),
      LeafSources ⟨environment, file⟩ given → LeafSources ⟨environment', file⟩ given →
      (∀ setting : Setting, setting ≠ .apiKey →
        setting.ofVariables? environment'.toVariables =
          setting.ofVariables? environment.toVariables) →
      ∀ settings settings',
        (SettingsSources.load ⟨environment, file⟩ given).outcome = .ok settings →
        (SettingsSources.load ⟨environment', file⟩ given).outcome = .ok settings' →
        settings'.baseUrl = settings.baseUrl := by
  constructor
  · intro hall
    have hleaves : LeafSources keyInFile [("_env_file", .null)] := by decide +kernel
    obtain ⟨settings, hload, hdecode⟩ := hall _ _ hleaves
    have hdefault : (keyInFile.load [("_env_file", .null)]).outcome =
        .ok ⟨none, Endpoint.defaultBaseUrl, Endpoint.defaultMaxRetries, Endpoint.defaultTimeout,
          Settings.defaultLogLevel, .default⟩ := by decide +kernel
    have hgiven : Setting.apiKey.strongest? keyInFile [("_env_file", .null)] = some (.str "d") := by
      decide +kernel
    have hkey := hdecode .apiKey
    rw [hdefault] at hload
    rw [hgiven, ← Except.ok.inj hload] at hkey
    cases hkey
  · intro hall
    have hfirst : LeafSources (keyInAddress "a") [] := by decide +kernel
    have hsecond : LeafSources (keyInAddress "b") [] := by decide +kernel
    obtain ⟨settings, hload, hdecode⟩ := SettingsSources.exists_load rfl hfirst
    obtain ⟨settings', hload', hdecode'⟩ := SettingsSources.exists_load rfl hsecond
    have hgiven : Setting.baseUrl.strongest? (keyInAddress "a") [] = some (.str "https://a") ∧
        Setting.baseUrl.strongest? (keyInAddress "b") [] = some (.str "https://b") := by
      decide +kernel
    have haddress := hdecode .baseUrl
    have haddress' := hdecode' .baseUrl
    rw [hgiven.1] at haddress
    rw [hgiven.2] at haddress'
    have hsame : settings'.baseUrl = settings.baseUrl :=
      hall _ _ _ [] hfirst hsecond (by decide +kernel) settings settings' hload hload'
    have hboth : "https://b" = "https://a" :=
      (Except.ok.inj haddress').trans (hsame.trans (Except.ok.inj haddress).symm)
    exact absurd hboth (by decide)

end ChatClient
