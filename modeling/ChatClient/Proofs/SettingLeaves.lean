import ChatClient.Proofs.DecodedFields
import ChatClient.Proofs.PathLookup
import ChatClient.Settings.Basic

/-!
# The leaves of settings

Settings have leaves on three levels: plain values, the flag of the chat, and
the options of the chat. Each leaf has a path, a type and a decoder of its own,
which takes the default where there is no value. Settings are decoded leaf by
leaf: they come out of members in which the leaves are found that they have.
-/

namespace ChatClient

open Decoded (outcome_map_eq_ok_iff outcome_seq_eq_ok_iff)

/-- A leaf of the settings. -/
inductive Setting where
  | apiKey
  | baseUrl
  | maxRetries
  | timeout
  | logLevel
  | enabled
  | model
  | temperature
  | topP
  | topK
  | maxTokens
  | tools
  | toolChoice
  deriving DecidableEq, Repr

namespace Setting

/-- All leaves, in their order. -/
def all : List Setting :=
  [apiKey, baseUrl, maxRetries, timeout, logLevel, enabled, model, temperature, topP, topK,
    maxTokens, tools, toolChoice]

theorem mem_all (setting : Setting) : setting ∈ all := by
  cases setting <;> decide

instance (p : Setting → Prop) [DecidablePred p] : Decidable (∀ setting, p setting) :=
  decidable_of_iff (∀ setting ∈ all, p setting)
    ⟨fun h setting => h setting setting.mem_all, fun h setting _ => h setting⟩

instance (p : Setting → Prop) [DecidablePred p] : Decidable (∃ setting, p setting) :=
  decidable_of_iff (∃ setting ∈ all, p setting)
    ⟨fun ⟨setting, _, h⟩ => ⟨setting, h⟩, fun ⟨setting, h⟩ => ⟨setting, setting.mem_all, h⟩⟩

/-- The names on the way to a leaf. -/
def path : Setting → List String
  | apiKey => ["api_key"]
  | baseUrl => ["base_url"]
  | maxRetries => ["max_retries"]
  | timeout => ["timeout"]
  | logLevel => ["log_level"]
  | enabled => ["chat", "enabled"]
  | model => ["chat", "options", "model"]
  | temperature => ["chat", "options", "temperature"]
  | topP => ["chat", "options", "top_p"]
  | topK => ["chat", "options", "top_k"]
  | maxTokens => ["chat", "options", "max_tokens"]
  | tools => ["chat", "options", "tools"]
  | toolChoice => ["chat", "options", "tool_choice"]

/-- The values of a leaf. -/
def Value : Setting → Type
  | apiKey => Option String
  | baseUrl => String
  | maxRetries => Int
  | timeout => Binary64
  | logLevel => String
  | enabled => Bool
  | model => String
  | temperature => Option Binary64
  | topP => Option Binary64
  | topK => Option Int
  | maxTokens => Option Int
  | tools => Option (List OfferedTool)
  | toolChoice => Option Json

/-- The value of a leaf that is given, and the default of one that is not. -/
def decode : (setting : Setting) → Option Json → Decoded setting.Value
  | apiKey => Decoder.given "api_key" none (Decoder.nullable Decoder.text)
  | baseUrl => Decoder.given "base_url" Endpoint.defaultBaseUrl Decoder.text
  | maxRetries => Decoder.given "max_retries" Endpoint.defaultMaxRetries Decoder.int
  | timeout => Decoder.given "timeout" Endpoint.defaultTimeout Decoder.number
  | logLevel => Decoder.given "log_level" Settings.defaultLogLevel Decoder.text
  | enabled => Decoder.given "enabled" true Decoder.flag
  | model => Decoder.given "model" ChatModel.default Decoder.text
  | temperature =>
    Decoder.given "temperature" (some ChatOptions.defaultTemperature)
      (Decoder.nullable Decoder.number)
  | topP => Decoder.given "top_p" none (Decoder.nullable Decoder.number)
  | topK => Decoder.given "top_k" none (Decoder.nullable Decoder.int)
  | maxTokens => Decoder.given "max_tokens" none (Decoder.nullable Decoder.int)
  | tools => fun offered => RequestDraft.decodeTools (offered.map .value)
  | toolChoice => Decoder.given "tool_choice" none (Decoder.nullable Decoder.any)

/-- The value that a leaf has in settings. -/
def read : (setting : Setting) → Settings → setting.Value
  | apiKey, settings => settings.apiKey
  | baseUrl, settings => settings.baseUrl
  | maxRetries, settings => settings.maxRetries
  | timeout, settings => settings.timeout
  | logLevel, settings => settings.logLevel
  | enabled, settings => settings.chat.enabled
  | model, settings => settings.chat.options.model
  | temperature, settings => settings.chat.options.temperature
  | topP, settings => settings.chat.options.topP
  | topK, settings => settings.chat.options.topK
  | maxTokens, settings => settings.chat.options.maxTokens
  | tools, settings => settings.chat.options.tools
  | toolChoice, settings => settings.chat.options.toolChoice

/-- The settings whose leaves have given values. -/
def assemble (values : (setting : Setting) → setting.Value) : Settings where
  apiKey := values apiKey
  baseUrl := values baseUrl
  maxRetries := values maxRetries
  timeout := values timeout
  logLevel := values logLevel
  chat :=
    { enabled := values enabled
      options :=
        { model := values model
          temperature := values temperature
          topP := values topP
          topK := values topK
          maxTokens := values maxTokens
          tools := values tools
          toolChoice := values toolChoice } }

/-- Settings have the values from which they were assembled. -/
theorem read_assemble (values : (setting : Setting) → setting.Value) (setting : Setting) :
    setting.read (assemble values) = values setting := by
  cases setting <;> rfl

/-- The chat and its options are no leaves. -/
theorem path_ne (setting : Setting) :
    setting.path ≠ ["chat"] ∧ setting.path ≠ ["chat", "options"] := by
  cases setting <;> decide

end Setting

/-- A further field gives a value where it does and those before it do. -/
theorem Decoded.outcome_seq_eq_ok {α β : Type} {f : Decoded (α → β)} {x : Decoded α} {g : α → β}
    {a : α} (hf : f.outcome = .ok g) (hx : x.outcome = .ok a) : (f <*> x).outcome = .ok (g a) :=
  outcome_seq_eq_ok_iff.mpr ⟨g, hf, a, hx, rfl⟩

/-- A first field gives a value where its decoder does. -/
theorem Decoded.outcome_map_eq_ok {α β : Type} (f : α → β) {x : Decoded α} {a : α}
    (hx : x.outcome = .ok a) : (f <$> x).outcome = .ok (f a) :=
  outcome_map_eq_ok_iff.mpr ⟨a, hx, rfl⟩

instance {α : Type} (x : Decoded α) : Decidable (∃ a, x.outcome = .ok a) :=
  match x.outcome with
  | .ok a => isTrue ⟨a, rfl⟩
  | .error _ => isFalse nofun

/-- A path of one name leads to the member of this name. -/
theorem Json.at?_singleton (members : Members) (name : String) :
    (Json.obj members).at? [name] = Entries.get? members name := by
  rw [at?]
  cases Entries.get? members name <;> rfl

open Decoded (outcome_seq_eq_ok outcome_map_eq_ok)

variable {members : Members} {settings : Settings}

/-- Chat options are decoded leaf by leaf. -/
theorem ChatOptions.decode_of_leaves
    (hleaves : ∀ setting path, Setting.path setting = "chat" :: "options" :: path →
      (setting.decode ((Json.obj members).at? path)).outcome = .ok (setting.read settings)) :
    (ChatOptions.decode (.obj members)).outcome = .ok settings.chat.options := by
  have hleaf : ∀ setting name, Setting.path setting = ["chat", "options", name] →
      (setting.decode (Entries.get? members name)).outcome = .ok (setting.read settings) := by
    intro setting name hpath
    rw [← Json.at?_singleton]
    exact hleaves setting [name] hpath
  have hmodel := outcome_map_eq_ok ChatOptions.mk (hleaf .model _ rfl)
  have htemperature := outcome_seq_eq_ok hmodel (hleaf .temperature _ rfl)
  have htopP := outcome_seq_eq_ok htemperature (hleaf .topP _ rfl)
  have htopK := outcome_seq_eq_ok htopP (hleaf .topK _ rfl)
  have hmaxTokens := outcome_seq_eq_ok htopK (hleaf .maxTokens _ rfl)
  have htools := outcome_seq_eq_ok hmaxTokens (hleaf .tools _ rfl)
  exact outcome_seq_eq_ok htools (hleaf .toolChoice _ rfl)

/-- The chat is decoded leaf by leaf, where its options are an object or are missing. -/
theorem ChatProperties.decode_of_leaves
    (hobject : ∀ value, Entries.get? members "options" = some value →
      ∃ options, value = .obj options)
    (hleaves : ∀ setting path, Setting.path setting = "chat" :: path →
      (setting.decode ((Json.obj members).at? path)).outcome = .ok (setting.read settings)) :
    (ChatProperties.decode (.obj members)).outcome = .ok settings.chat := by
  have hoptions : (members.withDefault "options" defaultOptions ChatOptions.decode).outcome =
      .ok settings.chat.options := by
    rw [Members.withDefault]
    cases hmember : Entries.get? members "options" with
    | none =>
      -- missing options are decoded like the empty object
      have hempty : (ChatOptions.decode (.obj [])).outcome = .ok settings.chat.options := by
        apply ChatOptions.decode_of_leaves
        intro setting path hpath
        have hleaf := hleaves setting ("options" :: path) hpath
        rw [Json.at?, hmember, Option.bind_none] at hleaf
        cases path with
        | nil => exact absurd hpath setting.path_ne.2
        | cons name path => exact hleaf
      exact hempty
    | some value =>
      obtain ⟨options, rfl⟩ := hobject value hmember
      rw [Decoder.given, Decoded.outcome_under_eq_ok_iff]
      apply ChatOptions.decode_of_leaves
      intro setting path hpath
      have hleaf := hleaves setting ("options" :: path) hpath
      rwa [Json.at?, hmember, Option.bind_some] at hleaf
  have henabled := hleaves .enabled ["enabled"] rfl
  rw [Json.at?_singleton] at henabled
  exact outcome_seq_eq_ok (outcome_map_eq_ok ChatProperties.mk henabled) hoptions

/-- Settings are decoded leaf by leaf, where the way to every leaf can be followed. -/
theorem Settings.decode_of_leaves
    (hopen : ∀ setting, (Json.obj members).IsOpenAlong (Setting.path setting))
    (hleaves : ∀ setting, (Setting.decode setting ((Json.obj members).at? setting.path)).outcome =
      .ok (setting.read settings)) :
    (Settings.decode members).outcome = .ok settings := by
  have hchat : (members.withDefault "chat" .default ChatProperties.decode).outcome =
      .ok settings.chat := by
    rw [Members.withDefault]
    cases hmember : Entries.get? members "chat" with
    | none =>
      -- a missing chat is decoded like the empty object
      have hempty : (ChatProperties.decode (.obj [])).outcome = .ok settings.chat := by
        apply ChatProperties.decode_of_leaves (by simp)
        intro setting path hpath
        have hleaf := hleaves setting
        rw [hpath, Json.at?, hmember, Option.bind_none] at hleaf
        cases path with
        | nil => exact absurd hpath setting.path_ne.1
        | cons name path => exact hleaf
      exact hempty
    | some value =>
      obtain ⟨chat, rfl, _, hinside⟩ := ((hopen .model).2 value hmember).exists_members
      rw [Decoder.given, Decoded.outcome_under_eq_ok_iff]
      apply ChatProperties.decode_of_leaves
      · intro options hoptions
        obtain ⟨found, heq, _⟩ := (hinside options hoptions).exists_members
        exact ⟨found, heq⟩
      · intro setting path hpath
        have hleaf := hleaves setting
        rwa [hpath, Json.at?, hmember, Option.bind_some] at hleaf
  have hleaf : ∀ setting name, Setting.path setting = [name] →
      (setting.decode (Entries.get? members name)).outcome = .ok (setting.read settings) := by
    intro setting name hpath
    rw [← Json.at?_singleton, ← hpath]
    exact hleaves setting
  have hapiKey := outcome_map_eq_ok Settings.mk (hleaf .apiKey _ rfl)
  have hbaseUrl := outcome_seq_eq_ok hapiKey (hleaf .baseUrl _ rfl)
  have hmaxRetries := outcome_seq_eq_ok hbaseUrl (hleaf .maxRetries _ rfl)
  have htimeout := outcome_seq_eq_ok hmaxRetries (hleaf .timeout _ rfl)
  have hlogLevel := outcome_seq_eq_ok htimeout (hleaf .logLevel _ rfl)
  exact outcome_seq_eq_ok hlogLevel hchat

end ChatClient
