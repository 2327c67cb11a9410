import ChatClient.Proofs.NormalForms
import ChatClient.Settings.Load

/-!
# Options that were loaded

Options are loaded long before a request is built from them. What they hold is what the
request holds then, with the messages and the flag that are given. Two parts of a request
can still be refused: the stream flag, which is given only now, and `top_k`, which a
request does not take below zero, while options take any. So options that load make a
request exactly if their `top_k` is not negative.
-/

namespace ChatClient

/-! ## Parts of a draft -/

/-- The tool written out as a value. -/
def OfferedTool.writtenOut (tool : OfferedTool) : OfferedTool := .value tool.plain

/-- Tools that are values already need not be written out. -/
theorem OfferedTool.AreValues.map_writtenOut {tools : Option (List OfferedTool)}
    (hvalues : AreValues tools) : tools.map (·.map writtenOut) = tools := by
  cases tools with
  | none => rfl
  | some list =>
    obtain ⟨values, rfl⟩ := hvalues list rfl
    simp [writtenOut, plain, Function.comp_def]

namespace RequestDraft

/-- A part that is given by an optional value is that value, if it can be read back. -/
theorem part_ofOption {α : Type} {decode : Decoder α} {encode : α → Json} (name : String)
    {x : Option α} (hvalue : ∀ a ∈ x, encode a ≠ .null ∧ decode (encode a) = .value a) :
    part name decode (some (.ofOption (x.map encode))) = .value x := by
  cases x with
  | none => rfl
  | some a =>
    obtain ⟨hnull, hdecode⟩ := hvalue a rfl
    rw [part, Option.map_some, Json.ofOption, Decoder.given, Decoder.nullable_of_ne_null hnull,
      hdecode]
    rfl

/-- A part of any form is taken as it is, unless it is `null`. -/
theorem part_any (name : String) (value : Option Json) :
    part name Decoder.any (some (.ofOption value)) = .value (value.bind Json.toOption) := by
  cases value with
  | none => rfl
  | some value => cases value <;> rfl

/-- Tools that are written out as values are taken as such. -/
theorem decodeTools_plain (tools : Option (List OfferedTool)) :
    decodeTools (some (.value (.ofOption (tools.map fun tools => .arr (tools.map (·.plain)))))) =
      .value (tools.map (·.map .writtenOut)) := by
  cases tools with
  | none => rfl
  | some tools =>
    have hlist : decodeToolList (.arr (tools.map (·.plain))) =
        .value ((tools.map (·.plain)).map .value) := by
      rw [decodeToolList, Decoder.list_any]
      rfl
    rw [Option.map_some, Json.ofOption, decodeTools, Decoder.nullable_of_ne_null (by simp), hlist,
      List.map_map]
    rfl

end RequestDraft

namespace ChatOptions

/-! ## Requests of options -/

/-- What a request finds wrong with a negative `top_k`. -/
def topKProblems : List Problem := [⟨[.name "top_k"], .belowMinimum⟩]

/-- The part of a request that the `top_k` of options gives. -/
def topKPart (options : ChatOptions) : Decoded (Option Int) :=
  RequestDraft.part "top_k" (Decoder.intFrom 0) (some (.ofOption (options.topK.map .int)))

/-- A request takes no negative `top_k`. -/
theorem topKPart_eq (options : ChatOptions) :
    options.topKPart =
      if ∀ k ∈ options.topK, 0 ≤ k then .value options.topK else ⟨[], .error topKProblems⟩ := by
  split
  case isTrue hle =>
    refine RequestDraft.part_ofOption "top_k" fun k hk => ⟨by simp, ?_⟩
    rw [Decoder.intFrom_int, if_neg (Int.not_lt.mpr (hle k hk))]
  case isFalse hneg =>
    obtain ⟨k, hk, hlt⟩ : ∃ k ∈ options.topK, k < 0 := by simpa using hneg
    rw [topKPart, Option.mem_def.mp hk, Option.map_some, Json.ofOption, RequestDraft.part,
      Decoder.given, Decoder.nullable_of_ne_null (by simp), Decoder.intFrom_int, if_pos hlt]
    rfl

/-- The parts of a request that can be refused: the stream flag, and the `top_k` of the
options. -/
def checked (options : ChatOptions) (stream : Json) : Decoded (Option Bool) :=
  (fun flag _ => flag) <$> RequestDraft.part "stream" Decoder.flag (some stream)
    <*> options.topKPart

/-- The request that holds what the options hold. -/
def carried (options : ChatOptions) (messages : List Message) (stream : Option Bool) : Request where
  messages := messages
  model := some options.model
  stream := stream
  temperature := options.temperature
  topP := options.topP
  topK := options.topK
  maxTokens := options.maxTokens
  tools := options.tools
  toolChoice := options.toolChoice

/-- A draft with these options, whatever tools are offered in it, gives the request that
holds what they hold, if no part of it is refused. -/
theorem outcome_decode_draft (options : ChatOptions) (messages : List Message) (stream : Json)
    {offered : OfferedTools} {tools : Option (List OfferedTool)}
    (htools : RequestDraft.decodeTools (some offered) = .value tools) :
    ({ options.draft messages stream with tools := some offered }).decode.outcome =
      (options.checked stream).outcome.map fun flag =>
        { options.carried messages flag with
          tools, toolChoice := options.toolChoice.bind Json.toOption } := by
  have htemperature : RequestDraft.part "temperature" Decoder.number
      (some (.ofOption (options.temperature.map .float))) = .value options.temperature :=
    RequestDraft.part_ofOption _ fun _ _ => ⟨by simp, rfl⟩
  have htopP : RequestDraft.part "top_p" Decoder.number
      (some (.ofOption (options.topP.map .float))) = .value options.topP :=
    RequestDraft.part_ofOption _ fun _ _ => ⟨by simp, rfl⟩
  have hmaxTokens : RequestDraft.part "max_tokens" Decoder.int
      (some (.ofOption (options.maxTokens.map .int))) = .value options.maxTokens :=
    RequestDraft.part_ofOption _ fun _ _ => ⟨by simp, rfl⟩
  have htopK := options.topKPart_eq
  rw [topKPart] at htopK
  simp only [RequestDraft.decode, draft, htemperature, htopP, htopK, hmaxTokens, htools,
    RequestDraft.part_any, checked, topKPart]
  -- the flag and `top_k` are left, and each of them may be refused
  obtain ⟨_, flag⟩ := RequestDraft.part "stream" Decoder.flag (some stream)
  split <;> cases flag <;> rfl

end ChatOptions

/-! ## Options that load -/

/-- An optional field of any form is its member, unless that is `null`. -/
theorem Members.optional_any (members : Members) (name : String) :
    members.optional name Decoder.any = .value ((members.get? name).bind Json.toOption) := by
  rw [optional, withDefault]
  cases Entries.get? members name with
  | none => rfl
  | some value => cases value <;> rfl

/-- What is absent where it is `null` is not `null`. -/
theorem Json.bind_toOption_bind_toOption (value : Option Json) :
    (value.bind toOption).bind toOption = value.bind toOption := by
  cases value with
  | none => rfl
  | some value => cases value <;> rfl

/-- The choice of a tool is absent from options that were decoded where it is `null`. -/
theorem ChatOptions.toolChoice_of_decode {value : Json} {options : ChatOptions}
    (hdecode : (decode value).outcome = .ok options) :
    options.toolChoice.bind Json.toOption = options.toolChoice := by
  obtain ⟨members, _, _, hchoice⟩ := tools_of_decode hdecode
  rw [Members.optional_any] at hchoice
  rw [← Except.ok.inj hchoice, Json.bind_toOption_bind_toOption]

/-- The chat of decoded settings comes from its member, or is the default one. -/
theorem Settings.chat_of_decode {members : Members} {settings : Settings}
    (hdecode : (decode members).outcome = .ok settings) :
    (members.withDefault "chat" ChatProperties.default ChatProperties.decode).outcome =
      .ok settings.chat := by
  simp only [decode, Decoded.outcome_seq_eq_ok_iff, Decoded.outcome_map_eq_ok_iff] at hdecode
  obtain ⟨_, ⟨_, ⟨_, ⟨_, ⟨_, ⟨_, _, rfl⟩, _, _, rfl⟩, _, _, rfl⟩, _, _, rfl⟩, _, _, rfl⟩, _,
    hchat, rfl⟩ := hdecode
  exact hchat

/-- Settings that were loaded were decoded from the members of their sources. -/
theorem SettingsSources.exists_decode_of_load {sources : SettingsSources} {given : Members}
    {settings : Settings} (hload : (sources.load given).outcome = .ok settings) :
    ∃ members, (Settings.decode members).outcome = .ok settings := by
  rw [load] at hload
  cases hgather : sources.gather given with
  | error failure => simp [hgather, bind, Except.bind] at hload
  | ok members =>
    refine ⟨members, ?_⟩
    simp only [hgather, bind, Except.bind, Decoded.check] at hload
    cases hdecode : (Settings.decode members).outcome <;> simp_all [Except.mapError]

/-- The options of settings that were loaded were decoded themselves: the default ones are
those of an empty object. -/
theorem SettingsSources.exists_decode_options {sources : SettingsSources} {given : Members}
    {settings : Settings} (hload : (sources.load given).outcome = .ok settings) :
    ∃ value, (ChatOptions.decode value).outcome = .ok settings.chat.options := by
  obtain ⟨members, hdecode⟩ := exists_decode_of_load hload
  rcases Members.member_of_withDefault (Settings.chat_of_decode hdecode) with
    hdefault | ⟨_, _, hchat⟩
  · rw [hdefault]
    exact ⟨.obj [], rfl⟩
  · exact ChatProperties.exists_decode_options hchat

namespace ChatOptions

/-- The options were loaded: they were decoded from a value, or as a part of settings. -/
inductive IsLoaded : ChatOptions → Prop
  | decoded {value : Json} {options : ChatOptions} (h : (decode value).outcome = .ok options) :
    IsLoaded options
  | settings {sources : SettingsSources} {given : Members} {settings : Settings}
    (h : (sources.load given).outcome = .ok settings) : IsLoaded settings.chat.options

variable {options : ChatOptions}

/-- Options that were loaded were decoded from a value, in any case. -/
theorem IsLoaded.exists_decode (hloaded : options.IsLoaded) :
    ∃ value, (decode value).outcome = .ok options := by
  cases hloaded with
  | decoded hdecode => exact ⟨_, hdecode⟩
  | settings hload => exact SettingsSources.exists_decode_options hload

/-- **Requests of loaded options.** Options that were loaded make a request that holds what
they hold, with the messages and the flag that are given, exactly if their `top_k` is not
negative. Otherwise the request is refused for the `top_k` alone. -/
theorem toRequest_eq_carried_iff (hloaded : options.IsLoaded) (messages : List Message)
    (stream : Bool) :
    ((options.toRequest messages (.bool stream)).check .request =
        .ok (options.carried messages (some stream)) ↔ ∀ k ∈ options.topK, 0 ≤ k) ∧
      ((∃ k ∈ options.topK, k < 0) →
        (options.toRequest messages (.bool stream)).check .request =
          .error (.invalid .request topKProblems)) := by
  obtain ⟨value, hdecode⟩ := hloaded.exists_decode
  have houtcome : (options.toRequest messages (.bool stream)).outcome =
      if ∀ k ∈ options.topK, 0 ≤ k then .ok (options.carried messages (some stream))
      else .error topKProblems := by
    refine (options.outcome_decode_draft messages (.bool stream)
      (RequestDraft.decodeTools_plain _)).trans ?_
    rw [(areValues_of_decode hdecode).map_writtenOut, toolChoice_of_decode hdecode, checked,
      topKPart_eq]
    split <;> rfl
  rw [Decoded.check, houtcome]
  split
  case isTrue hle =>
    refine ⟨iff_of_true rfl hle, ?_⟩
    rintro ⟨k, hk, hneg⟩
    exact absurd (hle k hk) (Int.not_le.mpr hneg)
  case isFalse hneg => exact ⟨iff_of_false nofun hneg, fun _ => rfl⟩

/-- Options with a choice and tools that hold `null`s. -/
def searching : ChatOptions :=
  { ChatProperties.defaultOptions with
    topK := some 0
    tools := some [.value (.obj [("type", .str "web_search"), ("web_search", .null)])]
    toolChoice := some (.obj [("function", .null)]) }

/-- The options that differ from those that no setting changes in a negative `top_k`. -/
def misled : ChatOptions := { ChatProperties.defaultOptions with topK := some (-1) }

/-- A variable that gives a negative `top_k`. -/
def misleading : SettingsSources := ⟨[("BAICHUAN_CHAT__OPTIONS__TOP_K", "-1")], none⟩

/-- Settings with the negative `top_k` load. -/
theorem load_misleading : (misleading.load []).outcome =
    .ok ⟨none, Endpoint.defaultBaseUrl, Endpoint.defaultMaxRetries, Endpoint.defaultTimeout,
      Settings.defaultLogLevel, ⟨true, misled⟩⟩ := by
  decide +kernel

/-- Options with `null`s in them make their request. Settings with a negative `top_k` load,
and their options make none. -/
theorem toRequest_eq_carried_iff_searching :
    searching.IsLoaded ∧ (searching.toRequest [] (.bool true)).check .request =
        .ok (searching.carried [] (some true)) ∧
      misled.IsLoaded ∧ (misled.toRequest [] (.bool false)).check .request =
        .error (.invalid .request topKProblems) := by
  have hdecode : (decode (searching.dump .shown)).outcome = .ok searching := rfl
  have hsearching : searching.IsLoaded := .decoded hdecode
  have hmisled : misled.IsLoaded := .settings load_misleading
  exact ⟨hsearching, (toRequest_eq_carried_iff hsearching [] true).1.mpr (by decide), hmisled,
    (toRequest_eq_carried_iff hmisled [] false).2 (by decide)⟩

/-- Not all options that were loaded make a request: those with a negative `top_k` do not. -/
theorem not_forall_toRequest_eq_carried :
    ¬∀ options : ChatOptions, options.IsLoaded → ∀ (messages : List Message) (stream : Bool),
      (options.toRequest messages (.bool stream)).check .request =
        .ok (options.carried messages (some stream)) := by
  intro hall
  have hdecode : (decode (.obj [("top_k", .int (-1))])).outcome = .ok misled := rfl
  exact absurd (hall misled (.decoded hdecode) [] false) (by decide)

end ChatOptions

end ChatClient
