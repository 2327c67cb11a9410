import ChatClient.Proofs.RecordDump
import ChatClient.Request
import Mathlib.Data.List.Forall2

/-!
# What a decoded record was decoded from

Decoding goes on after a problem, so a value comes out of it only if every field and every
item has given one. A decoded record is taken apart here: its fields come from the members
of their names, and the items of a list from the items in their places.
-/

namespace ChatClient

namespace Decoded

variable {α β : Type}

/-- A function of a decoded value is a value, if that is one. -/
theorem outcome_map_eq_ok_iff {f : α → β} {x : Decoded α} {b : β} :
    (f <$> x).outcome = .ok b ↔ ∃ a, x.outcome = .ok a ∧ f a = b := by
  change x.outcome.map f = .ok b ↔ _
  cases x.outcome <;> simp [Except.map]

/-- A further field gives a value together with those before it, if it does and they do. -/
theorem outcome_seq_eq_ok_iff {f : Decoded (α → β)} {x : Decoded α} {b : β} :
    (f <*> x).outcome = .ok b ↔
      ∃ g, f.outcome = .ok g ∧ ∃ a, x.outcome = .ok a ∧ g a = b := by
  obtain ⟨_, f⟩ := f
  obtain ⟨_, x⟩ := x
  cases f <;> cases x <;> simp [Seq.seq, seq]

/-- A place further inside changes no value. -/
theorem outcome_under_eq_ok_iff {step : Step} {x : Decoded α} {a : α} :
    (x.under step).outcome = .ok a ↔ x.outcome = .ok a := by
  rw [under]
  cases x.outcome <;> simp [Except.mapError]

end Decoded

open Decoded (outcome_map_eq_ok_iff outcome_seq_eq_ok_iff outcome_under_eq_ok_iff)

section Fields

variable {α : Type} {decode : Decoder α} {members : Members} {name : String} {value : Json}

/-- A record is decoded from the members of an object. -/
theorem Decoder.members_of_record {decode : Members → Decoded α} {a : α}
    (h : (Decoder.record decode value).outcome = .ok a) :
    ∃ members, value = .obj members ∧ (decode members).outcome = .ok a := by
  cases value with
  | obj members => exact ⟨members, rfl, h⟩
  | _ => cases h

/-- The items of a decoded list come from the items of an array, one by one. -/
theorem Decoder.forall₂_of_itemsFrom {start : Nat} {values : List Json} {items : List α}
    (h : (Decoder.itemsFrom decode start values).outcome = .ok items) :
    List.Forall₂ (fun v a => (decode v).outcome = .ok a) values items := by
  induction values generalizing start items with
  | nil =>
    cases h
    exact .nil
  | cons value values ih =>
    rw [itemsFrom, outcome_seq_eq_ok_iff] at h
    obtain ⟨_, hfirst, items, hrest, rfl⟩ := h
    obtain ⟨a, ha, rfl⟩ := outcome_map_eq_ok_iff.mp hfirst
    exact .cons (outcome_under_eq_ok_iff.mp ha) (ih hrest)

/-- A list is decoded from an array, item by item. -/
theorem Decoder.items_of_list {items : List α}
    (h : (Decoder.list decode value).outcome = .ok items) :
    ∃ values, value = .arr values ∧
      List.Forall₂ (fun v a => (decode v).outcome = .ok a) values items := by
  cases value with
  | arr values => exact ⟨values, rfl, forall₂_of_itemsFrom h⟩
  | _ => cases h

/-- A value that may be `null` is absent where it is, and is decoded where it is not. -/
theorem Decoder.rel_of_nullable {x : Option α}
    (h : (Decoder.nullable decode value).outcome = .ok x) :
    Option.Rel (fun v a => (decode v).outcome = .ok a) value.toOption x := by
  cases value with
  | null =>
    cases h
    exact .none
  | _ =>
    obtain ⟨a, ha, rfl⟩ := outcome_map_eq_ok_iff.mp h
    exact .some ha

/-- An optional field is absent where its member is or is `null`, and is decoded from its
member where that says something. -/
theorem Members.rel_of_optional {x : Option α}
    (h : (members.optional name decode).outcome = .ok x) :
    Option.Rel (fun v a => (decode v).outcome = .ok a)
      ((members.get? name).bind Json.toOption) x := by
  rw [optional, withDefault] at h
  cases hmember : members.get? name with
  | none =>
    rw [hmember] at h
    cases h
    exact .none
  | some value =>
    rw [hmember, Decoder.given, outcome_under_eq_ok_iff] at h
    exact Decoder.rel_of_nullable h

/-- The value of an optional field is decoded from its member. -/
theorem Members.member_of_optional {x : Option α}
    (h : (members.optional name decode).outcome = .ok x) {a : α} (ha : a ∈ x) :
    ∃ value ∈ members.get? name, (decode value).outcome = .ok a := by
  have hrel := rel_of_optional h
  rw [Option.mem_def.mp ha] at hrel
  generalize hmember : Option.bind _ Json.toOption = member at hrel
  cases hrel with
  | some hdecode =>
    obtain ⟨value, hvalue, hsame⟩ := Option.bind_eq_some_iff.mp hmember
    cases value with
    | null => cases hsame
    | _ =>
      cases hsame
      exact ⟨_, hvalue, hdecode⟩

/-- A field that must be given is decoded from its member. -/
theorem Members.member_of_required {a : α} (h : (members.required name decode).outcome = .ok a) :
    ∃ value ∈ members.get? name, (decode value).outcome = .ok a := by
  rw [required] at h
  cases hmember : members.get? name with
  | none =>
    rw [hmember] at h
    cases h
  | some value =>
    rw [hmember] at h
    exact ⟨value, rfl, outcome_under_eq_ok_iff.mp h⟩

/-- A field that takes a default has it, or is decoded from its member. -/
theorem Members.member_of_withDefault {default a : α}
    (h : (members.withDefault name default decode).outcome = .ok a) :
    a = default ∨ ∃ value ∈ members.get? name, (decode value).outcome = .ok a := by
  rw [withDefault] at h
  cases hmember : members.get? name with
  | none =>
    rw [hmember] at h
    cases h
    exact .inl rfl
  | some value =>
    rw [hmember] at h
    exact .inr ⟨value, rfl, outcome_under_eq_ok_iff.mp h⟩

end Fields

/-! ## Records with values of any form -/

variable {value : Json}

/-- A content is a text, or the items of an array as they are. -/
theorem Content.eq_of_decode {content : Content} (h : (decode value).outcome = .ok content) :
    (∃ s, value = .str s ∧ content = text s) ∨
      ∃ items, value = .arr items ∧ content = parts items := by
  cases value with
  | str s =>
    cases h
    exact .inl ⟨s, rfl, rfl⟩
  | arr items =>
    rw [decode, Decoder.list_any] at h
    cases h
    exact .inr ⟨items, rfl, rfl⟩
  | _ => cases h

/-- The content of a decoded message comes from its member. -/
theorem Message.content_of_decode {message : Message}
    (hdecode : (decode value).outcome = .ok message) :
    ∃ members : Members, value = .obj members ∧
      (members.optional "content" Content.decode).outcome = .ok message.content := by
  obtain ⟨members, rfl, h⟩ := Decoder.members_of_record hdecode
  simp only [outcome_seq_eq_ok_iff, outcome_map_eq_ok_iff] at h
  obtain ⟨_, ⟨_, ⟨_, ⟨_, ⟨_, hcontent, rfl⟩, _, _, rfl⟩, _, _, rfl⟩, _, _, rfl⟩, _, _, rfl⟩ := h
  exact ⟨members, rfl, hcontent⟩

/-- The message of a decoded choice comes from its member. -/
theorem Choice.message_of_decode {choice : Choice} (hdecode : (decode value).outcome = .ok choice) :
    ∃ members : Members, value = .obj members ∧
      (members.optional "message" Message.decode).outcome = .ok choice.message := by
  obtain ⟨members, rfl, h⟩ := Decoder.members_of_record hdecode
  simp only [outcome_seq_eq_ok_iff, outcome_map_eq_ok_iff] at h
  obtain ⟨_, ⟨_, ⟨_, _, rfl⟩, _, hmessage, rfl⟩, _, _, rfl⟩ := h
  exact ⟨members, rfl, hmessage⟩

/-- The choices of a decoded completion come from its member. -/
theorem Completion.choices_of_decode {completion : Completion}
    (hdecode : (decode value).outcome = .ok completion) :
    ∃ members : Members, value = .obj members ∧
      (members.optional "choices" (Decoder.list Choice.decode)).outcome =
        .ok completion.choices := by
  obtain ⟨members, rfl, h⟩ := Decoder.members_of_record hdecode
  simp only [outcome_seq_eq_ok_iff, outcome_map_eq_ok_iff] at h
  obtain ⟨_, ⟨_, ⟨_, ⟨_, ⟨_, ⟨_, ⟨_, _, rfl⟩, _, _, rfl⟩, _, _, rfl⟩, _, _, rfl⟩, _, hchoices, rfl⟩,
    _, _, rfl⟩, _, _, rfl⟩ := h
  exact ⟨members, rfl, hchoices⟩

/-- The fragment of a decoded choice comes from its member. -/
theorem ChunkChoice.delta_of_decode {choice : ChunkChoice}
    (hdecode : (decode value).outcome = .ok choice) :
    ∃ members : Members, value = .obj members ∧
      (members.optional "delta" Message.decode).outcome = .ok choice.delta := by
  obtain ⟨members, rfl, h⟩ := Decoder.members_of_record hdecode
  simp only [outcome_seq_eq_ok_iff, outcome_map_eq_ok_iff] at h
  obtain ⟨_, ⟨_, ⟨_, ⟨_, _, rfl⟩, _, hdelta, rfl⟩, _, _, rfl⟩, _, _, rfl⟩ := h
  exact ⟨members, rfl, hdelta⟩

/-- The choices of a decoded chunk come from its member. -/
theorem Chunk.choices_of_decode {chunk : Chunk} (hdecode : (decode value).outcome = .ok chunk) :
    ∃ members : Members, value = .obj members ∧
      (members.optional "choices" (Decoder.list ChunkChoice.decode)).outcome =
        .ok chunk.choices := by
  obtain ⟨members, rfl, h⟩ := Decoder.members_of_record hdecode
  simp only [outcome_seq_eq_ok_iff, outcome_map_eq_ok_iff] at h
  obtain ⟨_, ⟨_, ⟨_, ⟨_, ⟨_, _, rfl⟩, _, _, rfl⟩, _, _, rfl⟩, _, _, rfl⟩, _, hchoices, rfl⟩ := h
  exact ⟨members, rfl, hchoices⟩

/-- The parameters of a decoded function come from its member, or are none. -/
theorem ToolFunction.parameters_of_decode {function : ToolFunction}
    (hdecode : (decode value).outcome = .ok function) :
    ∃ members : Members, value = .obj members ∧
      (members.withDefault "parameters" [] Decoder.object).outcome = .ok function.parameters := by
  obtain ⟨members, rfl, h⟩ := Decoder.members_of_record hdecode
  simp only [ofFields, outcome_seq_eq_ok_iff, outcome_map_eq_ok_iff] at h
  obtain ⟨_, ⟨_, ⟨_, _, rfl⟩, _, _, rfl⟩, _, hparameters, rfl⟩ := h
  exact ⟨members, rfl, hparameters⟩

/-- The function of a decoded tool comes from its member. -/
theorem FunctionTool.function_of_decode {tool : FunctionTool}
    (hdecode : (decode value).outcome = .ok tool) :
    ∃ members : Members, value = .obj members ∧
      (members.required "function" ToolFunction.decode).outcome = .ok tool.function := by
  obtain ⟨members, rfl, h⟩ := Decoder.members_of_record hdecode
  simp only [outcome_seq_eq_ok_iff, outcome_map_eq_ok_iff] at h
  obtain ⟨_, ⟨_, _, rfl⟩, _, hfunction, rfl⟩ := h
  exact ⟨members, rfl, hfunction⟩

/-- The tools of a decoded list are values, one for each item of the array. -/
theorem RequestDraft.values_of_decodeToolList {tools : List OfferedTool}
    (hdecode : (decodeToolList value).outcome = .ok tools) :
    ∃ items, value = .arr items ∧ tools = items.map .value := by
  obtain ⟨items, hitems, rfl⟩ := outcome_map_eq_ok_iff.mp hdecode
  cases value with
  | arr values =>
    rw [Decoder.list_any] at hitems
    cases hitems
    exact ⟨_, rfl, rfl⟩
  | _ => cases hitems

/-- The tools that a JSON object gives are an optional field of it. -/
theorem RequestDraft.decodeTools_get? (members : Members) :
    decodeTools ((members.get? "tools").map .value) =
      members.optional "tools" decodeToolList := by
  rw [Members.optional, Members.withDefault]
  cases Entries.get? members "tools" <;> rfl

/-- A request is decoded from the members of an object, as every record is. -/
theorem Request.decode_obj (members : Members) :
    decode (.obj members) =
      Request.mk
        <$> members.required "messages" (Decoder.list Message.decode)
        <*> members.withDefault "model" (some ChatModel.default) (Decoder.nullable Decoder.text)
        <*> members.optional "stream" Decoder.flag
        <*> members.optional "temperature" Decoder.number
        <*> members.optional "top_p" Decoder.number
        <*> members.optional "top_k" (Decoder.intFrom 0)
        <*> members.optional "max_tokens" Decoder.int
        <*> members.optional "tools" RequestDraft.decodeToolList
        <*> members.optional "tool_choice" Decoder.any := by
  have hmessages : RequestDraft.decodeMessages ((members.get? "messages").map .value) =
      members.required "messages" (Decoder.list Message.decode) := by
    rw [Members.required]
    cases Entries.get? members "messages" <;> rfl
  rw [← hmessages, ← RequestDraft.decodeTools_get?]
  rfl

/-- The messages, the limit and the tools of a decoded request come from their members. -/
theorem Request.fields_of_decode {request : Request}
    (hdecode : (decode value).outcome = .ok request) :
    ∃ members : Members, value = .obj members ∧
      (members.required "messages" (Decoder.list Message.decode)).outcome =
        .ok request.messages ∧
      (members.optional "top_k" (Decoder.intFrom 0)).outcome = .ok request.topK ∧
      (members.optional "tools" RequestDraft.decodeToolList).outcome = .ok request.tools ∧
      (members.optional "tool_choice" Decoder.any).outcome = .ok request.toolChoice := by
  obtain ⟨members, rfl, _⟩ := Decoder.members_of_record hdecode
  simp only [decode_obj, outcome_seq_eq_ok_iff, outcome_map_eq_ok_iff] at hdecode
  obtain ⟨_, ⟨_, ⟨_, ⟨_, ⟨_, ⟨_, ⟨_, ⟨_, ⟨_, hmessages, rfl⟩, _, _, rfl⟩, _, _, rfl⟩, _, _, rfl⟩,
    _, _, rfl⟩, _, htopK, rfl⟩, _, _, rfl⟩, _, htools, rfl⟩, _, hchoice, rfl⟩ := hdecode
  exact ⟨members, rfl, hmessages, htopK, htools, hchoice⟩

/-- The tools of decoded options come from their members. -/
theorem ChatOptions.tools_of_decode {options : ChatOptions}
    (hdecode : (decode value).outcome = .ok options) :
    ∃ members : Members, value = .obj members ∧
      (members.optional "tools" RequestDraft.decodeToolList).outcome = .ok options.tools ∧
      (members.optional "tool_choice" Decoder.any).outcome = .ok options.toolChoice := by
  obtain ⟨members, rfl, h⟩ := Decoder.members_of_record hdecode
  simp only [ofFields, RequestDraft.decodeTools_get?, outcome_seq_eq_ok_iff,
    outcome_map_eq_ok_iff] at h
  obtain ⟨_, ⟨_, ⟨_, ⟨_, ⟨_, ⟨_, ⟨_, _, rfl⟩, _, _, rfl⟩, _, _, rfl⟩, _, _, rfl⟩, _, _, rfl⟩, _,
    htools, rfl⟩, _, hchoice, rfl⟩ := h
  exact ⟨members, rfl, htools, hchoice⟩

/-- The options of decoded properties come from their member, or are the default ones. -/
theorem ChatProperties.options_of_decode {properties : ChatProperties}
    (hdecode : (decode value).outcome = .ok properties) :
    ∃ members : Members, value = .obj members ∧
      (members.withDefault "options" defaultOptions ChatOptions.decode).outcome =
        .ok properties.options := by
  obtain ⟨members, rfl, h⟩ := Decoder.members_of_record hdecode
  simp only [outcome_seq_eq_ok_iff, outcome_map_eq_ok_iff] at h
  obtain ⟨_, ⟨_, _, rfl⟩, _, hoptions, rfl⟩ := h
  exact ⟨members, rfl, hoptions⟩

/-- The options of decoded properties were decoded themselves: the default ones are those
of an empty object. -/
theorem ChatProperties.exists_decode_options {properties : ChatProperties}
    (hdecode : (decode value).outcome = .ok properties) :
    ∃ given, (ChatOptions.decode given).outcome = .ok properties.options := by
  obtain ⟨members, _, hoptions⟩ := options_of_decode hdecode
  rcases Members.member_of_withDefault hoptions with hdefault | ⟨given, _, hgiven⟩
  · rw [hdefault]
    exact ⟨.obj [], rfl⟩
  · exact ⟨given, hgiven⟩

/-- The mode of a decoded search comes from its member, or is the default one. -/
theorem WebSearch.mode_of_decode {search : WebSearch}
    (hdecode : (decode value).outcome = .ok search) :
    ∃ members : Members, value = .obj members ∧
      (members.withDefault "search_mode" defaultMode decodeMode).outcome =
        .ok search.searchMode := by
  obtain ⟨members, rfl, h⟩ := Decoder.members_of_record hdecode
  simp only [outcome_seq_eq_ok_iff, outcome_map_eq_ok_iff] at h
  obtain ⟨_, ⟨_, _, rfl⟩, _, hmode, rfl⟩ := h
  exact ⟨members, rfl, hmode⟩

/-- The search of a decoded tool comes from its member. -/
theorem WebSearchTool.webSearch_of_decode {tool : WebSearchTool}
    (hdecode : (decode value).outcome = .ok tool) :
    ∃ members : Members, value = .obj members ∧
      (members.required "web_search" WebSearch.decode).outcome = .ok tool.webSearch := by
  obtain ⟨members, rfl, h⟩ := Decoder.members_of_record hdecode
  simp only [outcome_seq_eq_ok_iff, outcome_map_eq_ok_iff] at h
  obtain ⟨_, ⟨_, _, rfl⟩, _, hsearch, rfl⟩ := h
  exact ⟨members, rfl, hsearch⟩

end ChatClient
