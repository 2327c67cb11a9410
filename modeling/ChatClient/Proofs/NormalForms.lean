import ChatClient.Json.Depth
import ChatClient.Proofs.DecodedFields

/-!
# Normal forms of records

A record that is read back from its dump is in normal form: the values of any form in it
are as the dump left them. That changes no dump that shows all fields, so a record and its
normal form cannot be told apart by one.
-/

namespace ChatClient

/-! ## Finite values -/

namespace Json

mutual

/-- A finite value is left as it is. -/
theorem finite_finite : ∀ value : Json, value.finite.finite = value.finite
  | .null | .bool _ | .int _ | .str _ => rfl
  | .float x => by
    by_cases hfinite : x.isFinite = true
    · simp [finite, hfinite]
    · simp [finite, hfinite]
  | .arr items => by simp only [finite, finiteItems_finiteItems items]
  | .obj members => by simp only [finite, finiteMembers_finiteMembers members]

/-- Finite items are left as they are. -/
theorem finiteItems_finiteItems : ∀ items : List Json,
    finiteItems (finiteItems items) = finiteItems items
  | [] => rfl
  | x :: xs => by simp only [finiteItems, finite_finite x, finiteItems_finiteItems xs]

/-- Finite members are left as they are. -/
theorem finiteMembers_finiteMembers : ∀ members : List (String × Json),
    finiteMembers (finiteMembers members) = finiteMembers members
  | [] => rfl
  | (_, x) :: xs => by
    simp only [finiteMembers, finite_finite x, finiteMembers_finiteMembers xs]

end

mutual

/-- What is made finite stays as deep as it is. -/
theorem depth_finite : ∀ value : Json, value.finite.depth = value.depth
  | .null | .bool _ | .int _ | .str _ => rfl
  | .float x => by
    by_cases hfinite : x.isFinite = true
    · simp [finite, hfinite]
    · simp [finite, hfinite, depth]
  | .arr items => by simp only [finite, depth, depthOfItems_finiteItems items]
  | .obj members => by simp only [finite, depth, depthOfMembers_finiteMembers members]

/-- Items that are made finite stay as deep as they are. -/
theorem depthOfItems_finiteItems : ∀ items : List Json,
    depthOfItems (finiteItems items) = depthOfItems items
  | [] => rfl
  | x :: xs => by simp only [finiteItems, depthOfItems, depth_finite x, depthOfItems_finiteItems xs]

/-- Members that are made finite stay as deep as they are. -/
theorem depthOfMembers_finiteMembers : ∀ members : List (String × Json),
    depthOfMembers (finiteMembers members) = depthOfMembers members
  | [] => rfl
  | (_, x) :: xs => by
    simp only [finiteMembers, depthOfMembers, depth_finite x, depthOfMembers_finiteMembers xs]

end

/-- Members are made finite one by one. -/
theorem finiteMembers_eq_map (members : List (String × Json)) :
    finiteMembers members = members.map fun member => (member.1, member.2.finite) := by
  induction members with
  | nil => rfl
  | cons member members ih => rw [finiteMembers, ih, List.map_cons]

/-- What a field of any form comes back as: a float that is not finite is `null`, and so
it is absent. -/
def normalField (value : Option Json) : Option Json := (value.map finite).bind toOption

/-- A field that shows absence as `null` does not tell it from its normal form. -/
theorem ofOption_normalField (value : Option Json) :
    ofOption ((normalField value).map finite) = ofOption (value.map finite) := by
  cases value with
  | none => rfl
  | some value =>
    have hsame : ofOption (value.finite.toOption.map finite) = value.finite.finite := by
      cases value.finite <;> rfl
    rw [normalField, Option.map_some, Option.bind_some, hsame, finite_finite]
    rfl

end Json

/-! ## Fields -/

section Fields

variable {α : Type} {decode : Decoder α} {nulls : NullFields}
  {fields : List (String × Option Json)} {name : String} {value : Json} {a : α}

/-- A record that shows all fields has a member for each, `null` where there is no value. -/
theorem NullFields.record_shown (fields : List (String × Option Json)) :
    NullFields.record .shown fields =
      .obj (fields.map fun field => (field.1, Json.ofOption field.2)) := by
  have hmember : NullFields.member? .shown = fun field : String × Option Json =>
      some (field.1, Json.ofOption field.2) := by
    funext ⟨name, value⟩
    cases value <;> rfl
  rw [record, members, hmember, ← List.filterMap_eq_map]
  rfl

/-- A field with a value is a member of its name. -/
theorem NullFields.get?_members_of_some (hnodup : (fields.map Prod.fst).Nodup)
    (hfield : fields.lookup name = some (some value)) :
    Entries.get? (nulls.members fields) name = some value := by
  rw [nulls.get?_members hnodup, hfield]
  rfl

/-- A required field is read back, if its value is. -/
theorem Members.required_members (hnodup : (fields.map Prod.fst).Nodup)
    (hfield : fields.lookup name = some (some value)) (hvalue : decode value = .value a) :
    Members.required (nulls.members fields) name decode = .value a := by
  rw [required, NullFields.get?_members_of_some hnodup hfield]
  change (decode value).under _ = _
  rw [hvalue]
  rfl

/-- A field with a default is read back, if its value is. -/
theorem Members.withDefault_members {default : α} (hnodup : (fields.map Prod.fst).Nodup)
    (hfield : fields.lookup name = some (some value)) (hvalue : decode value = .value a) :
    Members.withDefault (nulls.members fields) name default decode = .value a := by
  rw [withDefault, NullFields.get?_members_of_some hnodup hfield, Decoder.given, hvalue]
  rfl

/-- A field that may be `null` and takes a default is read back, if its value is: where
there is none, the default does not come back if that is shown. -/
theorem Members.withDefault_nullable_members {encode : α → Json} {x default : Option α}
    (hnodup : (fields.map Prod.fst).Nodup)
    (hfield : fields.lookup name = some (x.map encode))
    (hvalue : ∀ a ∈ x, encode a ≠ .null ∧ decode (encode a) = .value a)
    (hshown : nulls = .shown ∨ x ≠ none) :
    Members.withDefault (nulls.members fields) name default (Decoder.nullable decode) =
      .value x := by
  cases x with
  | none =>
    obtain rfl : nulls = .shown := hshown.resolve_right (absurd rfl)
    rw [withDefault, NullFields.get?_members _ hnodup, hfield]
    rfl
  | some a =>
    -- the default does not count where there is a value
    rw [← optional_members nulls hnodup hfield hvalue, optional, withDefault, withDefault,
      NullFields.get?_members_of_some hnodup hfield]
    rfl

/-- An integer is taken as it is, unless it is below the minimum. -/
theorem Decoder.intFrom_int (low n : Int) :
    intFrom low (.int n) = if n < low then .defect .belowMinimum else .value n := rfl

/-- A field of any form is read back, where it is not `null`. -/
theorem Members.optional_any_members {x : Option Json} (hnodup : (fields.map Prod.fst).Nodup)
    (hfield : fields.lookup name = some (x.map Json.finite)) :
    Members.optional (nulls.members fields) name Decoder.any = .value (Json.normalField x) := by
  rw [optional, withDefault, nulls.get?_members hnodup, hfield, Json.normalField]
  cases x.map Json.finite with
  | none => cases nulls <;> rfl
  | some value => cases value <;> rfl

end Fields

open Decoded (map_of_eq_value seq_of_eq_value)
open Members (optional_members optional_members_map optional_any_members required_members
  withDefault_members withDefault_nullable_members)

variable (nulls : NullFields)

/-! ## Messages and chunks -/

/-- The normal form of a content has the same dump. -/
@[simp] theorem Content.dump_normal (content : Content) : content.normal.dump = content.dump := by
  cases content with
  | text s => rfl
  | parts items => simp [normal, dump, Json.finite_finite]

/-- The normal form of a message has the same dump. -/
@[simp] theorem Message.dump_normal (message : Message) :
    message.normal.dump nulls = message.dump nulls := by
  simp [normal, dump, Function.comp_def]

/-- The normal form of the fragment of a choice has the same dump. -/
@[simp] theorem ChunkChoice.dump_normal (choice : ChunkChoice) :
    choice.normal.dump nulls = choice.dump nulls := by
  simp [normal, dump, Function.comp_def]

/-- The normal form of a chunk has the same dump. -/
@[simp] theorem Chunk.dump_normal (chunk : Chunk) :
    chunk.normal.dump nulls = chunk.dump nulls := by
  simp [normal, dump, Function.comp_def]

/-! ## Completions -/

/-- A citation is read back from its dump. -/
theorem Cite.decode_dump (cite : Cite) : decode (cite.dump nulls) = .value cite := by
  refine seq_of_eq_value (seq_of_eq_value (map_of_eq_value _ ?_) ?_) ?_
  · exact optional_members nulls (by simp) rfl fun _ _ => ⟨by simp, rfl⟩
  · exact optional_members nulls (by simp) rfl fun _ _ => ⟨by simp, rfl⟩
  · exact optional_members nulls (by simp) rfl fun _ _ => ⟨by simp, rfl⟩

/-- An offset is read back from its dump. -/
theorem Offset.decode_dump (offset : Offset) : decode offset.dump = .value offset := by
  cases offset <;> rfl

/-- No offset is dumped as `null`. -/
theorem Offset.dump_ne_null (offset : Offset) : offset.dump ≠ .null := by
  cases offset <;> simp [dump]

/-- A mark is read back from its dump. -/
theorem Mark.decode_dump (mark : Mark) : decode (mark.dump nulls) = .value mark := by
  refine seq_of_eq_value (seq_of_eq_value (seq_of_eq_value (seq_of_eq_value
    (map_of_eq_value _ ?_) ?_) ?_) ?_) ?_
  · exact optional_members nulls (by simp) rfl fun _ _ => ⟨by simp, rfl⟩
  · exact optional_members nulls (by simp) rfl fun _ _ => ⟨by simp, rfl⟩
  · exact optional_members nulls (by simp) rfl fun offset _ =>
      ⟨offset.dump_ne_null, offset.decode_dump⟩
  · exact optional_members nulls (by simp) rfl fun offset _ =>
      ⟨offset.dump_ne_null, offset.decode_dump⟩
  · exact optional_members nulls (by simp) rfl fun _ _ => ⟨by simp, rfl⟩

/-- A marked answer is read back from its dump. -/
theorem MarkedText.decode_dump (text : MarkedText) : decode (text.dump nulls) = .value text := by
  refine seq_of_eq_value (map_of_eq_value _ ?_) ?_
  · exact optional_members nulls (by simp) rfl fun _ _ => ⟨by simp, rfl⟩
  · exact optional_members nulls (by simp) rfl fun _ _ =>
      ⟨by simp, Decoder.list_map fun mark _ => mark.decode_dump nulls⟩

/-- What an answer took from a knowledge base is read back from its dump. -/
theorem KnowledgeBase.decode_dump (base : KnowledgeBase) :
    decode (base.dump nulls) = .value base := by
  refine seq_of_eq_value (map_of_eq_value _ ?_) ?_
  · exact optional_members nulls (by simp) rfl fun _ _ =>
      ⟨by simp, Decoder.list_map fun cite _ => cite.decode_dump nulls⟩
  · exact optional_members nulls (by simp) rfl fun text _ =>
      ⟨nulls.record_ne_null _, text.decode_dump nulls⟩

namespace Choice

/-- The choice that is read back from a dump. -/
def normal (choice : Choice) : Choice :=
  { choice with message := choice.message.map Message.normal }

/-- A choice is read back from its dump in normal form. -/
theorem decode_dump (choice : Choice) : decode (choice.dump nulls) = .value choice.normal := by
  refine seq_of_eq_value (seq_of_eq_value (map_of_eq_value _ ?_) ?_) ?_
  · exact optional_members nulls (by simp) rfl fun _ _ => ⟨by simp, rfl⟩
  · exact optional_members_map nulls (by simp) rfl fun message _ =>
      ⟨nulls.record_ne_null _, message.decode_dump nulls⟩
  · exact FinishReason.field_members nulls (by simp) rfl

/-- The normal form of a choice has the same dump. -/
@[simp] theorem dump_normal (choice : Choice) : choice.normal.dump nulls = choice.dump nulls := by
  simp [normal, dump, Function.comp_def]

end Choice

namespace Completion

/-- The completion that is read back from a dump. -/
def normal (completion : Completion) : Completion :=
  { completion with choices := completion.choices.map (·.map Choice.normal) }

/-- A completion is read back from its dump in normal form. -/
theorem decode_dump (completion : Completion) :
    decode (completion.dump nulls) = .value completion.normal := by
  refine seq_of_eq_value (seq_of_eq_value (seq_of_eq_value (seq_of_eq_value (seq_of_eq_value
    (seq_of_eq_value (map_of_eq_value _ ?_) ?_) ?_) ?_) ?_) ?_) ?_
  · exact optional_members nulls (by simp) rfl fun _ _ => ⟨by simp, rfl⟩
  · exact optional_members nulls (by simp) rfl fun _ _ => ⟨by simp, rfl⟩
  · exact optional_members nulls (by simp) rfl fun _ _ => ⟨by simp, rfl⟩
  · exact optional_members nulls (by simp) rfl fun _ _ => ⟨by simp, rfl⟩
  · exact optional_members_map nulls (by simp) rfl fun choices _ =>
      ⟨by simp, Decoder.list_map_map fun choice _ => choice.decode_dump nulls⟩
  · exact optional_members nulls (by simp) rfl fun usage _ =>
      ⟨nulls.record_ne_null _, usage.decode_dump nulls⟩
  · exact optional_members nulls (by simp) rfl fun base _ =>
      ⟨nulls.record_ne_null _, base.decode_dump nulls⟩

/-- The normal form of a completion has the same dump. -/
@[simp] theorem dump_normal (completion : Completion) :
    completion.normal.dump nulls = completion.dump nulls := by
  simp [normal, dump, Function.comp_def]

end Completion

/-! ## Tools -/

namespace ToolFunction

/-- The function that is read back from a dump. -/
def normal (function : ToolFunction) : ToolFunction :=
  { function with parameters := Json.finiteMembers function.parameters }

/-- A function is read back from its dump in normal form. -/
theorem decode_dump (function : ToolFunction) :
    decode (function.dump nulls) = .value function.normal := by
  refine seq_of_eq_value (seq_of_eq_value (map_of_eq_value _ ?_) ?_) ?_
  · exact optional_members nulls (by simp) rfl fun _ _ => ⟨by simp, rfl⟩
  · exact required_members (by simp) rfl rfl
  · exact withDefault_members (by simp) rfl rfl

/-- The normal form of a function has the same dump. -/
@[simp] theorem dump_normal (function : ToolFunction) :
    function.normal.dump nulls = function.dump nulls := by
  simp [normal, dump, Json.finiteMembers_finiteMembers]

end ToolFunction

namespace FunctionTool

/-- The tool that is read back from a dump. -/
def normal (tool : FunctionTool) : FunctionTool :=
  { tool with function := tool.function.normal }

/-- A tool is read back from its dump in normal form. -/
theorem decode_dump (tool : FunctionTool) :
    decode (tool.dump nulls) = .value tool.normal := by
  refine seq_of_eq_value (map_of_eq_value _ ?_) ?_
  · exact withDefault_members (by simp) rfl rfl
  · exact required_members (by simp) rfl (tool.function.decode_dump nulls)

/-- The normal form of a tool has the same dump. -/
@[simp] theorem dump_normal (tool : FunctionTool) :
    tool.normal.dump nulls = tool.dump nulls := by
  simp [normal, dump]

end FunctionTool

/-- A retrieval is read back from its dump. -/
theorem Retrieval.decode_dump (retrieval : Retrieval) :
    decode (retrieval.dump nulls) = .value retrieval := by
  refine seq_of_eq_value (map_of_eq_value _ ?_) ?_
  · exact required_members (by simp) rfl (Decoder.list_map fun _ _ => rfl)
  · exact optional_members nulls (by simp) rfl fun _ _ => ⟨by simp, rfl⟩

/-- A retrieval tool is read back from its dump. -/
theorem RetrievalTool.decode_dump (tool : RetrievalTool) :
    decode (tool.dump nulls) = .value tool := by
  refine seq_of_eq_value (map_of_eq_value _ ?_) ?_
  · exact withDefault_members (by simp) rfl rfl
  · exact required_members (by simp) rfl (tool.retrieval.decode_dump nulls)

/-- A search is read back from its dump, if its mode is not blank. -/
theorem WebSearch.decode_dump {search : WebSearch}
    (hmode : Text.isBlankText search.searchMode = false) :
    decode (search.dump nulls) = .value search := by
  have hsame : decodeMode (.str search.searchMode) = .value search.searchMode := by
    rw [decodeMode, if_neg (by simp [hmode])]
  refine seq_of_eq_value (map_of_eq_value _ ?_) ?_
  · exact withDefault_members (by simp) rfl rfl
  · exact withDefault_members (by simp) rfl hsame

/-- A search tool is read back from its dump, if the mode of its search is not blank. -/
theorem WebSearchTool.decode_dump {tool : WebSearchTool}
    (hmode : Text.isBlankText tool.webSearch.searchMode = false) :
    decode (tool.dump nulls) = .value tool := by
  refine seq_of_eq_value (map_of_eq_value _ ?_) ?_
  · exact withDefault_members (by simp) rfl rfl
  · exact required_members (by simp) rfl (WebSearch.decode_dump nulls hmode)

/-! ## Requests -/

namespace OfferedTool

/-- The tools are values, as those that were decoded. -/
def AreValues (tools : Option (List OfferedTool)) : Prop :=
  ∀ list ∈ tools, ∃ values : List Json, list = values.map .value

/-- The tool that is read back from a dump. -/
def normal (tool : OfferedTool) : OfferedTool := .value (tool.dump .shown)

/-- Tools that are values are dumped as these, made finite. -/
theorem map_dump_value (values : List Json) :
    (values.map OfferedTool.value).map (·.dump nulls) = values.map Json.finite := by
  rw [List.map_map]
  rfl

variable {nulls} {tools : Option (List OfferedTool)}

/-- The field of tools that are values is read back in normal form. -/
theorem AreValues.optional_members (hvalues : AreValues tools)
    {fields : List (String × Option Json)} (hnodup : (fields.map Prod.fst).Nodup)
    (hfield : fields.lookup "tools" =
      some (tools.map fun tools => .arr (tools.map (·.dump nulls)))) :
    Members.optional (nulls.members fields) "tools" RequestDraft.decodeToolList =
      .value (tools.map (·.map normal)) := by
  refine optional_members_map nulls hnodup hfield fun list hlist => ⟨by simp, ?_⟩
  obtain ⟨values, rfl⟩ := hvalues list hlist
  rw [map_dump_value, RequestDraft.decodeToolList, Decoder.list_any]
  refine (map_of_eq_value _ rfl).trans ?_
  rw [List.map_map, List.map_map]
  rfl

/-- The normal forms of tools that are values have the same dumps. -/
theorem AreValues.dump_normal (hvalues : AreValues tools) :
    (tools.map (·.map normal)).map (fun list => Json.arr (list.map (·.dump .shown))) =
      tools.map fun list => Json.arr (list.map (·.dump .shown)) := by
  rw [Option.map_map]
  refine Option.map_congr fun list hlist => ?_
  obtain ⟨values, rfl⟩ := hvalues list hlist
  simp [normal, dump, Function.comp_def, Json.finite_finite]

end OfferedTool

namespace Request

variable {request : Request}

/-- What decoding makes sure of: a limit that is not negative, and tools that are values. -/
structure IsChecked (request : Request) : Prop where
  topK : ∀ k ∈ request.topK, 0 ≤ k
  tools : OfferedTool.AreValues request.tools

/-- The request that is read back from a dump. -/
def normal (request : Request) : Request :=
  { request with
    messages := request.messages.map Message.normal
    tools := request.tools.map (·.map OfferedTool.normal)
    toolChoice := Json.normalField request.toolChoice }

/-- A checked request is read back from its dump in normal form. If it has no model, that
has to be shown, as a request that says nothing of the model gets the default one. -/
theorem decode_dump (hchecked : request.IsChecked)
    (hmodel : nulls = .shown ∨ request.model ≠ none) :
    decode (request.dump nulls) = .value request.normal := by
  have htopK : ∀ k ∈ request.topK, Decoder.intFrom 0 (.int k) = .value k := fun k hk => by
    rw [Decoder.intFrom_int, if_neg (Int.not_lt.mpr (hchecked.topK k hk))]
  rw [dump, NullFields.record, decode_obj]
  refine seq_of_eq_value (seq_of_eq_value (seq_of_eq_value (seq_of_eq_value (seq_of_eq_value
    (seq_of_eq_value (seq_of_eq_value (seq_of_eq_value (map_of_eq_value _ ?_)
    ?_) ?_) ?_) ?_) ?_) ?_) ?_) ?_
  · exact required_members (by simp [fields]) rfl
      (Decoder.list_map_map fun message _ => message.decode_dump nulls)
  · exact withDefault_nullable_members (by simp [fields]) rfl
      (fun _ _ => ⟨by simp, rfl⟩) hmodel
  · exact optional_members nulls (by simp [fields]) rfl fun _ _ => ⟨by simp, rfl⟩
  · exact optional_members nulls (by simp [fields]) rfl fun _ _ => ⟨by simp, rfl⟩
  · exact optional_members nulls (by simp [fields]) rfl fun _ _ => ⟨by simp, rfl⟩
  · exact optional_members nulls (by simp [fields]) rfl fun k hk => ⟨by simp, htopK k hk⟩
  · exact optional_members nulls (by simp [fields]) rfl fun _ _ => ⟨by simp, rfl⟩
  · exact hchecked.tools.optional_members (by simp [fields]) rfl
  · exact optional_any_members (by simp [fields]) rfl

/-- The normal form of a checked request has the same dump. -/
theorem dump_normal (hchecked : request.IsChecked) :
    request.normal.dump .shown = request.dump .shown := by
  rw [dump, dump, NullFields.record_shown, NullFields.record_shown]
  simp [fields, normal, Function.comp_def, Json.ofOption_normalField, hchecked.tools.dump_normal]

end Request

namespace ChatOptions

variable {options : ChatOptions}

/-- The options that are read back from a dump. -/
def normal (options : ChatOptions) : ChatOptions :=
  { options with
    tools := options.tools.map (·.map OfferedTool.normal)
    toolChoice := Json.normalField options.toolChoice }

/-- Options whose tools are values are read back in normal form from a dump that shows all
fields. From another one they get the default temperature back, where they have none. -/
theorem decode_dump (htools : OfferedTool.AreValues options.tools) :
    decode (options.dump .shown) = .value options.normal := by
  rw [dump, NullFields.record, decode, Decoder.record, ofFields, RequestDraft.decodeTools_get?]
  refine seq_of_eq_value (seq_of_eq_value (seq_of_eq_value (seq_of_eq_value (seq_of_eq_value
    (seq_of_eq_value (map_of_eq_value _ ?_) ?_) ?_) ?_) ?_) ?_) ?_
  · exact withDefault_members (by simp) rfl rfl
  · exact withDefault_nullable_members (by simp) rfl (fun _ _ => ⟨by simp, rfl⟩) (.inl rfl)
  · exact optional_members .shown (by simp) rfl fun _ _ => ⟨by simp, rfl⟩
  · exact optional_members .shown (by simp) rfl fun _ _ => ⟨by simp, rfl⟩
  · exact optional_members .shown (by simp) rfl fun _ _ => ⟨by simp, rfl⟩
  · exact htools.optional_members (by simp) rfl
  · exact optional_any_members (by simp) rfl

/-- The normal form of options whose tools are values has the same dump. -/
theorem dump_normal (htools : OfferedTool.AreValues options.tools) :
    options.normal.dump .shown = options.dump .shown := by
  rw [dump, dump, NullFields.record_shown, NullFields.record_shown]
  simp [normal, Json.ofOption_normalField, htools.dump_normal]

end ChatOptions

namespace ChatProperties

variable {properties : ChatProperties}

/-- The properties that are read back from a dump. -/
def normal (properties : ChatProperties) : ChatProperties :=
  { properties with options := properties.options.normal }

/-- Properties are read back from a dump that shows all fields, as their options are. -/
theorem decode_dump (htools : OfferedTool.AreValues properties.options.tools) :
    decode (properties.dump .shown) = .value properties.normal := by
  refine seq_of_eq_value (map_of_eq_value _ ?_) ?_
  · exact withDefault_members (by simp) rfl rfl
  · exact withDefault_members (by simp) rfl (ChatOptions.decode_dump htools)

/-- The normal form of properties has the same dump, as that of their options has. -/
theorem dump_normal (htools : OfferedTool.AreValues properties.options.tools) :
    properties.normal.dump .shown = properties.dump .shown := by
  rw [dump, dump, normal, ChatOptions.dump_normal htools]

end ChatProperties

/-! ## What decoding makes sure of -/

variable {value : Json}

/-- A limit that was decoded is not below its minimum. -/
theorem Decoder.le_of_intFrom {low n : Int} (h : (intFrom low value).outcome = .ok n) :
    low ≤ n := by
  cases hint : int value with
  | mk notices outcome =>
    cases outcome with
    | error problems => simp [intFrom, hint] at h
    | ok m =>
      simp only [intFrom, hint] at h
      split at h
      · cases h
      · cases h
        omega

/-- Tools that were decoded are values. -/
theorem OfferedTool.areValues_of_optional {members : Members} {name : String}
    {tools : Option (List OfferedTool)}
    (h : (members.optional name RequestDraft.decodeToolList).outcome = .ok tools) :
    AreValues tools := by
  intro list hlist
  obtain ⟨value, _, hdecode⟩ := Members.member_of_optional h hlist
  obtain ⟨values, _, rfl⟩ := RequestDraft.values_of_decodeToolList hdecode
  exact ⟨values, rfl⟩

/-- A request that was decoded is checked. -/
theorem Request.isChecked_of_decode {request : Request}
    (hdecode : (decode value).outcome = .ok request) : request.IsChecked := by
  obtain ⟨members, _, _, htopK, htools, _⟩ := fields_of_decode hdecode
  refine ⟨fun k hk => ?_, OfferedTool.areValues_of_optional htools⟩
  obtain ⟨value, _, hint⟩ := Members.member_of_optional htopK hk
  exact Decoder.le_of_intFrom hint

/-- The tools of options that were decoded are values. -/
theorem ChatOptions.areValues_of_decode {options : ChatOptions}
    (hdecode : (decode value).outcome = .ok options) : OfferedTool.AreValues options.tools := by
  obtain ⟨members, _, htools, _⟩ := tools_of_decode hdecode
  exact OfferedTool.areValues_of_optional htools

/-- The tools of properties that were decoded are values. -/
theorem ChatProperties.areValues_of_decode {properties : ChatProperties}
    (hdecode : (decode value).outcome = .ok properties) :
    OfferedTool.AreValues properties.options.tools := by
  obtain ⟨_, hgiven⟩ := exists_decode_options hdecode
  exact ChatOptions.areValues_of_decode hgiven

/-- A mode that was decoded is not blank. -/
theorem WebSearch.isBlankText_of_decode {search : WebSearch}
    (hdecode : (decode value).outcome = .ok search) :
    Text.isBlankText search.searchMode = false := by
  have hdefault : Text.isBlankText defaultMode = false := by decide
  obtain ⟨members, _, hmode⟩ := mode_of_decode hdecode
  rcases Members.member_of_withDefault hmode with hmode | ⟨value, _, hmode⟩
  · rwa [hmode]
  · cases value with
    | null => rwa [← Except.ok.inj hmode]
    | str mode =>
      rw [← Except.ok.inj hmode]
      split
      · exact hdefault
      · rename_i hblank
        simpa using hblank
    | bool | int | float | arr | obj =>
      simp only [decodeMode] at hmode
      split at hmode <;> cases hmode

/-- The mode of the search of a tool that was decoded is not blank. -/
theorem WebSearchTool.isBlankText_of_decode {tool : WebSearchTool}
    (hdecode : (decode value).outcome = .ok tool) :
    Text.isBlankText tool.webSearch.searchMode = false := by
  obtain ⟨members, _, hsearch⟩ := webSearch_of_decode hdecode
  obtain ⟨value, _, hdecode⟩ := Members.member_of_required hsearch
  exact WebSearch.isBlankText_of_decode hdecode

end ChatClient
