import ChatClient.Proofs.Agreement
import ChatClient.Proofs.CallArguments
import ChatClient.Proofs.LoadedOptions

/-!
# Tools of options

A request can be built from options, or from their fields one by one. The two ways differ
in the tools alone: options write the records among them out as values. A value keeps its
`null`s when it is sent, while a record loses them, and a value is deeper than the record
was. So the requests of the two ways are sent alike exactly if every record among the
tools is complete and none becomes too deep, or if they cannot be sent anyway.
-/

namespace ChatClient

/-! ## Complete records -/

namespace NullFields

variable (nulls : NullFields) (name : String) (fields : List (String × Option Json))

@[simp] theorem members_nil : nulls.members [] = [] := rfl

@[simp] theorem members_cons_some (value : Json) :
    nulls.members ((name, some value) :: fields) = (name, value) :: nulls.members fields := rfl

@[simp] theorem members_shown_cons_none :
    shown.members ((name, none) :: fields) = (name, .null) :: shown.members fields := rfl

@[simp] theorem members_omitted_cons_none :
    omitted.members ((name, none) :: fields) = omitted.members fields := rfl

/-- A record is left as it is, if the values of its fields are. -/
theorem finite_record {fields : List (String × Option Json)}
    (hfields : ∀ field ∈ fields, ∀ value ∈ field.2, value.finite = value) :
    (nulls.record fields).finite = nulls.record fields := by
  have hmembers : ∀ member ∈ nulls.members fields, (member.1, member.2.finite) = member := by
    rintro ⟨name, value⟩ hmember
    rcases mem_members hmember with hfield | hnull
    · rw [hfields _ hfield value rfl]
    · obtain rfl : value = .null := hnull
      rfl
  rw [record, Json.finite, Json.finiteMembers_eq_map, List.map_congr_left hmembers, List.map_id']

end NullFields

variable (nulls : NullFields)

namespace ToolFunction

/-- What a function is written as is finite already. -/
theorem finite_dump (function : ToolFunction) :
    (function.dump nulls).finite = function.dump nulls :=
  nulls.finite_record (by simp [Json.finite, Json.finiteMembers_finiteMembers])

/-- A function with a description is written alike with `null`s and without. -/
theorem dump_shown_eq_iff (function : ToolFunction) :
    function.dump .shown = function.dump .omitted ↔ function.description.isSome = true := by
  cases hdescription : function.description <;> simp [dump, hdescription, NullFields.record]

end ToolFunction

namespace Retrieval

/-- What a retrieval is written as is finite already. -/
theorem finite_dump (retrieval : Retrieval) :
    (retrieval.dump nulls).finite = retrieval.dump nulls := by
  have htexts : Json.finiteItems (retrieval.knowledgeBases.map .str) =
      retrieval.knowledgeBases.map .str :=
    Json.finiteItems_of_arePlain (by simp [Json.isPlain, Json.arePlain_iff])
  exact nulls.finite_record (by simp [Json.finite, htexts])

/-- A retrieval with an answer mode is written alike with `null`s and without. -/
theorem dump_shown_eq_iff (retrieval : Retrieval) :
    retrieval.dump .shown = retrieval.dump .omitted ↔ retrieval.answerMode.isSome = true := by
  cases hmode : retrieval.answerMode <;> simp [dump, hmode, NullFields.record]

end Retrieval

/-- What a search is written as is finite already. -/
theorem WebSearch.finite_dump (search : WebSearch) :
    (search.dump nulls).finite = search.dump nulls :=
  nulls.finite_record (by simp [Json.finite])

namespace ToolRecord

/-- No field of the record is without a value. -/
def isComplete : ToolRecord → Bool
  | .function record => record.description.isSome
  | .functionTool record => record.function.description.isSome
  | .retrieval record => record.answerMode.isSome
  | .retrievalTool record => record.retrieval.answerMode.isSome
  | .webSearch _ | .webSearchTool _ => true

/-- A record is written alike with `null`s and without exactly if it is complete. -/
theorem dump_shown_eq_iff (record : ToolRecord) :
    record.dump .shown = record.dump .omitted ↔ record.isComplete = true := by
  cases record with
  | function record => exact record.dump_shown_eq_iff
  | functionTool record =>
    simpa [dump, isComplete, FunctionTool.dump, NullFields.record] using
      record.function.dump_shown_eq_iff
  | retrieval record => exact record.dump_shown_eq_iff
  | retrievalTool record =>
    simpa [dump, isComplete, RetrievalTool.dump, NullFields.record] using
      record.retrieval.dump_shown_eq_iff
  | webSearch record => exact iff_of_true rfl rfl
  | webSearchTool record => exact iff_of_true rfl rfl

/-- What a record is written as is finite already. -/
theorem finite_dump (record : ToolRecord) : (record.dump nulls).finite = record.dump nulls := by
  cases record with
  | function record => exact record.finite_dump nulls
  | functionTool record =>
    exact nulls.finite_record (by simp [Json.finite, record.function.finite_dump])
  | retrieval record => exact record.finite_dump nulls
  | retrievalTool record =>
    exact nulls.finite_record (by simp [Json.finite, record.retrieval.finite_dump])
  | webSearch record => exact record.finite_dump nulls
  | webSearchTool record =>
    exact nulls.finite_record (by simp [Json.finite, record.webSearch.finite_dump])

end ToolRecord

namespace OfferedTool

/-- The tool is a value, or a complete record. -/
def isComplete : OfferedTool → Bool
  | .value _ => true
  | .record described => described.isComplete

/-- A tool is sent as if it was written out exactly if it is complete. -/
theorem dump_writtenOut_eq_iff (tool : OfferedTool) :
    tool.writtenOut.dump .omitted = tool.dump .omitted ↔ tool.isComplete = true := by
  cases tool with
  | value given => exact iff_of_true rfl rfl
  | record described =>
    rw [writtenOut, plain, dump, described.finite_dump]
    exact described.dump_shown_eq_iff

/-- All tools are complete. -/
def AreComplete (tools : Option (List OfferedTool)) : Prop :=
  ∀ list ∈ tools, ∀ tool ∈ list, tool.isComplete = true

/-- Tools are sent as if they were written out exactly if they are complete. -/
theorem map_dump_writtenOut_iff (tools : Option (List OfferedTool)) :
    ((tools.map (·.map writtenOut)).map fun tools => Json.arr (tools.map (·.dump .omitted))) =
        (tools.map fun tools => Json.arr (tools.map (·.dump .omitted))) ↔ AreComplete tools := by
  cases tools with
  | none => simp [AreComplete]
  | some list => simp [AreComplete, dump_writtenOut_eq_iff]

end OfferedTool

/-! ## Tools that are written out are deeper -/

namespace Json

/-- What a path leads to lies as many levels deeper as the path has steps, at least. -/
theorem depth_add_length_le {path : List PathStep} {value part : Json}
    (hpart : part ∈ partsAlong path value) : part.depth + path.length ≤ value.depth := by
  induction path generalizing value with
  | nil =>
    obtain rfl : part = value := by simpa [partsAlong] using hpart
    exact Nat.le_refl _
  | cons step path ih =>
    rw [partsAlong_cons] at hpart
    obtain ⟨middle, hmiddle, hrest⟩ := List.mem_flatMap.mp hpart
    have hless := depth_lt_of_mem_partsAt hmiddle
    have hle := ih hrest
    rw [List.length_cons]
    omega

end Json

/-- A value of any form is never a whole record. -/
theorem RecordKind.ne_nil_of_mem_freePaths {kind : RecordKind} {form : DumpForm}
    {path : List Json.PathStep} (hpath : path ∈ kind.freePaths form) : path ≠ [] := by
  rintro rfl
  revert hpath
  cases kind <;> cases form <;> decide

/-- A record is no deeper than the value that it is written out as. -/
theorem ToolRecord.depth_le_depth_dump (record : ToolRecord) :
    record.depth ≤ (record.dump .shown).depth := by
  have hparts : Json.depthOfItems (record.kind.freeParts .value (record.dump .shown)) ≤
      (record.dump .shown).depth - 1 := by
    refine Json.depthOfItems_le fun part hpart => ?_
    obtain ⟨path, hpath, hpart⟩ := List.mem_flatMap.mp hpart
    have hsteps := List.length_pos_of_ne_nil (RecordKind.ne_nil_of_mem_freePaths hpath)
    have hle := Json.depth_add_length_le hpart
    omega
  have hpos := (record.dump .shown).depth_pos
  rw [depth]
  omega

/-- A tool is no deeper than the value that it is written out as. -/
theorem OfferedTool.depth_le_depth_writtenOut (tool : OfferedTool) :
    tool.depth ≤ tool.writtenOut.depth := by
  cases tool with
  | value given => exact Nat.le_refl _
  | record described => exact described.depth_le_depth_dump

/-! ## Requests with complete tools -/

namespace Request

/-- The request with its tools written out. -/
def writtenOut (request : Request) : Request :=
  { request with tools := request.tools.map (·.map .writtenOut) }

/-- A request that can be sent with its tools written out can be sent without that. -/
theorem isSendable_of_writtenOut {request : Request}
    (hsend : request.writtenOut.isSendable = true) : request.isSendable = true := by
  simp only [isSendable, freeDepths, writtenOut, List.all_append, Bool.and_eq_true] at hsend ⊢
  obtain ⟨⟨hmessages, htools⟩, hchoice⟩ := hsend
  refine ⟨⟨hmessages, ?_⟩, hchoice⟩
  cases hlist : request.tools with
  | none => rfl
  | some tools =>
    simp only [hlist, Option.map_some, Option.getD_some, List.all_map, List.all_eq_true,
      Function.comp_apply, decide_eq_true_eq] at htools ⊢
    exact fun tool htool => (tool.depth_le_depth_writtenOut).trans (htools tool htool)

/-- The arguments do not depend on how the tools are given exactly if these are complete. -/
theorem callArguments_writtenOut_iff (request : Request) :
    request.writtenOut.callArguments = request.callArguments ↔
      OfferedTool.AreComplete request.tools := by
  rw [← OfferedTool.map_dump_writtenOut_iff]
  constructor
  · intro hequal
    -- the tools are an argument of their own, which is looked up on both sides
    have hfield := congrArg (Entries.get? · "tools") hequal
    exact (request.writtenOut.get?_callArguments rfl).symm.trans
      (hfield.trans (request.get?_callArguments rfl))
  · intro htools
    simp only [callArguments, sent, fields, writtenOut, htools]

/-- The keyword arguments do not depend on how the tools are given, if there are none, or
exactly if the tools are complete and do not become too deep. -/
theorem keywordArguments_writtenOut_iff (request : Request) :
    request.writtenOut.keywordArguments = request.keywordArguments ↔
      (request.isSendable = true →
        request.writtenOut.isSendable = true ∧ OfferedTool.AreComplete request.tools) := by
  rw [keywordArguments_eq, keywordArguments_eq]
  cases hsend : request.isSendable with
  | false =>
    have hsendOut : request.writtenOut.isSendable = false := by
      rw [Bool.eq_false_iff]
      intro hsendOut
      rw [isSendable_of_writtenOut hsendOut] at hsend
      cases hsend
    rw [hsendOut]
    exact iff_of_true rfl nofun
  | true =>
    cases hsendOut : request.writtenOut.isSendable with
    | false => exact iff_of_false nofun fun hboth => absurd (hboth rfl).1 nofun
    | true => simpa using request.callArguments_writtenOut_iff

end Request

/-! ## Two ways to a request -/

/-- Tools as they are offered, if there are any. -/
def OfferedTools.ofOption : Option (List OfferedTool) → OfferedTools
  | some list => .tools list
  | none => .value .null

/-- Tools that are listed already are taken as they are. -/
theorem RequestDraft.decodeTools_ofOption (tools : Option (List OfferedTool)) :
    decodeTools (some (.ofOption tools)) = .value tools := by
  cases tools <;> rfl

namespace ChatOptions

/-- The draft to which the fields of the options are passed on one by one. -/
def passedOn (options : ChatOptions) (messages : List Message) (stream : Json) :
    RequestDraft where
  messages := some (.records messages)
  model := some (.str options.model)
  stream := some stream
  temperature := some (.ofOption (options.temperature.map .float))
  topP := some (.ofOption (options.topP.map .float))
  topK := some (.ofOption (options.topK.map .int))
  maxTokens := some (.ofOption (options.maxTokens.map .int))
  tools := some (.ofOption options.tools)
  toolChoice := some (.ofOption options.toolChoice)

open Decoded (Agree)

section TwoWays

variable (options : ChatOptions) (messages : List Message) (stream : Json)

/-- What the fields of the options give. -/
theorem outcome_passedOn :
    (options.passedOn messages stream).decode.outcome =
      (options.checked stream).outcome.map fun flag =>
        { options.carried messages flag with
          toolChoice := options.toolChoice.bind Json.toOption } :=
  options.outcome_decode_draft messages stream (RequestDraft.decodeTools_ofOption options.tools)

/-- What the options give is what their fields give, with the tools written out. -/
theorem outcome_toRequest_eq_map :
    (options.toRequest messages stream).outcome =
      (options.passedOn messages stream).decode.outcome.map Request.writtenOut := by
  rw [outcome_passedOn]
  refine (options.outcome_decode_draft messages stream
    (RequestDraft.decodeTools_plain options.tools)).trans ?_
  cases (options.checked stream).outcome <;> rfl

variable {options messages stream} in
/-- The fields of the options give a request with the tools of the options. -/
theorem tools_of_passedOn {direct : Request}
    (hdirect : (options.passedOn messages stream).decode.outcome = .ok direct) :
    direct.tools = options.tools := by
  rw [outcome_passedOn] at hdirect
  cases hchecked : (options.checked stream).outcome with
  | error problems =>
    rw [hchecked] at hdirect
    cases hdirect
  | ok flag =>
    rw [hchecked] at hdirect
    cases hdirect
    rfl

/-- **Two ways to a request.** What options make of messages and a flag agrees with what
their fields make of them: both fail with the same problems, or both give a request, and
these differ only in that the options write their tools out. The keyword arguments of the
two agree exactly if the tools of the options are complete and can be sent written out, or
if there are none since the request is too deep either way. -/
theorem agree_keywordArguments_iff :
    Agree (fun request direct => request = direct.writtenOut)
        (options.toRequest messages stream).outcome
        (options.passedOn messages stream).decode.outcome ∧
      (Agree (fun request direct => request.keywordArguments = direct.keywordArguments)
          (options.toRequest messages stream).outcome
          (options.passedOn messages stream).decode.outcome ↔
        ∀ direct, (options.passedOn messages stream).decode.outcome = .ok direct →
          direct.isSendable = true →
            direct.writtenOut.isSendable = true ∧ OfferedTool.AreComplete options.tools) := by
  rw [outcome_toRequest_eq_map]
  refine ⟨Agree.map_self_iff.mpr fun _ _ => rfl, Agree.map_self_iff.trans ?_⟩
  refine forall₂_congr fun direct hdirect => ?_
  rw [direct.keywordArguments_writtenOut_iff, tools_of_passedOn hdirect]

end TwoWays

/-- Options with a retrieval that says nothing of what to do when nothing is found. -/
def retrieving : ChatOptions :=
  { ChatProperties.defaultOptions with
    tools := some [.record (.retrievalTool ⟨"retrieval", ⟨["kb"], none⟩⟩)] }

/-- The two ways do not agree for all options: a retrieval loses its `null` on one of them. -/
theorem not_forall_agree_keywordArguments :
    ¬∀ (options : ChatOptions) (messages : List Message) (stream : Bool),
      Agree (fun request direct => request.keywordArguments = direct.keywordArguments)
        (options.toRequest messages (.bool stream)).outcome
        (options.passedOn messages (.bool stream)).decode.outcome := by
  intro hall
  have hagree := hall retrieving [] false
  rw [outcome_toRequest_eq_map, Agree.map_self_iff] at hagree
  have hdirect : (retrieving.passedOn [] (.bool false)).decode.outcome =
      .ok (retrieving.carried [] (some false)) := rfl
  exact absurd (hagree _ hdirect) (by decide)

end ChatOptions

end ChatClient
