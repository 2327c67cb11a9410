import ChatClient.Exchange.Answer
import ChatClient.Proofs.ChunkText
import ChatClient.Proofs.StreamReading

/-!
# What the arguments of a call say

The arguments of a call say everything about a request and nothing else: two requests
have the same arguments exactly if they agree in all but the stream flag and the
indexes of their tool calls. Values that a caller gives as JSON are passed on as they
are, with all their names and `null`s, and the names of the arguments themselves never
meet the flag that opens a stream.

The fields of the arguments are a record of their own. That they determine the request
goes back to the laws by which a record is found in its dump and read back from it.
-/

namespace ChatClient

/-! ## Finite values -/

namespace Json

mutual

/-- No float in the value is infinite or undefined. -/
def isFinite : Json → Bool
  | .float x => x.isFinite
  | .arr items => areFinite items
  | .obj members => areMembersFinite members
  | _ => true

/-- All items are finite. -/
def areFinite : List Json → Bool
  | [] => true
  | x :: xs => isFinite x && areFinite xs

/-- All members are finite. -/
def areMembersFinite : List (String × Json) → Bool
  | [] => true
  | (_, x) :: xs => isFinite x && areMembersFinite xs

end

mutual

/-- Nothing in a finite value has to be made finite. -/
theorem finite_of_isFinite : ∀ {value : Json}, value.isFinite = true → value.finite = value
  | .null, _ => rfl
  | .bool _, _ => rfl
  | .int _, _ => rfl
  | .float x, hfinite => by
    rw [isFinite] at hfinite
    rw [finite, if_pos hfinite]
  | .str _, _ => rfl
  | .arr items, hfinite => by
    rw [isFinite] at hfinite
    rw [finite, finiteItems_of_areFinite hfinite]
  | .obj members, hfinite => by
    rw [isFinite] at hfinite
    rw [finite, finiteMembers_of_areMembersFinite hfinite]

theorem finiteItems_of_areFinite : ∀ {items : List Json}, areFinite items = true →
    finiteItems items = items
  | [], _ => rfl
  | x :: xs, hfinite => by
    rw [areFinite, Bool.and_eq_true] at hfinite
    rw [finiteItems, finite_of_isFinite hfinite.1, finiteItems_of_areFinite hfinite.2]

theorem finiteMembers_of_areMembersFinite : ∀ {members : List (String × Json)},
    areMembersFinite members = true → finiteMembers members = members
  | [], _ => rfl
  | (_, x) :: xs, hfinite => by
    rw [areMembersFinite, Bool.and_eq_true] at hfinite
    rw [finiteMembers, finite_of_isFinite hfinite.1, finiteMembers_of_areMembersFinite hfinite.2]

end

end Json

/-- Lists are equal if a function makes the same of them that tells their members apart. -/
theorem eq_of_map_eq {α β : Type} {f : α → β} {xs ys : List α}
    (hinj : ∀ x ∈ xs, ∀ y ∈ ys, f x = f y → x = y) (hmap : xs.map f = ys.map f) : xs = ys := by
  induction xs generalizing ys with
  | nil => exact (List.map_eq_nil_iff.mp hmap.symm).symm
  | cons x xs ih =>
    cases ys with
    | nil => cases hmap
    | cons y ys =>
      rw [List.map_cons, List.map_cons, List.cons.injEq] at hmap
      have hhead : x = y := hinj x (by simp) y (by simp) hmap.1
      have htail : xs = ys :=
        ih (fun x hx y hy => hinj x (by simp [hx]) y (by simp [hy])) hmap.2
      rw [hhead, htail]

/-! ## Values of any form -/

namespace OfferedTool

/-- The tool is given as a value, and the value is finite. -/
def isFiniteValue : OfferedTool → Bool
  | .value given => given.isFinite
  | .record _ => false

/-- Such a tool is the value that is passed on. -/
theorem eq_value_dump {tool : OfferedTool} (hfinite : tool.isFiniteValue = true)
    (nulls : NullFields) : tool = .value (tool.dump nulls) := by
  cases tool with
  | value given => rw [dump, Json.finite_of_isFinite hfinite]
  | record _ => exact absurd hfinite Bool.false_ne_true

/-- Such a tool is passed on as it is given. -/
theorem dump_eq_plain {tool : OfferedTool} (hfinite : tool.isFiniteValue = true)
    (nulls : NullFields) : tool.dump nulls = tool.plain := by
  conv_rhs => rw [eq_value_dump hfinite nulls, plain]

end OfferedTool

namespace Content

/-- The JSON value of a content as it is given. -/
def plain : Content → Json
  | .text s => .str s
  | .parts items => .arr items

/-- All parts of the content are finite. -/
def hasFiniteParts : Content → Bool
  | .text _ => true
  | .parts items => items.all Json.isFinite

/-- A dump leaves finite parts as they are. -/
theorem isFinite_of_hasFiniteParts {content : Content} (hfinite : content.hasFiniteParts = true) :
    content.IsFinite := by
  cases content with
  | text _ => trivial
  | parts items =>
    exact fun part hpart => Json.finite_of_isFinite (List.all_eq_true.mp hfinite part hpart)

/-- A content with finite parts is passed on as it is given. -/
theorem dump_eq_plain {content : Content} (hfinite : content.hasFiniteParts = true) :
    content.dump = content.plain := by
  cases content with
  | text _ => rfl
  | parts items => exact (isFinite_of_hasFiniteParts hfinite).dump_parts

end Content

namespace Message

/-- The indexes that a message has lost are not lost again. -/
@[simp] theorem withoutIndexes_withoutIndexes (message : Message) :
    message.withoutIndexes.withoutIndexes = message.withoutIndexes := by
  cases hcalls : message.toolCalls <;> simp [withoutIndexes, hcalls, ToolCall.withoutIndex]

/-- Messages whose contents are finite are known from their dumps. -/
theorem dump_inj {nulls : NullFields} {message other : Message}
    (hmessage : ∀ content ∈ message.content, content.IsFinite)
    (hother : ∀ content ∈ other.content, content.IsFinite)
    (hdump : message.dump nulls = other.dump nulls) : message = other := by
  have hdecoded : Decoded.value message.normal = Decoded.value other.normal := by
    rw [← message.decode_dump nulls, hdump, other.decode_dump nulls]
  rw [normal_of_isFinite hmessage, normal_of_isFinite hother] at hdecoded
  injection hdecoded with _ houtcome
  exact Except.ok.inj houtcome

end Message

namespace Request

/-! ## Fields of the arguments -/

/-- The fields of the arguments, of which those without a value are not written. -/
def callFields (request : Request) : List (String × Option Json) :=
  request.sent.fields .omitted ++
    [("extra_body", request.topK.map fun k => .obj [("top_k", .int k)])]

/-- The fields have different names. -/
theorem nodup_callFields (request : Request) : (request.callFields.map Prod.fst).Nodup := by
  simp [callFields, fields]

/-- The arguments are the fields that have a value. -/
theorem callArguments_eq_members (request : Request) :
    request.callArguments = NullFields.omitted.members request.callFields := by
  rw [callArguments, callFields, NullFields.members, NullFields.members, List.filterMap_append]
  cases request.topK <;> rfl

/-- An argument is the value of its field. -/
theorem get?_callArguments (request : Request) {name : String} {value : Option Json}
    (hfield : request.callFields.lookup name = some value) :
    Entries.get? request.callArguments name = value := by
  rw [callArguments_eq_members, NullFields.omitted.get?_members request.nodup_callFields, hfield]
  cases value <;> rfl

/-- A field without a value names no argument. -/
theorem not_mem_names_callArguments (request : Request) {name : String}
    (hfield : request.callFields.lookup name = some none) :
    name ∉ request.callArguments.map Prod.fst := by
  have habsent : request.callArguments.lookup name = none := request.get?_callArguments hfield
  rw [List.lookup_eq_none_iff] at habsent
  intro hname
  obtain ⟨argument, hargument, rfl⟩ := List.mem_map.mp hname
  simpa using habsent argument hargument

/-- No argument meets the flag that opens a stream. -/
theorem nodup_streamArguments (request : Request) :
    (request.streamArguments.map Prod.fst).Nodup := by
  have harguments : (request.callArguments.map Prod.fst).Nodup := by
    rw [callArguments_eq_members]
    exact request.nodup_callFields.sublist (NullFields.omitted.names_members_sublist _)
  exact List.nodup_cons.mpr ⟨request.not_mem_names_callArguments rfl, harguments⟩

/-! ## What a request conveys -/

/-- The tools of the request are given as values, and all its values of any form
are finite. -/
structure IsFinite (request : Request) : Prop where
  contents : ∀ message ∈ request.messages, ∀ content ∈ message.content,
    content.hasFiniteParts = true
  tools : ∀ tools ∈ request.tools, ∀ tool ∈ tools, tool.isFiniteValue = true
  toolChoice : ∀ choice ∈ request.toolChoice, choice.isFinite = true

/-- The request apart from the stream flag and the indexes of its tool calls. -/
def conveyed (request : Request) : Request :=
  { request with messages := request.messages.map Message.withoutIndexes, stream := none }

section Fields

variable {request other : Request}

/-- Messages are known from their dumps, apart from the indexes of their tool calls. -/
theorem messages_eq_of_dumps (hfinite : request.IsFinite) (hother : other.IsFinite)
    (hdumps : (request.messages.map Message.withoutIndexes).map (·.dump .omitted) =
      (other.messages.map Message.withoutIndexes).map (·.dump .omitted)) :
    request.messages.map Message.withoutIndexes = other.messages.map Message.withoutIndexes := by
  have hcontents {request : Request} (hfinite : request.IsFinite) :
      ∀ message ∈ request.messages.map Message.withoutIndexes,
        ∀ content ∈ message.content, content.IsFinite := by
    intro message hmessage content hcontent
    obtain ⟨given, hgiven, rfl⟩ := List.mem_map.mp hmessage
    exact Content.isFinite_of_hasFiniteParts (hfinite.contents given hgiven content hcontent)
  exact eq_of_map_eq (fun x hx y hy => Message.dump_inj (hcontents hfinite x hx)
    (hcontents hother y hy)) hdumps

/-- Finite tools are known from their dumps. -/
theorem tools_eq_of_dumps (hfinite : request.IsFinite) (hother : other.IsFinite)
    (hdumps : (request.tools.map fun tools => Json.arr (tools.map (·.dump .omitted))) =
      other.tools.map fun tools => Json.arr (tools.map (·.dump .omitted))) :
    request.tools = other.tools := by
  cases htools : request.tools with
  | none => cases hothers : other.tools <;> simp_all
  | some tools =>
    cases hothers : other.tools with
    | none => simp_all
    | some others =>
      have hvalues : tools.map (·.dump .omitted) = others.map (·.dump .omitted) := by
        simpa [htools, hothers] using hdumps
      refine congrArg some (eq_of_map_eq (fun x hx y hy heq => ?_) hvalues)
      rw [OfferedTool.eq_value_dump (hfinite.tools tools htools x hx) .omitted, heq,
        ← OfferedTool.eq_value_dump (hother.tools others hothers y hy)]

/-- A finite choice is passed on as it is. -/
theorem IsFinite.map_toolChoice (hfinite : request.IsFinite) :
    request.toolChoice.map Json.finite = request.toolChoice := by
  cases hchoice : request.toolChoice with
  | none => rfl
  | some choice => exact congrArg some (Json.finite_of_isFinite (hfinite.toolChoice choice hchoice))

/-- Arguments say everything that a request conveys. -/
theorem conveyed_eq_of_callArguments (hfinite : request.IsFinite) (hother : other.IsFinite)
    (harguments : request.callArguments = other.callArguments) :
    request.conveyed = other.conveyed := by
  -- each field is looked up under its name, on both sides
  have hfield (name : String) {value value' : Option Json}
      (hvalue : request.callFields.lookup name = some value)
      (hvalue' : other.callFields.lookup name = some value') : value = value' := by
    rw [← request.get?_callArguments hvalue, harguments, other.get?_callArguments hvalue']
  have hmessages := hfield "messages" rfl rfl
  have hmodel := hfield "model" rfl rfl
  have htemperature := hfield "temperature" rfl rfl
  have htopP := hfield "top_p" rfl rfl
  have hmaxTokens := hfield "max_tokens" rfl rfl
  have htools := hfield "tools" rfl rfl
  have hchoice := hfield "tool_choice" rfl rfl
  have hbody := hfield "extra_body" rfl rfl
  rw [Option.some.injEq, Json.arr.injEq] at hmessages
  rw [conveyed, conveyed, Request.mk.injEq]
  refine ⟨messages_eq_of_dumps hfinite hother hmessages, ?_, rfl, ?_, ?_, ?_, ?_,
    tools_eq_of_dumps hfinite hother htools, ?_⟩
  · exact Option.map_injective (fun _ _ => Json.str.inj) hmodel
  · exact Option.map_injective (fun _ _ => Json.float.inj) htemperature
  · exact Option.map_injective (fun _ _ => Json.float.inj) htopP
  · exact Option.map_injective (fun _ _ h => by simpa using h) hbody
  · exact Option.map_injective (fun _ _ => Json.int.inj) hmaxTokens
  · rw [← hfinite.map_toolChoice, ← hother.map_toolChoice]
    exact hchoice

/-- Arguments say nothing but what a request conveys. -/
theorem callArguments_conveyed (request : Request) :
    request.conveyed.callArguments = request.callArguments := by
  simp [callArguments, sent, conveyed, Function.comp_def]

end Fields

/-! ## Requests that are not too deep -/

/-- The values of any form in a message are the parts of its content. -/
theorem freeParts_message (message : Message) :
    RecordKind.message.freeParts .value (message.dump .omitted) =
      (message.content.map Content.dump).toList.flatMap (Json.partsAt .each) := by
  rw [RecordKind.freeParts, RecordKind.freePaths, RecordKind.messagePaths, List.flatMap_singleton,
    Json.partsAlong_cons, Message.dump, NullFields.partsAt_omitted (by simp) rfl]
  exact List.flatMap_congr fun value _ => List.flatMap_singleton _ _

/-- Whether a request is too deep is a matter of what it conveys. -/
theorem isSendable_conveyed (request : Request) :
    request.conveyed.isSendable = request.isSendable := by
  have hdepths : request.conveyed.freeDepths = request.freeDepths := by
    simp only [freeDepths, freeParts_message, conveyed, List.flatMap_map]
    rfl
  rw [isSendable, isSendable, hdepths]

/-- The keyword arguments of the call for a request: its arguments, unless its dump is
too deep. -/
def keywordArguments (request : Request) : Except Failure Members := do
  let _ ← request.dumped .omitted
  return request.callArguments

theorem keywordArguments_eq (request : Request) :
    request.keywordArguments =
      if request.isSendable then .ok request.callArguments else .error .tooDeep := by
  rw [keywordArguments, dumped]
  split <;> rfl

/-- Keyword arguments say nothing but what a request conveys. -/
theorem keywordArguments_conveyed (request : Request) :
    request.conveyed.keywordArguments = request.keywordArguments := by
  rw [keywordArguments_eq, keywordArguments_eq, isSendable_conveyed, callArguments_conveyed]

/-! ## Faithful arguments -/

/-- The values of any form that a request holds are passed on as they are given: the
contents of its messages, its tools and the choice among them. -/
structure PassedOn (request : Request) (arguments : Members) : Prop where
  contents : ∃ dumps, arguments.get? "messages" = some (.arr dumps) ∧
    dumps.map (Json.partsAt (.member "content")) =
      request.messages.map fun message => (message.content.map Content.plain).toList
  tools : arguments.get? "tools" =
    request.tools.map fun tools => .arr (tools.map OfferedTool.plain)
  toolChoice : arguments.get? "tool_choice" = request.toolChoice

/-- Finite values are passed on as they are given. -/
theorem IsFinite.passedOn {request : Request} (hfinite : request.IsFinite) :
    request.PassedOn request.callArguments := by
  refine ⟨⟨_, request.get?_callArguments rfl, ?_⟩, ?_, ?_⟩
  · rw [sent, List.map_map, List.map_map]
    refine List.map_congr_left fun message hmessage => ?_
    have hcontent : message.content.map Content.dump = message.content.map Content.plain :=
      Option.map_congr fun content hmem =>
        Content.dump_eq_plain (hfinite.contents message hmessage content hmem)
    exact (NullFields.partsAt_omitted (by simp) rfl).trans (congrArg Option.toList hcontent)
  · refine (request.get?_callArguments rfl).trans (Option.map_congr fun tools htools => ?_)
    exact congrArg Json.arr (List.map_congr_left fun tool htool =>
      OfferedTool.dump_eq_plain (hfinite.tools tools htools tool htool) .omitted)
  · exact (request.get?_callArguments rfl).trans hfinite.map_toolChoice

/-- Keyword arguments are those of another request exactly if the two convey the same. -/
theorem keywordArguments_eq_iff {request other : Request} (hsend : request.isSendable = true)
    (hfinite : request.IsFinite) (hother : other.IsFinite) :
    request.keywordArguments = other.keywordArguments ↔ request.conveyed = other.conveyed := by
  constructor
  · intro hequal
    rw [keywordArguments_eq, if_pos hsend, keywordArguments_eq] at hequal
    -- the other request is not too deep either, as it has arguments
    split at hequal
    · exact conveyed_eq_of_callArguments hfinite hother (Except.ok.inj hequal)
    · cases hequal
  · intro hequal
    rw [← keywordArguments_conveyed request, hequal, keywordArguments_conveyed]

/-- **Faithful arguments.** A request that is not too deep has keyword arguments. Neither
the stream flag nor `top_k` is one of them, so they go along with the flag that opens a
stream. If the values of the request are finite, they are passed on as they are given,
and the arguments are those of another such request exactly if the two agree in all but
the stream flag and the indexes of their tool calls. -/
theorem keywordArguments_faithful {request : Request} (hsend : request.isSendable = true) :
    ∃ arguments, request.keywordArguments = .ok arguments ∧
      "stream" ∉ arguments.map Prod.fst ∧ "top_k" ∉ arguments.map Prod.fst ∧
      request.streamArguments = ("stream", .bool true) :: arguments ∧
      (request.streamArguments.map Prod.fst).Nodup ∧
      (request.IsFinite → request.PassedOn arguments ∧ ∀ other : Request, other.IsFinite →
        (request.keywordArguments = other.keywordArguments ↔
          request.conveyed = other.conveyed)) := by
  refine ⟨request.callArguments, by rw [keywordArguments_eq, if_pos hsend],
    request.not_mem_names_callArguments rfl, request.not_mem_names_callArguments rfl, rfl,
    request.nodup_streamArguments, fun hfinite => ⟨hfinite.passedOn, fun other hother => ?_⟩⟩
  exact keywordArguments_eq_iff hsend hfinite hother

/-- A request whose values hold `null`s and the names of what is not sent itself. -/
def guarded : Request :=
  { messages := [{ content := some (.parts [.obj [("index", .null), ("stream", .bool true)]])
                   role := some .assistant, name := none, toolCallId := none
                   toolCalls := some [⟨some 0, some "a", none, none⟩] }]
    model := some ChatModel.default, stream := some true, temperature := none, topP := none
    topK := some 0, maxTokens := none, tools := some [.value (.obj [("top_k", .null)])]
    toolChoice := some (.obj [("stream", .null), ("index", .int 1)]) }

/-- Without the flag and the index the request has the same arguments, without `top_k`
it has others. -/
theorem keywordArguments_faithful_guarded :
    guarded.isSendable = true ∧ guarded.IsFinite ∧
      guarded.keywordArguments = guarded.conveyed.keywordArguments ∧
      guarded.keywordArguments ≠ { guarded with topK := none }.keywordArguments ∧
      ∃ arguments, guarded.keywordArguments = .ok arguments ∧
        arguments.get? "tools" = some (.arr [.obj [("top_k", .null)]]) := by
  have hsend : guarded.isSendable = true := by decide
  have hfinite : guarded.IsFinite := ⟨by decide, by decide, by decide⟩
  have hconveyed : guarded.conveyed.IsFinite := ⟨by decide, by decide, by decide⟩
  have hother : { guarded with topK := none }.IsFinite := ⟨by decide, by decide, by decide⟩
  obtain ⟨arguments, harguments, _, _, _, _, hrest⟩ := keywordArguments_faithful hsend
  obtain ⟨hpassed, hiff⟩ := hrest hfinite
  refine ⟨hsend, hfinite, (hiff _ hconveyed).mpr (by decide), fun hequal => ?_, arguments,
    harguments, hpassed.tools⟩
  exact absurd ((hiff _ hother).mp hequal) (by decide)

/-- Keyword arguments do not tell all requests apart: those that are too deep have none. -/
theorem not_forall_keywordArguments_eq_iff :
    ¬∀ request other : Request, request.IsFinite → other.IsFinite →
      (request.keywordArguments = other.keywordArguments ↔
        request.conveyed = other.conveyed) := by
  intro hall
  have hcontents : ∀ message ∈ deep.messages, ∀ content ∈ message.content,
      content.hasFiniteParts = true := by decide +kernel
  have hdeep : deep.IsFinite := ⟨hcontents, by decide, by decide⟩
  have hother : { deep with model := none }.IsFinite := ⟨hcontents, by decide, by decide⟩
  have hnone : deep.keywordArguments = { deep with model := none }.keywordArguments := by
    have hsend : deep.isSendable = false := by decide +kernel
    have hsendOther : { deep with model := none }.isSendable = false := by decide +kernel
    rw [keywordArguments_eq, keywordArguments_eq, hsend, hsendOther]
    rfl
  have hconveyed := (hall deep _ hdeep hother).mp hnone
  exact absurd (congrArg model hconveyed) (by decide)

end Request

end ChatClient
