import ChatClient.Failure
import ChatClient.Proofs.ShallowRecords
import ChatClient.Record.Depth

/-!
# Dumps are stable

A value is decoded to a record, and the record is dumped. What is dumped with all fields is
decoded again and dumped to the same, for every kind of record. A dump without null fields
is decoded too and leads to the same dump with all fields, where every field that it leaves
out has no other default than `null`.
-/

namespace ChatClient

open Decoder (KeepsShallow)

section Redump

variable {α : Type} {decode : Decoder α} {dump : NullFields → α → Json} {nulls : NullFields}
  {value written full : Json}

/-- A record that is read back from a dump, if only in another form with the same dump, is
dumped to the same again. -/
theorem Decoded.exists_restored (hdecode : (dump .shown <$> decode value).outcome = .ok full)
    (hread : ∀ a, (decode value).outcome = .ok a →
      ∃ b, decode (dump nulls a) = .value b ∧ dump .shown b = dump .shown a) :
    ∃ written, (dump nulls <$> decode value).outcome = .ok written ∧
      dump .shown <$> decode written = .value full := by
  obtain ⟨a, ha, rfl⟩ := outcome_map_eq_ok_iff.mp hdecode
  obtain ⟨b, hb, hsame⟩ := hread a ha
  refine ⟨dump nulls a, outcome_map_eq_ok_iff.mpr ⟨a, ha, rfl⟩, ?_⟩
  rw [hb, ← hsame]
  rfl

/-- A dump is not too deep, if nothing deep was decoded. -/
theorem RecordKind.isWithinDepth_of_keepsShallow {kind : RecordKind}
    (hkeeps : ∀ path ∈ kind.freePaths .value, KeepsShallow decode (dump nulls) path)
    (hdecode : (dump nulls <$> decode value).outcome = .ok written)
    (hdepth : kind.isWithinDepth .value value = true) :
    kind.isWithinDepth .value written = true := by
  obtain ⟨a, ha, rfl⟩ := Decoded.outcome_map_eq_ok_iff.mp hdecode
  rw [isWithinDepth_iff] at hdepth ⊢
  exact fun path hpath => hkeeps path hpath ha (hdepth path hpath)

end Redump

open Decoded (exists_restored)

namespace RecordKind

variable {kind : RecordKind} {nulls : NullFields} {value written full : Json}

/-- The fields that have no value in the decoded record have no other default than `null`. -/
def OmitsOnlyNulls (value : Json) : RecordKind → Prop
  | .request => ∀ request, (Request.decode value).outcome = .ok request → request.model ≠ none
  | .chatOptions | .chatProperties | .settings => False
  | _ => True

/-- The dump of a decoded value is decoded again and dumped to the same with all fields, if it
shows all fields or omits only what comes back as `null`. -/
theorem exists_redump (hdecode : (kind.redump .shown value).outcome = .ok full)
    (hnulls : nulls = .shown ∨ kind.OmitsOnlyNulls value) :
    ∃ written, (kind.redump nulls value).outcome = .ok written ∧
      kind.redump .shown written = .value full := by
  cases kind with
  | functionCall => exact exists_restored hdecode fun call _ => ⟨_, call.decode_dump nulls, rfl⟩
  | toolCall => exact exists_restored hdecode fun call _ => ⟨_, call.decode_dump nulls, rfl⟩
  | message =>
    exact exists_restored hdecode fun message _ =>
      ⟨_, message.decode_dump nulls, message.dump_normal .shown⟩
  | usage => exact exists_restored hdecode fun usage _ => ⟨_, usage.decode_dump nulls, rfl⟩
  | request =>
    refine exists_restored hdecode fun request hrequest => ?_
    have hchecked := Request.isChecked_of_decode hrequest
    have hmodel : nulls = .shown ∨ request.model ≠ none :=
      hnulls.imp_right fun honly => honly request hrequest
    exact ⟨_, Request.decode_dump nulls hchecked hmodel, Request.dump_normal hchecked⟩
  | cite => exact exists_restored hdecode fun cite _ => ⟨_, cite.decode_dump nulls, rfl⟩
  | mark => exact exists_restored hdecode fun mark _ => ⟨_, mark.decode_dump nulls, rfl⟩
  | markedText => exact exists_restored hdecode fun text _ => ⟨_, text.decode_dump nulls, rfl⟩
  | knowledgeBase => exact exists_restored hdecode fun base _ => ⟨_, base.decode_dump nulls, rfl⟩
  | choice =>
    exact exists_restored hdecode fun choice _ =>
      ⟨_, choice.decode_dump nulls, choice.dump_normal .shown⟩
  | completion =>
    exact exists_restored hdecode fun completion _ =>
      ⟨_, completion.decode_dump nulls, completion.dump_normal .shown⟩
  | chunkChoice =>
    exact exists_restored hdecode fun choice _ =>
      ⟨_, choice.decode_dump nulls, choice.dump_normal .shown⟩
  | chunk =>
    exact exists_restored hdecode fun chunk _ =>
      ⟨_, chunk.decode_dump nulls, chunk.dump_normal .shown⟩
  | toolFunction =>
    exact exists_restored hdecode fun function _ =>
      ⟨_, function.decode_dump nulls, function.dump_normal .shown⟩
  | functionTool =>
    exact exists_restored hdecode fun tool _ =>
      ⟨_, tool.decode_dump nulls, tool.dump_normal .shown⟩
  | retrieval =>
    exact exists_restored hdecode fun retrieval _ => ⟨_, retrieval.decode_dump nulls, rfl⟩
  | retrievalTool => exact exists_restored hdecode fun tool _ => ⟨_, tool.decode_dump nulls, rfl⟩
  | webSearch =>
    exact exists_restored hdecode fun search hsearch =>
      ⟨search, WebSearch.decode_dump nulls (WebSearch.isBlankText_of_decode hsearch), rfl⟩
  | webSearchTool =>
    exact exists_restored hdecode fun tool htool =>
      ⟨tool, WebSearchTool.decode_dump nulls (WebSearchTool.isBlankText_of_decode htool), rfl⟩
  | chatOptions =>
    -- a temperature that is left out comes back as the default one
    obtain rfl := hnulls.resolve_right id
    refine exists_restored hdecode fun options hoptions => ?_
    have htools := ChatOptions.areValues_of_decode hoptions
    exact ⟨_, ChatOptions.decode_dump htools, ChatOptions.dump_normal htools⟩
  | chatProperties =>
    obtain rfl := hnulls.resolve_right id
    refine exists_restored hdecode fun properties hproperties => ?_
    have htools := ChatProperties.areValues_of_decode hproperties
    exact ⟨_, ChatProperties.decode_dump htools, ChatProperties.dump_normal htools⟩
  | settings => cases hdecode

/-- A dump is not too deep, if the value that its record was decoded from is not. -/
theorem isWithinDepth_redump (hdecode : (kind.redump nulls value).outcome = .ok written)
    (hdepth : kind.isWithinDepth .value value = true) :
    kind.isWithinDepth .value written = true := by
  cases kind with
  | message =>
    refine isWithinDepth_of_keepsShallow ?_ hdecode hdepth
    simpa [freePaths, messagePaths] using Message.keepsShallow nulls
  | request =>
    exact isWithinDepth_of_keepsShallow (fun _ hpath => Request.keepsShallow nulls hpath)
      hdecode hdepth
  | choice =>
    refine isWithinDepth_of_keepsShallow ?_ hdecode hdepth
    simpa [freePaths, messagePaths] using Choice.keepsShallow nulls
  | completion =>
    refine isWithinDepth_of_keepsShallow ?_ hdecode hdepth
    simpa [freePaths, messagePaths] using Completion.keepsShallow nulls
  | chunkChoice =>
    refine isWithinDepth_of_keepsShallow ?_ hdecode hdepth
    simpa [freePaths, messagePaths] using ChunkChoice.keepsShallow nulls
  | chunk =>
    refine isWithinDepth_of_keepsShallow ?_ hdecode hdepth
    simpa [freePaths, messagePaths] using Chunk.keepsShallow nulls
  | toolFunction =>
    refine isWithinDepth_of_keepsShallow ?_ hdecode hdepth
    simpa [freePaths, functionPaths] using ToolFunction.keepsShallow nulls
  | functionTool =>
    refine isWithinDepth_of_keepsShallow ?_ hdecode hdepth
    simpa [freePaths, functionPaths] using FunctionTool.keepsShallow nulls
  | chatOptions =>
    exact isWithinDepth_of_keepsShallow (fun _ hpath => ChatOptions.keepsShallow nulls hpath)
      hdecode hdepth
  | chatProperties =>
    refine isWithinDepth_of_keepsShallow (fun _ hmem => ?_) hdecode hdepth
    obtain ⟨path, hpath, rfl⟩ := List.mem_map.mp hmem
    exact ChatProperties.keepsShallow nulls hpath
  | settings => cases hdecode
  | functionCall | toolCall | usage | cite | mark | markedText | knowledgeBase | retrieval
  | retrievalTool | webSearch | webSearchTool => rfl

/-- The dump of the record of a kind that a value decodes to, or what is wrong with it. -/
def dumpOf (kind : RecordKind) (nulls : NullFields) (value : Json) : Except Failure Json := do
  let dump ← (kind.redump nulls value).check kind
  kind.dumped dump

/-- A value that decodes is dumped, if it is not too deep. -/
theorem dumpOf_eq_ok (hdecode : (kind.redump nulls value).outcome = .ok written)
    (hdepth : kind.isWithinDepth .value value = true) :
    kind.dumpOf nulls value = .ok written := by
  have hdumped : kind.dumped written = .ok written := by
    rw [dumped, if_pos (isWithinDepth_redump hdecode hdepth)]
  rw [dumpOf, Decoded.check, hdecode]
  exact hdumped

/-- **Stability of dumps.** The dump with all fields of a value that decodes and is not too
deep is dumped to itself, and so is the dump without null fields, where it omits only what
comes back as `null`. -/
theorem dumpOf_dumpOf (hdecode : (kind.redump .shown value).outcome = .ok full)
    (hdepth : kind.isWithinDepth .value value = true) :
    kind.dumpOf .shown value = .ok full ∧ kind.dumpOf .shown full = .ok full ∧
      (kind.OmitsOnlyNulls value → ∃ short, kind.dumpOf .omitted value = .ok short ∧
        kind.dumpOf .shown short = .ok full) := by
  have hagain {nulls : NullFields} (hnulls : nulls = .shown ∨ kind.OmitsOnlyNulls value) :
      ∃ written, (kind.redump nulls value).outcome = .ok written ∧
        kind.dumpOf nulls value = .ok written ∧ kind.dumpOf .shown written = .ok full := by
    obtain ⟨written, hwritten, hfull⟩ := exists_redump hdecode hnulls
    have hshallow := isWithinDepth_redump hwritten hdepth
    exact ⟨written, hwritten, dumpOf_eq_ok hwritten hdepth,
      dumpOf_eq_ok (congrArg Decoded.outcome hfull) hshallow⟩
  obtain ⟨written, hwritten, hdump, hfull⟩ := hagain (.inl rfl)
  obtain rfl : written = full := Except.ok.inj (hwritten.symm.trans hdecode)
  refine ⟨hdump, hfull, fun honly => ?_⟩
  obtain ⟨short, _, hshort, hfull⟩ := hagain (.inr honly)
  exact ⟨short, hshort, hfull⟩

/-- The fragment of a choice with an index that is a text, an undefined float among the parts
of its content, and a finish reason that says nothing. -/
def laxChoice : Json :=
  .obj [("index", .str "7"), ("delta", .obj [("content", .arr [.float .nan])]),
    ("finish_reason", .str "")]

/-- The dump of that fragment with all fields. -/
def strictChoice : Json :=
  .obj [("index", .int 7),
    ("delta", .obj [("content", .arr [.null]), ("role", .null), ("name", .null),
      ("tool_call_id", .null), ("tool_calls", .null)]),
    ("finish_reason", .null), ("usage", .null)]

/-- What is converted, dropped or replaced is so in the first dump, and in no other. -/
theorem dumpOf_dumpOf_laxChoice :
    (chunkChoice.redump .shown laxChoice).outcome = .ok strictChoice ∧
      chunkChoice.isWithinDepth .value laxChoice = true ∧
      chunkChoice.dumpOf .shown laxChoice = .ok strictChoice ∧
      chunkChoice.dumpOf .shown strictChoice = .ok strictChoice ∧
      ∃ short, chunkChoice.dumpOf .omitted laxChoice = .ok short ∧
        chunkChoice.dumpOf .shown short = .ok strictChoice := by
  have hdecode : (chunkChoice.redump .shown laxChoice).outcome = .ok strictChoice := by
    decide +kernel
  have hdepth : chunkChoice.isWithinDepth .value laxChoice = true := by decide +kernel
  obtain ⟨hdump, hfull, hshort⟩ := dumpOf_dumpOf hdecode hdepth
  exact ⟨hdecode, hdepth, hdump, hfull, hshort trivial⟩

/-- A message with a part that is one level too deep to be dumped. -/
def deepMessage : Json := .obj [("content", .arr [.nested greatestDepth])]

/-- Not every value that decodes has a dump: what is too deep is decoded, but not dumped. -/
theorem not_forall_dumpOf_dumpOf :
    ¬∀ (kind : RecordKind) (value full : Json),
      (kind.redump .shown value).outcome = .ok full →
      kind.dumpOf .shown value = .ok full ∧ kind.dumpOf .shown full = .ok full ∧
        (kind.OmitsOnlyNulls value → ∃ short, kind.dumpOf .omitted value = .ok short ∧
          kind.dumpOf .shown short = .ok full) := by
  intro hall
  have hfails : message.dumpOf .shown deepMessage = .error .tooDeep := by decide +kernel
  obtain ⟨full, hdecode⟩ : ∃ full, (message.redump .shown deepMessage).outcome = .ok full :=
    ⟨_, rfl⟩
  rw [(hall message deepMessage full hdecode).1] at hfails
  cases hfails

end RecordKind

end ChatClient
