import ChatClient.Proofs.ChunkText
import ChatClient.Proofs.NormalForms

/-!
# Records of values that are not too deep

The paths along which a dump is followed lead through the value that the record was decoded
from to the same values of any form. So a dump is not too deep if that value is not.
-/

namespace ChatClient

open Json (PathStep partsAlong partsAlong_cons)

namespace Json

/-- What a path leads to is not deeper than a dump is followed. -/
def IsShallowAlong (path : List PathStep) (value : Json) : Prop :=
  ∀ part ∈ partsAlong path value, part.depth ≤ RecordKind.greatestDepth

instance (path : List PathStep) (value : Json) : Decidable (value.IsShallowAlong path) :=
  inferInstanceAs (Decidable (∀ part ∈ partsAlong path value, part.depth ≤ _))

/-- The empty path leads to the value itself. -/
theorem isShallowAlong_nil {value : Json} :
    value.IsShallowAlong [] ↔ value.depth ≤ RecordKind.greatestDepth := by
  simp [IsShallowAlong, partsAlong]

/-- A path leads on from where its first step leads to. -/
theorem isShallowAlong_cons {step : PathStep} {path : List PathStep} {value : Json} :
    value.IsShallowAlong (step :: path) ↔
      ∀ part ∈ partsAt step value, part.IsShallowAlong path := by
  simp only [IsShallowAlong, partsAlong_cons, List.mem_flatMap, forall_exists_index, and_imp]
  exact forall_comm.trans (forall_congr' fun _ => forall_comm)

/-- No path leads from `null` to anything deep. -/
theorem isShallowAlong_null (path : List PathStep) : Json.null.IsShallowAlong path := by
  cases path with
  | nil => exact isShallowAlong_nil.mpr (by decide)
  | cons step path =>
    rw [isShallowAlong_cons]
    cases step <;> exact fun _ hpart => absurd hpart List.not_mem_nil

end Json

open Json (isShallowAlong_nil isShallowAlong_cons isShallowAlong_null)

/-- A dump of a kind is not too deep, if none of its paths leads to anything deep. -/
theorem RecordKind.isWithinDepth_iff {kind : RecordKind} {form : DumpForm} {value : Json} :
    kind.isWithinDepth form value = true ↔
      ∀ path ∈ kind.freePaths form, value.IsShallowAlong path := by
  simp only [isWithinDepth, freeParts, Json.IsShallowAlong, List.all_eq_true, List.mem_flatMap,
    decide_eq_true_eq, forall_exists_index, and_imp]
  exact forall_comm.trans (forall_congr' fun _ => forall_comm)

/-- What is decoded and dumped leads along a path to nothing deep, if the value did not. -/
def Decoder.KeepsShallow {α : Type} (decode : Decoder α) (encode : α → Json)
    (path : List PathStep) : Prop :=
  ∀ ⦃value : Json⦄ ⦃a : α⦄, (decode value).outcome = .ok a → value.IsShallowAlong path →
    (encode a).IsShallowAlong path

section Fields

variable {α : Type} {decode : Decoder α} {encode : α → Json} {nulls : NullFields}
  {path : List PathStep} {members : Members} {fields : List (String × Option Json)}
  {name : String}

/-- A member is followed along the rest of the path. -/
theorem Json.IsShallowAlong.get? {value : Json}
    (hshallow : (Json.obj members).IsShallowAlong (.member name :: path))
    (hvalue : value ∈ members.get? name) : value.IsShallowAlong path :=
  isShallowAlong_cons.mp hshallow value (Option.mem_toList.mpr hvalue)

/-- A field of a dump is followed along the rest of the path. -/
theorem NullFields.isShallowAlong_record {x : Option Json}
    (hnodup : (fields.map Prod.fst).Nodup) (hfield : fields.lookup name = some x)
    (hvalue : ∀ value ∈ x, value.IsShallowAlong path) :
    (nulls.record fields).IsShallowAlong (.member name :: path) := by
  rw [isShallowAlong_cons, record, Json.partsAt, nulls.get?_members hnodup, hfield]
  intro part hpart
  cases x with
  | some value =>
    obtain rfl : part = value := by simpa [member?] using hpart
    exact hvalue part rfl
  | none =>
    cases nulls with
    | shown =>
      obtain rfl : part = .null := by simpa [member?] using hpart
      exact isShallowAlong_null path
    | omitted => cases hpart

namespace Decoder.KeepsShallow

variable {x : Option α} {a : α}

/-- The items of a list are followed one by one. -/
theorem list (hkeeps : decode.KeepsShallow encode path) :
    (Decoder.list decode).KeepsShallow (fun items => .arr (items.map encode))
      (.each :: path) := by
  intro value items hdecode hshallow
  obtain ⟨values, rfl, hforall⟩ := items_of_list hdecode
  rw [isShallowAlong_cons] at hshallow ⊢
  intro part hpart
  obtain ⟨a, ha, rfl⟩ := List.mem_map.mp hpart
  obtain ⟨i, hi, rfl⟩ := List.mem_iff_getElem.mp ha
  have hlength := hforall.length_eq
  exact hkeeps (hforall.get (by omega) hi) (hshallow _ (List.getElem_mem _))

/-- An optional field is followed, if there is one. -/
theorem optional (hkeeps : decode.KeepsShallow encode path)
    (hshallow : (Json.obj members).IsShallowAlong (.member name :: path))
    (hdecode : (members.optional name decode).outcome = .ok x)
    (hnodup : (fields.map Prod.fst).Nodup) (hfield : fields.lookup name = some (x.map encode)) :
    (nulls.record fields).IsShallowAlong (.member name :: path) := by
  refine NullFields.isShallowAlong_record hnodup hfield fun written hwritten => ?_
  obtain ⟨a, ha, rfl⟩ := Option.map_eq_some_iff.mp hwritten
  obtain ⟨value, hvalue, hdecode⟩ := Members.member_of_optional hdecode ha
  exact hkeeps hdecode (hshallow.get? hvalue)

/-- A required field is followed. -/
theorem required (hkeeps : decode.KeepsShallow encode path)
    (hshallow : (Json.obj members).IsShallowAlong (.member name :: path))
    (hdecode : (members.required name decode).outcome = .ok a)
    (hnodup : (fields.map Prod.fst).Nodup)
    (hfield : fields.lookup name = some (some (encode a))) :
    (nulls.record fields).IsShallowAlong (.member name :: path) := by
  refine NullFields.isShallowAlong_record hnodup hfield fun written hwritten => ?_
  cases hwritten
  obtain ⟨value, hvalue, hdecode⟩ := Members.member_of_required hdecode
  exact hkeeps hdecode (hshallow.get? hvalue)

/-- A field with a default is followed, if its default leads to nothing deep. -/
theorem withDefault {default : α} (hkeeps : decode.KeepsShallow encode path)
    (hdefault : (encode default).IsShallowAlong path)
    (hshallow : (Json.obj members).IsShallowAlong (.member name :: path))
    (hdecode : (members.withDefault name default decode).outcome = .ok a)
    (hnodup : (fields.map Prod.fst).Nodup)
    (hfield : fields.lookup name = some (some (encode a))) :
    (nulls.record fields).IsShallowAlong (.member name :: path) := by
  refine NullFields.isShallowAlong_record hnodup hfield fun written hwritten => ?_
  cases hwritten
  rcases Members.member_of_withDefault hdecode with rfl | ⟨value, hvalue, hdecode⟩
  · exact hdefault
  · exact hkeeps hdecode (hshallow.get? hvalue)

end Decoder.KeepsShallow

end Fields

/-! ## Records -/

open Decoder (KeepsShallow)

variable (nulls : NullFields)

/-- A value of any form is dumped as deep as it is. -/
theorem Decoder.keepsShallow_any : Decoder.any.KeepsShallow Json.finite [] := by
  intro value a hdecode hshallow
  cases hdecode
  rw [isShallowAlong_nil] at hshallow ⊢
  rwa [Json.depth_finite]

/-- The members of an object of any form are dumped as deep as they are. -/
theorem Decoder.keepsShallow_object :
    Decoder.object.KeepsShallow (fun members => .obj (Json.finiteMembers members)) [.each] := by
  intro value members hdecode hshallow
  cases value with
  | obj given =>
    cases hdecode
    rw [isShallowAlong_cons] at hshallow ⊢
    intro part hpart
    rw [Json.partsAt, Json.finiteMembers_eq_map, List.map_map] at hpart
    obtain ⟨member, hmember, rfl⟩ := List.mem_map.mp hpart
    exact keepsShallow_any rfl (hshallow _ (List.mem_map_of_mem hmember))
  | _ => cases hdecode

/-- The parts of a content are as deep as they were. -/
theorem Content.keepsShallow : KeepsShallow decode dump [.each] := by
  intro value content hdecode hshallow
  rcases eq_of_decode hdecode with ⟨s, rfl, rfl⟩ | ⟨items, rfl, rfl⟩
  · exact hshallow
  · exact Decoder.keepsShallow_any.list (congrArg Decoded.outcome (Decoder.list_any items))
      hshallow

/-- The parts of the content of a message are as deep as they were. -/
theorem Message.keepsShallow :
    KeepsShallow decode (dump nulls) [.member "content", .each] := by
  intro value message hdecode hshallow
  obtain ⟨members, rfl, hcontent⟩ := content_of_decode hdecode
  exact Content.keepsShallow.optional hshallow hcontent (by simp) rfl

/-- The parts of the content of a choice are as deep as they were. -/
theorem Choice.keepsShallow :
    KeepsShallow decode (dump nulls) [.member "message", .member "content", .each] := by
  intro value choice hdecode hshallow
  obtain ⟨members, rfl, hmessage⟩ := message_of_decode hdecode
  exact (Message.keepsShallow nulls).optional hshallow hmessage (by simp) rfl

/-- The parts of the contents of a completion are as deep as they were. -/
theorem Completion.keepsShallow :
    KeepsShallow decode (dump nulls)
      [.member "choices", .each, .member "message", .member "content", .each] := by
  intro value completion hdecode hshallow
  obtain ⟨members, rfl, hchoices⟩ := choices_of_decode hdecode
  exact (Choice.keepsShallow nulls).list.optional hshallow hchoices (by simp) rfl

/-- The parts of the content of a fragment are as deep as they were. -/
theorem ChunkChoice.keepsShallow :
    KeepsShallow decode (dump nulls) [.member "delta", .member "content", .each] := by
  intro value choice hdecode hshallow
  obtain ⟨members, rfl, hdelta⟩ := delta_of_decode hdecode
  exact (Message.keepsShallow nulls).optional hshallow hdelta (by simp) rfl

/-- The parts of the contents of a chunk are as deep as they were. -/
theorem Chunk.keepsShallow :
    KeepsShallow decode (dump nulls)
      [.member "choices", .each, .member "delta", .member "content", .each] := by
  intro value chunk hdecode hshallow
  obtain ⟨members, rfl, hchoices⟩ := choices_of_decode hdecode
  exact (ChunkChoice.keepsShallow nulls).list.optional hshallow hchoices (by simp) rfl

/-- The parameters of a function are as deep as they were. -/
theorem ToolFunction.keepsShallow :
    KeepsShallow decode (dump nulls) [.member "parameters", .each] := by
  intro value function hdecode hshallow
  obtain ⟨members, rfl, hparameters⟩ := parameters_of_decode hdecode
  exact Decoder.keepsShallow_object.withDefault (by decide) hshallow hparameters (by simp) rfl

/-- The parameters of the function of a tool are as deep as they were. -/
theorem FunctionTool.keepsShallow :
    KeepsShallow decode (dump nulls) [.member "function", .member "parameters", .each] := by
  intro value tool hdecode hshallow
  obtain ⟨members, rfl, hfunction⟩ := function_of_decode hdecode
  exact (ToolFunction.keepsShallow nulls).required hshallow hfunction (by simp) rfl

/-- Tools are as deep as they were. -/
theorem RequestDraft.keepsShallow_tools :
    KeepsShallow decodeToolList (fun tools => .arr (tools.map (·.dump nulls))) [.each] := by
  intro value tools hdecode hshallow
  obtain ⟨values, rfl, rfl⟩ := values_of_decodeToolList hdecode
  simp only [OfferedTool.map_dump_value]
  exact Decoder.keepsShallow_any.list (congrArg Decoded.outcome (Decoder.list_any values)) hshallow

/-- The parts of the contents of a request, and its tools, are as deep as they were. -/
theorem Request.keepsShallow {path : List PathStep}
    (hpath : path ∈ RecordKind.request.freePaths .value) :
    KeepsShallow decode (dump nulls) path := by
  intro value request hdecode hshallow
  obtain ⟨members, rfl, hmessages, _, htools, hchoice⟩ := fields_of_decode hdecode
  simp only [RecordKind.freePaths, RecordKind.messagePaths, RecordKind.optionPaths, List.map_cons,
    List.map_nil, List.cons_append, List.nil_append, List.mem_cons, List.not_mem_nil,
    or_false] at hpath
  rcases hpath with rfl | rfl | rfl
  · exact (Message.keepsShallow nulls).list.required hshallow hmessages (by simp [fields]) rfl
  · exact (RequestDraft.keepsShallow_tools nulls).optional hshallow htools (by simp [fields]) rfl
  · exact Decoder.keepsShallow_any.optional hshallow hchoice (by simp [fields]) rfl

/-- The tools of options are as deep as they were. -/
theorem ChatOptions.keepsShallow {path : List PathStep} (hpath : path ∈ RecordKind.optionPaths) :
    KeepsShallow decode (dump nulls) path := by
  intro value options hdecode hshallow
  obtain ⟨members, rfl, htools, hchoice⟩ := tools_of_decode hdecode
  rcases List.mem_pair.mp hpath with rfl | rfl
  · exact (RequestDraft.keepsShallow_tools nulls).optional hshallow htools (by simp) rfl
  · exact Decoder.keepsShallow_any.optional hshallow hchoice (by simp) rfl

/-- The tools of properties are as deep as they were. -/
theorem ChatProperties.keepsShallow {path : List PathStep}
    (hpath : path ∈ RecordKind.optionPaths) :
    KeepsShallow decode (dump nulls) (.member "options" :: path) := by
  intro value properties hdecode hshallow
  obtain ⟨members, rfl, hoptions⟩ := options_of_decode hdecode
  have hdefault : (defaultOptions.dump nulls).IsShallowAlong path := by
    rcases List.mem_pair.mp hpath with rfl | rfl <;> cases nulls <;> decide
  exact (ChatOptions.keepsShallow nulls hpath).withDefault hdefault hshallow hoptions (by simp) rfl

end ChatClient
