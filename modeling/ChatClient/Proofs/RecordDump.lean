import ChatClient.Chunk
import Mathlib.Data.List.Nodup

/-!
# Records are read back from their dumps

A dump names every field once, so a field that has a value is found under its name,
and one that has none is absent or `null`. If the value of every field is read back,
so is the record. Only a content changes on the way: its parts are read back as the dump
left them, so a record with contents is read back in a normal form, which is the record
itself where a dump leaves all parts as they are.
-/

namespace ChatClient

/-! ## Fields -/

namespace NullFields

/-- A field that is written is a member of its name. -/
theorem member?_fst {nulls : NullFields} {field : String × Option Json}
    {member : String × Json} (hmember : nulls.member? field = some member) :
    member.1 = field.1 := by
  obtain ⟨name, value⟩ := field
  cases value with
  | some value =>
    cases hmember
    rfl
  | none =>
    cases nulls with
    | shown =>
      cases hmember
      rfl
    | omitted => cases hmember

/-- The names of the members are names of fields, in the same order. -/
theorem names_members_sublist (nulls : NullFields) (fields : List (String × Option Json)) :
    ((nulls.members fields).map Prod.fst).Sublist (fields.map Prod.fst) := by
  induction fields with
  | nil => exact .slnil
  | cons field fields ih =>
    rw [members, List.filterMap_cons]
    cases hmember : nulls.member? field with
    | none => exact ih.cons _
    | some member =>
      simp only [List.map_cons, member?_fst hmember]
      exact ih.cons_cons _

/-- What is found in a dump is the written value of the field. -/
theorem get?_members (nulls : NullFields) {fields : List (String × Option Json)}
    (hnodup : (fields.map Prod.fst).Nodup) (name : String) :
    Entries.get? (nulls.members fields) name =
      (fields.lookup name).bind fun value => (nulls.member? (name, value)).map Prod.snd := by
  induction fields with
  | nil => rfl
  | cons field fields ih =>
    obtain ⟨key, value⟩ := field
    rw [List.map_cons, List.nodup_cons] at hnodup
    have hrest := ih hnodup.2
    rw [members, List.filterMap_cons, List.lookup_cons]
    by_cases hname : name = key
    · subst hname
      cases hmember : nulls.member? (name, value) with
      | none =>
        have habsent : fields.lookup name = none := by
          rw [List.lookup_eq_none_iff]
          intro entry hentry
          rw [bne_iff_ne]
          exact fun heq => hnodup.1 (List.mem_map.mpr ⟨entry, hentry, heq.symm⟩)
        rw [habsent] at hrest
        simpa [hmember, members] using hrest
      | some member =>
        obtain ⟨key, written⟩ := member
        obtain rfl : key = name := member?_fst hmember
        simp [Entries.get?_cons, hmember]
    · have hne : (name == key) = false := by simpa using hname
      rw [hne, ← hrest]
      cases hmember : nulls.member? (key, value) with
      | none => rfl
      | some member =>
        obtain ⟨key', written⟩ := member
        obtain rfl : key' = key := member?_fst hmember
        simp only [Entries.get?_cons, if_neg hname, members]

/-- A member that is written has the value of its field, or is `null` for want of one. -/
theorem mem_members {nulls : NullFields} {fields : List (String × Option Json)}
    {member : String × Json} (hmember : member ∈ nulls.members fields) :
    (member.1, some member.2) ∈ fields ∨ member.2 = .null := by
  obtain ⟨⟨name, value⟩, hfield, hwritten⟩ := List.mem_filterMap.mp hmember
  cases value with
  | some value =>
    cases hwritten
    exact .inl hfield
  | none =>
    cases nulls with
    | shown =>
      cases hwritten
      exact .inr rfl
    | omitted => cases hwritten

/-- A record is not `null`. -/
theorem record_ne_null (nulls : NullFields) (fields : List (String × Option Json)) :
    nulls.record fields ≠ .null := by
  rw [record]
  exact Json.noConfusion

end NullFields

/-! ## Values of fields -/

section Fields

variable {α : Type} {decode : Decoder α} {encode : α → Json}

/-- What may be `null` is decoded where it is not. -/
theorem Decoder.nullable_of_ne_null {value : Json} (hnull : value ≠ .null) :
    Decoder.nullable decode value = some <$> decode value := by
  rw [nullable]
  exact hnull

/-- The value of an optional field is read back in another form, if there is none, or if
the value is. -/
theorem Members.optional_members_map (nulls : NullFields) {fields : List (String × Option Json)}
    (hnodup : (fields.map Prod.fst).Nodup) {name : String} {value : Option α}
    (hfield : fields.lookup name = some (value.map encode)) {normal : α → α}
    (hvalue : ∀ a ∈ value, encode a ≠ .null ∧ decode (encode a) = .value (normal a)) :
    Members.optional (nulls.members fields) name decode = .value (value.map normal) := by
  have hget := nulls.get?_members hnodup name
  rw [hfield] at hget
  rw [Members.optional, Members.withDefault, hget]
  cases value with
  | none => cases nulls <;> rfl
  | some a =>
    obtain ⟨hnull, hdecode⟩ := hvalue a rfl
    simp only [Option.map_some, Option.bind_some, NullFields.member?, Decoder.given,
      Decoder.nullable_of_ne_null hnull, hdecode]
    rfl

/-- The value of an optional field is read back, if there is none, or if the value is. -/
theorem Members.optional_members (nulls : NullFields) {fields : List (String × Option Json)}
    (hnodup : (fields.map Prod.fst).Nodup) {name : String} {value : Option α}
    (hfield : fields.lookup name = some (value.map encode))
    (hvalue : ∀ a ∈ value, encode a ≠ .null ∧ decode (encode a) = .value a) :
    Members.optional (nulls.members fields) name decode = .value value := by
  have hsame : optional (nulls.members fields) name decode = .value (value.map id) :=
    optional_members_map nulls hnodup hfield hvalue
  rwa [Option.map_id] at hsame

/-- The items of a list are read back in another form, if each of them is. -/
theorem Decoder.itemsFrom_map {items : List α} {normal : α → α}
    (hitems : ∀ a ∈ items, decode (encode a) = .value (normal a)) (start : Nat) :
    Decoder.itemsFrom decode start (items.map encode) = .value (items.map normal) := by
  induction items generalizing start with
  | nil => rfl
  | cons a items ih =>
    have hrest := ih (fun b hb => hitems b (by simp [hb])) (start + 1)
    rw [List.map_cons, itemsFrom, hitems a (by simp), hrest]
    rfl

/-- A list is read back in another form, if its items are. -/
theorem Decoder.list_map_map {items : List α} {normal : α → α}
    (hitems : ∀ a ∈ items, decode (encode a) = .value (normal a)) :
    Decoder.list decode (.arr (items.map encode)) = .value (items.map normal) :=
  itemsFrom_map hitems 0

/-- A list is read back, if its items are. -/
theorem Decoder.list_map {items : List α} (hitems : ∀ a ∈ items, decode (encode a) = .value a) :
    Decoder.list decode (.arr (items.map encode)) = .value items := by
  have hsame : list decode (.arr (items.map encode)) = .value (items.map id) :=
    list_map_map hitems
  rwa [List.map_id] at hsame

end Fields

/-- A list of values of any form is read as it is. -/
theorem Decoder.list_any (items : List Json) :
    Decoder.list Decoder.any (.arr items) = .value items := by
  have hlist : Decoder.list Decoder.any (.arr (items.map fun item => item)) = .value items :=
    list_map fun _ _ => rfl
  rwa [List.map_id'] at hlist

/-! ## Records -/

namespace Decoded

variable {α β : Type}

/-- A function of a value that is read back is a value. -/
theorem map_of_eq_value {x : Decoded α} {a : α} (f : α → β) (hx : x = .value a) :
    f <$> x = .value (f a) := by
  rw [hx]
  rfl

/-- A further field that is read back completes a value. -/
theorem seq_of_eq_value {f : Decoded (α → β)} {g : α → β} {x : Decoded α} {a : α}
    (hf : f = .value g) (hx : x = .value a) : f <*> x = .value (g a) := by
  rw [hf, hx]
  rfl

end Decoded

open Decoded (map_of_eq_value seq_of_eq_value)
open Members (optional_members optional_members_map)

variable (nulls : NullFields)

/-- A role is read back from its name. -/
theorem Role.decode_name (role : Role) : decode (.str role.name) = .value role := by
  cases role <;> rfl

/-- A finish reason is read back from its name. -/
theorem FinishReason.decode_dump (reason : FinishReason) :
    decode reason.dump = .value (some reason) := by
  cases reason <;> rfl

/-- The field of a finish reason is read back, if there is none too. -/
theorem FinishReason.field_members {fields : List (String × Option Json)}
    (hnodup : (fields.map Prod.fst).Nodup) {reason : Option FinishReason}
    (hfield : fields.lookup "finish_reason" = some (reason.map dump)) :
    field (nulls.members fields) = .value reason := by
  have hget := nulls.get?_members hnodup "finish_reason"
  rw [hfield] at hget
  rw [field, Members.withDefault, hget]
  cases reason with
  | none => cases nulls <;> rfl
  | some reason =>
    simp only [Option.map_some, Option.bind_some, NullFields.member?, Decoder.given, decode_dump]
    rfl

/-- The call of a function is read back from its dump. -/
theorem FunctionCall.decode_dump (call : FunctionCall) :
    decode (call.dump nulls) = .value call := by
  refine seq_of_eq_value (map_of_eq_value _ ?_) ?_
  · exact optional_members nulls (by simp) rfl fun _ _ => ⟨by simp, rfl⟩
  · exact optional_members nulls (by simp) rfl fun _ _ => ⟨by simp, rfl⟩

/-- A tool call is read back from its dump. -/
theorem ToolCall.decode_dump (call : ToolCall) : decode (call.dump nulls) = .value call := by
  refine seq_of_eq_value (seq_of_eq_value (seq_of_eq_value (map_of_eq_value _ ?_) ?_) ?_) ?_
  · exact optional_members nulls (by simp) rfl fun _ _ => ⟨by simp, rfl⟩
  · exact optional_members nulls (by simp) rfl fun _ _ => ⟨by simp, rfl⟩
  · exact optional_members nulls (by simp) rfl fun _ _ => ⟨by simp, rfl⟩
  · exact optional_members nulls (by simp) rfl fun call _ =>
      ⟨nulls.record_ne_null _, call.decode_dump nulls⟩

/-- A usage is read back from its dump. -/
theorem Usage.decode_dump (usage : Usage) : decode (usage.dump nulls) = .value usage := by
  refine seq_of_eq_value (seq_of_eq_value (map_of_eq_value _ ?_) ?_) ?_
  · exact optional_members nulls (by simp) rfl fun _ _ => ⟨by simp, rfl⟩
  · exact optional_members nulls (by simp) rfl fun _ _ => ⟨by simp, rfl⟩
  · exact optional_members nulls (by simp) rfl fun _ _ => ⟨by simp, rfl⟩

namespace Content

/-- The content that is read back from a dump: its parts are as the dump leaves them. -/
def normal : Content → Content
  | .text s => .text s
  | .parts items => .parts (items.map Json.finite)

/-- A content is read back from its dump in normal form. -/
theorem decode_dump (content : Content) : decode content.dump = .value content.normal := by
  cases content with
  | text s => rfl
  | parts items =>
    rw [dump, decode, Decoder.list_any]
    rfl

/-- No content is dumped as `null`. -/
theorem dump_ne_null (content : Content) : content.dump ≠ .null := by
  cases content <;> simp [dump]

/-- A dump leaves the parts of the content as they are. -/
def IsFinite : Content → Prop
  | .text _ => True
  | .parts items => ∀ part ∈ items, part.finite = part

/-- A list of such parts is dumped as it is. -/
theorem IsFinite.dump_parts {items : List Json} (hfinite : (parts items).IsFinite) :
    (parts items).dump = .arr items := by
  rw [dump, List.map_congr_left hfinite, List.map_id']

/-- Such a content is in normal form. -/
theorem IsFinite.normal_eq {content : Content} (hfinite : content.IsFinite) :
    content.normal = content := by
  cases content with
  | text s => rfl
  | parts items => rw [normal, List.map_congr_left hfinite, List.map_id']

end Content

namespace Message

/-- The message that is read back from a dump. -/
def normal (message : Message) : Message :=
  { message with content := message.content.map Content.normal }

/-- A message is read back from its dump in normal form. -/
theorem decode_dump (message : Message) : decode (message.dump nulls) = .value message.normal := by
  refine seq_of_eq_value (seq_of_eq_value (seq_of_eq_value (seq_of_eq_value
    (map_of_eq_value _ ?_) ?_) ?_) ?_) ?_
  · exact optional_members_map nulls (by simp) rfl fun content _ =>
      ⟨content.dump_ne_null, content.decode_dump⟩
  · exact optional_members nulls (by simp) rfl fun role _ => ⟨by simp, role.decode_name⟩
  · exact optional_members nulls (by simp) rfl fun _ _ => ⟨by simp, rfl⟩
  · exact optional_members nulls (by simp) rfl fun _ _ => ⟨by simp, rfl⟩
  · exact optional_members nulls (by simp) rfl fun _ _ =>
      ⟨by simp, Decoder.list_map fun call _ => call.decode_dump nulls⟩

/-- A message is in normal form, if its content is. -/
theorem normal_of_isFinite {message : Message}
    (hcontent : ∀ content ∈ message.content, content.IsFinite) : message.normal = message := by
  have hsame : message.content.map Content.normal = message.content := by
    cases h : message.content with
    | none => rfl
    | some content => rw [Option.map_some, (hcontent content h).normal_eq]
  rw [normal, hsame]

end Message

namespace ChunkChoice

/-- The fragment of a choice that is read back from a dump. -/
def normal (choice : ChunkChoice) : ChunkChoice :=
  { choice with delta := choice.delta.map Message.normal }

/-- The fragment of a choice is read back from its dump in normal form. -/
theorem decode_dump (choice : ChunkChoice) :
    decode (choice.dump nulls) = .value choice.normal := by
  refine seq_of_eq_value (seq_of_eq_value (seq_of_eq_value (map_of_eq_value _ ?_) ?_) ?_) ?_
  · exact optional_members nulls (by simp) rfl fun _ _ => ⟨by simp, rfl⟩
  · exact optional_members_map nulls (by simp) rfl fun delta _ =>
      ⟨nulls.record_ne_null _, delta.decode_dump nulls⟩
  · exact FinishReason.field_members nulls (by simp) rfl
  · exact optional_members nulls (by simp) rfl fun usage _ =>
      ⟨nulls.record_ne_null _, usage.decode_dump nulls⟩

/-- The fragment of a choice is in normal form, if its content is. -/
theorem normal_of_isFinite {choice : ChunkChoice}
    (hcontent : ∀ content ∈ choice.delta.bind Message.content, content.IsFinite) :
    choice.normal = choice := by
  have hsame : choice.delta.map Message.normal = choice.delta := by
    cases hdelta : choice.delta with
    | none => rfl
    | some delta =>
      rw [hdelta] at hcontent
      rw [Option.map_some, Message.normal_of_isFinite hcontent]
  rw [normal, hsame]

end ChunkChoice

namespace Chunk

/-- The contents of a chunk, of all its choices that bring one. -/
def contents (chunk : Chunk) : List Content :=
  (chunk.choices.getD []).filterMap fun choice => choice.delta.bind Message.content

/-- The content of a choice is one of the contents. -/
theorem mem_contents {chunk : Chunk} {choices : List ChunkChoice} {choice : ChunkChoice}
    {content : Content} (hchoices : choices ∈ chunk.choices) (hchoice : choice ∈ choices)
    (hcontent : content ∈ choice.delta.bind Message.content) : content ∈ chunk.contents := by
  rw [contents, Option.mem_def.mp hchoices]
  exact List.mem_filterMap.mpr ⟨choice, hchoice, hcontent⟩

/-- The chunk that is read back from a dump. -/
def normal (chunk : Chunk) : Chunk :=
  { chunk with choices := chunk.choices.map (·.map ChunkChoice.normal) }

/-- A chunk is read back from its dump in normal form. -/
theorem decode_dump (chunk : Chunk) : decode (chunk.dump nulls) = .value chunk.normal := by
  refine seq_of_eq_value (seq_of_eq_value (seq_of_eq_value (seq_of_eq_value
    (map_of_eq_value _ ?_) ?_) ?_) ?_) ?_
  · exact optional_members nulls (by simp) rfl fun _ _ => ⟨by simp, rfl⟩
  · exact optional_members nulls (by simp) rfl fun _ _ => ⟨by simp, rfl⟩
  · exact optional_members nulls (by simp) rfl fun _ _ => ⟨by simp, rfl⟩
  · exact optional_members nulls (by simp) rfl fun _ _ => ⟨by simp, rfl⟩
  · exact optional_members_map nulls (by simp) rfl fun choices _ =>
      ⟨by simp, Decoder.list_map_map fun choice _ => choice.decode_dump nulls⟩

/-- A chunk is in normal form, if its contents are. -/
theorem normal_of_isFinite {chunk : Chunk}
    (hcontents : ∀ content ∈ chunk.contents, content.IsFinite) : chunk.normal = chunk := by
  have hsame : chunk.choices.map (·.map ChunkChoice.normal) = chunk.choices := by
    cases hchoices : chunk.choices with
    | none => rfl
    | some choices =>
      have heach : ∀ choice ∈ choices, choice.normal = choice := fun choice hchoice =>
        ChunkChoice.normal_of_isFinite fun content hcontent =>
          hcontents content (mem_contents hchoices hchoice hcontent)
      rw [Option.map_some, List.map_congr_left heach, List.map_id']
  rw [normal, hsame]

end Chunk

end ChatClient
