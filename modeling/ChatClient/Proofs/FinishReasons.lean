import ChatClient.Chunk
import ChatClient.Json.Depth
import ChatClient.Proofs.Agreement
import ChatClient.Proofs.DecodedFields
import ChatClient.Proofs.DenotedValues
import ChatClient.Proofs.QuietDecoding

/-!
# Finish reasons break nothing

Whatever a service gives as a finish reason, the answer around it is read as if nothing had
been given: the same problems are found elsewhere, or the same record comes out but for
its finish reasons. What is not known is not silently dropped either: each such reason is
reported once, in the order of the choices, even if the answer cannot be read.

The first statement compares two decodings, the second is about one. Both follow the
records down to the one field that holds the reason. A reason that no report can show would
be a problem of its own. No text denotes one, and so neither statement has an exception for
values that texts denote.
-/

namespace ChatClient

/-! ## Editing finish reasons -/

/-- What is done to the finish reason of a choice. -/
inductive ReasonEdit where
  | keep
  | remove
  | put (reason : Json)
  deriving DecidableEq, Repr

/-- A choice with its finish reason edited. Only objects have one. -/
def ReasonEdit.apply : ReasonEdit → Json → Json
  | .put reason, .obj members => .obj (Entries.set members "finish_reason" reason)
  | .remove, .obj members => .obj (Entries.erase members "finish_reason")
  | _, choice => choice

/-- What is put in for a finish reason is denoted by a text. -/
def ReasonEdit.IsDenoted (edit : ReasonEdit) : Prop :=
  ∀ reason, edit = .put reason → reason.IsDenoted

namespace Json

/-- An answer with the finish reasons of its choices edited, each by its place. -/
def editReasons (edit : Nat → ReasonEdit) : Json → Json
  | .obj members =>
    match Entries.get? members "choices" with
    | some (.arr choices) =>
      .obj (Entries.set members "choices"
        (.arr (choices.mapIdx fun place choice => (edit place).apply choice)))
    | _ => .obj members
  | value => value

/-- The choices of an answer. -/
def choices : Json → List Json
  | .obj members =>
    match Entries.get? members "choices" with
    | some (.arr choices) => choices
    | _ => []
  | _ => []

end Json

namespace FinishReason

/-- The value is no finish reason that is known, and does not say that there is none. -/
def isUnknown : Json → Bool
  | .null => false
  | .str name => name ≠ "" ∧ name ∉ all.map FinishReason.name
  | _ => true

/-- The value is not known, and a report shows it. -/
def isReported (value : Json) : Bool := isUnknown value && value.isShowable

end FinishReason

namespace Json

/-- The finish reasons of the choices of an answer, in their order. -/
def reasons (value : Json) : List Json := value.choices.flatMap (partsAt (.member "finish_reason"))

/-- The finish reasons of an answer that are not known, in the order of its choices. -/
def unknownReasons (value : Json) : List Json := value.reasons.filter FinishReason.isUnknown

/-- In an answer that can be shown, every reason that is not known is reported. -/
theorem filter_isReported_reasons {value : Json} (hshow : value.isShowable = true) :
    value.reasons.filter FinishReason.isReported = value.unknownReasons := by
  refine List.filter_congr fun reason hreason => ?_
  obtain ⟨choice, hchoice, hreason⟩ := List.mem_flatMap.mp hreason
  have hchoice : choice.isShowable = true := by
    unfold choices at hchoice
    split at hchoice
    · split at hchoice
      · rename_i members _ list hlist
        have harr : (arr list).isShowable = true :=
          isShowable_of_mem_partsAt hshow (.member "choices")
            (Option.mem_toList.mpr hlist)
        exact isShowable_of_mem_partsAt harr .each hchoice
      · cases hchoice
    · cases hchoice
  rw [FinishReason.isReported, isShowable_of_mem_partsAt hchoice _ hreason, Bool.and_true]

end Json

/-! ## Records but for their finish reasons -/

/-- The fragment of a choice without its finish reason. -/
def ChunkChoice.withoutReason (choice : ChunkChoice) : ChunkChoice :=
  { choice with finishReason := none }

/-- The chunk without finish reasons. -/
def Chunk.withoutReasons (chunk : Chunk) : Chunk :=
  { chunk with choices := chunk.choices.map (·.map ChunkChoice.withoutReason) }

/-- The choice without its finish reason. -/
def Choice.withoutReason (choice : Choice) : Choice := { choice with finishReason := none }

/-- The completion without finish reasons. -/
def Completion.withoutReasons (completion : Completion) : Completion :=
  { completion with choices := completion.choices.map (·.map Choice.withoutReason) }

/-! ## Two decodings -/

open Decoded (Agree)
open Decoder (IsQuiet)

section Fields

variable {α : Type} {members members' : Members} {name : String}

/-- A field is decoded from the member of its name, and from no other. -/
theorem Members.optional_congr (decode : Decoder α)
    (hget : Entries.get? members name = Entries.get? members' name) :
    members.optional name decode = members'.optional name decode := by
  rw [optional, optional, withDefault, withDefault, hget]

/-- An optional field agrees with that of other members, if these have the same value. -/
theorem Members.agree_optional (decode : Decoder α)
    (hget : Entries.get? members name = Entries.get? members' name) :
    Agree Eq (members.optional name decode).outcome (members'.optional name decode).outcome := by
  rw [optional_congr decode hget]
  exact .refl (fun _ => rfl) _

/-- A finish reason is decoded to something exactly if a report could show it. -/
theorem FinishReason.exists_decode_eq_ok_iff (value : Json) :
    (∃ reason, (decode value).outcome = .ok reason) ↔ value.isShowable = true := by
  cases value with
  | null => exact iff_of_true ⟨none, rfl⟩ rfl
  | str name =>
    refine iff_of_true ?_ rfl
    by_cases hempty : name = ""
    · subst hempty
      exact ⟨none, rfl⟩
    · rw [decode]
      · cases ofName? name <;> exact ⟨_, rfl⟩
      · exact hempty
  | bool | int | float | arr | obj =>
    simp only [decode]
    split
    · exact iff_of_true ⟨none, rfl⟩ ‹_›
    · exact iff_of_false nofun ‹_›

/-- The finish reason of what can be shown is decoded to something. -/
theorem FinishReason.exists_field_eq_ok {members : Members}
    (hshow : (Json.obj members).isShowable = true) :
    ∃ reason, (field members).outcome = .ok reason := by
  rw [field, Members.withDefault]
  cases hget : Entries.get? members "finish_reason" with
  | none => exact ⟨none, rfl⟩
  | some value =>
    have hvalue : value.isShowable = true :=
      Json.isShowable_of_mem_partsAt hshow (.member "finish_reason")
        (Option.mem_toList.mpr hget)
    obtain ⟨reason, hreason⟩ := (exists_decode_eq_ok_iff value).mpr hvalue
    exact ⟨reason, Decoded.outcome_under_eq_ok_iff.mpr hreason⟩

/-- Two finish reasons agree, but for what they are. -/
theorem FinishReason.agree_field {members members' : Members}
    (hshow : (Json.obj members).isShowable = true)
    (hshow' : (Json.obj members').isShowable = true) :
    Agree (fun _ _ => True) (field members).outcome (field members').outcome := by
  obtain ⟨_, hreason⟩ := exists_field_eq_ok hshow
  obtain ⟨_, hreason'⟩ := exists_field_eq_ok hshow'
  rw [hreason, hreason']
  exact .decoded trivial

end Fields

/-- A choice that can be shown still can with a finish reason that a text denotes. -/
theorem ReasonEdit.isShowable_apply {edit : ReasonEdit} {choice : Json} (hedit : edit.IsDenoted)
    (hchoice : choice.isShowable = true) : (edit.apply choice).isShowable = true := by
  cases choice with
  | obj members =>
    have hmembers := hchoice
    rw [Json.isShowable_obj, List.all_eq_true] at hmembers
    cases edit with
    | keep => exact hchoice
    | remove =>
      rw [apply, Json.isShowable_obj, List.all_eq_true]
      exact fun member hmember => hmembers member (List.mem_of_mem_filter hmember)
    | put reason =>
      rw [apply, Json.isShowable_obj, List.all_eq_true]
      have hreason : reason.isShowable = true := (hedit reason rfl).isShowable
      have hvalues : ∀ x ∈ members.map Prod.snd, x.isShowable = true :=
        List.forall_mem_map.mpr hmembers
      exact List.forall_mem_map.mp (Json.Reader.isShowable_of_mem_set hvalues hreason)
  | _ => cases edit <;> exact hchoice

/-- An edit leaves all members but the finish reason. -/
theorem ReasonEdit.exists_apply_obj (edit : ReasonEdit) (members : Members) :
    ∃ edited : Members, edit.apply (.obj members) = .obj edited ∧
      ∀ name ≠ "finish_reason", Entries.get? members name = Entries.get? edited name := by
  cases edit with
  | keep => exact ⟨members, rfl, fun _ _ => rfl⟩
  | remove =>
    exact ⟨_, rfl, fun name hname => by rw [Entries.get?_erase, if_neg hname]⟩
  | put reason =>
    exact ⟨_, rfl, fun name hname => by rw [Entries.get?_set, if_neg hname]⟩

/-- The fragment of a choice is decoded to the same, but for its finish reason. -/
theorem ChunkChoice.agree_apply {edit : ReasonEdit} {choice : Json} (hedit : edit.IsDenoted)
    (hchoice : choice.isShowable = true) :
    Agree (fun a b => a.withoutReason = b.withoutReason) (decode choice).outcome
      (decode (edit.apply choice)).outcome := by
  have happly := edit.isShowable_apply hedit hchoice
  cases choice with
  | obj members =>
    obtain ⟨edited, hedited, hget⟩ := edit.exists_apply_obj members
    rw [hedited] at happly ⊢
    refine .seq (.seq (.seq (.map (Members.agree_optional Decoder.int (hget _ (by decide))) ?_)
      (Members.agree_optional Message.decode (hget _ (by decide))))
      (FinishReason.agree_field hchoice happly))
      (Members.agree_optional Usage.decode (hget _ (by decide)))
    rintro index _ rfl delta _ rfl _ _ _ usage _ rfl
    rfl
  | _ => cases edit <;> exact .failed _

/-- A choice is decoded to the same, but for its finish reason. -/
theorem Choice.agree_apply {edit : ReasonEdit} {choice : Json} (hedit : edit.IsDenoted)
    (hchoice : choice.isShowable = true) :
    Agree (fun a b => a.withoutReason = b.withoutReason) (decode choice).outcome
      (decode (edit.apply choice)).outcome := by
  have happly := edit.isShowable_apply hedit hchoice
  cases choice with
  | obj members =>
    obtain ⟨edited, hedited, hget⟩ := edit.exists_apply_obj members
    rw [hedited] at happly ⊢
    refine .seq (.seq (.map (Members.agree_optional Decoder.int (hget _ (by decide))) ?_)
      (Members.agree_optional Message.decode (hget _ (by decide))))
      (FinishReason.agree_field hchoice happly)
    rintro index _ rfl message _ rfl _ _ _
    rfl
  | _ => cases edit <;> exact .failed _

section Choices

variable {α β : Type} {decode : Decoder α} {f : α → β}
  (hdecode : ∀ {edit : ReasonEdit} {choice : Json}, edit.IsDenoted → choice.isShowable = true →
    Agree (fun a b => f a = f b) (decode choice).outcome (decode (edit.apply choice)).outcome)
  {edit : Nat → ReasonEdit} (hedit : ∀ place, (edit place).IsDenoted)

include hdecode hedit

/-- Choices that are edited one by one are decoded to the same in the sense of `f`, if each of
them is. -/
theorem agree_list_mapIdx {choices : List Json}
    (hchoices : ∀ choice ∈ choices, choice.isShowable = true) :
    Agree (fun xs ys => xs.map f = ys.map f) (Decoder.list decode (.arr choices)).outcome
      (Decoder.list decode
        (.arr (choices.mapIdx fun place choice => (edit place).apply choice))).outcome := by
  have hitems : List.Forall₂
      (fun v w => Agree (fun a b => f a = f b) (decode v).outcome (decode w).outcome) choices
      (choices.mapIdx fun place choice => (edit place).apply choice) := by
    induction choices generalizing edit with
    | nil => exact .nil
    | cons choice choices ih =>
      obtain ⟨hchoice, hchoices⟩ := List.forall_mem_cons.mp hchoices
      rw [List.mapIdx_cons]
      exact .cons (hdecode (hedit 0) hchoice) (ih (fun place => hedit (place + 1)) hchoices)
  refine (Agree.list hitems).mono fun xs ys hsame => ?_
  have hmap : List.Forall₂ Eq (xs.map f) (ys.map f) := by
    rwa [List.forall₂_map_left_iff, List.forall₂_map_right_iff]
  rwa [List.forall₂_eq_eq_eq] at hmap

/-- An edit of finish reasons leaves all members but the choices, and these are decoded to the
same in the sense of `f`, if each of them is. -/
theorem exists_editReasons_obj {members : Members} (hshow : (Json.obj members).isShowable = true) :
    ∃ edited : Members, Json.editReasons edit (.obj members) = .obj edited ∧
      (∀ name ≠ "choices", Entries.get? members name = Entries.get? edited name) ∧
      Agree (fun x y => x.map (List.map f) = y.map (List.map f))
        (members.optional "choices" (Decoder.list decode)).outcome
        (edited.optional "choices" (Decoder.list decode)).outcome := by
  simp only [Json.editReasons]
  split
  · rename_i choices hchoices
    have hlist : (Json.arr choices).isShowable = true :=
      Json.isShowable_of_mem_partsAt hshow (.member "choices")
        (Option.mem_toList.mpr hchoices)
    rw [Json.isShowable_arr, List.all_eq_true] at hlist
    have hset := Entries.get?_set members "choices"
    refine ⟨_, rfl, fun name hname => by rw [hset, if_neg hname], ?_⟩
    rw [Members.optional, Members.optional, Members.withDefault, Members.withDefault, hset,
      if_pos rfl, hchoices]
    refine Agree.under _ (.map (agree_list_mapIdx hdecode hedit hlist) ?_)
    exact fun xs ys hsame => congrArg some hsame
  · refine ⟨members, rfl, fun _ _ => rfl, ?_⟩
    apply Agree.refl
    exact fun _ => rfl

end Choices

/-- A chunk is decoded to the same, but for its finish reasons. -/
theorem Chunk.agree_editReasons {edit : Nat → ReasonEdit} {value : Json}
    (hedit : ∀ place, (edit place).IsDenoted) (hvalue : value.isShowable = true) :
    Agree (fun a b => a.withoutReasons = b.withoutReasons) (decode value).outcome
      (decode (value.editReasons edit)).outcome := by
  cases value with
  | obj members =>
    obtain ⟨edited, hedited, hget, hchoices⟩ :=
      exists_editReasons_obj ChunkChoice.agree_apply hedit hvalue
    rw [hedited]
    refine .seq (.seq (.seq (.seq
      (.map (Members.agree_optional Decoder.text (hget _ (by decide))) ?_)
      (Members.agree_optional Decoder.text (hget _ (by decide))))
      (Members.agree_optional Decoder.int (hget _ (by decide))))
      (Members.agree_optional Decoder.text (hget _ (by decide)))) hchoices
    rintro id _ rfl object _ rfl created _ rfl model _ rfl choices choices' hsame
    simp only [withoutReasons, hsame]
  | _ => exact .failed _

/-- A completion is decoded to the same, but for its finish reasons. -/
theorem Completion.agree_editReasons {edit : Nat → ReasonEdit} {value : Json}
    (hedit : ∀ place, (edit place).IsDenoted) (hvalue : value.isShowable = true) :
    Agree (fun a b => a.withoutReasons = b.withoutReasons) (decode value).outcome
      (decode (value.editReasons edit)).outcome := by
  cases value with
  | obj members =>
    obtain ⟨edited, hedited, hget, hchoices⟩ :=
      exists_editReasons_obj Choice.agree_apply hedit hvalue
    rw [hedited]
    refine .seq (.seq (.seq (.seq (.seq (.seq
      (.map (Members.agree_optional Decoder.text (hget _ (by decide))) ?_)
      (Members.agree_optional Decoder.text (hget _ (by decide))))
      (Members.agree_optional Decoder.int (hget _ (by decide))))
      (Members.agree_optional Decoder.text (hget _ (by decide)))) hchoices)
      (Members.agree_optional Usage.decode (hget _ (by decide))))
      (Members.agree_optional KnowledgeBase.decode (hget _ (by decide)))
    rintro id _ rfl object _ rfl created _ rfl model _ rfl choices choices' hsame usage _ rfl
      base _ rfl
    simp only [withoutReasons, hsame]
  | _ => exact .failed _

/-! ## Notices -/

namespace FinishReason

/-- A name is not known exactly if it is not empty and no finish reason has it. -/
theorem isUnknown_str (name : String) :
    isUnknown (.str name) = (name ≠ "" && (ofName? name).isNone) := by
  rw [isUnknown, Bool.eq_iff_iff]
  simp [ofName?, Option.isNone_iff_eq_none, List.find?_eq_none]

/-- A value that is given as a finish reason gives a notice, if it is reported. -/
theorem notices_decode (value : Json) :
    (decode value).notices = if isReported value then [.unknownFinishReason value] else [] := by
  cases value with
  | str name =>
    by_cases hempty : name = ""
    · subst hempty
      rfl
    · have hshow : (Json.str name).isShowable = true := rfl
      rw [decode, isReported, isUnknown_str, hshow]
      · cases ofName? name <;> simp [hempty, Decoded.noting]
      · exact hempty
  | null => rfl
  | bool | int | float | arr | obj =>
    simp only [decode, isReported, isUnknown, Bool.true_and]
    split <;> rfl

/-- The field of a finish reason gives a notice, if the reason is reported. -/
theorem notices_field (members : Members) :
    (field members).notices =
      ((Json.partsAt (.member "finish_reason") (.obj members)).filter isReported).map
        .unknownFinishReason := by
  rw [field, Members.withDefault, Json.partsAt]
  cases Entries.get? members "finish_reason" with
  | none => rfl
  | some value =>
    rw [Decoder.given, Decoded.notices_under, notices_decode]
    cases hreported : isReported value <;> simp [hreported]

end FinishReason

/-- A choice of a chunk gives a notice, if its finish reason is reported. -/
theorem ChunkChoice.notices_decode (choice : Json) :
    (decode choice).notices =
      ((Json.partsAt (.member "finish_reason") choice).filter FinishReason.isReported).map
        .unknownFinishReason := by
  cases choice with
  | obj members =>
    simp [decode, Decoder.record, IsQuiet.int.optional members,
      Message.isQuiet_decode.optional members, Usage.isQuiet_decode.optional members,
      FinishReason.notices_field]
  | _ => rfl

/-- A choice of a completion gives a notice, if its finish reason is reported. -/
theorem Choice.notices_decode (choice : Json) :
    (decode choice).notices =
      ((Json.partsAt (.member "finish_reason") choice).filter FinishReason.isReported).map
        .unknownFinishReason := by
  cases choice with
  | obj members =>
    simp [decode, Decoder.record, IsQuiet.int.optional members,
      Message.isQuiet_decode.optional members, FinishReason.notices_field]
  | _ => rfl

/-- The choices of an answer give their notices one after the other. -/
theorem notices_optional_choices {α : Type} {decode : Decoder α}
    (hchoice : ∀ choice, (decode choice).notices =
      ((Json.partsAt (.member "finish_reason") choice).filter FinishReason.isReported).map
        .unknownFinishReason) (members : Members) :
    (members.optional "choices" (Decoder.list decode)).notices =
      ((Json.reasons (.obj members)).filter FinishReason.isReported).map
        .unknownFinishReason := by
  rw [Members.optional, Members.withDefault, Json.reasons, Json.choices]
  cases Entries.get? members "choices" with
  | none => rfl
  | some value =>
    cases value with
    | arr choices =>
      refine (Decoder.notices_itemsFrom decode 0 choices).trans ?_
      simp only [hchoice, List.filter_flatMap, List.map_flatMap]
    | _ => rfl

/-- A chunk is decoded with a notice for each finish reason that is reported. -/
theorem Chunk.notices_decode (value : Json) :
    (decode value).notices =
      (value.reasons.filter FinishReason.isReported).map .unknownFinishReason := by
  cases value with
  | obj members =>
    simp [decode, Decoder.record, IsQuiet.text.optional members, IsQuiet.int.optional members,
      notices_optional_choices ChunkChoice.notices_decode]
  | _ => rfl

/-- A completion is decoded with a notice for each finish reason that is reported. -/
theorem Completion.notices_decode (value : Json) :
    (decode value).notices =
      (value.reasons.filter FinishReason.isReported).map .unknownFinishReason := by
  cases value with
  | obj members =>
    simp [decode, Decoder.record, IsQuiet.text.optional members, IsQuiet.int.optional members,
      notices_optional_choices Choice.notices_decode, Usage.isQuiet_decode.optional members,
      KnowledgeBase.isQuiet_decode.optional members]
  | _ => rfl

/-- An answer with a list as the first finish reason, and with an index that is no number. -/
def oddAnswer : Json :=
  .obj [("choices", .arr [.obj [("finish_reason", .arr [.int 1])],
    .obj [("index", .str "first"), ("finish_reason", .str "bored")]])]

/-- The second reason is replaced by an object. -/
def oddEdit : Nat → ReasonEdit
  | 1 => .put (.obj [("why", .null)])
  | _ => .keep

end ChatClient
