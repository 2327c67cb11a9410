import ChatClient.Completion

/-!
# Decoding without notices

A decoder gives notices where it reads something as absent that it does not know, and the
finish reason of a choice is the one field for which it does. All other fields are decoded
quietly: without notices, whatever comes of them. The notices of a record are those of its
fields, one after the other, so only those of its finish reasons are left.
-/

namespace ChatClient

namespace Decoded

variable {α β : Type}

@[simp] theorem notices_value (a : α) : (value a).notices = [] := rfl

@[simp] theorem notices_defect (d : Defect) : (defect d : Decoded α).notices = [] := rfl

@[simp] theorem notices_map (f : α → β) (x : Decoded α) : (f <$> x).notices = x.notices := rfl

@[simp] theorem notices_seq (f : Decoded (α → β)) (x : Decoded α) :
    (f <*> x).notices = f.notices ++ x.notices := rfl

@[simp] theorem notices_under (step : Step) (x : Decoded α) :
    (x.under step).notices = x.notices := rfl

/-- A value of mixed kind is decoded without notices, as both its kinds are. -/
theorem notices_orElse {first second : Alternative × Decoded α}
    (hfirst : first.2.notices = []) (hsecond : second.2.notices = []) :
    (orElse first second).notices = [] := by
  rw [orElse]
  split
  · rfl
  · rfl
  · simp [hfirst, hsecond]

end Decoded

namespace Decoder

variable {α : Type} {decode : Decoder α}

/-- The notices of a list are those of its items, one after the other. -/
theorem notices_itemsFrom (decode : Decoder α) (start : Nat) (values : List Json) :
    (itemsFrom decode start values).notices =
      values.flatMap fun value => (decode value).notices := by
  induction values generalizing start with
  | nil => rfl
  | cons value values ih => simp [itemsFrom, ih]

/-- The decoder gives no notices. -/
def IsQuiet (decode : Decoder α) : Prop := ∀ value, (decode value).notices = []

namespace IsQuiet

/-- A text is decoded quietly. -/
theorem text : IsQuiet Decoder.text := by
  intro value
  cases value <;> rfl

/-- An integer is decoded quietly, in whatever form it comes. -/
theorem int : IsQuiet Decoder.int := by
  intro value
  cases value with
  | float x =>
    rw [Decoder.int]
    split
    · rfl
    · split
      · rfl
      · split <;> rfl
  | str s =>
    rw [Decoder.int]
    split <;> rfl
  | _ => rfl

/-- A field that may be absent or `null` is decoded quietly, as its value is. -/
theorem optional (hquiet : IsQuiet decode) (members : Members) (name : String) :
    (members.optional name decode).notices = [] := by
  rw [Members.optional, Members.withDefault]
  cases Entries.get? members name with
  | none => rfl
  | some value =>
    cases value with
    | null => rfl
    | _ => exact hquiet _

/-- A list is decoded quietly, as its items are. -/
theorem list (hquiet : IsQuiet decode) : IsQuiet (Decoder.list decode) := by
  intro value
  cases value with
  | arr values => exact (notices_itemsFrom decode 0 values).trans (by simp [hquiet _])
  | _ => rfl

/-- A record is decoded quietly, as its members are. -/
theorem record {decode : Members → Decoded α}
    (hquiet : ∀ members, (decode members).notices = []) : IsQuiet (Decoder.record decode) := by
  intro value
  cases value with
  | obj members => exact hquiet members
  | _ => rfl

end IsQuiet

end Decoder

open Decoder (IsQuiet)

/-! ## Records without finish reasons -/

theorem Role.isQuiet_decode : IsQuiet Role.decode := by
  intro value
  unfold decode
  split
  · split <;> rfl
  · rfl

theorem FunctionCall.isQuiet_decode : IsQuiet FunctionCall.decode :=
  .record fun members => by simp [IsQuiet.text.optional members]

theorem ToolCall.isQuiet_decode : IsQuiet ToolCall.decode :=
  .record fun members => by
    simp [IsQuiet.int.optional members, IsQuiet.text.optional members,
      FunctionCall.isQuiet_decode.optional members]

theorem Content.isQuiet_decode : IsQuiet Content.decode := by
  have hparts : IsQuiet (Decoder.list Decoder.any) := .list fun _ => rfl
  exact fun value => Decoded.notices_orElse (IsQuiet.text value) (hparts value)

theorem Message.isQuiet_decode : IsQuiet Message.decode :=
  .record fun members => by
    simp [Content.isQuiet_decode.optional members, Role.isQuiet_decode.optional members,
      IsQuiet.text.optional members, ToolCall.isQuiet_decode.list.optional members]

theorem Usage.isQuiet_decode : IsQuiet Usage.decode :=
  .record fun members => by simp [IsQuiet.int.optional members]

theorem Cite.isQuiet_decode : IsQuiet Cite.decode :=
  .record fun members => by simp [IsQuiet.text.optional members]

theorem Offset.isQuiet_decode : IsQuiet Offset.decode := by
  intro value
  cases value with
  | str s => rfl
  | _ => exact Decoded.notices_orElse (IsQuiet.int _) (IsQuiet.text _)

theorem Mark.isQuiet_decode : IsQuiet Mark.decode :=
  .record fun members => by
    simp [IsQuiet.text.optional members, Offset.isQuiet_decode.optional members]

theorem MarkedText.isQuiet_decode : IsQuiet MarkedText.decode :=
  .record fun members => by
    simp [IsQuiet.text.optional members, Mark.isQuiet_decode.list.optional members]

theorem KnowledgeBase.isQuiet_decode : IsQuiet KnowledgeBase.decode :=
  .record fun members => by
    simp [Cite.isQuiet_decode.list.optional members, MarkedText.isQuiet_decode.optional members]

end ChatClient
