import ChatClient.Chunk.EventStream
import ChatClient.Proofs.ReadBack
import ChatClient.Proofs.RecordDump

/-!
# The text of a chunk

A chunk whose contents hold no float is written as the compact text of its dump, if
no content is nested too deep. The text denotes the dump, which decodes to the chunk,
and it has no line end in it.
-/

namespace ChatClient

/-! ## Plain values -/

namespace Json

theorem arePlain_iff {items : List Json} :
    arePlain items = true ↔ ∀ x ∈ items, x.isPlain = true := by
  induction items with
  | nil => simp [arePlain]
  | cons x xs ih => simp [arePlain, ih]

theorem areMembersPlain_iff {members : List (String × Json)} :
    areMembersPlain members = true ↔ ∀ member ∈ members, member.2.isPlain = true := by
  induction members with
  | nil => simp [areMembersPlain]
  | cons member members ih =>
    obtain ⟨name, x⟩ := member
    simp only [areMembersPlain, Bool.and_eq_true, ih, List.mem_cons, forall_eq_or_imp]

mutual

/-- Nothing in a plain value has to be made finite. -/
theorem finite_of_isPlain : ∀ {value : Json}, value.isPlain = true → value.finite = value
  | .null, _ => rfl
  | .bool _, _ => rfl
  | .int _, _ => rfl
  | .str _, _ => rfl
  | .arr items, hplain => by
    rw [isPlain] at hplain
    rw [finite, finiteItems_of_arePlain hplain]
  | .obj members, hplain => by
    rw [isPlain, Bool.and_eq_true] at hplain
    rw [finite, finiteMembers_of_areMembersPlain hplain.2]

theorem finiteItems_of_arePlain : ∀ {items : List Json}, arePlain items = true →
    finiteItems items = items
  | [], _ => rfl
  | x :: xs, hplain => by
    rw [arePlain, Bool.and_eq_true] at hplain
    rw [finiteItems, finite_of_isPlain hplain.1, finiteItems_of_arePlain hplain.2]

theorem finiteMembers_of_areMembersPlain : ∀ {members : List (String × Json)},
    areMembersPlain members = true → finiteMembers members = members
  | [], _ => rfl
  | (_, x) :: xs, hplain => by
    rw [areMembersPlain, Bool.and_eq_true] at hplain
    rw [finiteMembers, finite_of_isPlain hplain.1, finiteMembers_of_areMembersPlain hplain.2]

end

end Json

/-- A record is plain, if the values of its fields are. -/
theorem NullFields.isPlain_record (nulls : NullFields) {fields : List (String × Option Json)}
    (hnodup : (fields.map Prod.fst).Nodup)
    (hfields : ∀ field ∈ fields, ∀ value ∈ field.2, value.isPlain = true) :
    (nulls.record fields).isPlain = true := by
  rw [record, Json.isPlain, Bool.and_eq_true, decide_eq_true_eq, Json.areMembersPlain_iff]
  refine ⟨hnodup.sublist (nulls.names_members_sublist fields), fun member hmember => ?_⟩
  rcases mem_members hmember with hfield | hnull
  · exact hfields _ hfield _ rfl
  · rw [hnull]
    rfl

section Dumps

variable (nulls : NullFields)

/-- The call of a function holds texts only. -/
theorem FunctionCall.isPlain_dump (call : FunctionCall) : (call.dump nulls).isPlain = true :=
  nulls.isPlain_record (by simp) (by simp [Json.isPlain])

/-- A tool call holds nothing but texts and an integer. -/
theorem ToolCall.isPlain_dump (call : ToolCall) : (call.dump nulls).isPlain = true :=
  nulls.isPlain_record (by simp) (by simp [Json.isPlain, FunctionCall.isPlain_dump])

/-- A usage holds integers only. -/
theorem Usage.isPlain_dump (usage : Usage) : (usage.dump nulls).isPlain = true :=
  nulls.isPlain_record (by simp) (by simp [Json.isPlain])

/-- The parts of the content are plain. -/
def Content.IsPlain : Content → Prop
  | .text _ => True
  | .parts items => ∀ part ∈ items, part.isPlain = true

instance : DecidablePred Content.IsPlain
  | .text _ => inferInstanceAs (Decidable True)
  | .parts items => inferInstanceAs (Decidable (∀ part ∈ items, part.isPlain = true))

/-- Plain parts are left as they are. -/
theorem Content.IsPlain.isFinite {content : Content} (hplain : content.IsPlain) :
    content.IsFinite := by
  cases content with
  | text _ => trivial
  | parts items => exact fun part hpart => Json.finite_of_isPlain (hplain part hpart)

/-- A content of plain parts is plain. -/
theorem Content.IsPlain.isPlain_dump {content : Content} (hplain : content.IsPlain) :
    content.dump.isPlain = true := by
  cases content with
  | text _ => rfl
  | parts items =>
    rw [hplain.isFinite.dump_parts, Json.isPlain, Json.arePlain_iff]
    exact hplain

/-- A message is plain, if its content is. -/
theorem Message.isPlain_dump {message : Message}
    (hcontent : ∀ content ∈ message.content, content.IsPlain) :
    (message.dump nulls).isPlain = true := by
  have hdump : ∀ content ∈ message.content, content.dump.isPlain = true :=
    fun content hmem => (hcontent content hmem).isPlain_dump
  exact nulls.isPlain_record (by simp)
    (by simpa [Json.isPlain, Json.arePlain_iff, ToolCall.isPlain_dump] using hdump)

/-- The fragment of a choice is plain, if its content is. -/
theorem ChunkChoice.isPlain_dump {choice : ChunkChoice}
    (hcontent : ∀ content ∈ choice.delta.bind Message.content, content.IsPlain) :
    (choice.dump nulls).isPlain = true := by
  have hdump : ∀ delta ∈ choice.delta, (delta.dump nulls).isPlain = true := fun delta hdelta =>
    Message.isPlain_dump nulls fun content hmem =>
      hcontent content (Option.mem_bind_iff.mpr ⟨delta, hdelta, hmem⟩)
  exact nulls.isPlain_record (by simp)
    (by simpa [Json.isPlain, FinishReason.dump, Usage.isPlain_dump] using hdump)

/-- A chunk is plain, if its contents are. -/
theorem Chunk.isPlain_dump {chunk : Chunk}
    (hcontents : ∀ content ∈ chunk.contents, content.IsPlain) :
    (chunk.dump nulls).isPlain = true := by
  have hdump : ∀ choices ∈ chunk.choices, ∀ choice ∈ choices,
      (choice.dump nulls).isPlain = true := by
    intro choices hchoices choice hchoice
    exact ChunkChoice.isPlain_dump nulls fun content hcontent =>
      hcontents content (mem_contents hchoices hchoice hcontent)
  exact nulls.isPlain_record (by simp) (by simpa [Json.isPlain, Json.arePlain_iff] using hdump)

end Dumps

/-! ## Depths -/

namespace Json

/-- Several values are followed one by one. -/
theorem foldl_partsAt (path : List PathStep) (values : List Json) :
    path.foldl (fun values step => values.flatMap (partsAt step)) values =
      values.flatMap (partsAlong path) := by
  induction path generalizing values with
  | nil => exact (List.flatMap_singleton' values).symm
  | cons step path ih =>
    have hparts : partsAlong (step :: path) = fun value =>
        (partsAt step value).flatMap (partsAlong path) := by
      funext value
      rw [partsAlong, List.foldl_cons, List.flatMap_singleton, ih]
    rw [List.foldl_cons, ih, hparts, List.flatMap_assoc]

/-- The last step of a path leads on from every part that the others lead to. -/
theorem partsAlong_concat (path : List PathStep) (step : PathStep) (value : Json) :
    partsAlong (path ++ [step]) value = (partsAlong path value).flatMap (partsAt step) := by
  rw [partsAlong, List.foldl_append]
  rfl

/-- A path leads on from every part that its first step leads to. -/
theorem partsAlong_cons (step : PathStep) (path : List PathStep) (value : Json) :
    partsAlong (step :: path) value = (partsAt step value).flatMap (partsAlong path) := by
  rw [partsAlong, List.foldl_cons, foldl_partsAt, List.flatMap_singleton]

end Json

/-- A dump without null fields has the value of a field under its name, if there is one. -/
theorem NullFields.partsAt_omitted {fields : List (String × Option Json)}
    (hnodup : (fields.map Prod.fst).Nodup) {name : String} {value : Option Json}
    (hfield : fields.lookup name = some value) :
    Json.partsAt (.member name) (omitted.record fields) = value.toList := by
  rw [record, Json.partsAt, omitted.get?_members hnodup, hfield]
  cases value <;> rfl

open Json (partsAlong partsAlong_cons)
open NullFields (partsAt_omitted)

/-- From a choice, the steps to its content lead there and nowhere else. -/
theorem ChunkChoice.partsAlong_dump (choice : ChunkChoice) :
    partsAlong [.member "delta", .member "content"] (choice.dump .omitted) =
      ((choice.delta.bind Message.content).map Content.dump).toList := by
  rw [partsAlong_cons, dump, partsAt_omitted (by simp) rfl]
  cases choice.delta with
  | none => rfl
  | some delta =>
    rw [Option.map_some, Option.toList_some, List.flatMap_singleton, partsAlong_cons, Message.dump,
      partsAt_omitted (by simp) rfl]
    exact List.flatMap_singleton' _

/-- From a chunk, the steps to its contents lead there and nowhere else. -/
theorem Chunk.partsAlong_dump (chunk : Chunk) :
    partsAlong [.member "choices", .each, .member "delta", .member "content"]
      (chunk.dump .omitted) = chunk.contents.map Content.dump := by
  rw [partsAlong_cons, dump, partsAt_omitted (by simp) rfl, contents]
  cases chunk.choices with
  | none => rfl
  | some choices =>
    rw [Option.map_some, Option.toList_some, List.flatMap_singleton, partsAlong_cons, Json.partsAt,
      List.flatMap_map]
    simp only [ChunkChoice.partsAlong_dump, Option.getD_some]
    rw [List.map_filterMap, List.filterMap_eq_flatMap_toList]

namespace Chunk

/-- A dump is not followed too deep if its contents are not too deep. -/
theorem isWithinDepth_dump {chunk : Chunk}
    (hdepth : ∀ content ∈ chunk.contents, content.dump.depth ≤ RecordKind.greatestDepth)
    (form : RecordKind.DumpForm) :
    RecordKind.chunk.isWithinDepth form (chunk.dump .omitted) = true := by
  have hvalues : ∀ value ∈ chunk.contents.map Content.dump,
      value.depth ≤ RecordKind.greatestDepth := by
    simpa using hdepth
  rw [RecordKind.isWithinDepth, List.all_eq_true]
  intro value hpart
  obtain ⟨path, hpath, hvalue⟩ := List.mem_flatMap.mp hpart
  rw [decide_eq_true_eq]
  cases form with
  | text =>
    obtain rfl : path = [.member "choices", .each, .member "delta", .member "content"] := by
      simpa [RecordKind.freePaths, RecordKind.messagePaths] using hpath
    rw [partsAlong_dump] at hvalue
    exact hvalues value hvalue
  | value =>
    obtain rfl : path = [.member "choices", .each, .member "delta", .member "content"] ++
        [.each] := by
      simpa [RecordKind.freePaths, RecordKind.messagePaths] using hpath
    rw [Json.partsAlong_concat, partsAlong_dump] at hvalue
    obtain ⟨_, hcontent, hpart⟩ := List.mem_flatMap.mp hvalue
    obtain ⟨content, hmem, rfl⟩ := List.mem_map.mp hcontent
    have hless := Json.depth_lt_of_mem_partsAt hpart
    have hle := hdepth content hmem
    omega

/-! ## Texts -/

/-- A chunk can be written whose contents are plain and not too deep. Its text is
that of its dump. -/
theorem text_eq_compact {chunk : Chunk} (hplain : ∀ content ∈ chunk.contents, content.IsPlain)
    (hdepth : ∀ content ∈ chunk.contents, content.dump.depth ≤ RecordKind.greatestDepth) :
    chunk.text = .ok (chunk.dump .omitted).compact := by
  have hdump := isPlain_dump .omitted hplain
  rw [text, RecordKind.written, isWithinDepth_dump hdepth, isWithinDepth_dump hdepth,
    Json.finite_of_isPlain hdump]
  rfl

/-- The text of a chunk is read back as the chunk. -/
theorem decode_read_compact {chunk : Chunk}
    (hplain : ∀ content ∈ chunk.contents, content.IsPlain) :
    ∃ value, Json.read (chunk.dump .omitted).compact none = .ok value ∧
      (decode value).outcome = .ok chunk := by
  refine ⟨_, Json.read_compact (isPlain_dump .omitted hplain), ?_⟩
  rw [decode_dump .omitted,
    normal_of_isFinite fun content hcontent => (hplain content hcontent).isFinite]
  rfl

end Chunk

/-! ## Characters -/

/-- The digits of a hexadecimal numeral are hexadecimal digits. -/
theorem Text.exists_of_mem_hexDigits {width n : Nat} {c : Char} (hc : c ∈ hexDigits width n) :
    ∃ k < 16, c = Nat.digitChar k := by
  induction width generalizing n with
  | zero => cases hc
  | succ width ih =>
    rw [hexDigits, List.mem_append, List.mem_singleton] at hc
    rcases hc with hc | hc
    · exact ih hc
    · exact ⟨n % 16, Nat.mod_lt _ (by decide), hc⟩

namespace Json

/-- The character is no control character, as which line ends count. -/
def IsVisible (c : Char) : Prop := 0x20 ≤ c.toNat

instance : DecidablePred IsVisible := fun c => inferInstanceAs (Decidable (0x20 ≤ c.toNat))

/-- Characters that are given are seen to be visible one by one. -/
theorem isVisible_of_all {cs : List Char} (hall : cs.all (fun c => IsVisible c) = true) :
    ∀ c ∈ cs, IsVisible c := by
  simpa using hall

/-- An escape holds no control character, whatever it stands for. -/
theorem isVisible_of_mem_escapeChar {c d : Char} (hd : d ∈ escapeChar c) : IsVisible d := by
  have hpair {a b : Char} (hmem : d ∈ [a, b]) (ha : IsVisible a) (hb : IsVisible b) :
      IsVisible d := by
    rcases List.mem_pair.mp hmem with rfl | rfl
    · exact ha
    · exact hb
  unfold escapeChar at hd
  split_ifs at hd with hquote hslash hback hform hline hreturn htab hcontrol
  · exact hpair hd (by decide) (by decide)
  · exact hpair hd (by decide) (by decide)
  · exact hpair hd (by decide) (by decide)
  · exact hpair hd (by decide) (by decide)
  · exact hpair hd (by decide) (by decide)
  · exact hpair hd (by decide) (by decide)
  · exact hpair hd (by decide) (by decide)
  · have hdigit : ∀ k < 16, IsVisible (Nat.digitChar k) := by decide
    rcases List.mem_cons.mp hd with rfl | hd
    · decide
    · rcases List.mem_cons.mp hd with rfl | hd
      · decide
      · obtain ⟨k, hk, rfl⟩ := Text.exists_of_mem_hexDigits hd
        exact hdigit k hk
  · obtain rfl : d = c := by simpa using hd
    exact Nat.le_of_not_lt hcontrol

/-- The text of a token holds no control character. -/
theorem isVisible_of_mem_spell {limit : Option Nat} {token : Token}
    (hreadable : token.isReadable limit = true) (layout : Layout) :
    ∀ c ∈ token.spell layout, IsVisible c := by
  cases token with
  | openArray | closeArray | openObject | closeObject | colon | comma | null =>
    exact isVisible_of_all rfl
  | bool value => cases value <;> exact isVisible_of_all rfl
  | int n =>
    have hdigits : ∀ c ∈ Nat.toDigits 10 n.natAbs, IsVisible c := by
      intro c hc
      have hdigit : c.isDigit = true := Nat.isDigit_of_mem_toDigits (by decide) (by decide) hc
      simp only [Char.isDigit, Bool.and_eq_true, decide_eq_true_eq] at hdigit
      have hle : '0'.toNat ≤ c.toNat := hdigit.1
      exact Nat.le_trans (by decide) hle
    intro c hc
    rw [Token.spell, intText, List.mem_append] at hc
    rcases hc with hc | hc
    · split at hc
      · obtain rfl : c = '-' := by simpa using hc
        decide
      · cases hc
    · exact hdigits c hc
  | str s =>
    intro c hc
    rw [Token.spell, stringText, List.mem_cons, List.mem_append, List.mem_flatMap] at hc
    rcases hc with rfl | ⟨d, _, hc⟩ | hc
    · decide
    · exact isVisible_of_mem_escapeChar hc
    · obtain rfl : c = '"' := by simpa using hc
      decide
  | float _ | brokenString _ | brokenInteger _ | unknown => cases hreadable

/-- The compact text of a plain value holds no control character. -/
theorem isVisible_of_mem_compact {value : Json} (hplain : value.isPlain = true) {c : Char}
    (hc : c ∈ value.compact.toList) : IsVisible c := by
  rw [compact, write, String.toList_ofList, List.mem_flatMap] at hc
  obtain ⟨token, htoken, hc⟩ := hc
  exact isVisible_of_mem_spell (isReadable_of_mem_spelling value hplain token htoken) .compact c hc

/-- The compact text of an object begins with an opening brace. -/
theorem head?_compact_obj (members : Members) :
    (obj members).compact.toList.head? = some '\x7b' := by
  rw [compact, write, String.toList_ofList]
  cases members with
  | nil => rfl
  | cons member members =>
    obtain ⟨name, value⟩ := member
    rw [spelling, List.flatMap_cons]
    rfl

end Json

end ChatClient
