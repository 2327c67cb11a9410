import ChatClient.Proofs.IndexedCalls

/-!
# Windows reduced in parts

Any contiguous part of a window may be reduced beforehand: the reduction of a
window is merged from the reductions of its parts. Merging has to be associative
for this, and it is so at every level of a chunk under two conditions on the first
choices. Their fragments carry an index, without which calls are matched by places
that shift. Their contents are all texts or all lists of parts, as texts that are
put together before they meet a part make one part instead of two.
-/

namespace ChatClient

namespace Content

/-- The content is a text, and not a list of parts. -/
def isText : Content → Bool
  | .text _ => true
  | .parts _ => false

/-- A content that can only be a text is given by the text, if there is one. -/
theorem exists_text {content : Option Content} (hkind : ∀ c ∈ content, c.isText = true) :
    ∃ text : Option String, content = text.map .text := by
  rcases content with _ | text | parts
  · exact ⟨none, rfl⟩
  · exact ⟨some text, rfl⟩
  · exact absurd (hkind _ rfl) Bool.false_ne_true

/-- A content that cannot be a text is given by its parts, if there is one. -/
theorem exists_parts {content : Option Content} (hkind : ∀ c ∈ content, c.isText = false) :
    ∃ parts : Option (List Json), content = parts.map .parts := by
  rcases content with _ | text | parts
  · exact ⟨none, rfl⟩
  · exact absurd (hkind _ rfl).symm Bool.false_ne_true
  · exact ⟨some parts, rfl⟩

/-- Texts are put together as texts. -/
theorem merge_texts (previous current : Option String) :
    merge (previous.map .text) (current.map .text) = (concat? previous current).map .text := by
  cases previous <;> cases current <;> simp [merge, concat?]

/-- Lists of parts are appended. -/
theorem merge_parts (previous current : Option (List Json)) :
    merge (previous.map .parts) (current.map .parts) =
      (Option.merge (· ++ ·) previous current).map .parts := by
  cases previous <;> cases current <;> simp [merge, asParts]

/-- Contents of one kind make a content of this kind. -/
theorem isText_merge {isText : Bool} {previous current : Option Content}
    (hprevious : ∀ c ∈ previous, c.isText = isText)
    (hcurrent : ∀ c ∈ current, c.isText = isText) :
    ∀ c ∈ merge previous current, c.isText = isText := by
  cases isText with
  | true =>
    obtain ⟨previous, rfl⟩ := exists_text hprevious
    obtain ⟨current, rfl⟩ := exists_text hcurrent
    rw [merge_texts]
    simp [Content.isText]
  | false =>
    obtain ⟨previous, rfl⟩ := exists_parts hprevious
    obtain ⟨current, rfl⟩ := exists_parts hcurrent
    rw [merge_parts]
    simp [Content.isText]

/-- Contents of one kind are put together in any grouping. -/
theorem merge_assoc {isText : Bool} {first second third : Option Content}
    (hfirst : ∀ c ∈ first, c.isText = isText) (hsecond : ∀ c ∈ second, c.isText = isText)
    (hthird : ∀ c ∈ third, c.isText = isText) :
    merge (merge first second) third = merge first (merge second third) := by
  cases isText with
  | true =>
    obtain ⟨first, rfl⟩ := exists_text hfirst
    obtain ⟨second, rfl⟩ := exists_text hsecond
    obtain ⟨third, rfl⟩ := exists_text hthird
    simp only [merge_texts, concat?_assoc]
  | false =>
    obtain ⟨first, rfl⟩ := exists_parts hfirst
    obtain ⟨second, rfl⟩ := exists_parts hsecond
    obtain ⟨third, rfl⟩ := exists_parts hthird
    have hlists : Std.Associative (Option.merge (α := List Json) (· ++ ·)) := inferInstance
    simp only [merge_parts, hlists.assoc]

end Content

namespace ToolCall

/-- Calls that are there absorb a list of fragments, if only an empty one. -/
theorem mergeAll_some {calls : List ToolCall} (hne : calls ≠ []) (fragments : List ToolCall) :
    mergeAll (some calls) (some fragments) = some (absorb calls fragments) := by
  obtain ⟨call, calls, rfl⟩ := List.exists_cons_of_ne_nil hne
  cases fragments with
  | nil => rw [absorb_nil_right, mergeAll]
  | cons fragment fragments => rw [mergeAll, absorb, if_neg hne]

/-- Calls that are there stay as they are where no list is given. -/
theorem mergeAll_none {calls : List ToolCall} (hne : calls ≠ []) :
    mergeAll (some calls) none = some calls := by
  obtain ⟨call, calls, rfl⟩ := List.exists_cons_of_ne_nil hne
  rfl

/-- Lists of indexed fragments are put together in any grouping, whether they are
empty or not given at all. -/
theorem mergeAll_assoc {first second third : Option (List ToolCall)}
    (hfirst : Indexed (first.getD [])) (hsecond : Indexed (second.getD []))
    (hthird : Indexed (third.getD [])) :
    mergeAll (mergeAll first second) third = mergeAll first (mergeAll second third) := by
  rcases first with _ | _ | ⟨call, calls⟩
  · rfl
  · rfl
  have hne : call :: calls ≠ [] := List.cons_ne_nil call calls
  rcases second with _ | _ | ⟨fragment, fragments⟩
  · rfl
  · rfl
  have hnextNe : fragment :: fragments ≠ [] := List.cons_ne_nil fragment fragments
  have habsorbed : absorb (call :: calls) (fragment :: fragments) ≠ [] :=
    (absorb_of_indexed hne hfirst hsecond).1
  cases third with
  | none => rw [mergeAll_none hnextNe, mergeAll_some hne, mergeAll_none habsorbed]
  | some later =>
    rw [mergeAll_some hne, mergeAll_some habsorbed, mergeAll_some hnextNe, mergeAll_some hne]
    exact congrArg some (absorb_assoc hfirst hsecond hthird)

end ToolCall

namespace Message

/-- The delta of a first choice can be merged in any grouping with others of its
kind: its fragments carry an index, and its content is of the kind. -/
structure Regular (isText : Bool) (delta : Option Message) : Prop where
  indexed : ToolCall.Indexed ((delta.bind toolCalls).getD [])
  content : ∀ c ∈ delta.bind content, c.isText = isText

variable {isText : Bool} {first second third : Option Message}

/-- Regular deltas of one kind make a regular delta of this kind. -/
theorem Regular.merge (hfirst : Regular isText first) (hsecond : Regular isText second) :
    Regular isText (Message.merge first second) := by
  cases first with
  | none => exact hsecond
  | some previous =>
    cases second with
    | none => exact hfirst
    | some current =>
      constructor
      · rw [Message.merge, Option.bind_some, ToolCall.mergeAll_getD]
        exact ToolCall.indexed_absorb hfirst.indexed hsecond.indexed
      · exact Content.isText_merge hfirst.content hsecond.content

/-- Regular deltas of one kind are put together in any grouping. -/
theorem merge_assoc (hfirst : Regular isText first) (hsecond : Regular isText second)
    (hthird : Regular isText third) :
    merge (merge first second) third = merge first (merge second third) := by
  cases first with
  | none => rfl
  | some first =>
    cases second with
    | none => rfl
    | some second =>
      cases third with
      | none => rfl
      | some third =>
        have hcontent := Content.merge_assoc hfirst.content hsecond.content hthird.content
        have hcalls := ToolCall.mergeAll_assoc hfirst.indexed hsecond.indexed hthird.indexed
        simp only [Option.bind_some] at hcontent hcalls
        simp only [merge, hcontent, hcalls, Option.or_assoc]

end Message

namespace ChunkChoice

/-- Choices are put together in any grouping, if their deltas are. -/
theorem merge_assoc {isText : Bool} {first second third : ChunkChoice}
    (hfirst : Message.Regular isText first.delta) (hsecond : Message.Regular isText second.delta)
    (hthird : Message.Regular isText third.delta) :
    (first.merge second).merge third = first.merge (second.merge third) := by
  simp only [merge, Message.merge_assoc hfirst hsecond hthird, Option.or_assoc]

/-- Lists of choices are put together in any grouping, if their first choices are. -/
theorem mergeAll_assoc {first second third : Option (List ChunkChoice)}
    (hheads : ∀ a ∈ first.bind List.head?, ∀ b ∈ second.bind List.head?,
      ∀ c ∈ third.bind List.head?, (a.merge b).merge c = a.merge (b.merge c)) :
    mergeAll (mergeAll first second) third = mergeAll first (mergeAll second third) := by
  rcases first with _ | _ | ⟨a, _⟩
  · rfl
  · rfl
  rcases second with _ | _ | ⟨b, _⟩
  · rfl
  · rfl
  rcases third with _ | _ | ⟨c, further⟩
  · rfl
  · rfl
  exact congrArg (fun choice => some (choice :: further)) (hheads a rfl b rfl c rfl)

end ChunkChoice

namespace Chunk

/-- The delta of the first choice. -/
def delta? (chunk : Chunk) : Option Message := chunk.firstChoice?.bind ChunkChoice.delta

/-- The content of the first choice. -/
def content? (chunk : Chunk) : Option Content := chunk.delta?.bind Message.content

/-- Chunks that can be merged in any grouping, as far as their first choices go. -/
structure Mergeable (chunks : List Chunk) : Prop where
  /-- Every fragment carries an index, which may be repeated. -/
  indexed : ∀ chunk ∈ chunks, ToolCall.Indexed chunk.fragments
  /-- All contents are texts, or all are lists of parts. -/
  alike : ∃ isText, ∀ chunk ∈ chunks, ∀ content ∈ chunk.content?, content.isText = isText

/-- The delta of a merged chunk is merged from the deltas. -/
theorem delta?_merge (accumulated incoming : Chunk) :
    (merge accumulated incoming).delta? = Message.merge accumulated.delta? incoming.delta? := by
  rw [delta?, firstChoice?_merge, delta?, delta?]
  cases accumulated.firstChoice? with
  | none => simp [Message.merge]
  | some previous =>
    cases incoming.firstChoice? with
    | none => cases hdelta : previous.delta <;> simp [Message.merge, hdelta]
    | some current => rfl

/-- The delta of a reduction is regular, if those of its chunks are. -/
theorem regular_reduce {isText : Bool} {window : List Chunk}
    (hwindow : ∀ chunk ∈ window, Message.Regular isText chunk.delta?) :
    Message.Regular isText (reduce window).delta? := by
  induction window using List.reverseRecOn with
  | nil => exact ⟨by simp [reduce, empty, delta?, firstChoice?, ToolCall.Indexed],
      by simp [reduce, empty, delta?, firstChoice?]⟩
  | append_singleton window chunk ih =>
    have hbefore := ih fun earlier hearlier => hwindow earlier (by simp [hearlier])
    rw [reduce_concat, delta?_merge]
    exact hbefore.merge (hwindow chunk (by simp))

/-- Chunks with regular deltas of one kind are merged in any grouping. -/
theorem merge_assoc {isText : Bool} {first second third : Chunk}
    (hfirst : Message.Regular isText first.delta?)
    (hsecond : Message.Regular isText second.delta?)
    (hthird : Message.Regular isText third.delta?) :
    merge (merge first second) third = merge first (merge second third) := by
  have hchoices : ChunkChoice.mergeAll (ChunkChoice.mergeAll first.choices second.choices)
      third.choices =
        ChunkChoice.mergeAll first.choices (ChunkChoice.mergeAll second.choices third.choices) := by
    apply ChunkChoice.mergeAll_assoc
    intro a ha b hb c hc
    have hdelta {chunk : Chunk} {choice : ChunkChoice}
        (hregular : Message.Regular isText chunk.delta?)
        (hchoice : choice ∈ chunk.choices.bind List.head?) :
        Message.Regular isText choice.delta := by
      rwa [delta?, firstChoice?, Option.mem_def.mp hchoice, Option.bind_some] at hregular
    exact ChunkChoice.merge_assoc (hdelta hfirst ha) (hdelta hsecond hb) (hdelta hthird hc)
  simp only [merge, hchoices, Option.or_assoc]

/-- The reduction of a window is merged from the reductions of two parts, if the
second part is not empty. -/
theorem reduce_append_of_regular {isText : Bool} {first second : List Chunk}
    (hsecond : second ≠ [])
    (hregular : ∀ chunk ∈ first ++ second, Message.Regular isText chunk.delta?) :
    reduce (first ++ second) = merge (reduce first) (reduce second) := by
  induction second using List.reverseRecOn with
  | nil => contradiction
  | append_singleton second chunk ih =>
    by_cases hnil : second = []
    · rw [hnil, List.nil_append, reduce_concat, reduce_singleton]
    · have hfirstRegular : Message.Regular isText (reduce first).delta? :=
        regular_reduce fun c hc => hregular c (by simp [hc])
      have hsecondRegular : Message.Regular isText (reduce second).delta? :=
        regular_reduce fun c hc => hregular c (by simp [hc])
      have hbefore := ih hnil fun c hc => hregular c (by
        rw [← List.append_assoc]
        exact List.mem_append_left _ hc)
      calc reduce (first ++ (second ++ [chunk]))
          = merge (reduce (first ++ second)) chunk := by
            rw [← List.append_assoc, reduce_concat]
        _ = merge (merge (reduce first) (reduce second)) chunk := by rw [hbefore]
        _ = merge (reduce first) (merge (reduce second) chunk) :=
            merge_assoc hfirstRegular hsecondRegular (hregular chunk (by simp))
        _ = merge (reduce first) (reduce (second ++ [chunk])) := by rw [reduce_concat]

/-- **Homomorphism.** A window of two parts is reduced to the merge of their
reductions, if the second part is not empty and the chunks can be merged in any
grouping. The empty chunk is neutral in front of every chunk. -/
theorem reduce_homomorphism :
    (∀ first second : List Chunk, second ≠ [] → Mergeable (first ++ second) →
      reduce (first ++ second) = merge (reduce first) (reduce second)) ∧
      ∀ chunk : Chunk, merge empty chunk = chunk := by
  refine ⟨fun first second hsecond hmergeable => ?_, merge_empty_left⟩
  obtain ⟨isText, halike⟩ := hmergeable.alike
  exact reduce_append_of_regular hsecond fun chunk hchunk =>
    ⟨hmergeable.indexed chunk hchunk, halike chunk hchunk⟩

/-- A window whose second part repeats an index of the first and brings a new call. -/
theorem reduce_homomorphism_twoFragments :
    let first := [ofFragments [⟨some 0, none, none, some ⟨none, some "0"⟩⟩]]
    let second := [twoFragments, ofFragments [⟨some 4, some "b", none, none⟩,
      ⟨some 0, some "c", none, some ⟨none, some "3"⟩⟩]]
    second ≠ [] ∧ Mergeable (first ++ second) ∧
      (merge (reduce first) (reduce second)).toolCalls? =
        some [⟨some 0, some "a", none, some ⟨some "f", some "0123"⟩⟩,
          ⟨some 4, some "b", none, none⟩] ∧
      merge empty twoFragments = twoFragments := by
  intro first second
  have hsecond : second ≠ [] := by decide
  have hmergeable : Mergeable (first ++ second) := ⟨by decide, true, by decide⟩
  refine ⟨hsecond, hmergeable, ?_, reduce_homomorphism.2 twoFragments⟩
  rw [← reduce_homomorphism.1 first second hsecond hmergeable]
  decide

end Chunk

end ChatClient
