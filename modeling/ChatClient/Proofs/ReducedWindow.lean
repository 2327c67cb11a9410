import ChatClient.Proofs.ReplyText
import Mathlib.Data.List.TakeWhile

/-!
# The closed form of a reduced window

A reduced window is described here at once, without the fold that computes it.
Identity fields are the first values in the window, finish reason and usage the
last ones. Choices are those of the last chunk as long as no chunk has any; after
that they are one merged first choice and the further choices of the last chunk
that has some. Every description goes on: one more chunk takes the description of
a window to that of the longer one.
-/

namespace ChatClient

/-! ## Contents -/

namespace Content

/-- The texts before the first list of parts are one part together, if there are any. -/
def leadingPart (texts : List Content) : List Json :=
  if texts = [] then [] else [.str (String.join (texts.map fun text => textOf (some text)))]

/-- Contents as one. Texts alone make one text. Where one is a list of parts, everything
becomes a part: the texts before the first list together, every later text by itself. -/
def joined? (contents : List Content) : Option Content :=
  if contents = [] then none
  else if contents.all isText then
    some (.text (String.join (contents.map fun text => textOf (some text))))
  else
    some (.parts (leadingPart (contents.takeWhile isText) ++
      (contents.dropWhile isText).flatMap asParts))

/-- A text before a content is put to it as a text or as a part. -/
theorem merge_some_text (s : String) (content : Content) :
    merge (some (.text s)) (some content) =
      if content.isText then some (.text (s ++ textOf (some content)))
      else some (.parts (.str s :: content.asParts)) := by
  cases content <;> rfl

/-- After parts, everything is a part. -/
theorem merge_some_parts (items : List Json) (content : Content) :
    merge (some (.parts items)) (some content) = some (.parts (items ++ content.asParts)) := by
  cases content <;> rfl

/-- A content alone is what it is. -/
theorem joined?_singleton (content : Content) : joined? [content] = some content := by
  cases content <;> simp [joined?, leadingPart, isText, textOf, asParts, String.join_cons]

/-- One more content is merged into those that were put together before. -/
theorem joined?_concat (contents : List Content) (content : Content) :
    joined? (contents ++ [content]) = merge (joined? contents) (some content) := by
  have hne : contents ++ [content] ≠ [] := by simp
  by_cases hnil : contents = []
  · rw [hnil, List.nil_append, joined?_singleton]
    exact (merge_none_left (some content)).symm
  by_cases htexts : contents.all isText = true
  · have hall : ∀ text ∈ contents, text.isText = true := List.all_eq_true.mp htexts
    have hbefore : joined? contents =
        some (.text (String.join (contents.map fun text => textOf (some text)))) := by
      rw [joined?, if_neg hnil, if_pos htexts]
    rw [hbefore, merge_some_text, joined?, if_neg hne]
    by_cases hcontent : content.isText = true
    · simp [hcontent, htexts, String.join_append, String.join_cons]
    · simp [hcontent, List.takeWhile_append_of_pos hall, List.dropWhile_append_of_pos hall,
        leadingPart, hnil]
  · -- a list has come, and with it the end of the texts that lead
    have hdrop : contents.dropWhile isText ≠ [] := by
      rw [ne_eq, List.dropWhile_eq_nil_iff]
      rwa [List.all_eq_true] at htexts
    have htake : (contents.takeWhile isText).length ≠ contents.length := by
      intro hlength
      have hself := (List.takeWhile_prefix isText).eq_of_length hlength
      exact htexts (List.all_eq_true.mpr (List.takeWhile_eq_self_iff.mp hself))
    have hbefore : joined? contents =
        some (.parts (leadingPart (contents.takeWhile isText) ++
          (contents.dropWhile isText).flatMap asParts)) := by
      rw [joined?, if_neg hnil, if_neg htexts]
    have hafter : ¬(contents ++ [content]).all isText = true := by
      rw [List.all_append, Bool.and_eq_true]
      exact fun h => htexts h.1
    rw [hbefore, merge_some_parts, joined?, if_neg hne, if_neg hafter, List.takeWhile_append,
      if_neg htake, List.dropWhile_append, if_neg (by simpa using hdrop), List.flatMap_append,
      List.flatMap_singleton, List.append_assoc]

example : joined? [.text "a", .text "", .parts [.int 1], .text "b", .text "c"] =
    some (.parts [.str "a", .int 1, .str "b", .str "c"]) := by
  decide

end Content

/-! ## First choices -/

namespace Message

/-- The fragment that fragments of a message are merged into, but for its tool calls. -/
structure Gathers (deltas : List Message) (merged : Message) : Prop where
  content : merged.content = Content.joined? (deltas.filterMap content)
  role : merged.role = deltas.findSome? role
  name : merged.name = deltas.findSome? name
  toolCallId : merged.toolCallId = deltas.findSome? toolCallId

/-- A fragment alone is what it is. -/
theorem gathers_singleton (delta : Message) : Gathers [delta] delta where
  content := by
    cases hcontent : delta.content with
    | none => simp [hcontent, Content.joined?]
    | some content => simp [hcontent, Content.joined?_singleton]
  role := by simp
  name := by simp
  toolCallId := by simp

/-- One more fragment is merged into the one of those before it. -/
theorem Gathers.concat {deltas : List Message} {merged : Message} (hmerged : Gathers deltas merged)
    (delta : Message) :
    ∃ next, merge (some merged) (some delta) = some next ∧ Gathers (deltas ++ [delta]) next := by
  refine ⟨_, rfl, ?_, ?_, ?_, ?_⟩
  · rw [hmerged.content, List.filterMap_append]
    cases hcontent : delta.content with
    | none => simp [hcontent]
    | some content => simp [hcontent, Content.joined?_concat]
  all_goals simp [List.findSome?_append, hmerged.role, hmerged.name, hmerged.toolCallId]

end Message

namespace ChunkChoice

/-- The choice that first choices are merged into. -/
structure Gathers (choices : List ChunkChoice) (merged : ChunkChoice) : Prop where
  index : merged.index = choices.findSome? index
  finishReason : merged.finishReason = (choices.filterMap finishReason).getLast?
  usage : merged.usage = (choices.filterMap usage).getLast?
  /-- Without any fragment there is none. -/
  delta_eq_none_iff : merged.delta = none ↔ ∀ choice ∈ choices, choice.delta = none
  /-- Otherwise it gathers the fragments that are there. -/
  delta : ∀ message ∈ merged.delta, Message.Gathers (choices.filterMap delta) message

/-- A choice alone is what it is. -/
theorem gathers_singleton (choice : ChunkChoice) : Gathers [choice] choice where
  index := by simp
  finishReason := by cases h : choice.finishReason <;> simp [h]
  usage := by cases h : choice.usage <;> simp [h]
  delta_eq_none_iff := by simp
  delta := by
    intro message hmessage
    rw [Option.mem_def] at hmessage
    simpa [hmessage] using Message.gathers_singleton message

/-- One more first choice is merged into the one of those before it. -/
theorem Gathers.concat {choices : List ChunkChoice} {merged : ChunkChoice}
    (hmerged : Gathers choices merged) (choice : ChunkChoice) :
    Gathers (choices ++ [choice]) (merged.merge choice) where
  index := by simp [merge, List.findSome?_append, hmerged.index]
  finishReason := by
    cases h : choice.finishReason <;>
      simp [merge, List.filterMap_append, List.getLast?_append, hmerged.finishReason, h]
  usage := by
    cases h : choice.usage <;>
      simp [merge, List.filterMap_append, List.getLast?_append, hmerged.usage, h]
  delta_eq_none_iff := by
    have hbefore := hmerged.delta_eq_none_iff
    have hmerge : (merged.merge choice).delta = none ↔
        merged.delta = none ∧ choice.delta = none := by
      cases hdelta : merged.delta <;> cases hlast : choice.delta <;>
        simp [merge, Message.merge, hdelta, hlast]
    rw [hmerge, hbefore]
    simp [or_imp, forall_and]
  delta := by
    rw [List.filterMap_append]
    cases hdelta : merged.delta with
    | none =>
      have hnone : choices.filterMap ChunkChoice.delta = [] :=
        List.filterMap_eq_nil_iff.mpr (hmerged.delta_eq_none_iff.mp hdelta)
      intro message hmessage
      have hlast : choice.delta = some message := by
        simpa [merge, hdelta, Message.merge] using hmessage
      simpa [hnone, hlast] using Message.gathers_singleton message
    | some previous =>
      have hprevious := hmerged.delta previous hdelta
      cases hlast : choice.delta with
      | none => simpa [merge, hdelta, hlast, Message.merge] using hprevious
      | some current =>
        obtain ⟨next, hnext, hgathers⟩ := hprevious.concat current
        simpa [merge, hdelta, hlast, hnext] using hgathers

end ChunkChoice

/-! ## Windows -/

namespace Chunk

/-- The choices of a chunk after the first one, if it has any choice. -/
def furtherChoices? (chunk : Chunk) : Option (List ChunkChoice) :=
  chunk.choices.bind List.tail?

/-- The chunk that a window is merged into, but for its tool calls. -/
structure Gathers (window : List Chunk) (merged : Chunk) : Prop where
  id : merged.id = window.findSome? id
  object : merged.object = window.findSome? object
  created : merged.created = window.findSome? created
  model : merged.model = window.findSome? model
  /-- As long as no chunk has a choice, the last one says whether there is a list of them. -/
  choices_of_none : (∀ chunk ∈ window, chunk.firstChoice? = none) →
    merged.choices = window.getLast?.bind choices
  /-- Otherwise there is one first choice, and the last chunk that has a first choice brings
  the further ones. -/
  choices_of_some : (∃ chunk ∈ window, chunk.firstChoice? ≠ none) →
    ∃ first, ChunkChoice.Gathers (window.filterMap firstChoice?) first ∧
      merged.choices = some (first :: (window.filterMap furtherChoices?).getLast?.getD [])

/-- A chunk has no choice, or it has a first one and perhaps further ones. -/
theorem choices_cases (chunk : Chunk) :
    (chunk.firstChoice? = none ∧ chunk.furtherChoices? = none) ∨
      ∃ first further, chunk.choices = some (first :: further) ∧
        chunk.firstChoice? = some first ∧ chunk.furtherChoices? = some further := by
  obtain ⟨_, _, _, _, choices⟩ := chunk
  rcases choices with _ | _ | ⟨first, further⟩
  · exact .inl ⟨rfl, rfl⟩
  · exact .inl ⟨rfl, rfl⟩
  · exact .inr ⟨first, further, rfl, rfl, rfl⟩

/-- Where there are no choices yet, those of the later chunk are taken as they are. -/
theorem choices_merge_of_none {accumulated : Chunk} (hnone : accumulated.firstChoice? = none)
    (incoming : Chunk) : (merge accumulated incoming).choices = incoming.choices := by
  obtain ⟨_, _, _, _, accumulated⟩ := accumulated
  rcases accumulated with _ | _ | ⟨previous, _⟩
  · rfl
  · rfl
  · contradiction

/-- A later chunk without choices leaves those that are there. -/
theorem choices_merge_of_some {accumulated incoming : Chunk} {choices : List ChunkChoice}
    (hchoices : accumulated.choices = some choices) (hne : choices ≠ [])
    (hnone : incoming.firstChoice? = none) :
    (merge accumulated incoming).choices = some choices := by
  obtain ⟨first, further, rfl⟩ := List.exists_cons_of_ne_nil hne
  obtain ⟨_, _, _, _, incoming⟩ := incoming
  rcases incoming with _ | _ | ⟨current, _⟩
  · rw [merge, hchoices, ChunkChoice.mergeAll]
  · rw [merge, hchoices, ChunkChoice.mergeAll]
  · contradiction

section Concat

variable {window : List Chunk} {merged : Chunk}

/-- A window without choices is merged into a chunk without choices. -/
theorem Gathers.firstChoice?_eq_none (hmerged : Gathers window merged)
    (hwindow : ∀ chunk ∈ window, chunk.firstChoice? = none) : merged.firstChoice? = none := by
  rw [firstChoice?, hmerged.choices_of_none hwindow]
  cases hlast : window.getLast? with
  | none => rfl
  | some last => exact hwindow last (List.mem_of_getLast? hlast)

/-- One more chunk is merged into the one of the window before it. -/
theorem Gathers.concat (hmerged : Gathers window merged) (chunk : Chunk) :
    Gathers (window ++ [chunk]) (merged.merge chunk) where
  id := by simp [merge, List.findSome?_append, hmerged.id]
  object := by simp [merge, List.findSome?_append, hmerged.object]
  created := by simp [merge, List.findSome?_append, hmerged.created]
  model := by simp [merge, List.findSome?_append, hmerged.model]
  choices_of_none := by
    intro hnone
    have hbefore := hmerged.firstChoice?_eq_none fun earlier hearlier =>
      hnone earlier (List.mem_append_left _ hearlier)
    rw [choices_merge_of_none hbefore, List.getLast?_concat, Option.bind_some]
  choices_of_some := by
    intro hsome
    rw [List.filterMap_append, List.filterMap_append, List.getLast?_append]
    by_cases hwindow : ∀ earlier ∈ window, earlier.firstChoice? = none
    · -- the chunk is the first that has choices, so they are taken as they are
      have hfirst : window.filterMap firstChoice? = [] := List.filterMap_eq_nil_iff.mpr hwindow
      have hbefore := hmerged.firstChoice?_eq_none hwindow
      rcases chunk.choices_cases with ⟨hnone, _⟩ | ⟨first, further, hchoices, hchunk, hfurther⟩
      · obtain ⟨other, hother, hne⟩ := hsome
        rcases List.mem_append.mp hother with hold | hnew
        · exact absurd (hwindow other hold) hne
        · obtain rfl : other = chunk := by simpa using hnew
          contradiction
      · refine ⟨first, ?_, ?_⟩
        · simpa [hfirst, hchunk] using ChunkChoice.gathers_singleton first
        · rw [choices_merge_of_none hbefore, hchoices]
          simp [hfurther]
    · push Not at hwindow
      obtain ⟨first, hgathers, hbefore⟩ := hmerged.choices_of_some hwindow
      rcases chunk.choices_cases with
        ⟨hnone, hfurther⟩ | ⟨current, further, hchoices, hchunk, hfurther⟩
      · refine ⟨first, ?_, ?_⟩
        · simpa [hnone] using hgathers
        · rw [choices_merge_of_some hbefore (by simp) hnone]
          simp [hfurther]
      · refine ⟨first.merge current, ?_, ?_⟩
        · simpa [hchunk] using hgathers.concat current
        · rw [merge, hbefore, hchoices, ChunkChoice.mergeAll]
          simp [hfurther]

end Concat

/-- **Closed form.** In the reduction of a window, identity fields are the first values in the
window. If no chunk has a choice, the choices are those of the last chunk; otherwise they are
the choice that the first choices are merged into, and the further choices of the last chunk
that has some. -/
theorem gathers_reduce (window : List Chunk) : Gathers window (reduce window) := by
  induction window using List.reverseRecOn with
  | nil => exact ⟨rfl, rfl, rfl, rfl, fun _ => rfl, by simp⟩
  | append_singleton window chunk ih =>
    rw [reduce_concat]
    exact ih.concat chunk

end Chunk

end ChatClient
