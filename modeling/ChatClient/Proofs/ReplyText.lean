import ChatClient.Console.Conversation
import ChatClient.Proofs.DecodedFields
import ChatClient.Proofs.PartialReduction
import ChatClient.Proofs.Segmentation
import ChatClient.Proofs.StreamReading

/-!
# The text of a reply

A reply is what the first choices of the merged chunks say. Merging puts texts together in
their order, and the windows of a stream are consecutive, so nothing that the events of the
service say is lost, repeated or moved, be it inside a tool call or outside.
-/

namespace ChatClient

/-! ## Contents -/

namespace Content

/-- The text of a content. No content and a list of parts have none. -/
def textOf : Option Content → String
  | some (.text s) => s
  | _ => ""

/-- Before the first content there is nothing to put it to. -/
@[simp] theorem merge_none_left (content : Option Content) : merge none content = content := by
  rcases content with _ | _ | _ <;> simp [merge, asParts]

/-- Without a further content the first one stays. -/
@[simp] theorem merge_none_right (content : Option Content) : merge content none = content := by
  rcases content with _ | _ | _ <;> simp [merge, asParts]

/-- The text of a content that can only be a text is that text, if there is one. -/
theorem textOf_map_text (text : Option String) : textOf (text.map .text) = text.getD "" := by
  cases text <;> rfl

/-- Texts are put together in their order. -/
theorem textOf_foldl_merge {contents : List (Option Content)}
    (htext : ∀ content ∈ contents, ∀ c ∈ content, c.isText = true) :
    (∀ c ∈ contents.foldl merge none, c.isText = true) ∧
      textOf (contents.foldl merge none) = String.join (contents.map textOf) := by
  -- that the merge is a text is needed where its text is taken apart
  induction contents using List.reverseRecOn with
  | nil => simp [textOf]
  | append_singleton contents content ih =>
    obtain ⟨hbefore, hjoin⟩ := ih fun earlier hearlier => htext earlier (by simp [hearlier])
    have hlast := htext content (by simp)
    rw [List.foldl_append, List.foldl_cons, List.foldl_nil]
    refine ⟨isText_merge hbefore hlast, ?_⟩
    rw [List.map_append, String.join_append, ← hjoin]
    obtain ⟨before, hbefore⟩ := exists_text hbefore
    obtain ⟨last, rfl⟩ := exists_text hlast
    rw [hbefore, merge_texts, textOf_map_text, textOf_map_text]
    cases before <;> cases last <;> simp [concat?, textOf]

end Content

/-! ## Chunks -/

namespace Chunk

/-- The content of a merged chunk is merged from the contents. -/
theorem content?_merge (accumulated incoming : Chunk) :
    (merge accumulated incoming).content? =
      Content.merge accumulated.content? incoming.content? := by
  rw [content?, delta?_merge, content?, content?]
  cases accumulated.delta? <;> cases incoming.delta? <;> simp [Message.merge]

/-- The content of a reduced window is merged from the contents of its chunks. -/
theorem content?_reduce (window : List Chunk) :
    (reduce window).content? = (window.map content?).foldl Content.merge none := by
  induction window using List.reverseRecOn with
  | nil => rfl
  | append_singleton window chunk ih =>
    rw [reduce_concat, content?_merge, ih, List.map_append, List.foldl_append, List.map_singleton,
      List.foldl_cons, List.foldl_nil]

/-- The chunk has a text in its first choice, or nothing. -/
def SaysText (chunk : Chunk) : Prop := ∀ content ∈ chunk.content?, content.isText = true

end Chunk

namespace Console

open Chunk (mergeStream reduce windows)

/-- What a chunk adds to a reply is the text of its content. -/
theorem replyText_eq (chunk : Chunk) : replyText chunk = Content.textOf chunk.content? := by
  rw [replyText, Chunk.content?, Chunk.delta?]
  rcases Option.bind _ Message.content with _ | _ | _ <;> rfl

/-- A reduced window adds to a reply what its chunks add to it. -/
theorem replyText_reduce {window : List Chunk} (htext : ∀ chunk ∈ window, chunk.SaysText) :
    replyText (reduce window) = reply window := by
  have hcontents : ∀ content ∈ window.map Chunk.content?, ∀ c ∈ content, c.isText = true := by
    simpa [Chunk.SaysText] using htext
  have hmap : window.map replyText = (window.map Chunk.content?).map Content.textOf := by
    rw [List.map_map]
    exact List.map_congr_left fun chunk _ => replyText_eq chunk
  rw [replyText_eq, Chunk.content?_reduce, (Content.textOf_foldl_merge hcontents).2, reply, hmap]

/-- A reply in consecutive parts is put together from the parts. -/
theorem reply_flatten (windows : List (List Chunk)) :
    reply windows.flatten = String.join (windows.map reply) := by
  induction windows with
  | nil => rfl
  | cons window windows ih =>
    rw [List.flatten_cons, List.map_cons, String.join_cons, ← ih, reply, reply, reply,
      List.map_append, String.join_append]

/-- **Conservation of text.** The merged chunks of a stream add up to the same reply as the
chunks themselves. -/
theorem reply_mergeStream {chunks : List Chunk} (htext : ∀ chunk ∈ chunks, chunk.SaysText) :
    reply (mergeStream chunks) = reply chunks := by
  have hflatten := (Chunk.segmentation_windows chunks).flatten_eq
  have hwindows : ∀ window ∈ windows chunks, replyText (reduce window) = reply window := by
    intro window hwindow
    refine replyText_reduce fun chunk hchunk => htext chunk ?_
    rw [← hflatten]
    exact List.mem_flatten_of_mem hwindow hchunk
  have hmerged : (mergeStream chunks).map replyText = (windows chunks).map reply := by
    rw [mergeStream, List.map_map]
    exact List.map_congr_left hwindows
  rw [← hflatten, reply_flatten, hflatten, reply, hmerged]

end Console

/-! ## Events -/

namespace Json

/-- The member of an object that has a name. -/
def member? (name : String) : Json → Option Json
  | .obj members => Entries.get? members name
  | _ => none

/-- The first item of an array. -/
def firstItem? : Json → Option Json
  | .arr items => items.head?
  | _ => none

end Json

/-- What is related stays so if what is found in it is. -/
theorem rel_bind {α β γ δ : Type} {r : α → β → Prop} {s : γ → δ → Prop} {x : Option α}
    {y : Option β} {f : α → Option γ} {g : β → Option δ} (hrel : Option.Rel r x y)
    (hstep : ∀ a b, r a b → Option.Rel s (f a) (g b)) : Option.Rel s (x.bind f) (y.bind g) := by
  cases hrel with
  | none => exact .none
  | some h => exact hstep _ _ h

/-- The same holds where `null` counts as nothing, if nothing is found in it. -/
theorem rel_bind_of_toOption {β γ δ : Type} {r : Json → β → Prop} {s : γ → δ → Prop}
    {x : Option Json} {y : Option β} {f : Json → Option γ} {g : β → Option δ}
    (hrel : Option.Rel r (x.bind Json.toOption) y) (hnull : f .null = none)
    (hstep : ∀ a b, r a b → Option.Rel s (f a) (g b)) : Option.Rel s (x.bind f) (y.bind g) := by
  rcases x with _ | value
  · cases hrel
    exact .none
  · cases value with
    | null =>
      cases hrel
      rw [Option.bind_some, hnull]
      exact .none
    | _ => exact rel_bind hrel hstep

/-- The content in the first choice of an event, as the service has sent it. -/
def sentContent? (event : Json) : Option Json :=
  (((event.member? "choices").bind Json.firstItem?).bind (Json.member? "delta")).bind
    (Json.member? "content")

/-- The text in the first choice of an event. -/
def sentText (event : Json) : String :=
  match sentContent? event with
  | some (.str s) => s
  | _ => ""

/-- The first item of a decoded list comes from the first item of the array. -/
theorem Decoder.rel_firstItem? {α : Type} {decode : Decoder α} {value : Json} {items : List α}
    (hdecode : (Decoder.list decode value).outcome = .ok items) :
    Option.Rel (fun v a => (decode v).outcome = .ok a) value.firstItem? items.head? := by
  obtain ⟨values, rfl, hforall⟩ := items_of_list hdecode
  cases hforall with
  | nil => exact .none
  | cons hfirst _ => exact .some hfirst

/-- The choices of a decoded chunk come from the event, if that has any. -/
theorem Chunk.rel_choices {event : Json} {chunk : Chunk}
    (hdecode : (decode event).outcome = .ok chunk) :
    Option.Rel (fun value choices => (Decoder.list ChunkChoice.decode value).outcome = .ok choices)
      ((event.member? "choices").bind Json.toOption) chunk.choices := by
  obtain ⟨members, rfl, hchoices⟩ := choices_of_decode hdecode
  exact Members.rel_of_optional hchoices

/-- The fragment of a decoded choice comes from the value, if that has one. -/
theorem ChunkChoice.rel_delta {value : Json} {choice : ChunkChoice}
    (hdecode : (decode value).outcome = .ok choice) :
    Option.Rel (fun value delta => (Message.decode value).outcome = .ok delta)
      ((value.member? "delta").bind Json.toOption) choice.delta := by
  obtain ⟨members, rfl, hdelta⟩ := delta_of_decode hdecode
  exact Members.rel_of_optional hdelta

/-- The content of a decoded message comes from the value, if that has one. -/
theorem Message.rel_content {value : Json} {message : Message}
    (hdecode : (decode value).outcome = .ok message) :
    Option.Rel (fun value content => (Content.decode value).outcome = .ok content)
      ((value.member? "content").bind Json.toOption) message.content := by
  obtain ⟨members, rfl, hcontent⟩ := content_of_decode hdecode
  exact Members.rel_of_optional hcontent

/-- The content of a decoded chunk comes from that of the event, if it says something. -/
theorem Chunk.rel_content? {event : Json} {chunk : Chunk}
    (hdecode : (decode event).outcome = .ok chunk) :
    Option.Rel (fun value content => (Content.decode value).outcome = .ok content)
      ((sentContent? event).bind Json.toOption) chunk.content? := by
  have hchoice : Option.Rel (fun value choice => (ChunkChoice.decode value).outcome = .ok choice)
      ((event.member? "choices").bind Json.firstItem?) chunk.firstChoice? :=
    rel_bind_of_toOption (rel_choices hdecode) rfl fun _ _ => Decoder.rel_firstItem?
  have hdelta : Option.Rel (fun value delta => (Message.decode value).outcome = .ok delta)
      ((((event.member? "choices").bind Json.firstItem?).bind (Json.member? "delta")).bind
        Json.toOption) chunk.delta? := by
    rw [Option.bind_assoc]
    exact rel_bind hchoice fun _ _ => ChunkChoice.rel_delta
  rw [sentContent?, Option.bind_assoc]
  exact rel_bind_of_toOption hdelta rfl fun _ _ => Message.rel_content

/-- A decoded chunk adds to a reply what its event says. -/
theorem Console.replyText_of_decode {event : Json} {chunk : Chunk}
    (hdecode : (Chunk.decode event).outcome = .ok chunk) : replyText chunk = sentText event := by
  have hrel := Chunk.rel_content? hdecode
  rw [replyText_eq, sentText]
  generalize chunk.content? = content at hrel ⊢
  generalize sentContent? event = sent at hrel ⊢
  rcases sent with _ | value
  · cases hrel
    rfl
  · cases value with
    | null =>
      cases hrel
      rfl
    | str s =>
      cases hrel with
      | some h =>
        cases h
        rfl
    | _ =>
      cases hrel with
      | some h =>
        rcases Content.eq_of_decode h with ⟨s, hs, rfl⟩ | ⟨items, _, rfl⟩
        · cases hs
        · rfl

/-- The first choice of an event has a text as its content, or none. -/
def sendsText (event : Json) : Bool :=
  match sentContent? event with
  | none | some .null | some (.str _) => true
  | some _ => false

/-- A chunk says text, if its event sends text. -/
theorem Chunk.saysText_of_decode {event : Json} {chunk : Chunk}
    (hdecode : (decode event).outcome = .ok chunk) (hsends : sendsText event = true) :
    chunk.SaysText := by
  intro content hcontent
  have hrel := rel_content? hdecode
  rw [Option.mem_def.mp hcontent] at hrel
  rw [sendsText] at hsends
  split at hsends
  · rename_i hsent
    rw [hsent] at hrel
    cases hrel
  · rename_i hsent
    rw [hsent] at hrel
    cases hrel
  · rename_i s hsent
    rw [hsent] at hrel
    cases hrel with
    | some h =>
      cases h
      rfl
  · cases hsends

/-- If every event is decoded and the service does not fail, all chunks arrive. -/
theorem exists_arrivals_of_decode {events : List Json}
    (hdecode : ∀ event ∈ events, (Chunk.decode event).outcome.isOk = true) :
    ∃ chunks, arrivals none events = ⟨chunks, none⟩ ∧
      List.Forall₂ (fun event chunk => (Chunk.decode event).outcome = .ok chunk) events chunks := by
  induction events with
  | nil => exact ⟨[], rfl, .nil⟩
  | cons event events ih =>
    have hfirst := hdecode event (by simp)
    obtain ⟨chunks, hchunks, hforall⟩ := ih fun later hlater => hdecode later (by simp [hlater])
    cases houtcome : (Chunk.decode event).outcome with
    | error problems =>
      rw [houtcome] at hfirst
      cases hfirst
    | ok chunk =>
      exact ⟨chunk :: chunks, by simp [arrivals, houtcome, hchunks], .cons houtcome hforall⟩

/-- A stream of events that are decoded and send text gives merged chunks that add up to the
texts of the events. -/
theorem Console.reply_arrivals {events : List Json}
    (hdecode : ∀ event ∈ events, (Chunk.decode event).outcome.isOk = true)
    (hsends : ∀ event ∈ events, sendsText event = true) :
    (arrivals none events).merged.2 = .ended ∧
      reply (arrivals none events).merged.1 = String.join (events.map sentText) := by
  obtain ⟨chunks, harrivals, hforall⟩ := exists_arrivals_of_decode hdecode
  have hsays : ∀ chunk ∈ chunks, chunk.SaysText := by
    intro chunk hchunk
    obtain ⟨i, hi, rfl⟩ := List.mem_iff_getElem.mp hchunk
    have hlength := hforall.length_eq
    exact Chunk.saysText_of_decode (hforall.get (by omega) hi) (hsends _ (List.getElem_mem _))
  have htexts : events.map sentText = chunks.map replyText := by
    rw [← List.forall₂_eq_eq_eq, List.forall₂_map_left_iff, List.forall₂_map_right_iff]
    exact hforall.imp fun _ _ hchunk => (replyText_of_decode hchunk).symm
  rw [harrivals]
  refine ⟨rfl, ?_⟩
  change reply (Chunk.mergeStream chunks) = _
  rw [reply_mergeStream hsays, reply, htexts]

end ChatClient
