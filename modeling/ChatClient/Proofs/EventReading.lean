import ChatClient.Proofs.ChunkText

/-!
# Events are read back

A reader of server-sent events gets back the chunks that were sent. No text of a chunk
has a line end in it, so every event is one data line and a blank line, and no chunk is
taken for the last event, since its text is an object.
-/

namespace ChatClient

/-! ## Reading events -/

namespace ReceivedEvents

/-- The lines of a text, each ended by a line feed, a carriage return, or a carriage
return and a line feed. What nothing ends is no line. The first line begins with what
is held, last character first. -/
def lines (held : List Char) : List Char → List (List Char)
  | [] => []
  | '\r' :: '\n' :: text => held.reverse :: lines [] text
  | c :: text =>
    if c = '\n' ∨ c = '\r' then held.reverse :: lines [] text else lines (c :: held) text

/-- What a data line holds. -/
def data? (line : List Char) : Option (List Char) :=
  if "data: ".toList.isPrefixOf line then some (line.drop 6) else none

/-- The data of the events that a blank line ends. The data lines of one event are held,
last one first; other lines are ignored. -/
def dataOf (held : List (List Char)) : List (List Char) → List (List Char)
  | [] => []
  | [] :: lines =>
    if held.isEmpty then dataOf [] lines
    else ['\n'].intercalate held.reverse :: dataOf [] lines
  | line :: lines => dataOf ((data? line).toList ++ held) lines

/-- The chunks of the events before the last one, if all of them are chunks. -/
def chunksOf : List (List Char) → Option (List Chunk)
  | [] => none
  | data :: rest =>
    if data = "[DONE]".toList then some []
    else do
      let value ← (Json.read (String.ofList data) none).toOption
      let chunk ← (Chunk.decode value).outcome.toOption
      let chunks ← chunksOf rest
      return chunk :: chunks

end ReceivedEvents

open ReceivedEvents

/-- The chunks that a text of events brings, if it comes to its last event. -/
def readEvents (text : String) : Option (List Chunk) :=
  chunksOf (dataOf [] (lines [] text.toList))

namespace ReceivedEvents

/-- A text without line ends is read to the next line end. -/
theorem lines_append {line : List Char} (hline : ∀ c ∈ line, Json.IsVisible c)
    (held text : List Char) :
    lines held (line ++ '\n' :: text) = (held.reverse ++ line) :: lines [] text := by
  induction line generalizing held with
  | nil => simp [lines]
  | cons c line ih =>
    have hc : ¬(c = '\n' ∨ c = '\r') := by
      rintro (rfl | rfl) <;> exact absurd (hline _ List.mem_cons_self) (by decide)
    have hrest := ih (fun d hd => hline d (by simp [hd])) (c :: held)
    rw [List.cons_append, lines, if_neg hc, hrest]
    · simp
    · rintro text' rfl
      exact absurd (Or.inr rfl) hc

/-- An event of one data line is read back. -/
theorem dataOf_lines_event {data : List Char} (hdata : ∀ c ∈ data, Json.IsVisible c)
    (text : List Char) :
    dataOf [] (lines [] ("data: ".toList ++ data ++ '\n' :: '\n' :: text)) =
      data :: dataOf [] (lines [] text) := by
  have hline : ∀ c ∈ "data: ".toList ++ data, Json.IsVisible c := by
    intro c hc
    rcases List.mem_append.mp hc with hc | hc
    · exact Json.isVisible_of_all (by decide) c hc
    · exact hdata c hc
  have hblank : lines [] ('\n' :: text) = [] :: lines [] text := by simp [lines]
  have hlines : lines [] ("data: ".toList ++ data ++ '\n' :: '\n' :: text) =
      ("data: ".toList ++ data) :: [] :: lines [] text := by
    rw [lines_append hline, hblank, List.reverse_nil, List.nil_append]
  have hdata? : data? ("data: ".toList ++ data) = some data := by simp [data?]
  rw [hlines, dataOf, hdata?]
  · simp [dataOf]
  · simp

end ReceivedEvents

/-! ## Events of chunks -/

/-- The text of a plain chunk is no last event, as it is that of an object. -/
theorem Chunk.compact_ne_done (chunk : Chunk) :
    (chunk.dump .omitted).compact.toList ≠ "[DONE]".toList := by
  obtain ⟨members, hmembers⟩ : ∃ members, chunk.dump .omitted = .obj members := ⟨_, rfl⟩
  intro hdone
  have hhead := Json.head?_compact_obj members
  rw [← hmembers, hdone] at hhead
  exact absurd hhead (by decide)

/-- What is written before the first chunk that cannot be written, follows the event of
a chunk that can. -/
theorem eventStream_cons {chunk : Chunk} {text : String} (htext : chunk.text = .ok text)
    (chunks : List Chunk) :
    eventStream (chunk :: chunks) =
      ⟨("data: " ++ text ++ "\n\n") :: (eventStream chunks).events,
        (eventStream chunks).failure⟩ := by
  rw [eventStream, Chunk.event, htext]
  rfl

/-- The events of chunks that can be written are read back. -/
theorem eventStream_complete {chunks : List Chunk}
    (hplain : ∀ chunk ∈ chunks, ∀ content ∈ chunk.contents, content.IsPlain)
    (hdepth : ∀ chunk ∈ chunks, ∀ content ∈ chunk.contents,
      content.dump.depth ≤ RecordKind.greatestDepth) :
    (eventStream chunks).failure = none ∧
      chunksOf (dataOf [] (lines [] ((eventStream chunks).events.flatMap String.toList))) =
        some chunks := by
  induction chunks with
  | nil => exact ⟨rfl, by decide⟩
  | cons chunk chunks ih =>
    have hplain' := hplain chunk (by simp)
    obtain ⟨hfailure, hrest⟩ := ih (fun c hc => hplain c (by simp [hc]))
      (fun c hc => hdepth c (by simp [hc]))
    have htext := Chunk.text_eq_compact hplain' (hdepth chunk (by simp))
    have hvisible : ∀ c ∈ (chunk.dump .omitted).compact.toList, Json.IsVisible c :=
      fun c => Json.isVisible_of_mem_compact (Chunk.isPlain_dump .omitted hplain')
    obtain ⟨value, hread, hdecode⟩ := Chunk.decode_read_compact hplain'
    have hevent (rest : List Char) :
        ("data: " ++ (chunk.dump .omitted).compact ++ "\n\n").toList ++ rest =
          "data: ".toList ++ (chunk.dump .omitted).compact.toList ++ '\n' :: '\n' :: rest := by
      simp
    rw [eventStream_cons htext]
    refine ⟨hfailure, ?_⟩
    rw [List.flatMap_cons, hevent, dataOf_lines_event hvisible, chunksOf,
      if_neg chunk.compact_ne_done, String.ofList_toList, hread, hrest]
    simp [Except.toOption, hdecode]

/-- A chunk whose only choice brings a content. -/
def Chunk.ofContent (content : Content) : Chunk :=
  { empty with
    choices := some [{ index := some 0, delta := some ⟨some content, none, none, none, some []⟩
                       finishReason := some .toolCalls, usage := none }] }

/-- A chunk of a text with line ends and a control character in it, and a chunk of
parts with `null`, empty values and a great integer among them. -/
def lineEnds : List Chunk :=
  [.ofContent (.text "data: [DONE]\n\n\r\u0001\\\"é"), .empty,
    .ofContent (.parts [.null, .int (-123456789012345678901234567890), .str "",
      .obj [("a", .arr [.obj [], .bool true, .null]), ("", .null)]])]

end ChatClient
