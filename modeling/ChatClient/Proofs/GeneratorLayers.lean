import ChatClient.Exchange.Generator
import ChatClient.Proofs.StreamRelease

/-!
# A stream is four generators

A stream of merged chunks is read as the four generators below it would be: the answers,
the calls and notices and the closes are the same, and in the same order, wherever the
reader stops. What carries this is where the generators stand while the stream is fresh,
is being read, or is over. One item takes them from one such place to another.
-/

namespace ChatClient

/-- Sources that answer alike, step by step, are read alike. -/
theorem readUpTo_eq {σ τ α : Type} {next : σ → Answer α × Journal × σ} {close : σ → Journal}
    {next' : τ → Answer α × Journal × τ} {close' : τ → Journal} (alike : σ → τ → Prop)
    (hclose : ∀ source source', alike source source' → close source = close' source')
    (hnext : ∀ source source', alike source source' →
      (next source).1 = (next' source').1 ∧ (next source).2.1 = (next' source').2.1 ∧
        alike (next source).2.2 (next' source').2.2)
    (count : Nat) {source : σ} {source' : τ} (halike : alike source source') :
    readUpTo next close count source = readUpTo next' close' count source' := by
  induction count generalizing source source' with
  | zero => rw [readUpTo, readUpTo, hclose _ _ halike]
  | succ count ih =>
    obtain ⟨hanswer, hjournal, hafter⟩ := hnext _ _ halike
    rcases hstep : next source with ⟨answer, journal, after⟩
    rcases hstep' : next' source' with ⟨answer', journal', after'⟩
    simp only [hstep, hstep'] at hanswer hjournal hafter
    subst hanswer hjournal
    cases answer with
    | item value => simp only [readUpTo, hstep, hstep', ih hafter]
    | ended => simp only [readUpTo, hstep, hstep', hclose _ _ hafter]
    | failed failure => simp only [readUpTo, hstep, hstep', hclose _ _ hafter]

/-- A step with something noted before it. -/
def Journal.before {α β : Type} (first : Journal) (step : α × Journal × β) : α × Journal × β :=
  (step.1, first ++ step.2.1, step.2.2)

namespace Generator

/-! ## Windows -/

section Gather

variable {σ : Type} {chunks : Generator σ Chunk} {state after : σ} {window held : OpenWindow}
  {chunk : Chunk} {journal : Journal}

/-- A chunk that closes the window completes it. -/
theorem gather_of_closed {closed : List Chunk}
    (hnext : chunks.next state = (.item chunk, journal, after))
    (hpush : window.push chunk = (some closed, held)) :
    gather chunks state window = (.item closed, journal, .gathering after held) := by
  rw [gather]
  split <;> simp_all

/-- After any other chunk the next one is asked for. -/
theorem gather_of_held (hnext : chunks.next state = (.item chunk, journal, after))
    (hpush : window.push chunk = (none, held)) :
    gather chunks state window = journal.before (gather chunks after held) := by
  rw [gather]
  split <;> simp_all [Journal.before]

/-- Where the chunks come to their end, so do the windows, after one that is still held. -/
theorem gather_of_ended (hnext : chunks.next state = (.ended, journal, after)) :
    gather chunks state window =
      (window.rest?.elim .ended .item, journal, .finished after) := by
  rw [gather]
  cases hrest : window.rest? <;> split <;> simp_all

/-- Where the chunks fail, so do the windows. -/
theorem gather_of_failed {failure : Failure}
    (hnext : chunks.next state = (.failed failure, journal, after)) :
    gather chunks state window = (.failed failure, journal, .finished after) := by
  rw [gather]
  split <;> simp_all

/-- What is noted before the first chunk is noted before the window. -/
theorem gather_before {first : Journal} {other : σ}
    (hnext : chunks.next state = first.before (chunks.next other)) :
    gather chunks state window = first.before (gather chunks other window) := by
  rcases hother : chunks.next other with ⟨chunk | _ | failure, journal, after⟩ <;>
    rw [hother, Journal.before] at hnext
  · rcases hpush : window.push chunk with ⟨_ | closed, held⟩
    · rw [gather_of_held hnext hpush, gather_of_held hother hpush]
      simp only [Journal.before, Journal.append_assoc]
    · rw [gather_of_closed hnext hpush, gather_of_closed hother hpush]
      rfl
  · rw [gather_of_ended hnext, gather_of_ended hother]
    rfl
  · rw [gather_of_failed hnext, gather_of_failed hother]
    rfl

end Gather

/-! ## The generators above -/

section Layers

variable (request : Request) (opening : Opening)

/-- What the two upper generators make of a window: its merged chunk, or their ends, where
the chunks below are closed. -/
def passOn (step : Answer (List Chunk) × Journal × Gathering RawPhase) :
    Answer Chunk × Journal × LayerPhase :=
  let (closing, rest) := (rawChunks request opening).close step.2.2.chunks
  match step with
  | (.item window, journal, gathering) =>
    (.item (Chunk.reduce window), journal ++ .noted (Chunk.mergeNotice window),
      .inside (.inside gathering))
  | (.ended, journal, _) => (.ended, journal ++ closing, .outside rest)
  | (.failed failure, journal, _) => (.failed failure, journal ++ closing, .outside rest)

/-- A window is passed on by the two upper generators. -/
theorem chatChunks_next (gathering : Gathering RawPhase) :
    (chatChunks request opening).next (.inside (.inside gathering)) =
      passOn request opening ((rawChunks request opening).windows.next gathering) := by
  rcases hstep : (rawChunks request opening).windows.next gathering with
    ⟨window | _ | failure, journal, after⟩
  all_goals
    simp only [chatChunks, merged, inScope, each, hstep, passOn]
  all_goals
    cases after <;> simp [windows, Scope.chunks, Gathering.chunks]

/-- What is noted before a window is noted before what is passed on. -/
theorem passOn_before (first : Journal)
    (step : Answer (List Chunk) × Journal × Gathering RawPhase) :
    passOn request opening (first.before step) = first.before (passOn request opening step) := by
  obtain ⟨window | _ | failure, journal, after⟩ := step <;>
    simp [passOn, Journal.before, Journal.append_assoc]

end Layers

/-! ## Where the generators stand -/

/-- The generators stand where the stream has been read to. -/
inductive Stands : LayerPhase → Phase → Prop
  | fresh : Stands Generator.fresh .fresh
  | reading (events : List Json) (failure : Option String) (window : OpenWindow) :
    Stands (.inside (.inside (.gathering (.opened (.inside ⟨events, failure⟩)) window)))
      (.reading events failure window)
  /-- The window that was held at the end has been given out. -/
  | last : Stands (.inside (.inside (.finished (.opened (.outside ()))))) .over
  | left (rest : RawPhase) : Stands (.outside rest) .over

/-- The generators answer as the stream does, and stand where it has been read to then. -/
structure Alike (step : Answer Chunk × Journal × LayerPhase)
    (step' : Answer Chunk × Journal × Phase) : Prop where
  answer : step.1 = step'.1
  journal : step.2.1 = step'.2.1
  stands : Stands step.2.2 step'.2.2

/-- What is noted before both makes no difference. -/
theorem Alike.before {step : Answer Chunk × Journal × LayerPhase}
    {step' : Answer Chunk × Journal × Phase} (halike : Alike step step') (first : Journal) :
    Alike (first.before step) (first.before step') :=
  ⟨halike.answer, congrArg (first ++ ·) halike.journal, halike.stands⟩

variable (request : Request) (opening : Opening)

/-- **Taking events.** The generators take the events that the stream takes. -/
theorem alike_gather (failure : Option String) (window : OpenWindow) (events : List Json) :
    Alike (passOn request opening
        (gather (rawChunks request opening) (.opened (.inside ⟨events, failure⟩)) window))
      (ChatStream.advance failure window events) := by
  induction events generalizing window with
  | nil =>
    cases failure with
    | some message =>
      have hnext : (rawChunks request opening).next (.opened (.inside ⟨[], some message⟩)) =
          (.failed (.service message), .closed, .opened (.outside ())) := by
        simp [rawChunks, opened, inScope, decoded]
      rw [gather_of_failed hnext]
      exact ⟨rfl, rfl, .left _⟩
    | none =>
      have hnext : (rawChunks request opening).next (.opened (.inside ⟨[], none⟩)) =
          (.ended, .closed, .opened (.outside ())) := by
        simp [rawChunks, opened, inScope, decoded]
      rw [gather_of_ended hnext]
      cases hrest : window.rest? with
      | none =>
        simp only [ChatStream.advance, hrest]
        exact ⟨rfl, rfl, .left _⟩
      | some chunks =>
        simp only [ChatStream.advance, hrest]
        exact ⟨rfl, rfl, .last⟩
  | cons event events ih =>
    cases hevent : (Chunk.decode event).outcome with
    | error problems =>
      have hnext : (rawChunks request opening).next (.opened (.inside ⟨event :: events, failure⟩)) =
          (.failed (.invalid .chunk problems), .noted (Chunk.decode event).notices ++ .closed,
            .opened (.outside ())) := by
        simp [rawChunks, opened, inScope, decoded, hevent]
      rw [gather_of_failed hnext, ChatStream.advance_cons_of_error hevent]
      exact ⟨rfl, Journal.append_empty _, .left _⟩
    | ok chunk =>
      have hnext : (rawChunks request opening).next (.opened (.inside ⟨event :: events, failure⟩)) =
          (.item chunk, .noted (Chunk.decode event).notices,
            .opened (.inside ⟨events, failure⟩)) := by
        simp [rawChunks, opened, inScope, decoded, hevent]
      rcases hpush : window.push chunk with ⟨_ | closed, held⟩
      · rw [gather_of_held hnext hpush, passOn_before, ChatStream.advance_cons_of_held hevent hpush]
        exact (ih held).before _
      · rw [gather_of_closed hnext hpush, ChatStream.advance_cons_of_closed hevent hpush]
        exact ⟨rfl, rfl, .reading events failure held⟩

/-- **The first item.** It makes the call, if the request can be sent. -/
theorem alike_first :
    Alike ((chatChunks request opening).next fresh) (ChatStream.first request opening) := by
  rw [fresh, chatChunks_next]
  change Alike (passOn request opening (gather (rawChunks request opening) .fresh .start)) _
  by_cases hsend : request.isSendable = true
  · cases opening with
    | refused message =>
      have hnext : (rawChunks request (.refused message)).next .fresh =
          (.failed (.service message), Journal.noted [.streamRequested request.model] ++
            Journal.call request.streamArguments, .unopened) := by
        simp [rawChunks, hsend]
      rw [gather_of_failed hnext, ChatStream.first, if_pos hsend]
      exact ⟨rfl, Journal.append_empty _, .left _⟩
    | accepted events failure =>
      have hnext : (rawChunks request (.accepted events failure)).next .fresh =
          (Journal.noted [.streamRequested request.model] ++
            Journal.call request.streamArguments).before
          ((rawChunks request (.accepted events failure)).next
            (.opened (.inside ⟨events, failure⟩))) := by
        simp [rawChunks, hsend, Journal.before]
      rw [gather_before hnext, passOn_before, ChatStream.first, if_pos hsend]
      exact (alike_gather request _ failure .start events).before _
  · have hnext : (rawChunks request opening).next .fresh =
        (.failed .tooDeep, .empty, .unopened) := by
      simp [rawChunks, hsend]
    rw [gather_of_failed hnext, ChatStream.first, if_neg hsend]
    exact ⟨rfl, rfl, .left _⟩

/-- **One item.** Wherever the generators stand, they answer as the stream does. -/
theorem Stands.next {state : LayerPhase} {phase : Phase} (hstands : Stands state phase) :
    Alike ((chatChunks request opening).next state)
      ((ChatStream.next ⟨request, opening, phase⟩).1,
        (ChatStream.next ⟨request, opening, phase⟩).2.1,
        (ChatStream.next ⟨request, opening, phase⟩).2.2.phase) := by
  cases hstands with
  | fresh => exact alike_first request opening
  | reading events failure window =>
    rw [chatChunks_next]
    exact alike_gather request opening failure window events
  | last =>
    rw [chatChunks_next]
    exact ⟨rfl, rfl, .left _⟩
  | left rest => exact ⟨rfl, rfl, .left rest⟩

/-- **A stop.** Wherever the generators stand, they are closed as the stream is. -/
theorem Stands.close {state : LayerPhase} {phase : Phase} (hstands : Stands state phase) :
    ((chatChunks request opening).close state).1 =
      ChatStream.close ⟨request, opening, phase⟩ := by
  cases hstands <;> rfl

/-- **Four generators.** A stream is read as they are, however much of it is read. -/
theorem readUpTo_fresh (request : Request) (opening : Opening) (count : Nat) :
    (chatChunks request opening).readUpTo count fresh =
      ChatClient.readUpTo ChatStream.next ChatStream.close count ⟨request, opening, .fresh⟩ := by
  refine readUpTo_eq (fun state stream =>
    ∃ phase, stream = ⟨request, opening, phase⟩ ∧ Stands state phase) ?_ ?_ count
    ⟨.fresh, rfl, .fresh⟩
  · rintro state _ ⟨phase, rfl, hstands⟩
    exact hstands.close request opening
  · rintro state _ ⟨phase, rfl, hstands⟩
    have halike := hstands.next request opening
    refine ⟨halike.answer, halike.journal, _, ?_, halike.stands⟩
    cases phase <;> rfl

end Generator

end ChatClient
