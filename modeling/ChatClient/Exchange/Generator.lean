import ChatClient.Exchange.Stream

/-!
# Generators

The chunks of a stream pass through four generators, each of which asks the one below it:
the chunks of the service, their windows, the merged chunks, and the stream that is given
out. A generator stands at its last item until it is asked for the next one or closed. If
it stands in a scope, what the scope says is done on leaving it, in whatever way that
happens: at the end, by a failure, or by closing the generator.

The generator of windows stands in no scope, so closing it leaves the chunks below it
open. The stream that is given out has them in its own scope.
-/

namespace ChatClient

/-- What gives items when it is asked, and can be closed before it has given all. -/
structure Generator (σ α : Type) where
  /-- The next item. -/
  next : σ → Answer α × Journal × σ
  /-- It is asked for no more items. -/
  close : σ → Journal × σ
  /-- The most items that it can still give. -/
  left : σ → Nat
  /-- Every item leaves fewer to come. -/
  left_next {state state' : σ} {value : α} {journal : Journal}
    (hnext : next state = (.item value, journal, state')) : left state' < left state

/-- Where a generator stands: in its scope with the state of the items, or behind it with
what is left. -/
inductive Scope (σ τ : Type) where
  | inside (state : σ)
  | outside (rest : τ)
  deriving DecidableEq, Repr

namespace Generator

variable {σ τ α β : Type}

/-- Items given in a scope, with what is done on leaving it. -/
def inScope (items : Generator σ α) (leave : σ → Journal × τ) : Generator (Scope σ τ) α where
  next
    | .inside state =>
      match items.next state with
      | (.item value, journal, state) => (.item value, journal, .inside state)
      | (.ended, journal, state) =>
        let (leaving, rest) := leave state
        (.ended, journal ++ leaving, .outside rest)
      | (.failed failure, journal, state) =>
        let (leaving, rest) := leave state
        (.failed failure, journal ++ leaving, .outside rest)
    | .outside rest => (.ended, .empty, .outside rest)
  close
    | .inside state =>
      let (leaving, rest) := leave state
      (leaving, .outside rest)
    | .outside rest => (.empty, .outside rest)
  left
    | .inside state => items.left state
    | .outside _ => 0
  left_next := by
    rintro (state | rest) state' value journal hnext
    · rcases hitem : items.next state with ⟨_ | _ | _, given, after⟩
      · simp only [hitem, Prod.mk.injEq, Answer.item.injEq] at hnext
        obtain ⟨rfl, rfl, rfl⟩ := hnext
        exact items.left_next hitem
      · simp [hitem] at hnext
      · simp [hitem] at hnext
    · simp at hnext

/-- Each item turned into another one, with the notices that this gives. -/
def each (items : Generator σ α) (notices : α → List Notice) (f : α → β) : Generator σ β where
  next state :=
    match items.next state with
    | (.item value, journal, state) => (.item (f value), journal ++ .noted (notices value), state)
    | (.ended, journal, state) => (.ended, journal, state)
    | (.failed failure, journal, state) => (.failed failure, journal, state)
  close := items.close
  left := items.left
  left_next := by
    intro state state' value journal hnext
    rcases hitem : items.next state with ⟨_ | _ | _, given, after⟩
    · simp only [hitem, Prod.mk.injEq] at hnext
      obtain ⟨-, -, rfl⟩ := hnext
      exact items.left_next hitem
    · simp [hitem] at hnext
    · simp [hitem] at hnext

end Generator

/-! ## The chunks of the service -/

/-- What the service is still to hand over. -/
structure Incoming where
  events : List Json
  failure : Option String
  deriving DecidableEq, Repr

/-- How far the chunks of the service have been asked for. -/
inductive RawPhase where
  /-- The call has not been made. -/
  | fresh
  | opened (events : Scope Incoming Unit)
  /-- The call was not made, or refused. -/
  | unopened
  deriving DecidableEq, Repr

namespace Generator

/-- The chunks of events that are handed over. -/
def decoded : Generator Incoming Chunk where
  next
    | ⟨[], some message⟩ => (.failed (.service message), .empty, ⟨[], some message⟩)
    | ⟨[], none⟩ => (.ended, .empty, ⟨[], none⟩)
    | ⟨event :: events, failure⟩ =>
      let decoded := Chunk.decode event
      match decoded.outcome with
      | .ok chunk => (.item chunk, .noted decoded.notices, ⟨events, failure⟩)
      | .error problems =>
        (.failed (.invalid .chunk problems), .noted decoded.notices, ⟨events, failure⟩)
  close incoming := (.empty, incoming)
  left incoming := incoming.events.length
  left_next := by
    rintro ⟨_ | ⟨event, events⟩, failure⟩ state' value journal hnext
    · cases failure <;> simp at hnext
    · cases hevent : (Chunk.decode event).outcome with
      | ok chunk =>
        simp only [hevent, Prod.mk.injEq] at hnext
        obtain ⟨-, -, rfl⟩ := hnext
        exact Nat.lt_succ_self _
      | error problems => simp [hevent] at hnext

/-- The chunks of a stream that is open, which is closed on leaving them. -/
def opened : Generator (Scope Incoming Unit) Chunk := decoded.inScope fun _ => (.closed, ())

/-- The chunks that answer a request. The first of them takes the call. -/
def rawChunks (request : Request) (opening : Opening) : Generator RawPhase Chunk where
  next
    | .fresh =>
      if request.isSendable then
        let called := Journal.noted [.streamRequested request.model] ++
          Journal.call request.streamArguments
        match opening with
        | .refused message => (.failed (.service message), called, .unopened)
        | .accepted events failure =>
          let (answer, journal, scope) := opened.next (.inside ⟨events, failure⟩)
          (answer, called ++ journal, .opened scope)
      else (.failed .tooDeep, .empty, .unopened)
    | .opened scope =>
      let (answer, journal, scope) := opened.next scope
      (answer, journal, .opened scope)
    | .unopened => (.ended, .empty, .unopened)
  close
    | .fresh | .unopened => (.empty, .unopened)
    | .opened scope =>
      let (journal, scope) := opened.close scope
      (journal, .opened scope)
  left
    | .fresh => opening.eventCount
    | .opened scope => opened.left scope
    | .unopened => 0
  left_next := by
    rintro (_ | scope | _) state' value journal hnext
    · by_cases hsend : request.isSendable = true
      · cases opening with
        | refused message => simp [hsend] at hnext
        | accepted events failure =>
          rcases hitem : opened.next (.inside ⟨events, failure⟩) with ⟨answer, given, after⟩
          simp only [hsend, if_true, hitem, Prod.mk.injEq] at hnext
          obtain ⟨rfl, -, rfl⟩ := hnext
          exact opened.left_next hitem
      · simp [hsend] at hnext
    · rcases hitem : opened.next scope with ⟨answer, given, after⟩
      simp only [hitem, Prod.mk.injEq] at hnext
      obtain ⟨rfl, -, rfl⟩ := hnext
      exact opened.left_next hitem
    · simp at hnext

end Generator

/-! ## Windows -/

/-- How far the windows of chunks have been gathered. -/
inductive Gathering (σ : Type) where
  | gathering (chunks : σ) (window : OpenWindow)
  /-- There are no more windows. -/
  | finished (chunks : σ)
  deriving DecidableEq, Repr

namespace Generator

variable {σ : Type}

/-- Chunks are asked for until a window is complete, or there are no more. -/
def gather (chunks : Generator σ Chunk) (state : σ) (window : OpenWindow) :
    Answer (List Chunk) × Journal × Gathering σ :=
  match _ : chunks.next state with
  | (.item chunk, journal, state) =>
    match window.push chunk with
    | (some closed, window) => (.item closed, journal, .gathering state window)
    | (none, window) =>
      let (answer, rest, gathering) := gather chunks state window
      (answer, journal ++ rest, gathering)
  | (.ended, journal, state) =>
    match window.rest? with
    | some rest => (.item rest, journal, .finished state)
    | none => (.ended, journal, .finished state)
  | (.failed failure, journal, state) => (.failed failure, journal, .finished state)
termination_by chunks.left state
decreasing_by exact chunks.left_next (by assumption)

/-- A window leaves fewer chunks to come, unless it is the last one. -/
theorem left_lt_of_gather {chunks : Generator σ Chunk} {state : σ} {window : OpenWindow}
    {closed : List Chunk} {journal : Journal} {after : σ} {held : OpenWindow}
    (hgather : gather chunks state window = (.item closed, journal, .gathering after held)) :
    chunks.left after < chunks.left state := by
  rw [gather] at hgather
  split at hgather
  · rename_i chunk given middle hitem
    have hless := chunks.left_next hitem
    split at hgather
    · cases hgather
      exact hless
    · rename_i window' _
      rcases hrest : gather chunks middle window' with ⟨answer, rest, gathering⟩
      simp only [hrest, Prod.mk.injEq] at hgather
      obtain ⟨rfl, -, rfl⟩ := hgather
      exact Nat.lt_trans (left_lt_of_gather hrest) hless
  · split at hgather <;> cases hgather
  · cases hgather
termination_by chunks.left state

/-- The windows of chunks. The chunks are not closed with them. -/
def windows (chunks : Generator σ Chunk) : Generator (Gathering σ) (List Chunk) where
  next
    | .gathering state window => gather chunks state window
    | .finished state => (.ended, .empty, .finished state)
  close
    | .gathering state _ | .finished state => (.empty, .finished state)
  left
    | .gathering state _ => chunks.left state + 1
    | .finished _ => 0
  left_next := by
    rintro (⟨state, window⟩ | state) (⟨after, held⟩ | after) value journal hnext
    · exact Nat.succ_lt_succ (left_lt_of_gather hnext)
    · exact Nat.succ_pos _
    · cases hnext
    · cases hnext

/-! ## Merged chunks -/

/-- One chunk for each window, in a scope that closes the windows. -/
def merged (chunks : Generator σ Chunk) : Generator (Scope (Gathering σ) (Gathering σ)) Chunk :=
  ((windows chunks).each Chunk.mergeNotice Chunk.reduce).inScope (windows chunks).close

end Generator

/-- The chunks below the windows. -/
def Gathering.chunks {σ : Type} : Gathering σ → σ
  | .gathering state _ | .finished state => state

/-- The chunks below the merged ones. -/
def Scope.chunks {σ : Type} : Scope (Gathering σ) (Gathering σ) → σ
  | .inside gathering | .outside gathering => gathering.chunks

/-- How far a stream of generators has been asked. -/
abbrev LayerPhase := Scope (Scope (Gathering RawPhase) (Gathering RawPhase)) RawPhase

namespace Generator

/-- The stream that a request asks for, in a scope that closes the merged chunks, and then
the chunks below them. -/
def chatChunks (request : Request) (opening : Opening) : Generator LayerPhase Chunk :=
  let raw := rawChunks request opening
  (merged raw).inScope fun state =>
    let (leaving, state) := (merged raw).close state
    let (closing, rest) := raw.close state.chunks
    (leaving ++ closing, rest)

/-- Nothing has been asked for. -/
def fresh : LayerPhase := .inside (.inside (.gathering .fresh .start))

/-- Reads up to a number of items and then closes. -/
def readUpTo {σ α : Type} (items : Generator σ α) (count : Nat) (state : σ) : Reading α :=
  ChatClient.readUpTo items.next (fun state => (items.close state).1) count state

end Generator

end ChatClient
