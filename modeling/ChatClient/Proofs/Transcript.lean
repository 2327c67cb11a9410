import ChatClient.Proofs.CallArguments
import ChatClient.Proofs.ReplyText

/-!
# Transcripts of conversations

What the console sends is what was said: each call of a session brings the lines of the user
so far, each but the last one followed by the reply to it, and nothing else. A reply is what
the events of its turn say.

Whether a session calls the service at all is a matter of its options, as texts are never too
deep to be sent.
-/

namespace ChatClient

/-- Something that is said, and by whom. -/
structure Utterance where
  role : Role
  text : String
  deriving DecidableEq, Repr

namespace Utterance

/-- The message of an utterance. -/
def message (utterance : Utterance) : Message := .say utterance.role utterance.text

/-- An utterance as it is sent. -/
def sent (utterance : Utterance) : Json :=
  .obj [("content", .str utterance.text), ("role", .str utterance.role.name)]

end Utterance

/-! ## Requests of utterances -/

/-- A further field changes nothing about how two results differ. -/
theorem Decoded.outcome_seq_of_map {α β : Type} {f f' : Decoded (α → β)} {φ : β → β}
    (hmap : f'.outcome = f.outcome.map fun g a => φ (g a)) (x : Decoded α) :
    (f' <*> x).outcome = (f <*> x).outcome.map φ := by
  obtain ⟨_, f⟩ := f
  obtain ⟨_, f'⟩ := f'
  obtain ⟨_, x⟩ := x
  obtain rfl : f' = f.map fun g a => φ (g a) := hmap
  cases f <;> cases x <;> rfl

namespace ChatOptions

variable {options : ChatOptions} {base : Request}

open Decoded (outcome_seq_of_map outcome_seq_eq_ok_iff outcome_map_eq_ok_iff)

/-- Options make the same request of all messages, but for the messages. -/
theorem outcome_toRequest (options : ChatOptions) (messages : List Message) :
    (options.toRequest messages (.bool true)).outcome =
      (options.toRequest [] (.bool true)).outcome.map ({ · with messages }) :=
  outcome_seq_of_map (outcome_seq_of_map (outcome_seq_of_map (outcome_seq_of_map
    (outcome_seq_of_map (outcome_seq_of_map (outcome_seq_of_map (outcome_seq_of_map
      rfl _) _) _) _) _) _) _) _

/-- The request asks for a stream. -/
theorem stream_of_toRequest (hbase : (options.toRequest [] (.bool true)).outcome = .ok base) :
    base.stream = some true := by
  simp only [toRequest, RequestDraft.decode, outcome_seq_eq_ok_iff, outcome_map_eq_ok_iff] at hbase
  obtain ⟨_, ⟨_, ⟨_, ⟨_, ⟨_, ⟨_, ⟨_, ⟨_, ⟨_, _, rfl⟩, _, _, rfl⟩, _, hstream, rfl⟩, _, _, rfl⟩,
    _, _, rfl⟩, _, _, rfl⟩, _, _, rfl⟩, _, _, rfl⟩, _, _, rfl⟩ := hbase
  exact (Except.ok.inj hstream).symm

/-- The request has no messages but those that are given. -/
theorem messages_of_toRequest (hbase : (options.toRequest [] (.bool true)).outcome = .ok base) :
    base.messages = [] := by
  have hsame := outcome_toRequest options []
  rw [hbase] at hsame
  exact congrArg Request.messages (Except.ok.inj hsame)

/-- The options make a request that can be sent. -/
def makesRequest (options : ChatOptions) : Bool :=
  match (options.toRequest [] (.bool true)).outcome with
  | .ok request => request.isSendable
  | .error _ => false

end ChatOptions

namespace Request

/-- The request with other messages. -/
def saying (base : Request) (said : List Utterance) : Request :=
  { base with messages := said.map Utterance.message }

/-- Texts make no request too deep. -/
theorem isSendable_saying {base : Request} (hnone : base.messages = []) (said : List Utterance) :
    (base.saying said).isSendable = base.isSendable := by
  have htexts : (said.map Utterance.message).flatMap (fun message =>
      RecordKind.message.freeParts .value (message.dump .omitted)) = [] := by
    rw [List.flatMap_eq_nil_iff]
    intro message hmessage
    obtain ⟨utterance, _, rfl⟩ := List.mem_map.mp hmessage
    rfl
  have hdepths : (base.saying said).freeDepths = base.freeDepths := by
    rw [freeDepths, freeDepths, hnone, saying, htexts]
    rfl
  rw [isSendable, isSendable, hdepths]

/-- The utterances are sent as they were made. -/
theorem get?_streamArguments_saying (base : Request) (said : List Utterance) :
    Entries.get? (base.saying said).streamArguments "messages" =
      some (.arr (said.map Utterance.sent)) := by
  have hcall : Entries.get? (base.saying said).callArguments "messages" =
      some (.arr (((said.map Utterance.message).map Message.withoutIndexes).map
        (·.dump .omitted))) := get?_callArguments _ rfl
  rw [streamArguments, Entries.get?_cons, if_neg (by decide), hcall, List.map_map, List.map_map]
  rfl

end Request

/-! ## Rounds -/

namespace Console

/-- One round of a session: a line of the user, and the events that answer it. -/
structure Round where
  line : String
  events : List Json
  deriving DecidableEq, Repr

namespace Round

/-- The stream of the service. It does not break off. -/
def opening (round : Round) : Opening := .accepted round.events none

/-- What the events say in their first choices, one after the other. -/
def reply (round : Round) : String := String.join (round.events.map sentText)

/-- What the user says. -/
def question (round : Round) : Utterance := ⟨.user, round.line⟩

/-- What is said in the round. -/
def utterances (round : Round) : List Utterance :=
  [round.question, ⟨.assistant, round.reply⟩]

/-- Every event is decoded, and what the first choices say is text. -/
structure IsAnswered (round : Round) : Prop where
  decodes : ∀ event ∈ round.events, (Chunk.decode event).outcome.isOk = true
  sendsText : ∀ event ∈ round.events, sendsText event = true

end Round

namespace Conversation

variable {conversation : Conversation} {base : Request} {said : List Utterance}

/-- The request of a history is that of its options, with what was said. -/
theorem request_eq_ok
    (hbase : (conversation.options.toRequest [] (.bool true)).outcome = .ok base)
    (hhistory : conversation.history = said.map Utterance.message) :
    conversation.request = .ok (base.saying said) := by
  rw [request, Decoded.check, hhistory, ChatOptions.outcome_toRequest, hbase]
  rfl

/-- A line of the user is answered by the stream that its request asks for. -/
theorem turn_eq_answer
    (hbase : (conversation.options.toRequest [] (.bool true)).outcome = .ok base)
    (hhistory : conversation.history = said.map Utterance.message) (line : String)
    (opening : Opening) :
    conversation.turn line opening = (conversation.add .user line).answer
      ⟨base.saying (said ++ [⟨.user, line⟩]), opening, .fresh⟩ := by
  have hadd : (conversation.add .user line).history =
      (said ++ [Utterance.mk .user line]).map Utterance.message := by
    rw [add, hhistory, List.map_append]
    rfl
  have hrequest : (conversation.add .user line).request =
      .ok (base.saying (said ++ [⟨.user, line⟩])) := request_eq_ok hbase hadd
  have hstream : base.stream = some true := ChatOptions.stream_of_toRequest hbase
  have hstart : ((conversation.add .user line).request >>= (ChatStream.start · opening)) =
      .ok ⟨base.saying (said ++ [⟨.user, line⟩]), opening, .fresh⟩ := by
    rw [hrequest]
    exact if_pos hstream
  rw [turn]
  simp only [hstart]

/-- The calls of an answer are those of its stream. -/
theorem calls_answer (stream : ChatStream) :
    (conversation.answer stream).1.calls = (stream.read none).journal.calls := by
  cases hending : (stream.read none).ending <;> simp only [answer, hending]

/-- An answer that comes to its end is added to the history. -/
theorem answer_of_ended (conversation : Conversation) {stream : ChatStream}
    (hended : (stream.read none).ending = .ended) :
    (conversation.answer stream).1.failure = none ∧
      (conversation.answer stream).2.options = conversation.options ∧
      (conversation.answer stream).2.history =
        conversation.history ++ [.say .assistant (reply (stream.read none).items)] := by
  simp only [answer, hended, add, and_self]

/-- An answer that fails says with what. -/
theorem answer_of_failed {stream : ChatStream} {failure : Failure}
    (hfailed : (stream.read none).ending = .failed failure) :
    (conversation.answer stream).1.failure = some failure := by
  simp only [answer, hfailed]

/-- **One turn.** It makes one call, with all that was said and the new line, and then the
history has the line and the reply. -/
theorem turn_of_isAnswered
    (hbase : (conversation.options.toRequest [] (.bool true)).outcome = .ok base)
    (hsend : base.isSendable = true)
    (hhistory : conversation.history = said.map Utterance.message)
    {round : Round} (hround : round.IsAnswered) :
    (conversation.turn round.line round.opening).1.failure = none ∧
      (conversation.turn round.line round.opening).1.calls =
        [(base.saying (said ++ [round.question])).streamArguments] ∧
      (conversation.turn round.line round.opening).2.options = conversation.options ∧
      (conversation.turn round.line round.opening).2.history =
        (said ++ round.utterances).map Utterance.message := by
  have hsendable : (base.saying (said ++ [round.question])).isSendable = true := by
    rw [Request.isSendable_saying (ChatOptions.messages_of_toRequest hbase), hsend]
  have hquestion : Utterance.mk .user round.line = round.question := rfl
  rw [turn_eq_answer hbase hhistory, hquestion, Round.opening]
  -- from here on it matters only that the request can be sent
  generalize base.saying (said ++ [round.question]) = request at hsendable ⊢
  obtain ⟨hended, hreply⟩ := reply_arrivals hround.decodes hround.sendsText
  rw [← ChatStream.read_fresh hsendable] at hended hreply
  obtain ⟨hfailure, hoptions, hadded⟩ := (conversation.add .user round.line).answer_of_ended hended
  refine ⟨hfailure, ?_, hoptions, ?_⟩
  · rw [calls_answer, (ChatStream.released_read request _ none).calls, if_neg (by simp [hsendable])]
  · rw [hadded, hreply, add, hhistory, List.map_append, List.append_assoc]
    rfl

/-- A turn whose request cannot be sent makes no call and fails. -/
theorem turn_of_not_makesRequest (hnone : conversation.options.makesRequest = false)
    (hhistory : conversation.history = said.map Utterance.message) (line : String)
    (opening : Opening) :
    (conversation.turn line opening).1.failure ≠ none ∧
      (conversation.turn line opening).1.calls = [] := by
  cases hbase : (conversation.options.toRequest [] (.bool true)).outcome with
  | error problems =>
    have hrequest : (conversation.add .user line).request =
        .error (.invalid .request problems) := by
      rw [request, Decoded.check, ChatOptions.outcome_toRequest, add, hbase]
      rfl
    have hstart : ((conversation.add .user line).request >>= (ChatStream.start · opening)) =
        .error (.invalid .request problems) := by
      rw [hrequest]
      rfl
    simp [turn, hstart]
  | ok base =>
    have hsend : base.isSendable = false := by simpa [ChatOptions.makesRequest, hbase] using hnone
    have hsendable : (base.saying (said ++ [⟨.user, line⟩])).isSendable = false := by
      rw [Request.isSendable_saying (ChatOptions.messages_of_toRequest hbase), hsend]
    rw [turn_eq_answer hbase hhistory]
    generalize base.saying (said ++ [⟨.user, line⟩]) = request at hsendable ⊢
    have hnext : ChatStream.next ⟨request, opening, .fresh⟩ =
        (.failed .tooDeep, .empty, ⟨request, opening, .over⟩) := by
      simp [ChatStream.next, ChatStream.first, hsendable]
    have hfailed : (ChatStream.read ⟨request, opening, .fresh⟩ none).ending = .failed .tooDeep := by
      rw [ChatStream.read, Option.getD_none, readUpTo, hnext]
    rw [answer_of_failed hfailed, calls_answer,
      (ChatStream.released_read request opening none).calls, if_pos (.inr hsendable)]
    simp

end Conversation

/-! ## Sessions -/

/-- What is said before each call, if this was said before the first round. -/
def transcripts (said : List Utterance) : List Round → List (List Utterance)
  | [] => []
  | round :: rounds =>
    (said ++ [round.question]) :: transcripts (said ++ round.utterances) rounds

/-- Each round has a call. -/
theorem length_transcripts (said : List Utterance) (rounds : List Round) :
    (transcripts said rounds).length = rounds.length := by
  induction rounds generalizing said with
  | nil => rfl
  | cons round rounds ih => rw [transcripts, List.length_cons, List.length_cons, ih]

/-- Before a call, the rounds before it and its own line are said. -/
theorem getElem?_transcripts (said : List Utterance) (before : List Round) (round : Round)
    (after : List Round) :
    (transcripts said (before ++ round :: after))[before.length]? =
      some (said ++ before.flatMap Round.utterances ++ [round.question]) := by
  induction before generalizing said with
  | nil => simp [transcripts]
  | cons earlier before ih =>
    rw [List.cons_append, transcripts, List.length_cons, List.getElem?_cons_succ, ih]
    simp only [List.flatMap_cons, List.append_assoc]

/-- A turn that does not fail is followed by the others. -/
theorem calls_converse_cons {conversation : Conversation} {line : String} {opening : Opening}
    (hfailure : (conversation.turn line opening).1.failure = none) (lines : List String)
    (openings : List Opening) :
    (converse conversation (line :: lines) (opening :: openings)).calls =
      (conversation.turn line opening).1.calls ++
        (converse (conversation.turn line opening).2 lines openings).calls := by
  simp only [converse, List.head?_cons, Option.getD_some, hfailure, List.tail_cons]

/-- **Whole conversations.** The calls are those for what is said, round by round. -/
theorem calls_converse {base : Request} (hsend : base.isSendable = true) {rounds : List Round}
    (hrounds : ∀ round ∈ rounds, round.IsAnswered) (later : List Opening)
    {conversation : Conversation} {said : List Utterance}
    (hbase : (conversation.options.toRequest [] (.bool true)).outcome = .ok base)
    (hhistory : conversation.history = said.map Utterance.message) :
    (converse conversation (rounds.map Round.line) (rounds.map Round.opening ++ later)).calls =
      (transcripts said rounds).map fun said => (base.saying said).streamArguments := by
  -- each round leaves the next one a longer history, and the same options
  induction rounds generalizing conversation said with
  | nil => rfl
  | cons round rounds ih =>
    obtain ⟨hfailure, hcalls, hoptions, hnext⟩ :=
      Conversation.turn_of_isAnswered hbase hsend hhistory (hrounds round (by simp))
    have hrest := ih (fun later hlater => hrounds later (by simp [hlater]))
      (hoptions ▸ hbase) hnext
    rw [List.map_cons, List.map_cons, List.cons_append, calls_converse_cons hfailure, hcalls, hrest]
    rfl

/-- A conversation whose request cannot be sent makes no call. -/
theorem calls_converse_of_not_makesRequest {conversation : Conversation} {said : List Utterance}
    (hnone : conversation.options.makesRequest = false)
    (hhistory : conversation.history = said.map Utterance.message) (lines : List String)
    (openings : List Opening) : (converse conversation lines openings).calls = [] := by
  cases lines with
  | nil => rfl
  | cons line lines =>
    obtain ⟨hfailure, hcalls⟩ := Conversation.turn_of_not_makesRequest hnone hhistory line
      (openings.head?.getD noReply)
    obtain ⟨failure, hfailure⟩ := Option.ne_none_iff_exists'.mp hfailure
    simp only [converse, hfailure, hcalls]

/-- The options of a session, if it comes to its first line. -/
def sessionOptions? (platform : Platform) (sources : SettingsSources) (arguments : List String) :
    Option ChatOptions :=
  match Invocation.ofArguments arguments with
  | .run arguments => (start platform sources arguments).outcome.toOption.map Conversation.options
  | .help | .refused _ => none

/-- A session asks the service: it comes to its first line, with options that make a request
which can be sent. -/
def asks (platform : Platform) (sources : SettingsSources) (arguments : List String) : Bool :=
  (sessionOptions? platform sources arguments).any ChatOptions.makesRequest

/-- What is returned after two steps that may fail does not depend on them. -/
theorem eq_of_checked {ε α β : Type} {x : Except ε Unit} {y : Except ε α} {b c : β}
    (h : (do x; let _ ← y; return b) = Except.ok c) : b = c := by
  cases x with
  | error => cases h
  | ok =>
    cases y with
    | error => cases h
    | ok => exact Except.ok.inj h

/-- Nothing has been said when a session starts. -/
theorem history_of_start {platform : Platform} {sources : SettingsSources} {arguments : Arguments}
    {conversation : Conversation}
    (hstart : (start platform sources arguments).outcome = .ok conversation) :
    conversation.history = [] := by
  unfold start at hstart
  cases hload : (sources.load []).outcome with
  | error failure =>
    simp only [hload] at hstart
    cases hstart
  | ok settings =>
    simp only [hload] at hstart
    rw [← eq_of_checked hstart]

/-- A session that comes to its first line goes on as a conversation in which nothing has been
said. -/
theorem exists_conversation_of_sessionOptions? {platform : Platform}
    {sources : SettingsSources} {arguments : List String} {options : ChatOptions}
    (hsession : sessionOptions? platform sources arguments = some options) :
    ∃ conversation : Conversation, conversation.options = options ∧ conversation.history = [] ∧
      ∀ lines openings, (run platform sources arguments lines openings).calls =
        (converse conversation lines openings).calls := by
  unfold sessionOptions? at hsession
  cases hrun : Invocation.ofArguments arguments with
  | help | refused _ =>
    rw [hrun] at hsession
    cases hsession
  | run parsed =>
    simp only [hrun] at hsession
    obtain ⟨conversation, hstart, rfl⟩ := Option.map_eq_some_iff.mp hsession
    have hstart : (start platform sources parsed).outcome = .ok conversation := by
      cases houtcome : (start platform sources parsed).outcome with
      | error failure =>
        rw [houtcome] at hstart
        cases hstart
      | ok started =>
        rw [houtcome] at hstart
        cases hstart
        rfl
    refine ⟨conversation, rfl, history_of_start hstart, fun lines openings => ?_⟩
    simp only [run, hrun, hstart]

/-- A session that does not come to its first line makes no call. -/
theorem calls_run_of_sessionOptions?_eq_none {platform : Platform} {sources : SettingsSources}
    {arguments : List String} (hsession : sessionOptions? platform sources arguments = none)
    (lines : List String) (openings : List Opening) :
    (run platform sources arguments lines openings).calls = [] := by
  unfold sessionOptions? at hsession
  cases hrun : Invocation.ofArguments arguments with
  | help | refused _ => simp only [run, hrun]
  | run parsed =>
    simp only [hrun] at hsession
    cases houtcome : (start platform sources parsed).outcome with
    | error failure => simp only [run, hrun, houtcome]
    | ok started =>
      rw [houtcome] at hsession
      cases hsession

/-- What a session sends: one call for each round, with the lines of the user so far and the
replies between them. -/
structure Transcribed (rounds : List Round) (calls : List Members) : Prop where
  length_eq : calls.length = rounds.length
  messages_eq : ∀ before round after, rounds = before ++ round :: after →
    ∃ call ∈ calls[before.length]?, Entries.get? call "messages" =
      some (.arr ((before.flatMap Round.utterances ++ [round.question]).map Utterance.sent))

/-- The calls for what is said are a transcript of it. -/
theorem transcribed_map_saying (base : Request) (rounds : List Round) :
    Transcribed rounds
      ((transcripts [] rounds).map fun said => (base.saying said).streamArguments) where
  length_eq := by rw [List.length_map, length_transcripts]
  messages_eq := by
    rintro before round after rfl
    refine ⟨_, ?_, base.get?_streamArguments_saying _⟩
    rw [List.getElem?_map, getElem?_transcripts, List.nil_append]
    rfl

/-- **Faithful transcripts.** If the service answers every line of a session with events that
are decoded and say text, then the session sends a transcript of what is said, unless it does
not come to ask the service anything. That is for its sources, its arguments and what it
runs on to decide. -/
theorem run_transcribed (platform : Platform) (sources : SettingsSources)
    (arguments : List String) {rounds : List Round} (hrounds : ∀ round ∈ rounds, round.IsAnswered)
    (later : List Opening) :
    let calls := (run platform sources arguments (rounds.map Round.line)
      (rounds.map Round.opening ++ later)).calls
    (asks platform sources arguments = true → Transcribed rounds calls) ∧
      (asks platform sources arguments = false → calls = []) := by
  intro calls
  cases hsession : sessionOptions? platform sources arguments with
  | none =>
    refine ⟨fun hasks => ?_, fun _ => calls_run_of_sessionOptions?_eq_none hsession _ _⟩
    rw [asks, hsession] at hasks
    cases hasks
  | some options =>
    obtain ⟨conversation, rfl, hhistory, hcalls⟩ :=
      exists_conversation_of_sessionOptions? hsession
    have hasks : asks platform sources arguments = conversation.options.makesRequest := by
      rw [asks, hsession, Option.any_some]
    have hnothing : conversation.history = ([] : List Utterance).map Utterance.message := hhistory
    refine ⟨fun hyes => ?_, fun hno => ?_⟩
    · rw [hasks, ChatOptions.makesRequest] at hyes
      split at hyes
      · rename_i base hbase
        rw [show calls = _ from hcalls _ _, calls_converse hyes hrounds later hbase hnothing]
        exact transcribed_map_saying base rounds
      · cases hyes
    · rw [show calls = _ from hcalls _ _]
      exact calls_converse_of_not_makesRequest (hasks ▸ hno) hnothing _ _

/-- A session that is given a key, and nothing else. -/
def keySources : SettingsSources := ⟨[(Endpoint.keyVariable, "k")], none⟩

/-- The settings of that session. -/
def keySettings : Settings where
  apiKey := some "k"
  baseUrl := Endpoint.defaultBaseUrl
  maxRetries := Endpoint.defaultMaxRetries
  timeout := Endpoint.defaultTimeout
  logLevel := Settings.defaultLogLevel
  chat := .default

/-- What that session runs on: log files are named by their paths, and requests need a
key. -/
def keyPlatform : Platform := ⟨.ok, .keyed⟩

/-- The endpoint of that session can be set up. -/
theorem endpoint_keySettings :
    keySettings.endpoint .keyed keySources.environment =
      .ok ⟨"https://api.baichuan-ai.com/v1", .str "k", .int Endpoint.defaultMaxRetries,
        .float Endpoint.defaultTimeout⟩ := by
  decide +kernel

/-- That session asks the service. -/
theorem asks_keySources : asks keyPlatform keySources [] = true := by
  have hrun : Invocation.ofArguments [] = .run ⟨none, false, none⟩ := by decide +kernel
  have hload : (keySources.load []).outcome = .ok keySettings := by decide +kernel
  have hstart : (start keyPlatform keySources ⟨none, false, none⟩).outcome =
      .ok ⟨ChatProperties.defaultOptions, [],
        ((Logging.initial []).setup .ok (.str Settings.defaultLogLevel) .null).1⟩ := by
    rw [start]
    simp only [hload, keyPlatform, endpoint_keySettings]
    rfl
  rw [asks, sessionOptions?, hrun]
  simp only [hstart]
  decide +kernel

/-- A round whose reply begins before a tool call, goes on inside of it, and ends with it. -/
def weatherRound : Round where
  line := "Rain?"
  events :=
    [.obj [("choices", .arr [.obj [("delta", .obj [("content", .str "I ")])]])],
      .obj [("choices", .arr [])],
      .obj [("choices", .arr [.obj [("delta", .obj [("content", .str "look"),
        ("tool_calls", .arr [.obj [("function", .obj [("arguments", .str "1")])]])])]])],
      .obj [("choices", .arr [.obj [("delta", .obj [("content", .str ".")]),
        ("finish_reason", .str "tool_calls")]])]]

/-- The reply to a line is in the history of the next one, whole. -/
theorem run_transcribed_weatherRound :
    (∀ round ∈ [weatherRound, ⟨"Thanks", []⟩], round.IsAnswered) ∧
      ∃ call ∈ (run keyPlatform keySources [] ["Rain?", "Thanks"]
          [.accepted weatherRound.events none, .accepted [] none]).calls[1]?,
        Entries.get? call "messages" =
          some (.arr [.obj [("content", .str "Rain?"), ("role", .str "user")],
            .obj [("content", .str "I look."), ("role", .str "assistant")],
            .obj [("content", .str "Thanks"), ("role", .str "user")]]) := by
  have hrounds : ∀ round ∈ [weatherRound, ⟨"Thanks", []⟩], round.IsAnswered := by
    intro round hround
    rcases List.mem_pair.mp hround with rfl | rfl
    · exact ⟨by decide +kernel, by decide +kernel⟩
    · exact ⟨by simp, by simp⟩
  have hreply : weatherRound.reply = "I look." := by decide +kernel
  obtain ⟨call, hcall, hmessages⟩ :=
    ((run_transcribed keyPlatform keySources [] hrounds []).1 asks_keySources).messages_eq
      [weatherRound] ⟨"Thanks", []⟩ [] rfl
  refine ⟨hrounds, call, hcall, hmessages.trans ?_⟩
  rw [List.flatMap_singleton, Round.utterances, hreply]
  rfl

end Console

end ChatClient
