import ChatClient.Logging

/-!
# Which setup of logging counts

A setup can fail before anything is changed, when its log file cannot be opened,
and after its handlers were attached, when its level is wrong. Once there are
handlers, no setup changes the level or the handlers. So the first setup whose
file can be opened decides both, whatever comes later, and the setups are all or
nothing if and only if this one asks for a level that exists. Which files can be
opened may change from one setup to the next.
-/

namespace ChatClient

/-! ## What a setup asks for -/

/-- A setup that is asked for: where log files are at that time, and its arguments. -/
structure SetupCall where
  disk : LogDisk
  arguments : List Json

namespace Logging

/-- What records meet first: the level and the handlers. -/
def root (logging : Logging) : LogLevel × List LogHandler := (logging.level, logging.handlers)

/-- The level and the log file that the arguments of a setup give. -/
def requested? : List Json → Option (Json × Json)
  | [] => some (defaultLevel, .null)
  | [level] => some (level, .null)
  | [level, file] => some (level, file)
  | _ => none

/-- The handlers of a setup with a log file, if the file can be opened. -/
def handlersFor? (disk : LogDisk) (file : Json) : Option (List LogHandler) :=
  if file.isFalsy then some [.console]
  else
    match file with
    | .str path => (disk path).toOption.map fun name => [.console, .file name]
    | _ => none

/-- The level and the handlers of a setup whose log file can be opened. The level may be
wrong. -/
def opening? (call : SetupCall) : Option (Json × List LogHandler) :=
  (requested? call.arguments).bind fun (level, file) =>
    (handlersFor? call.disk file).map (level, ·)

/-- What a setup asks for that has no fault, where a level is set. -/
def asked? (current : LogLevel) (call : SetupCall) : Option (LogLevel × List LogHandler) :=
  (opening? call).bind fun (level, handlers) =>
    (current.choose level).toOption.map (·, handlers)

/-- A setup that can be opened has a handler. -/
theorem handlersFor?_ne_nil {disk : LogDisk} {file : Json} {handlers : List LogHandler}
    (hhandlers : handlersFor? disk file = some handlers) : handlers ≠ [] := by
  unfold handlersFor? at hhandlers
  split at hhandlers
  · simp [← Option.some.inj hhandlers]
  · split at hhandlers
    · obtain ⟨name, _, rfl⟩ := Option.map_eq_some_iff.mp hhandlers
      simp
    · contradiction

/-- Handlers are prepared exactly where the log file can be opened. -/
theorem prepare_cases (disk : LogDisk) (files : Entries (List LogRecord)) (file : Json) :
    (∃ handlers files', handlersFor? disk file = some handlers ∧
      prepare disk files file = .ok (handlers, files')) ∨
    (∃ failure, handlersFor? disk file = none ∧ prepare disk files file = .error failure) := by
  unfold handlersFor? prepare
  by_cases hnone : file.isFalsy
  · left
    rw [if_pos hnone, if_pos hnone]
    exact ⟨[.console], files, rfl, rfl⟩
  · rw [if_neg hnone, if_neg hnone]
    cases file with
    | str path =>
      cases hopen : disk path with
      | ok name =>
        left
        simp only [hopen]
        exact ⟨_, _, rfl, rfl⟩
      | error fault =>
        right
        simp only [hopen]
        exact ⟨_, rfl, rfl⟩
    | _ => exact Or.inr ⟨_, rfl, rfl⟩

/-! ## What one setup does -/

/-- A setup that finds handlers leaves them and the level. One that finds none attaches its
own, and then it takes its level, or it fails and leaves the old one. -/
theorem setup_cases (logging : Logging) (level : Json) {disk : LogDisk} {file : Json}
    {handlers : List LogHandler} (hhandlers : handlersFor? disk file = some handlers) :
    (logging.handlers ≠ [] ∧ root (logging.setup disk level file).1 = root logging ∧
      (logging.setup disk level file).2 = .ok ()) ∨
    (logging.handlers = [] ∧ ∃ chosen, logging.level.choose level = .ok chosen ∧
      root (logging.setup disk level file).1 = (chosen, handlers) ∧
        (logging.setup disk level file).2 = .ok ()) ∨
    (logging.handlers = [] ∧ ∃ failure, logging.level.choose level = .error failure ∧
      root (logging.setup disk level file).1 = (logging.level, handlers) ∧
        (logging.setup disk level file).2 = .error failure) := by
  rcases prepare_cases disk logging.files file with ⟨prepared, files, hprepared, hprepare⟩ |
    ⟨failure, hnone, _⟩
  · obtain rfl : handlers = prepared := by
      rw [hhandlers, Option.some.injEq] at hprepared
      exact hprepared
    unfold setup
    rw [hprepare]
    by_cases hold : logging.handlers = []
    · right
      cases hchoose : logging.level.choose level with
      | ok chosen =>
        left
        exact ⟨hold, chosen, rfl, by simp [hold, root], by simp [hold]⟩
      | error failure =>
        right
        exact ⟨hold, failure, rfl, by simp [hold, root], by simp [hold]⟩
    · left
      exact ⟨hold, by simp [hold, root], by simp [hold]⟩
  · rw [hhandlers] at hnone
    contradiction

/-- The arguments of a setup are a level and a file, or there are too many of them. -/
theorem configure_eq (logging : Logging) (disk : LogDisk) (arguments : List Json) :
    logging.configure disk arguments =
      match requested? arguments with
      | some (level, file) => logging.setup disk level file
      | none => (logging, .error (.setupArguments arguments.length)) := by
  match arguments with
  | [] => rfl
  | [_] => rfl
  | [_, _] => rfl
  | _ :: _ :: _ :: _ => rfl

/-- A setup whose log file cannot be opened fails and changes nothing. -/
theorem configure_of_not_opening {call : SetupCall} (hopening : opening? call = none)
    (logging : Logging) :
    ∃ failure, logging.configure call.disk call.arguments = (logging, .error failure) := by
  rw [configure_eq]
  cases hrequested : requested? call.arguments with
  | none => exact ⟨_, rfl⟩
  | some request =>
    obtain ⟨level, file⟩ := request
    have hnone : handlersFor? call.disk file = none := by
      simpa [opening?, hrequested] using hopening
    rcases prepare_cases call.disk logging.files file with ⟨_, _, hsome, _⟩ | ⟨failure, _, hprepare⟩
    · rw [hnone] at hsome
      contradiction
    · exact ⟨failure, by simp only [setup, hprepare]⟩

/-- A setup whose log file can be opened is one with its level and this file. -/
theorem exists_configure_eq_setup {call : SetupCall} {level : Json}
    {handlers : List LogHandler} (hopening : opening? call = some (level, handlers)) :
    ∃ file, handlersFor? call.disk file = some handlers ∧
      ∀ logging : Logging, logging.configure call.disk call.arguments =
        logging.setup call.disk level file := by
  obtain ⟨⟨asked, file⟩, hrequested, hhandlers⟩ := Option.bind_eq_some_iff.mp hopening
  obtain ⟨found, hfound, heq⟩ := Option.map_eq_some_iff.mp hhandlers
  obtain ⟨rfl, rfl⟩ := Prod.mk.inj heq
  exact ⟨file, hfound, fun logging => by rw [configure_eq, hrequested]⟩

/-! ## Setups one after the other -/

/-- The logging after setups. -/
def setups (logging : Logging) (calls : List SetupCall) : Logging :=
  calls.foldl (fun logging call => (logging.configure call.disk call.arguments).1) logging

/-- The first setup that returns. -/
def firstReturned? (logging : Logging) : List SetupCall → Option SetupCall
  | [] => none
  | call :: calls =>
    match logging.configure call.disk call.arguments with
    | (_, .ok ()) => some call
    | (after, .error _) => firstReturned? after calls

/-- What setups leave behind that start without handlers: the level and the handlers of the
first one that can be opened, where a wrong level leaves the old one. -/
def decided (current : LogLevel) (calls : List SetupCall) : LogLevel × List LogHandler :=
  match calls.findSome? opening? with
  | none => (current, [])
  | some (level, handlers) => ((current.choose level).toOption.getD current, handlers)

/-- What the first setup that returns has asked for, or what was there before if none
returns. -/
def expected? (logging : Logging) (calls : List SetupCall) :
    Option (LogLevel × List LogHandler) :=
  match logging.firstReturned? calls with
  | none => some (root logging)
  | some call => asked? logging.level call

/-- All or nothing: setups leave behind what the first one that returns has asked for. -/
def AllOrNothing (logging : Logging) (calls : List SetupCall) : Prop :=
  logging.expected? calls = some (root (logging.setups calls))

instance (logging : Logging) (calls : List SetupCall) : Decidable (AllOrNothing logging calls) :=
  inferInstanceAs (Decidable (logging.expected? calls = _))

variable {logging : Logging}

/-- Once there are handlers, no setup changes the level or the handlers. -/
theorem root_setups_of_handlers (hhandlers : logging.handlers ≠ []) (calls : List SetupCall) :
    root (logging.setups calls) = root logging := by
  induction calls generalizing logging with
  | nil => rfl
  | cons call calls ih =>
    have hstep : root (logging.configure call.disk call.arguments).1 = root logging := by
      cases hopening : opening? call with
      | none =>
        obtain ⟨failure, hfails⟩ := configure_of_not_opening hopening logging
        rw [hfails]
      | some opening =>
        obtain ⟨file, hfile, hconfigure⟩ := exists_configure_eq_setup hopening
        rw [hconfigure]
        rcases logging.setup_cases opening.1 hfile with ⟨_, hsame, _⟩ | ⟨hnone, _⟩ | ⟨hnone, _⟩
        · exact hsame
        · exact absurd hnone hhandlers
        · exact absurd hnone hhandlers
    have hkept : (logging.configure call.disk call.arguments).1.handlers ≠ [] := by
      have hsame : (logging.configure call.disk call.arguments).1.handlers = logging.handlers :=
        congrArg Prod.snd hstep
      rw [hsame]
      exact hhandlers
    exact (ih hkept).trans hstep

/-- The first setup that can be opened decides about level and handlers. -/
theorem root_setups (hhandlers : logging.handlers = []) (calls : List SetupCall) :
    root (logging.setups calls) = decided logging.level calls := by
  induction calls with
  | nil => simp [setups, decided, root, hhandlers]
  | cons call calls ih =>
    unfold decided
    rw [List.findSome?_cons, setups, List.foldl_cons, ← setups]
    cases hopening : opening? call with
    | none =>
      obtain ⟨failure, hfails⟩ := configure_of_not_opening hopening logging
      rw [hfails, ih, decided]
    | some opening =>
      obtain ⟨level, handlers⟩ := opening
      obtain ⟨file, hfile, hconfigure⟩ := exists_configure_eq_setup hopening
      have hset : root (logging.configure call.disk call.arguments).1 =
          ((logging.level.choose level).toOption.getD logging.level, handlers) := by
        rw [hconfigure]
        rcases logging.setup_cases level hfile with
          ⟨hsome, _⟩ | ⟨_, chosen, hchoose, hroot, _⟩ | ⟨_, failure, hchoose, hroot, _⟩
        · exact absurd hhandlers hsome
        · rw [hroot, hchoose]
          rfl
        · rw [hroot, hchoose]
          rfl
      have hattached : (logging.configure call.disk call.arguments).1.handlers ≠ [] := by
        have hsame : (logging.configure call.disk call.arguments).1.handlers = handlers :=
          congrArg Prod.snd hset
        rw [hsame]
        exact handlersFor?_ne_nil hfile
      rw [root_setups_of_handlers hattached, hset]

/-- Setups that cannot be opened do not return. -/
theorem firstReturned?_append {closed : List SetupCall}
    (hclosed : ∀ call ∈ closed, opening? call = none) (calls : List SetupCall) :
    logging.firstReturned? (closed ++ calls) = logging.firstReturned? calls := by
  induction closed with
  | nil => rfl
  | cons call closed ih =>
    obtain ⟨failure, hfails⟩ := configure_of_not_opening (hclosed call (by simp)) logging
    rw [List.cons_append, firstReturned?, hfails]
    exact ih fun later hlater => hclosed later (by simp [hlater])

/-- Setups are all or nothing if the first one that can be opened has a level that exists. -/
theorem allOrNothing_of_level (hhandlers : logging.handlers = []) {calls : List SetupCall}
    (hlevel : ∀ level handlers, calls.findSome? opening? = some (level, handlers) →
      ∃ chosen, logging.level.choose level = .ok chosen) : AllOrNothing logging calls := by
  unfold AllOrNothing expected?
  rw [root_setups hhandlers, decided]
  cases hfirst : calls.findSome? opening? with
  | none =>
    have hreturned : logging.firstReturned? (calls ++ []) = logging.firstReturned? [] :=
      firstReturned?_append (List.findSome?_eq_none_iff.mp hfirst) []
    rw [List.append_nil] at hreturned
    rw [hreturned, firstReturned?, root, hhandlers]
  | some opening =>
    obtain ⟨level, handlers⟩ := opening
    obtain ⟨chosen, hchoose⟩ := hlevel level handlers hfirst
    obtain ⟨closed, call, later, hcalls, hopening, hclosed⟩ :=
      List.findSome?_eq_some_iff.mp hfirst
    obtain ⟨file, hfile, hconfigure⟩ := exists_configure_eq_setup hopening
    have hreturns : (logging.configure call.disk call.arguments).2 = .ok () := by
      rw [hconfigure]
      rcases logging.setup_cases level hfile with
        ⟨hsome, _⟩ | ⟨_, _, _, _, hok⟩ | ⟨_, _, hwrong, _⟩
      · exact absurd hhandlers hsome
      · exact hok
      · rw [hchoose] at hwrong
        contradiction
    have hreturned : logging.firstReturned? calls = some call := by
      rw [hcalls, firstReturned?_append hclosed, firstReturned?]
      generalize logging.configure call.disk call.arguments = result at hreturns
      obtain ⟨after, outcome⟩ := result
      rw [show outcome = .ok () from hreturns]
    simp [hreturned, asked?, hopening, hchoose, Except.toOption]

/-- A first setup that can be opened and has a wrong level leaves handlers behind. -/
theorem not_allOrNothing_of_level (hhandlers : logging.handlers = [])
    {closed : List SetupCall} (hclosed : ∀ earlier ∈ closed, opening? earlier = none)
    {call : SetupCall} {level : Json} {handlers : List LogHandler}
    (hopening : opening? call = some (level, handlers)) {failure : Failure}
    (hwrong : logging.level.choose level = .error failure) :
    ¬AllOrNothing logging (closed ++ [call]) := by
  obtain ⟨file, hfile, hconfigure⟩ := exists_configure_eq_setup hopening
  have hfails : ∃ after, logging.configure call.disk call.arguments = (after, .error failure) := by
    rw [hconfigure]
    rcases logging.setup_cases level hfile with
      ⟨hsome, _⟩ | ⟨_, _, hright, _⟩ | ⟨_, other, hsame, _, hfailed⟩
    · exact absurd hhandlers hsome
    · rw [hwrong] at hright
      contradiction
    · rw [hwrong, Except.error.injEq] at hsame
      exact ⟨_, Prod.ext rfl (hsame ▸ hfailed)⟩
  obtain ⟨after, hfails⟩ := hfails
  have hnone : logging.firstReturned? (closed ++ [call]) = none := by
    rw [firstReturned?_append hclosed, firstReturned?, hfails]
    rfl
  have hfirst : (closed ++ [call]).findSome? opening? = some (level, handlers) := by
    rw [List.findSome?_append, List.findSome?_eq_none_iff.mpr hclosed]
    simp [hopening]
  unfold AllOrNothing expected?
  rw [root_setups hhandlers, decided, hnone, hfirst, root, hhandlers]
  intro hsame
  have hnil : [] = handlers := congrArg Prod.snd (Option.some.inj hsame)
  exact handlersFor?_ne_nil hfile hnil.symm

/-- **First setup.** After any setups, the first one whose log file can be opened has
decided about level and handlers, and later ones have changed nothing. The setups are all
or nothing at every point if and only if this one, if there is any, asks for a level that
exists. -/
theorem allOrNothing_iff (files : List String) (calls : List SetupCall) :
    root ((initial files).setups calls) = decided (initial files).level calls ∧
      ((∀ before, before <+: calls → AllOrNothing (initial files) before) ↔
        ∀ level handlers, calls.findSome? opening? = some (level, handlers) →
          ∃ chosen, (initial files).level.choose level = .ok chosen) := by
  have hhandlers : (initial files).handlers = [] := rfl
  refine ⟨root_setups hhandlers calls, fun hall level handlers hfirst => ?_, ?_⟩
  · obtain ⟨closed, call, later, rfl, hopening, hclosed⟩ :=
      List.findSome?_eq_some_iff.mp hfirst
    cases hchoose : (initial files).level.choose level with
    | ok chosen => exact ⟨chosen, rfl⟩
    | error failure =>
      have hbefore := hall (closed ++ [call]) ⟨later, by simp⟩
      exact absurd hbefore (not_allOrNothing_of_level hhandlers hclosed hopening hchoose)
  · rintro hlevel before ⟨later, rfl⟩
    apply allOrNothing_of_level hhandlers
    intro level handlers hfirst
    apply hlevel level handlers
    rw [List.findSome?_append, hfirst, Option.some_or]

/-- A setup with a wrong level is followed by a correct one, which returns and has no
effect. -/
theorem not_forall_allOrNothing :
    ¬∀ (files : List String) (calls before : List SetupCall), before <+: calls →
      AllOrNothing (initial files) before := by
  intro hall
  have hcalls := hall [] [⟨.ok, [.str "info"]⟩, ⟨.ok, [.str "DEBUG"]⟩] _ List.prefix_rfl
  exact absurd hcalls (by decide)

end Logging

end ChatClient
