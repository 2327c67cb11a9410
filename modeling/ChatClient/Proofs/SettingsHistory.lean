import ChatClient.Settings.Cache
import Mathlib.Data.List.Induction

/-!
# Settings over a whole session

Sources change while a session goes on, settings are got from time to time, and the cache
is cleared now and then. What a get gives depends on the gets since the last clearing: the
first of them that succeeded has decided, with the sources as they were then, and as long
as there is none, every get loads from the sources as they are. A get that fails leaves no
trace.
-/

namespace ChatClient

namespace SettingsSources

/-- The sources after a step. Only four kinds of steps change them. -/
def changed (sources : SettingsSources) : SettingsStep → SettingsSources
  | .setVariable name value => { sources with environment := sources.environment.set name value }
  | .unsetVariable name => { sources with environment := sources.environment.erase name }
  | .writeFile text => { sources with file := some text }
  | .removeFile => { sources with file := none }
  | .clearCache | .get => sources

/-- The sources after the steps of a history. -/
def after (sources : SettingsSources) (history : List SettingsStep) : SettingsSources :=
  history.foldl changed sources

end SettingsSources

/-- Settings that are kept are given, and nothing changes. -/
theorem SettingsCache.get_of_kept {cache : SettingsCache} {settings : Settings}
    (hkept : cache.kept = some settings) (sources : SettingsSources) :
    cache.get sources = (⟨[], .ok settings⟩, cache) := by
  simp only [get, hkept]

/-- Where none are kept, settings are loaded, and kept if they can be loaded. If not,
nothing changes. -/
theorem SettingsCache.get_of_not_kept {cache : SettingsCache} (hnone : cache.kept = none)
    (sources : SettingsSources) :
    (cache.get sources).1 = sources.load [] ∧
      (cache.get sources).2.kept = (sources.load []).outcome.toOption ∧
      ∀ failure, (sources.load []).outcome = .error failure → (cache.get sources).2 = cache := by
  simp only [get, hnone]
  cases hload : (sources.load []).outcome with
  | ok settings => simp [Except.toOption]
  | error failure => simp [hnone, Except.toOption]

namespace SettingsSession

/-- The session after the steps of a history. -/
def run (session : SettingsSession) (history : List SettingsStep) : SettingsSession :=
  history.foldl (fun session step => (session.step step).2) session

/-- What a get gives after the steps of a history. -/
def got (sources : SettingsSources) (history : List SettingsStep) : Loading :=
  let session := (start sources).run history
  (session.cache.get session.sources).1

/-- A get after the steps of a history gives settings. -/
def Succeeds (sources : SettingsSources) (history : List SettingsStep) : Prop :=
  ∃ settings, (got sources history).outcome = .ok settings

/-- There was a get after some first steps of a history, and no clearing since. -/
def IsRecentGet (history before : List SettingsStep) : Prop :=
  ∃ later, history = before ++ .get :: later ∧ SettingsStep.clearCache ∉ later

/-- The get after some first steps of a history is the first one since the last clearing
that gave settings. -/
structure IsFirstSuccess (sources : SettingsSources) (history before : List SettingsStep) :
    Prop where
  recent : IsRecentGet history before
  succeeds : Succeeds sources before
  first : ∀ earlier, IsRecentGet before earlier → ¬Succeeds sources earlier

/-! ## One more step -/

/-- A step changes the sources as it would without a cache. -/
theorem sources_step (session : SettingsSession) (step : SettingsStep) :
    (session.step step).2.sources = session.sources.changed step := by
  cases step <;> rfl

/-- The sources of a session are those after its steps. -/
theorem sources_run (session : SettingsSession) (history : List SettingsStep) :
    (session.run history).sources = session.sources.after history := by
  induction history generalizing session with
  | nil => rfl
  | cons step history ih =>
    have hrest := ih (session.step step).2
    rwa [sources_step] at hrest

/-- A history ends with its last step. -/
theorem run_concat (session : SettingsSession) (history : List SettingsStep)
    (step : SettingsStep) :
    session.run (history ++ [step]) = ((session.run history).step step).2 := by
  rw [run, List.foldl_append, List.foldl_cons, List.foldl_nil, run]

/-- The recent gets after one more step: none after a clearing, and after another step those
before it, and the step itself if it is one. -/
theorem isRecentGet_concat {history before : List SettingsStep} {step : SettingsStep} :
    IsRecentGet (history ++ [step]) before ↔
      (step = .get ∧ before = history) ∨ (step ≠ .clearCache ∧ IsRecentGet history before) := by
  constructor
  · rintro ⟨later, hsplit, hlater⟩
    rcases List.eq_nil_or_concat later with rfl | ⟨later, last, rfl⟩
    · obtain ⟨hhistory, hstep⟩ := List.append_inj' hsplit rfl
      exact Or.inl ⟨List.singleton_inj.mp hstep, hhistory.symm⟩
    · have hsplit' : history ++ [step] = (before ++ .get :: later) ++ [last] := by
        simpa using hsplit
      obtain ⟨hhistory, hstep⟩ := List.append_inj' hsplit' rfl
      obtain rfl : step = last := List.singleton_inj.mp hstep
      right
      constructor
      · rintro rfl
        exact hlater (by simp)
      · exact ⟨later, hhistory, fun hmem => hlater (by simp [hmem])⟩
  · rintro (⟨rfl, rfl⟩ | ⟨hstep, later, rfl, hlater⟩)
    · exact ⟨[], rfl, by simp⟩
    · refine ⟨later ++ [step], by simp, ?_⟩
      rw [List.mem_append, List.mem_singleton]
      rintro (hmem | heq)
      · exact hlater hmem
      · exact hstep heq.symm

/-- A get that was recent at a recent get still is. -/
theorem IsRecentGet.trans {history before earlier : List SettingsStep}
    (hbefore : IsRecentGet history before) (hearlier : IsRecentGet before earlier) :
    IsRecentGet history earlier := by
  obtain ⟨later, rfl, hlater⟩ := hbefore
  obtain ⟨between, rfl, hbetween⟩ := hearlier
  exact ⟨between ++ .get :: later, by simp, by simp [hbetween, hlater]⟩

/-- Where a recent get gave settings, one of them was the first. -/
theorem exists_isFirstSuccess {sources : SettingsSources} {history before : List SettingsStep}
    (hrecent : IsRecentGet history before) (hsucceeds : Succeeds sources before) :
    ∃ first, IsFirstSuccess sources history first := by
  -- An earlier success has fewer steps before it, so the search for the first one ends.
  induction hlength : before.length using Nat.strongRecOn generalizing before with
  | ind length ih =>
    by_cases hearlier : ∃ earlier, IsRecentGet before earlier ∧ Succeeds sources earlier
    · obtain ⟨earlier, hbefore, hsuccess⟩ := hearlier
      have hshorter : earlier.length < length := by
        obtain ⟨between, rfl, _⟩ := hbefore
        rw [← hlength, List.length_append, List.length_cons]
        omega
      exact ih _ hshorter (hrecent.trans hbefore) hsuccess rfl
    · refine ⟨before, hrecent, hsucceeds, fun earlier hbefore hsuccess => ?_⟩
      exact hearlier ⟨earlier, hbefore, hsuccess⟩

/-! ## What is kept -/

variable {sources : SettingsSources}

/-- What a get gives comes from the cache and the sources after the steps. -/
theorem got_eq (sources : SettingsSources) (history : List SettingsStep) :
    got sources history =
      (((start sources).run history).cache.get (sources.after history)).1 := by
  rw [got, sources_run]
  rfl

/-- A get changes the cache only. -/
theorem step_get (sources : SettingsSources) (history : List SettingsStep) :
    (((start sources).run history).step .get).2 =
      { (start sources).run history with
        cache := (((start sources).run history).cache.get (sources.after history)).2 } := by
  have hsources : ((start sources).run history).sources = sources.after history :=
    sources_run (start sources) history
  rw [← hsources]
  rfl

section Get

variable {history : List SettingsStep}

/-- Where settings are kept, a get gives them and leaves the session as it is. -/
theorem got_of_kept {settings : Settings}
    (hkept : ((start sources).run history).cache.kept = some settings) :
    got sources history = ⟨[], .ok settings⟩ ∧
      (((start sources).run history).step .get).2 = (start sources).run history := by
  rw [got_eq, step_get, SettingsCache.get_of_kept hkept]
  exact ⟨rfl, rfl⟩

/-- Where none are kept, a get loads from the sources as they are, and keeps what it loads. -/
theorem got_of_not_kept (hnone : ((start sources).run history).cache.kept = none) :
    got sources history = (sources.after history).load [] ∧
      (((start sources).run history).step .get).2.cache.kept =
        ((sources.after history).load []).outcome.toOption := by
  obtain ⟨hload, hkept, _⟩ := SettingsCache.get_of_not_kept hnone (sources.after history)
  rw [got_eq, step_get]
  exact ⟨hload, hkept⟩

/-- A get that fails leaves the session as it is. -/
theorem step_get_of_error {failure : Failure}
    (hfails : (got sources history).outcome = .error failure) :
    (((start sources).run history).step .get).2 = (start sources).run history := by
  cases hkept : ((start sources).run history).cache.kept with
  | some settings => exact (got_of_kept hkept).2
  | none =>
    obtain ⟨_, _, hsame⟩ := SettingsCache.get_of_not_kept hkept (sources.after history)
    rw [(got_of_not_kept hkept).1] at hfails
    rw [step_get, hsame failure hfails]

end Get

/-- The settings that are kept after a history are those of the first recent success, and
none where there was no success. -/
structure KeepsFirst (sources : SettingsSources) (history : List SettingsStep)
    (kept : Option Settings) : Prop where
  of_first : ∀ before, IsFirstSuccess sources history before →
    ∃ settings, ((sources.after before).load []).outcome = .ok settings ∧ kept = some settings
  of_none : (∀ before, IsRecentGet history before → ¬Succeeds sources before) → kept = none

/-- After a clearing nothing is kept. -/
theorem KeepsFirst.of_clearCache (sources : SettingsSources) (history : List SettingsStep) :
    KeepsFirst sources (history ++ [.clearCache]) none where
  of_first before hfirst := by
    have hrecent := isRecentGet_concat.mp hfirst.recent
    simp at hrecent
  of_none _ := rfl

/-- A step that is neither a get nor a clearing leaves what is kept. -/
theorem KeepsFirst.of_change {history : List SettingsStep} {kept : Option Settings}
    (hkeeps : KeepsFirst sources history kept) {step : SettingsStep} (hget : step ≠ .get)
    (hclear : step ≠ .clearCache) : KeepsFirst sources (history ++ [step]) kept := by
  have hrecent (before) : IsRecentGet (history ++ [step]) before ↔ IsRecentGet history before := by
    rw [isRecentGet_concat]
    simp [hget, hclear]
  constructor
  · intro before hfirst
    exact hkeeps.of_first before ⟨(hrecent before).mp hfirst.recent, hfirst.succeeds, hfirst.first⟩
  · intro hnever
    exact hkeeps.of_none fun before hbefore => hnever before ((hrecent before).mpr hbefore)

/-- A get keeps settings where none are kept and it succeeds. -/
theorem KeepsFirst.of_get {history : List SettingsStep}
    (hkeeps : KeepsFirst sources history ((start sources).run history).cache.kept) :
    KeepsFirst sources (history ++ [.get])
      (((start sources).run history).step .get).2.cache.kept := by
  constructor
  · intro before hfirst
    -- The first success is this get, and nothing was kept before, or an earlier one is kept.
    rcases isRecentGet_concat.mp hfirst.recent with ⟨_, rfl⟩ | ⟨_, hrecent⟩
    · obtain ⟨hgot, hkept⟩ := got_of_not_kept (hkeeps.of_none hfirst.first)
      obtain ⟨settings, hsettings⟩ := hfirst.succeeds
      rw [hgot] at hsettings
      exact ⟨settings, hsettings, by rw [hkept, hsettings]; rfl⟩
    · obtain ⟨settings, hload, hkept⟩ :=
        hkeeps.of_first before ⟨hrecent, hfirst.succeeds, hfirst.first⟩
      exact ⟨settings, hload, by rw [(got_of_kept hkept).2, hkept]⟩
  · intro hnever
    have hfails := hnever history (isRecentGet_concat.mpr (Or.inl ⟨rfl, rfl⟩))
    have hnone := hkeeps.of_none fun before hrecent =>
      hnever before (isRecentGet_concat.mpr (Or.inr ⟨by simp, hrecent⟩))
    obtain ⟨hgot, hkept⟩ := got_of_not_kept hnone
    rw [hkept]
    cases houtcome : ((sources.after history).load []).outcome with
    | ok settings => exact absurd ⟨settings, by rw [hgot, houtcome]⟩ hfails
    | error failure => rfl

/-- Every history keeps the settings of its first recent success. -/
theorem keepsFirst_run (sources : SettingsSources) (history : List SettingsStep) :
    KeepsFirst sources history ((start sources).run history).cache.kept := by
  induction history using List.reverseRecOn with
  | nil =>
    refine ⟨fun before hfirst => ?_, fun _ => rfl⟩
    obtain ⟨later, hsplit, _⟩ := hfirst.recent
    simp at hsplit
  | append_singleton history step ih =>
    rw [run_concat]
    cases step with
    | get => exact ih.of_get
    | clearCache => exact .of_clearCache sources history
    | setVariable | unsetVariable | writeFile | removeFile =>
      refine ih.of_change ?_ ?_ <;> simp

/-- **Cached settings.** Whatever has happened to the sources and the cache, the first get
since the last clearing that gave settings decides: every later get gives the settings of
the sources as they were then. Where there was none, a get loads from the sources as they
are. A get that fails leaves the session as if it had not been there. -/
theorem got_of_history (sources : SettingsSources) (history : List SettingsStep) :
    (((start sources).run history).step .get).1 = some (got sources history) ∧
    ((∃ before, IsFirstSuccess sources history before) ∨
      ∀ before, IsRecentGet history before → ¬Succeeds sources before) ∧
    (∀ before, IsFirstSuccess sources history before →
      ∃ settings, ((sources.after before).load []).outcome = .ok settings ∧
        got sources history = ⟨[], .ok settings⟩) ∧
    ((∀ before, IsRecentGet history before → ¬Succeeds sources before) →
      got sources history = (sources.after history).load []) ∧
    ∀ failure, (got sources history).outcome = .error failure →
      (start sources).run (history ++ [.get]) = (start sources).run history := by
  have hkeeps := keepsFirst_run sources history
  refine ⟨rfl, ?_, fun before hfirst => ?_, fun hnever => ?_, fun failure hfails => ?_⟩
  · by_cases hsome : ∃ before, IsRecentGet history before ∧ Succeeds sources before
    · obtain ⟨before, hrecent, hsucceeds⟩ := hsome
      exact Or.inl (exists_isFirstSuccess hrecent hsucceeds)
    · exact Or.inr fun before hrecent hsucceeds => hsome ⟨before, hrecent, hsucceeds⟩
  · obtain ⟨settings, hload, hkept⟩ := hkeeps.of_first before hfirst
    exact ⟨settings, hload, (got_of_kept hkept).1⟩
  · exact (got_of_not_kept (hkeeps.of_none hnever)).1
  · rw [run_concat, step_get_of_error hfails]

/-- Settings that cannot be loaded, then some that can, and then others. -/
def repairedRetries : List SettingsStep :=
  [.setVariable "BAICHUAN_MAX_RETRIES" "x", .get, .setVariable "BAICHUAN_MAX_RETRIES" "3", .get,
    .setVariable "BAICHUAN_MAX_RETRIES" "4"]

/-- The get after the repair decides. The one before it failed and left no trace. -/
theorem got_of_history_repairedRetries :
    (IsFirstSuccess ⟨[], none⟩ repairedRetries (repairedRetries.take 3) ∧
      ∃ settings, got ⟨[], none⟩ repairedRetries = ⟨[], .ok settings⟩ ∧
        settings.maxRetries = 3) ∧
    ((∀ before, IsRecentGet (repairedRetries.take 3) before → ¬Succeeds ⟨[], none⟩ before) ∧
      got ⟨[], none⟩ (repairedRetries.take 3) =
        (SettingsSources.after ⟨[], none⟩ (repairedRetries.take 3)).load []) ∧
    ∃ failure, (got ⟨[], none⟩ (repairedRetries.take 1)).outcome = .error failure ∧
      (start ⟨[], none⟩).run (repairedRetries.take 1 ++ [.get]) =
        (start ⟨[], none⟩).run (repairedRetries.take 1) := by
  have hbroken : (got ⟨[], none⟩ (repairedRetries.take 1)).outcome.toOption = none := by
    decide +kernel
  have hrepaired : (SettingsSources.load (SettingsSources.after ⟨[], none⟩
      (repairedRetries.take 3)) []).outcome.toOption.map Settings.maxRetries = some 3 := by
    decide +kernel
  have hnever (before) (hrecent : IsRecentGet (repairedRetries.take 3) before) :
      ¬Succeeds ⟨[], none⟩ before := by
    obtain ⟨later, hsplit, _⟩ := hrecent
    have hbefore : before = repairedRetries.take 1 := by
      rcases before with _ | ⟨first, _ | ⟨second, _ | ⟨third, before⟩⟩⟩ <;>
        simp_all [repairedRetries]
    rintro ⟨settings, hsettings⟩
    rw [← hbefore, hsettings] at hbroken
    cases hbroken
  obtain ⟨_, _, _, hbuilt, _⟩ := got_of_history ⟨[], none⟩ (repairedRetries.take 3)
  obtain ⟨_, _, hkept, _, _⟩ := got_of_history ⟨[], none⟩ repairedRetries
  obtain ⟨_, _, _, _, hfailed⟩ := got_of_history ⟨[], none⟩ (repairedRetries.take 1)
  have hload := hbuilt hnever
  have hsucceeds : Succeeds ⟨[], none⟩ (repairedRetries.take 3) := by
    rw [← hload] at hrepaired
    cases houtcome : (got ⟨[], none⟩ (repairedRetries.take 3)).outcome with
    | ok settings => exact ⟨settings, houtcome⟩
    | error failure =>
      rw [houtcome] at hrepaired
      cases hrepaired
  have hfirst : IsFirstSuccess ⟨[], none⟩ repairedRetries (repairedRetries.take 3) :=
    ⟨⟨_, rfl, by simp⟩, hsucceeds, hnever⟩
  obtain ⟨settings, hsettings, hgot⟩ := hkept _ hfirst
  rw [hsettings] at hrepaired
  refine ⟨⟨hfirst, settings, hgot, Option.some.inj hrepaired⟩, ⟨hnever, hload⟩, ?_⟩
  cases houtcome : (got ⟨[], none⟩ (repairedRetries.take 1)).outcome with
  | ok settings =>
    rw [houtcome] at hbroken
    cases hbroken
  | error failure => exact ⟨failure, rfl, hfailed failure houtcome⟩

end SettingsSession

end ChatClient
