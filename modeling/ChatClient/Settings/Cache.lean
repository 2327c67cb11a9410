import ChatClient.Settings.Load

/-!
# Cached settings

Settings are loaded once and kept until the cache is cleared, whatever becomes
of their sources. A load that fails is not kept, so the next one tries again.
-/

namespace ChatClient

/-- The settings that are kept, and how many were loaded into the cache so far. -/
structure SettingsCache where
  kept : Option Settings
  loads : Nat
  deriving DecidableEq, Repr

namespace SettingsCache

/-- Nothing has been loaded. -/
def empty : SettingsCache := ⟨none, 0⟩

/-- The cache without settings. -/
def clear (cache : SettingsCache) : SettingsCache := { cache with kept := none }

/-- The settings that are kept, or those of the sources, which are kept then. -/
def get (sources : SettingsSources) (cache : SettingsCache) : Loading × SettingsCache :=
  match cache.kept with
  | some settings => (⟨[], .ok settings⟩, cache)
  | none =>
    let loading := sources.load []
    match loading.outcome with
    | .ok settings => (loading, ⟨some settings, cache.loads + 1⟩)
    | .error _ => (loading, cache)

end SettingsCache

/-! ## Sessions -/

/-- What can happen to sources and cache. -/
inductive SettingsStep where
  | setVariable (name value : String)
  | unsetVariable (name : String)
  | writeFile (text : String)
  | removeFile
  | clearCache
  | get
  deriving DecidableEq, Repr

/-- Sources that change, and the cache in front of them. -/
structure SettingsSession where
  sources : SettingsSources
  cache : SettingsCache
  deriving DecidableEq, Repr

namespace SettingsSession

/-- The session that begins with these sources. -/
def start (sources : SettingsSources) : SettingsSession := ⟨sources, .empty⟩

/-- The session after a step, and what a step that gets settings gives. -/
def step (session : SettingsSession) : SettingsStep → Option Loading × SettingsSession
  | .setVariable name value =>
    (none, { session with
      sources.environment := session.sources.environment.set name value })
  | .unsetVariable name =>
    (none, { session with sources.environment := session.sources.environment.erase name })
  | .writeFile text => (none, { session with sources.file := some text })
  | .removeFile => (none, { session with sources.file := none })
  | .clearCache => (none, { session with cache := session.cache.clear })
  | .get =>
    let (loading, cache) := session.cache.get session.sources
    (some loading, { session with cache })

end SettingsSession

end ChatClient
