import AgentOdometer.Base.Time
import AgentOdometer.Config.Discovery
import AgentOdometer.Lib.Keys
import AgentOdometer.Model.Provider

/-!
# The stored configuration

The provider map and its legacy mirror, their reconciliation, and what a settings save keeps
(`config.rs:12–262,303–307`, `commands.rs:1636–1660`). A value of a field which this build does not
know is of type `ζ`; the settings which none of these functions reads are of type `σ`.
-/

namespace AgentOdometer

open Std (ExtTreeMap)

/-- Follows `config.rs:17–23`. -/
structure DefenderExclusionReceipt where
  version : Nat
  configuredRoots : List String
  verifiedRoots : List String
  verifiedAt : DateTime

/-- `CONFIG_VERSION`, `config.rs:36`. -/
def currentConfigVersion : Nat :=
  1

/-- The session sources of one provider. Follows `config.rs:41–54`. -/
@[ext]
structure ProviderSourceConfig (ζ : Type) where
  liveRoots : List String
  archiveRoots : List String
  sessionIndexPath : Option String
  extra : ExtTreeMap String ζ

/-- `ProviderSourceConfig::default`, `config.rs:41`. -/
def ProviderSourceConfig.default {ζ : Type} : ProviderSourceConfig ζ :=
  ⟨[], [], none, ∅⟩

/-- Follows `config.rs:56–112`. -/
structure Config (σ ζ : Type) where
  configVersion : Nat
  providers : ExtTreeMap ProviderId (ProviderSourceConfig ζ)
  sessionRoots : List String
  archiveRoots : List String
  sessionIndexPath : String
  claudeSessionRoots : List String
  defenderExclusionReceipt : Option DefenderExclusionReceipt
  settings : σ
  extra : ExtTreeMap String ζ

/-- The directories of the environment. Follows `config.rs:150–170`. -/
structure Directories where
  codexHomeDir : String
  geminiCliTmpDir : String

/-- `default_session_index_path`, `config.rs:131–133`. -/
def Directories.defaultSessionIndexPath (dirs : Directories) : String :=
  Config.join dirs.codexHomeDir "session_index.jsonl"

variable {σ ζ : Type}

/-- The entries which the flat fields describe. Follows `config.rs:224–231`. -/
def Config.projectLegacy (c : Config σ ζ) : ExtTreeMap ProviderId (ProviderSourceConfig ζ) :=
  let codex := (c.providers[ProviderId.codex]?).getD .default
  let providers := c.providers.insert .codex
    { codex with
      liveRoots := c.sessionRoots
      archiveRoots := c.archiveRoots
      sessionIndexPath := some c.sessionIndexPath }
  let claude := (providers[ProviderId.claudeCode]?).getD .default
  providers.insert .claudeCode
    { claude with
      liveRoots := c.claudeSessionRoots
      archiveRoots := [] }

/-- `Config::normalized`, `config.rs:214–262`. -/
def Config.normalized (dirs : Directories) (c : Config σ ζ) : Config σ ζ :=
  let reconciled : Config σ ζ :=
    if c.configVersion < currentConfigVersion then
      { c with providers := c.projectLegacy, configVersion := currentConfigVersion }
    else
      let codex := c.providers[ProviderId.codex]?
      { c with
        sessionRoots := (codex.map (·.liveRoots)).getD []
        archiveRoots := (codex.map (·.archiveRoots)).getD []
        sessionIndexPath :=
          (codex.bind (·.sessionIndexPath)).getD dirs.defaultSessionIndexPath
        claudeSessionRoots :=
          (c.providers[ProviderId.claudeCode]?.map (·.liveRoots)).getD [] }
  { reconciled with
    providers := reconciled.providers.insertIfNew .geminiCli
      { ProviderSourceConfig.default with liveRoots := [dirs.geminiCliTmpDir] } }

/-- `Config::session_sources_equal`, `config.rs:303–307`. -/
def Config.SessionSourcesEqual (dirs : Directories) (c other : Config σ ζ) : Prop :=
  (c.normalized dirs).providers = (other.normalized dirs).providers

/-- `preserve_backend_owned_config`, `commands.rs:1636–1660`. -/
def preserveBackendOwnedConfig (previous next : Config σ ζ) : Config σ ζ :=
  let builtinIds := ProviderRegistry.descriptors.map (·.id)
  { next with
    defenderExclusionReceipt := previous.defenderExclusionReceipt
    configVersion := 0
    providers := previous.providers.toList.foldl (fun providers entry ↦
      if builtinIds.contains entry.1 then providers else providers.insertIfNew entry.1 entry.2)
        next.providers }

/-- What `set_config` writes for a payload. Follows `commands.rs:1398–1399`, `config.rs:371`. -/
def savedConfig (dirs : Directories) (previous payload : Config σ ζ) : Config σ ζ :=
  (preserveBackendOwnedConfig previous payload).normalized dirs

/-- Only fields which are no source were edited. -/
structure Config.SameSources (c other : Config σ ζ) : Prop where
  configVersion : other.configVersion = c.configVersion
  providers : other.providers = c.providers
  sessionRoots : other.sessionRoots = c.sessionRoots
  archiveRoots : other.archiveRoots = c.archiveRoots
  sessionIndexPath : other.sessionIndexPath = c.sessionIndexPath
  claudeSessionRoots : other.claudeSessionRoots = c.claudeSessionRoots
  extra : other.extra = c.extra

/-- The flat fields can hold the sources: the stored layout is the legacy one, or it is the current
one and holds a session index path for Codex and an entry without archive roots for Claude Code. -/
def Config.IsMirrored (c : Config σ ζ) : Prop :=
  c.configVersion = 0 ∨ c.configVersion = currentConfigVersion ∧
    (∃ codex, c.providers[ProviderId.codex]? = some codex ∧ codex.sessionIndexPath ≠ none) ∧
    ∃ claude, c.providers[ProviderId.claudeCode]? = some claude ∧ claude.archiveRoots = []

end AgentOdometer
