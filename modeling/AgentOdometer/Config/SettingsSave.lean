import AgentOdometer.Config.Normalize

/-!
# A settings save

What a save of settings does to the session sources: it takes them through the flat fields, which
hold less than the provider map.
-/

namespace AgentOdometer.Config

open Std (ExtTreeMap)

variable {σ ζ : Type} {dirs : Directories} {c previous next : Config σ ζ}

/-! ### Normal configurations -/

/-- The flat fields mirror the provider map, and the map has an entry for Gemini CLI. -/
structure IsNormal (dirs : Directories) (c : Config σ ζ) : Prop where
  version : currentConfigVersion ≤ c.configVersion
  sessionRoots : c.sessionRoots = (c.providers[ProviderId.codex]?.map (·.liveRoots)).getD []
  archiveRoots : c.archiveRoots = (c.providers[ProviderId.codex]?.map (·.archiveRoots)).getD []
  sessionIndexPath : c.sessionIndexPath =
    (c.providers[ProviderId.codex]?.bind (·.sessionIndexPath)).getD dirs.defaultSessionIndexPath
  claudeSessionRoots : c.claudeSessionRoots =
    (c.providers[ProviderId.claudeCode]?.map (·.liveRoots)).getD []
  gemini : ProviderId.geminiCli ∈ c.providers

theorem getElem?_insertIfNew {m : ExtTreeMap ProviderId (ProviderSourceConfig ζ)}
    {id key : ProviderId} {entry : ProviderSourceConfig ζ} (h : id ≠ key) :
    (m.insertIfNew id entry)[key]? = m[key]? := by
  rw [ExtTreeMap.getElem?_insertIfNew, if_neg fun hsame ↦ h (Std.compare_eq_iff_eq.mp hsame.1)]

theorem insertIfNew_of_mem {m : ExtTreeMap ProviderId (ProviderSourceConfig ζ)}
    {id : ProviderId} {entry : ProviderSourceConfig ζ} (h : id ∈ m) :
    m.insertIfNew id entry = m := by
  apply ExtTreeMap.ext_getElem?
  intro key
  rw [ExtTreeMap.getElem?_insertIfNew, if_neg]
  rintro ⟨hsame, hnot⟩
  exact hnot h

theorem getElem?_insert_self {m : ExtTreeMap ProviderId (ProviderSourceConfig ζ)}
    {id : ProviderId} {entry : ProviderSourceConfig ζ} : (m.insert id entry)[id]? = some entry := by
  rw [ExtTreeMap.getElem?_insert, if_pos (Std.compare_eq_iff_eq.mpr rfl)]

theorem getElem?_insert_ne {m : ExtTreeMap ProviderId (ProviderSourceConfig ζ)}
    {id key : ProviderId} {entry : ProviderSourceConfig ζ} (h : id ≠ key) :
    (m.insert id entry)[key]? = m[key]? := by
  rw [ExtTreeMap.getElem?_insert, if_neg fun hsame ↦ h (Std.compare_eq_iff_eq.mp hsame)]

theorem codex_ne_claudeCode : ProviderId.codex ≠ ProviderId.claudeCode := by
  decide

theorem codex_ne_geminiCli : ProviderId.codex ≠ ProviderId.geminiCli := by
  decide

theorem claudeCode_ne_geminiCli : ProviderId.claudeCode ≠ ProviderId.geminiCli := by
  decide

/-- The projected entry of Codex. -/
theorem projectLegacy_codex (c : Config σ ζ) : c.projectLegacy[ProviderId.codex]? =
    some { (c.providers[ProviderId.codex]?).getD .default with
      liveRoots := c.sessionRoots
      archiveRoots := c.archiveRoots
      sessionIndexPath := some c.sessionIndexPath } := by
  rw [projectLegacy, getElem?_insert_ne codex_ne_claudeCode.symm, getElem?_insert_self]

/-- The projected entry of Claude Code. -/
theorem projectLegacy_claudeCode (c : Config σ ζ) : c.projectLegacy[ProviderId.claudeCode]? =
    some { (c.providers[ProviderId.claudeCode]?).getD .default with
      liveRoots := c.claudeSessionRoots
      archiveRoots := [] } := by
  rw [projectLegacy, getElem?_insert_self, getElem?_insert_ne codex_ne_claudeCode]

/-- The projection changes no other entry. -/
theorem projectLegacy_other (c : Config σ ζ) {id : ProviderId} (hcodex : ProviderId.codex ≠ id)
    (hclaude : ProviderId.claudeCode ≠ id) : c.projectLegacy[id]? = c.providers[id]? := by
  rw [projectLegacy, getElem?_insert_ne hclaude, getElem?_insert_ne hcodex]

theorem normalized_legacy (dirs : Directories) (h : c.configVersion < currentConfigVersion) :
    c.normalized dirs =
      { c with
        configVersion := currentConfigVersion
        providers := c.projectLegacy.insertIfNew .geminiCli
          { ProviderSourceConfig.default with liveRoots := [dirs.geminiCliTmpDir] } } := by
  unfold normalized
  rw [if_pos h]

theorem normalized_current (h : ¬ c.configVersion < currentConfigVersion) :
    c.normalized dirs =
      { c with
        sessionRoots := (c.providers[ProviderId.codex]?.map (·.liveRoots)).getD []
        archiveRoots := (c.providers[ProviderId.codex]?.map (·.archiveRoots)).getD []
        sessionIndexPath := (c.providers[ProviderId.codex]?.bind (·.sessionIndexPath)).getD
          dirs.defaultSessionIndexPath
        claudeSessionRoots := (c.providers[ProviderId.claudeCode]?.map (·.liveRoots)).getD []
        providers := c.providers.insertIfNew .geminiCli
          { ProviderSourceConfig.default with liveRoots := [dirs.geminiCliTmpDir] } } := by
  unfold normalized
  rw [if_neg h]

/-- Reconciling gives a normal configuration. -/
theorem isNormal_normalized (dirs : Directories) (c : Config σ ζ) :
    IsNormal dirs (c.normalized dirs) := by
  by_cases h : c.configVersion < currentConfigVersion
  · rw [normalized_legacy dirs h]
    refine ⟨le_refl _, ?_, ?_, ?_, ?_, ?_⟩
    · simp only [getElem?_insertIfNew codex_ne_geminiCli.symm, projectLegacy_codex,
        Option.map_some, Option.getD_some]
    · simp only [getElem?_insertIfNew codex_ne_geminiCli.symm, projectLegacy_codex,
        Option.map_some, Option.getD_some]
    · simp only [getElem?_insertIfNew codex_ne_geminiCli.symm, projectLegacy_codex,
        Option.bind_some, Option.getD_some]
    · simp only [getElem?_insertIfNew claudeCode_ne_geminiCli.symm, projectLegacy_claudeCode,
        Option.map_some, Option.getD_some]
    · exact ExtTreeMap.mem_insertIfNew_self
  · rw [normalized_current h]
    refine ⟨not_lt.mp h, ?_, ?_, ?_, ?_, ?_⟩
    · simp only [getElem?_insertIfNew codex_ne_geminiCli.symm]
    · simp only [getElem?_insertIfNew codex_ne_geminiCli.symm]
    · simp only [getElem?_insertIfNew codex_ne_geminiCli.symm]
    · simp only [getElem?_insertIfNew claudeCode_ne_geminiCli.symm]
    · exact ExtTreeMap.mem_insertIfNew_self

/-- Reconciling a normal configuration keeps its provider map. -/
theorem IsNormal.providers_normalized (h : IsNormal dirs c) :
    (c.normalized dirs).providers = c.providers := by
  rw [normalized_current (not_lt.mpr h.version)]
  exact insertIfNew_of_mem h.gemini

/-! ### The projection through the flat fields -/

/-- The map of a normal configuration survives the projection when Codex has a session index path
and Claude Code an entry without archive roots. -/
theorem IsNormal.projectLegacy_eq_iff (h : IsNormal dirs c) : c.projectLegacy = c.providers ↔
    (∃ codex, c.providers[ProviderId.codex]? = some codex ∧ codex.sessionIndexPath ≠ none) ∧
      ∃ claude, c.providers[ProviderId.claudeCode]? = some claude ∧ claude.archiveRoots = [] := by
  constructor
  · intro heq
    refine ⟨⟨_, heq ▸ projectLegacy_codex c, ?_⟩, ⟨_, heq ▸ projectLegacy_claudeCode c, rfl⟩⟩
    exact Option.some_ne_none _
  · rintro ⟨⟨codex, hcodex, hindex⟩, claude, hclaude, harchive⟩
    apply ExtTreeMap.ext_getElem?
    intro id
    by_cases hidcodex : ProviderId.codex = id
    · subst hidcodex
      obtain ⟨path, hpath⟩ := Option.ne_none_iff_exists'.mp hindex
      rw [projectLegacy_codex, hcodex]
      congr 1
      ext1 <;> simp [h.sessionRoots, h.archiveRoots, h.sessionIndexPath, hcodex, hpath]
    by_cases hidclaude : ProviderId.claudeCode = id
    · subst hidclaude
      rw [projectLegacy_claudeCode, hclaude]
      congr 1
      ext1 <;> simp [h.claudeSessionRoots, hclaude, harchive]
    · exact projectLegacy_other c hidcodex hidclaude

/-- The loaded configuration has what the stored one has of the builtin providers. -/
theorem isMirrored_iff (dirs : Directories) (stored : Config σ ζ) : stored.IsMirrored ↔
    stored.configVersion ≤ currentConfigVersion ∧
    (∃ codex, (stored.normalized dirs).providers[ProviderId.codex]? = some codex ∧
      codex.sessionIndexPath ≠ none) ∧
    ∃ claude, (stored.normalized dirs).providers[ProviderId.claudeCode]? = some claude ∧
      claude.archiveRoots = [] := by
  unfold IsMirrored
  by_cases h : stored.configVersion < currentConfigVersion
  · have hzero : stored.configVersion = 0 := Nat.lt_one_iff.mp h
    rw [normalized_legacy dirs h]
    simp only [getElem?_insertIfNew codex_ne_geminiCli.symm, projectLegacy_codex,
      getElem?_insertIfNew claudeCode_ne_geminiCli.symm, projectLegacy_claudeCode]
    simp [hzero]
  · have hne : stored.configVersion ≠ 0 := fun hzero ↦ h (hzero ▸ Nat.zero_lt_one)
    rw [normalized_current h]
    simp only [getElem?_insertIfNew codex_ne_geminiCli.symm,
      getElem?_insertIfNew claudeCode_ne_geminiCli.symm, hne, false_or]
    rw [le_antisymm_iff, and_assoc]
    simp [not_lt.mp h]

/-! ### Saving -/

/-- A map which has every entry of another takes nothing from it. -/
theorem preserve_providers (hsame : previous.SameSources next) :
    (preserveBackendOwnedConfig previous next).providers = previous.providers := by
  have hfold : ∀ (entries : List (ProviderId × ProviderSourceConfig ζ))
      (m : ExtTreeMap ProviderId (ProviderSourceConfig ζ)), (∀ e ∈ entries, e.1 ∈ m) →
      entries.foldl (fun providers entry ↦
        if (ProviderRegistry.descriptors.map (·.id)).contains entry.1 then providers
        else providers.insertIfNew entry.1 entry.2) m = m := by
    intro entries m hmem
    induction entries with
    | nil => rfl
    | cons e entries ih =>
      rw [List.forall_mem_cons] at hmem
      rw [List.foldl_cons, insertIfNew_of_mem hmem.1, ite_self]
      exact ih hmem.2
  unfold preserveBackendOwnedConfig
  rw [hsame.providers]
  apply hfold
  intro e he
  have hentry := ExtTreeMap.mem_toList_iff_getElem?_eq_some.mp he
  exact ExtTreeMap.mem_iff_isSome_getElem?.mpr (hentry ▸ rfl)

/-- A save which edits no source keeps the sources, the unknown fields and the version exactly when
the flat fields can hold the stored sources. -/
theorem settings_save_iff (dirs : Directories) (stored payload : Config σ ζ)
    (hpayload : (stored.normalized dirs).SameSources payload) :
    ((savedConfig dirs (stored.normalized dirs) payload).providers =
        (stored.normalized dirs).providers ∧
      (savedConfig dirs (stored.normalized dirs) payload).extra =
        (stored.normalized dirs).extra ∧
      stored.configVersion ≤ (savedConfig dirs (stored.normalized dirs) payload).configVersion ∧
      (stored.normalized dirs).SessionSourcesEqual dirs
        (preserveBackendOwnedConfig (stored.normalized dirs) payload)) ↔
      stored.IsMirrored := by
  have hnormal := isNormal_normalized dirs stored
  have hproviders := preserve_providers hpayload
  have hproject : (preserveBackendOwnedConfig (stored.normalized dirs) payload).projectLegacy =
      (stored.normalized dirs).projectLegacy := by
    unfold projectLegacy
    rw [hproviders]
    simp only [preserveBackendOwnedConfig, hpayload.sessionRoots, hpayload.archiveRoots,
      hpayload.sessionIndexPath, hpayload.claudeSessionRoots]
  have hgemini : ProviderId.geminiCli ∈ (stored.normalized dirs).projectLegacy := by
    rw [ExtTreeMap.mem_iff_isSome_getElem?,
      projectLegacy_other _ codex_ne_geminiCli claudeCode_ne_geminiCli]
    exact ExtTreeMap.mem_iff_isSome_getElem?.mp hnormal.gemini
  have hsaved := normalized_legacy dirs
    (c := preserveBackendOwnedConfig (stored.normalized dirs) payload) Nat.zero_lt_one
  rw [hproject, insertIfNew_of_mem hgemini] at hsaved
  have hextra : payload.extra = (stored.normalized dirs).extra := hpayload.extra
  simp only [SessionSourcesEqual, savedConfig, hsaved, hnormal.providers_normalized]
  rw [isMirrored_iff dirs, ← hnormal.projectLegacy_eq_iff]
  constructor
  · rintro ⟨hmap, -, hversion, -⟩
    exact ⟨hversion, hmap⟩
  · rintro ⟨hversion, hmap⟩
    exact ⟨hmap, hextra, hversion, hmap.symm⟩

/-- The sources of Codex in a configuration of the current layout. -/
def demoCodex : ProviderSourceConfig Unit :=
  ⟨["/live"], [], some "/live/index.jsonl", ∅⟩

/-- A configuration of some version. -/
def demoConfig (version : Nat) : Config Bool Unit :=
  { configVersion := version
    providers := ((∅ : ExtTreeMap ProviderId (ProviderSourceConfig Unit)).insert .codex
      demoCodex).insert .claudeCode .default
    sessionRoots := ["/live"]
    archiveRoots := []
    sessionIndexPath := "/live/index.jsonl"
    claudeSessionRoots := []
    defenderExclusionReceipt := none
    settings := false
    extra := ∅ }

def demoDirs : Directories :=
  ⟨"/home/.codex", "/home/.gemini/tmp"⟩

/-- The answer for a stored configuration with one setting changed. -/
def demoPayload (version : Nat) : Config Bool Unit :=
  { (demoConfig version).normalized demoDirs with settings := true }

theorem sameSources_demo (version : Nat) :
    ((demoConfig version).normalized demoDirs).SameSources (demoPayload version) :=
  ⟨rfl, rfl, rfl, rfl, rfl, rfl, rfl⟩

/-- A save of one setting keeps the sources of the current layout. -/
theorem settings_save_demo :
    (savedConfig demoDirs ((demoConfig 1).normalized demoDirs) (demoPayload 1)).providers =
      ((demoConfig 1).normalized demoDirs).providers := by
  have hcodex : (demoConfig 1).providers[ProviderId.codex]? = some demoCodex := by
    rw [demoConfig, getElem?_insert_ne codex_ne_claudeCode.symm, getElem?_insert_self]
  have hclaude : (demoConfig 1).providers[ProviderId.claudeCode]? = some .default :=
    getElem?_insert_self
  have hmirrored : (demoConfig 1).IsMirrored :=
    .inr ⟨rfl, ⟨_, hcodex, Option.some_ne_none _⟩, _, hclaude, rfl⟩
  exact ((settings_save_iff demoDirs (demoConfig 1) (demoPayload 1)
    (sameSources_demo 1)).mpr hmirrored).1

/-- A save of one setting labels the configuration of a newer build as one of this build. -/
theorem newer_version_lowered : ¬ ∀ (dirs : Directories) (stored payload : Config Bool Unit),
    (stored.normalized dirs).SameSources payload →
      (savedConfig dirs (stored.normalized dirs) payload).providers =
        (stored.normalized dirs).providers ∧
      (savedConfig dirs (stored.normalized dirs) payload).extra =
        (stored.normalized dirs).extra ∧
      stored.configVersion ≤ (savedConfig dirs (stored.normalized dirs) payload).configVersion ∧
      (stored.normalized dirs).SessionSourcesEqual dirs
        (preserveBackendOwnedConfig (stored.normalized dirs) payload) := by
  intro hall
  obtain ⟨-, -, hversion, -⟩ := hall demoDirs (demoConfig 2) _ (sameSources_demo 2)
  rw [savedConfig, normalized_legacy demoDirs Nat.zero_lt_one] at hversion
  exact absurd hversion (by decide)

end AgentOdometer.Config
