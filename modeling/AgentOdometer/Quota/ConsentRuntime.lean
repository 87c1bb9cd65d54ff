import AgentOdometer.Quota.Consent

/-!
# What a runtime keeps

A runtime holds the file it last read, or that file with every account disabled; an error of
reading and a local pause disable it. Each operation is characterised once, by what it does to the
file, the generation, the reading and the request in flight.
-/

namespace AgentOdometer.Quota

namespace ConsentFile

@[simp]
theorem disable_disable (file : ConsentFile) : file.disable.disable = file.disable := by
  simp [disable, Function.comp_def]

theorem enabledAccounts_of_disable_eq {file : ConsentFile} (h : file.disable = file) :
    ∀ account ∈ file.accounts, account.enabled = false := by
  intro account hmem
  rw [← h] at hmem
  simp only [disable, List.mem_map] at hmem
  obtain ⟨original, -, rfl⟩ := hmem
  rfl

theorem disable_eq_self {file : ConsentFile} (h : file.enabledAccounts = []) :
    file.disable = file := by
  have hmap : file.accounts.map ({ · with enabled := false }) = file.accounts := by
    refine (List.map_congr_left ?_).trans file.accounts.map_id
    intro account hmem
    have : account.enabled = false := by
      simpa using List.filter_eq_nil_iff.mp h account hmem
    rw [← this]
    rfl
  simp [disable, hmap]

theorem find?_enabled_of_disable_eq {file : ConsentFile} (h : file.disable = file) :
    file.accounts.find? (·.enabled) = none := by
  rw [List.find?_eq_none]
  intro account hmem
  simp [enabledAccounts_of_disable_eq h account hmem]

theorem map_accountId_disable (file : ConsentFile) :
    file.disable.accounts.map (·.accountId) = file.accounts.map (·.accountId) := by
  simp [disable, Function.comp_def]

end ConsentFile

namespace Runtime

/-- The copy in memory agrees with the file which was last read, or has every account disabled. -/
structure Coherent (runtime : Runtime) : Prop where
  ofDurable : ∀ file, runtime.durableFile = some file →
    runtime.file = file ∨ runtime.file = file.disable
  ofNone : runtime.durableFile = none → runtime.file.disable = runtime.file
  ofError : runtime.configurationError.isSome → runtime.file.disable = runtime.file
  ofPause : runtime.locallyPaused = true → runtime.file.disable = runtime.file

theorem coherent_default (now : Instant) : (default now).Coherent := by
  refine ⟨fun file h ↦ (nomatch h), fun _ ↦ rfl, fun _ ↦ rfl, fun _ ↦ rfl⟩

section Load

variable (runtime : Runtime) (read : Except String ConsentFile) (file : ConsentFile)
  (error : String) (now : Instant)

/-- A file which was read replaces the copy, unless it was last read before. -/
theorem loadFile_cases :
    (runtime.loaded = true ∧ runtime.durableFile = some file ∧
      (runtime.loadFile file now).1 = { runtime with configurationError := none }) ∨
    (runtime.loadFile file now).1 =
      { runtime.invalidate now with
        file, durableFile := some file, configurationError := none } := by
  unfold loadFile
  by_cases hfresh : runtime.loaded = true ∧ runtime.durableFile = some file
  · left
    simp [hfresh]
  · right
    have : (!runtime.loaded || decide (runtime.durableFile ≠ some file)) = true := by
      by_cases hloaded : runtime.loaded = true
      · simpa [hloaded] using fun h ↦ hfresh ⟨hloaded, h⟩
      · simp [hloaded]
    simp only [this, ↓reduceIte]

/-- An error disables the copy, unless it was there before. -/
theorem loadError_cases :
    (runtime.configurationError = some error ∧
      (runtime.loadError error now).1 = runtime) ∨
    (runtime.loadError error now).1 =
      { (runtime.invalidate now).disable with configurationError := some error } := by
  unfold loadError
  by_cases hfresh : runtime.loaded = true ∧ runtime.configurationError = some error
  · left
    obtain ⟨hloaded, herror⟩ := hfresh
    refine ⟨herror, ?_⟩
    cases runtime
    simp_all
  · right
    have : (!runtime.loaded || decide (runtime.configurationError ≠ some error)) = true := by
      by_cases hloaded : runtime.loaded = true
      · simpa [hloaded] using fun h ↦ hfresh ⟨hloaded, h⟩
      · simp [hloaded]
    simp only [this, ↓reduceIte]

/-- What every operation of a runtime leaves alone, or only moves forward. -/
structure Continues (before after : Runtime) : Prop where
  generation : before.generation ≤ after.generation
  reading : after.reading = none ∨
    after.reading = before.reading ∧ after.generation = before.generation

theorem Continues.refl (runtime : Runtime) : runtime.Continues runtime :=
  ⟨le_rfl, .inr ⟨rfl, rfl⟩⟩

theorem enforceLocalPause_eq :
    runtime.enforceLocalPause =
      { runtime with
        file := if runtime.locallyPaused then runtime.file.disable else runtime.file } := by
  unfold enforceLocalPause disable
  split
  · rfl
  · rfl

/-- What a load does before the local pause: it may drop the error, or invalidates. -/
theorem loadRead_cases :
    (runtime.loadRead now read).1 =
        { runtime with configurationError := (runtime.loadRead now read).1.configurationError } ∨
      (runtime.loadRead now read).1 = { runtime.invalidate now with
        file := (runtime.loadRead now read).1.file
        durableFile := (runtime.loadRead now read).1.durableFile
        configurationError := (runtime.loadRead now read).1.configurationError } := by
  cases read with
  | ok file =>
    rcases runtime.loadFile_cases file now with ⟨-, -, h⟩ | h
    · left
      rw [loadRead, h]
    · right
      rw [loadRead, h]
  | error error =>
    rcases runtime.loadError_cases error now with ⟨-, h⟩ | h
    · left
      rw [loadRead, h]
    · right
      rw [loadRead, h]
      rfl

/-- A load does not touch the local pause or the request in flight, and invalidates once. -/
theorem load_keeps :
    (runtime.load read now).1.locallyPaused = runtime.locallyPaused ∧
    (runtime.load read now).1.busy = runtime.busy ∧
    (runtime.load read now).1.generation ≤ runtime.generation + 1 ∧
    runtime.Continues (runtime.load read now).1 := by
  simp only [load, enforceLocalPause_eq]
  rcases runtime.loadRead_cases read now with h | h
  · rw [h]
    exact ⟨rfl, rfl, Nat.le_succ _, le_rfl, .inr ⟨rfl, rfl⟩⟩
  · rw [h]
    exact ⟨rfl, rfl, le_rfl, Nat.le_succ _, .inl rfl⟩

/-- After a successful read the runtime holds the file, or that file disabled. -/
theorem load_ok :
    (runtime.load (.ok file) now).1.configurationError = none ∧
    (runtime.load (.ok file) now).1.durableFile = some file := by
  simp only [load, enforceLocalPause_eq, loadRead]
  rcases runtime.loadFile_cases file now with ⟨-, hdurable, h⟩ | h
  · rw [h]
    exact ⟨rfl, hdurable⟩
  · rw [h]
    exact ⟨rfl, rfl⟩

/-- After a failed read the error is known. -/
theorem load_error :
    (runtime.load (.error error) now).1.configurationError = some error := by
  simp only [load, enforceLocalPause_eq, loadRead]
  rcases runtime.loadError_cases error now with ⟨herror, h⟩ | h
  · rw [h]
    exact herror
  · rw [h]

end Load

/-- The local pause makes a copy coherent which is so apart from it. -/
theorem coherent_enforceLocalPause {runtime : Runtime}
    (hdurable : ∀ file, runtime.durableFile = some file →
      runtime.file = file ∨ runtime.file = file.disable)
    (hnone : runtime.durableFile = none → runtime.file.disable = runtime.file)
    (herror : runtime.configurationError.isSome → runtime.file.disable = runtime.file) :
    runtime.enforceLocalPause.Coherent := by
  rw [enforceLocalPause_eq]
  by_cases hpaused : runtime.locallyPaused = true
  · refine ⟨fun file h ↦ .inr ?_, fun _ ↦ ?_, fun _ ↦ ?_, fun _ ↦ ?_⟩
    · obtain h | h := hdurable file h
      · simp [hpaused, h]
      · simp [hpaused, h]
    all_goals simp [hpaused]
  · simp only [hpaused]
    exact ⟨hdurable, hnone, herror, fun h ↦ (nomatch h)⟩

/-- A file which was saved is the copy and the file last read. -/
theorem coherent_saved {runtime : Runtime} (file : ConsentFile) (locallyPaused : Bool)
    (h : runtime.configurationError = none) :
    (enforceLocalPause { runtime with
      durableFile := some file, file, locallyPaused }).Coherent := by
  refine coherent_enforceLocalPause (fun last hlast ↦ .inl ?_) (fun hnone ↦ (nomatch hnone)) ?_
  · exact Option.some.inj hlast
  · intro herror
    simp [h] at herror

namespace Coherent

variable {runtime : Runtime} (h : runtime.Coherent)
include h

/-- A load keeps the copy coherent. -/
theorem load (read : Except String ConsentFile) (now : Instant) :
    (runtime.load read now).1.Coherent := by
  have hloaded : (runtime.loadRead now read).1.enforceLocalPause.Coherent := by
    cases read with
    | ok file =>
      rcases runtime.loadFile_cases file now with ⟨-, hdurable, hread⟩ | hread
      · rw [loadRead, hread]
        exact coherent_enforceLocalPause h.ofDurable h.ofNone fun herror ↦ (nomatch herror)
      · rw [loadRead, hread]
        refine coherent_enforceLocalPause (fun last hlast ↦ .inl ?_) (fun hnone ↦ (nomatch hnone))
          fun herror ↦ (nomatch herror)
        exact Option.some.inj hlast
    | error error =>
      rcases runtime.loadError_cases error now with ⟨-, hread⟩ | hread
      · rw [loadRead, hread]
        exact coherent_enforceLocalPause h.ofDurable h.ofNone h.ofError
      · rw [loadRead, hread]
        refine coherent_enforceLocalPause (fun last hlast ↦ .inr ?_)
          (fun _ ↦ ConsentFile.disable_disable _) fun _ ↦ ConsentFile.disable_disable _
        obtain hfile | hfile := h.ofDurable last hlast
        · simp [disable, invalidate, hfile]
        · simp [disable, invalidate, hfile]
  exact ⟨hloaded.ofDurable, hloaded.ofNone, hloaded.ofError, hloaded.ofPause⟩

/-- An invalidation does not touch the copy. -/
theorem invalidate (now : Instant) : (runtime.invalidate now).Coherent :=
  ⟨h.ofDurable, h.ofNone, h.ofError, h.ofPause⟩

/-- The copy may be disabled. -/
theorem disable : runtime.disable.Coherent := by
  refine ⟨fun file hfile ↦ .inr ?_, fun _ ↦ ?_, fun _ ↦ ?_, fun _ ↦ ?_⟩
  · obtain hsame | hsame := h.ofDurable file hfile
    · simp [Runtime.disable, hsame]
    · simp [Runtime.disable, hsame]
  all_goals exact ConsentFile.disable_disable _

/-- A request in flight is not part of the copy. -/
theorem withBusy (busy : Bool) (candidate : Option (DiscoveredQuotaAccount × Instant)) :
    { runtime with busy, candidate }.Coherent :=
  ⟨h.ofDurable, h.ofNone, h.ofError, h.ofPause⟩

end Coherent

/-- Unless it is disabled by an error or a local pause, the copy is the file last read. -/
def IsCurrent (runtime : Runtime) : Prop :=
  runtime.configurationError = none → runtime.locallyPaused = false →
    ∀ file, runtime.durableFile = some file → runtime.file = file

/-- The file is read again after an error, is what was last read, and names an account enabled:
the branch of `load` which keeps the disabled copy (`quota_accounts.rs:242–249`). -/
def Recovers (shared : SharedFile) (runtime : Runtime) : Prop :=
  shared.readError = none ∧ runtime.configurationError.isSome ∧
    runtime.durableFile = some shared.content ∧ runtime.locallyPaused = false ∧
      shared.content.enabledAccounts ≠ []

/-- A load keeps a current copy current, unless it keeps a disabled copy. -/
theorem IsCurrent.load {runtime : Runtime} {shared : SharedFile} (h : runtime.IsCurrent)
    (hcoherent : runtime.Coherent) (hrecovers : ¬ runtime.Recovers shared) (now : Instant) :
    (runtime.load shared.read now).1.IsCurrent := by
  intro herror hpaused last hlast
  rw [(runtime.load_keeps _ now).1] at hpaused
  cases hread : shared.readError with
  | some error =>
    simp [SharedFile.read, hread, load_error] at herror
  | none =>
    simp only [SharedFile.read, hread] at hlast ⊢
    rw [(runtime.load_ok shared.content now).2, Option.some_inj] at hlast
    subst hlast
    simp only [Runtime.load, enforceLocalPause_eq, loadRead]
    rcases runtime.loadFile_cases shared.content now with ⟨-, hdurable, hload⟩ | hload
    · rw [hload]
      simp only [hpaused]
      cases hprevious : runtime.configurationError with
      | none => exact h hprevious hpaused _ hdurable
      | some error =>
        have hnone : shared.content.enabledAccounts = [] := by
          by_contra hsome
          exact hrecovers ⟨hread, by simp [hprevious], hdurable, hpaused, hsome⟩
        obtain hfile | hfile := hcoherent.ofDurable _ hdurable
        · exact hfile
        · exact hfile.trans (ConsentFile.disable_eq_self hnone)
    · rw [hload]
      simp only [invalidate, hpaused]
      rfl

section Operations

variable (runtime : Runtime) (read : Except String ConsentFile) (now : Instant)

theorem requireReadable_eq_ok : runtime.requireReadable = .ok () ↔
    runtime.configurationError = none := by
  unfold requireReadable
  split
  · simp [*]
  · simp [*]

theorem requireReadable_eq_error {error : String} (h : runtime.requireReadable = .error error) :
    runtime.configurationError = some error := by
  unfold requireReadable at h
  split at h
  · rename_i herror
    cases h
    exact herror
  · cases h

theorem saveOf_eq_ok {file : ConsentFile} {save : Save} (h : runtime.saveOf file = .ok save) :
    runtime.durableFile = some save.expected := by
  unfold saveOf at h
  split at h
  · rename_i hdurable
    cases h
    exact hdurable
  · cases h

/-- `identify` refuses, or takes the free request slot. -/
theorem identifyStart_cases :
    (∃ error, runtime.identifyStart read now = ((runtime.load read now).1, .error error)) ∨
    ((runtime.load read now).1.busy = false ∧
      runtime.identifyStart read now =
        ({ (runtime.load read now).1 with busy := true, candidate := none },
          .ok (runtime.load read now).1.generation)) := by
  unfold identifyStart
  cases hreadable : (runtime.load read now).1.requireReadable with
  | error error =>
    left
    simp only [hreadable]
    exact ⟨error, rfl⟩
  | ok u =>
    simp only [hreadable]
    cases hbusy : (runtime.load read now).1.busy with
    | true => exact .inl ⟨_, rfl⟩
    | false => exact .inr ⟨rfl, rfl⟩

/-- The end of `identify` frees the request slot. -/
theorem identifyFinish_fst (generation : Nat)
    (result : Except LiveQuotaError DiscoveredQuotaAccount) :
    ∃ candidate, (runtime.identifyFinish read now generation result).1 =
      { (runtime.load read now).1 with busy := false, candidate } := by
  unfold identifyFinish
  simp only
  split
  · exact ⟨_, rfl⟩
  · cases result with
    | ok account => exact ⟨_, rfl⟩
    | error error => exact ⟨_, rfl⟩

/-- `approve` leaves the loaded runtime, whatever it answers. -/
theorem approveStart_fst (accountId label : String) (consentedAt : DateTime) :
    (runtime.approveStart read now accountId label consentedAt).1 = (runtime.load read now).1 :=
  rfl

/-- An `approve` which goes on to save has read the file and compares with it. -/
theorem approveStart_ok {accountId label : String} {consentedAt : DateTime} {save : Save}
    (h : (runtime.approveStart read now accountId label consentedAt).2 = .ok save) :
    (runtime.load read now).1.configurationError = none ∧
      (runtime.load read now).1.durableFile = some save.expected := by
  unfold approveStart at h
  obtain ⟨u, hreadable, h⟩ := bind_eq_ok.mp h
  obtain ⟨-, -, h⟩ := bind_eq_ok.mp h
  exact ⟨(requireReadable_eq_ok _).mp hreadable, saveOf_eq_ok _ h⟩

/-- `change` refuses, or disables the copy and compares with the file last read. -/
theorem changeStart_cases (accountId : String) (enabled revoke : Bool) :
    (∃ error, runtime.changeStart read now accountId enabled revoke =
        ((runtime.load read now).1, .error error) ∧
      ((runtime.load read now).1.configurationError.isSome ∨
        ∀ account ∈ (runtime.load read now).1.file.accounts, account.accountId ≠ accountId)) ∨
    ∃ answer, (runtime.load read now).1.configurationError = none ∧
      runtime.changeStart read now accountId enabled revoke =
        (((runtime.load read now).1.invalidate now).disable, answer) ∧
      answer = (runtime.load read now).1.saveOf
        (changedFile (runtime.load read now).1.file accountId enabled revoke) := by
  unfold changeStart
  cases hreadable : (runtime.load read now).1.requireReadable with
  | error error =>
    left
    simp only [hreadable]
    exact ⟨error, rfl, .inl (by simp [requireReadable_eq_error _ hreadable])⟩
  | ok u =>
    simp only [hreadable]
    by_cases hany : (runtime.load read now).1.file.accounts.any (·.accountId == accountId) = true
    · right
      rw [if_pos hany]
      exact ⟨_, (requireReadable_eq_ok _).mp hreadable, rfl, rfl⟩
    · left
      rw [if_neg hany]
      exact ⟨_, rfl, .inr (by simpa using hany)⟩

/-- `poll` starts no request, or one for an enabled account in the free slot. -/
theorem pollStart_cases :
    (∃ changed, runtime.pollStart read now = ((runtime.load read now).1, .error changed)) ∨
    ∃ account, (runtime.load read now).1.file.accounts.find? (·.enabled) = some account ∧
      (runtime.load read now).1.busy = false ∧
      runtime.pollStart read now =
        ({ (runtime.load read now).1 with busy := true },
          .ok ((runtime.load read now).1.generation, account.accountId)) := by
  unfold pollStart
  simp only
  split
  · exact .inl ⟨_, rfl⟩
  · rename_i hready
    split
    · exact .inl ⟨_, rfl⟩
    · rename_i account hfind
      simp only [Bool.or_eq_true, not_or, Bool.not_eq_true] at hready
      exact .inr ⟨account, hfind, hready.1.2, rfl⟩

/-- The end of a request frees its slot and sets what was read. -/
theorem finishRead_eq (generation : Nat) (result : Except LiveQuotaError LiveQuotaReading) :
    ∃ reading error backoff nextPoll, runtime.finishRead generation result now =
      { runtime with busy := false, reading, error, backoff, nextPoll } := by
  unfold finishRead
  split
  · exact ⟨_, _, _, _, rfl⟩
  · cases result with
    | ok reading => exact ⟨_, _, _, _, rfl⟩
    | error error => exact ⟨_, _, _, _, rfl⟩

/-- A request of another generation reads nothing. -/
theorem finishRead_of_stale {generation : Nat}
    (result : Except LiveQuotaError LiveQuotaReading)
    (h : generation % 2 ^ 64 ≠ runtime.generation % 2 ^ 64) :
    runtime.finishRead generation result now = { runtime with busy := false } :=
  if_pos h

end Operations

/-! ### The status -/

/-- `status` answers for the accounts of the loaded copy, in their order. -/
theorem status_eq_some {runtime : Runtime} {read : Except String ConsentFile} {now : Instant}
    {utc : DateTime} {answer : Runtime × LiveQuotaStatus}
    (h : runtime.status read now utc = some answer) :
    answer.1 = (runtime.load read now).1 ∧
      (runtime.load read now).1.file.accounts.mapM ((runtime.load read now).1.accountView utc) =
        some answer.2.accounts := by
  unfold status at h
  simp only [Option.bind_eq_bind, Option.bind_eq_some_iff] at h
  obtain ⟨accounts, haccounts, h⟩ := h
  cases h
  exact ⟨rfl, haccounts⟩

/-- A view is about the consent it was made for, and shows the reading of that account. -/
theorem accountView_eq_some {runtime : Runtime} {utc : DateTime} {consent : QuotaAccountConsent}
    {view : LiveQuotaAccountView} (h : runtime.accountView utc consent = some view) :
    view.consent = consent ∧
      view.observedAt = (runtime.readingOf consent).map (·.observedAt) ∧
      (runtime.readingOf consent = none → view.buckets = []) := by
  unfold accountView at h
  simp only [Option.bind_eq_bind, Option.bind_eq_some_iff] at h
  obtain ⟨buckets, hbuckets, h⟩ := h
  cases h
  refine ⟨rfl, rfl, fun hnone ↦ ?_⟩
  rw [hnone] at hbuckets
  exact (Option.some.inj hbuckets).symm

/-- The consents which `status` reports are those of the loaded copy. -/
theorem map_consent_of_mapM {runtime : Runtime} {utc : DateTime}
    {accounts : List QuotaAccountConsent} {views : List LiveQuotaAccountView}
    (h : accounts.mapM (runtime.accountView utc) = some views) :
    views.map (·.consent) = accounts := by
  induction accounts generalizing views with
  | nil =>
    obtain rfl := Option.some.inj h
    rfl
  | cons consent accounts ih =>
    simp only [List.mapM_cons, Option.bind_eq_bind, Option.bind_eq_some_iff] at h
    obtain ⟨view, hview, rest, hrest, h⟩ := h
    cases h
    rw [List.map_cons, ih hrest, (accountView_eq_some hview).1]

/-- Each view was made for a consent of the loaded copy. -/
theorem mem_of_mapM {runtime : Runtime} {utc : DateTime} {accounts : List QuotaAccountConsent}
    {views : List LiveQuotaAccountView} {view : LiveQuotaAccountView}
    (h : accounts.mapM (runtime.accountView utc) = some views) (hview : view ∈ views) :
    ∃ consent ∈ accounts, runtime.accountView utc consent = some view := by
  induction accounts generalizing views with
  | nil =>
    obtain rfl := Option.some.inj h
    cases hview
  | cons consent accounts ih =>
    simp only [List.mapM_cons, Option.bind_eq_bind, Option.bind_eq_some_iff] at h
    obtain ⟨first, hfirst, rest, hrest, h⟩ := h
    cases h
    rcases List.mem_cons.mp hview with rfl | hmem
    · exact ⟨consent, List.mem_cons_self, hfirst⟩
    · obtain ⟨consent', hmem', hsome⟩ := ih hrest hmem
      exact ⟨consent', List.mem_cons_of_mem _ hmem', hsome⟩

end Runtime

end AgentOdometer.Quota
