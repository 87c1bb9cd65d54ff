import AgentOdometer.Quota.ConsentRuntime
import AgentOdometer.Quota.ConsentSystem

/-!
# What an instance keeps

`Kept` holds of an instance in every run: at most one request is in flight, as many approvals and
changes as took effect have invalidated, and a save compares with the file last read. `Faithful`
needs that no copy stays disabled after an error and that every failed pause is recorded.
-/

namespace AgentOdometer.Quota

/-- What a saving operation compares and writes. -/
def Saving.save : Saving → Save
  | approve save => save
  | change save _ _ _ => save

/-- A change is about to save. -/
def Saving.isChange : Saving → Bool
  | approve _ => false
  | change _ _ _ _ => true

/-- The approvals and changes since a request began have each invalidated. -/
def Request.IsCounted (request : Request) (changes generation : Nat) : Prop :=
  request.changes ≤ changes ∧ changes + request.generation ≤ generation + request.changes

namespace Request.IsCounted

variable {request : Request} {changes generation generation' : Nat}

theorem mono (h : request.IsCounted changes generation) (hle : generation ≤ generation') :
    request.IsCounted changes generation' := by
  unfold IsCounted at *
  omega

theorem succ (h : request.IsCounted changes generation) :
    request.IsCounted (changes + 1) (generation + 1) := by
  unfold IsCounted at *
  omega

end Request.IsCounted

namespace Instance

/-- What holds of an instance in every run. -/
structure Kept (inst : Instance) : Prop where
  coherent : inst.runtime.Coherent
  inFlight : inst.requests.length = inst.runtime.busy.toNat
  counted : ∀ request ∈ inst.requests,
    request.IsCounted inst.changes inst.runtime.generation
  expects : ∀ saving, inst.saving = some saving → inst.runtime.configurationError = none ∧
    inst.runtime.durableFile = some saving.save.expected
  changing : ∀ saving, inst.saving = some saving → saving.isChange = true →
    inst.runtime.file.disable = inst.runtime.file

theorem kept_start (now : Instant) : (start now).Kept :=
  ⟨Runtime.coherent_default now, rfl, fun _ h ↦ (nomatch h), fun _ h ↦ (nomatch h),
    fun _ h ↦ (nomatch h)⟩

/-- While no save is about to happen, three of the parts suffice. -/
theorem kept_of_free {inst : Instance} (hfree : inst.saving = none)
    (hcoherent : inst.runtime.Coherent)
    (hinFlight : inst.requests.length = inst.runtime.busy.toNat)
    (hcounted : ∀ request ∈ inst.requests,
      request.IsCounted inst.changes inst.runtime.generation) : inst.Kept := by
  refine ⟨hcoherent, hinFlight, hcounted, ?_, ?_⟩
  all_goals
    intro saving hsaving
    simp [hfree] at hsaving

namespace Kept

variable {inst : Instance} (h : inst.Kept)
include h

/-- A request in flight occupies the slot. -/
theorem requests_eq_nil (hbusy : inst.runtime.busy = false) : inst.requests = [] := by
  have := h.inFlight
  rw [hbusy] at this
  exact List.eq_nil_of_length_eq_zero this

theorem erase_request {request : Request} (hmem : request ∈ inst.requests) :
    inst.requests.erase request = [] := by
  apply List.eq_nil_of_length_eq_zero
  rw [List.length_erase_of_mem hmem, h.inFlight]
  cases inst.runtime.busy with
  | true => rfl
  | false => rfl

/-- The load which every operation starts with. -/
theorem load (hfree : inst.saving = none) (shared : SharedFile) (now : Instant) :
    { inst with runtime := (inst.runtime.load shared.read now).1 }.Kept := by
  obtain ⟨-, hbusy, -, hcontinues⟩ := inst.runtime.load_keeps shared.read now
  refine kept_of_free hfree (h.coherent.load _ now) ?_ ?_
  · rw [hbusy]
    exact h.inFlight
  · intro request hmem
    exact (h.counted request hmem).mono hcontinues.generation

/-- A new request takes the slot. -/
theorem start_request (hfree : inst.saving = none) (hbusy : inst.runtime.busy = false)
    (account : Option String) (candidate : Option (DiscoveredQuotaAccount × Instant)) :
    { inst with
      runtime := { inst.runtime with busy := true, candidate }
      requests := inst.requests ++
        [(⟨inst.runtime.generation, account, inst.changes⟩ : Request)] }.Kept := by
  rw [h.requests_eq_nil hbusy]
  refine kept_of_free hfree (h.coherent.withBusy true candidate) rfl ?_
  intro request hmem
  obtain rfl := List.mem_singleton.mp hmem
  exact ⟨le_rfl, (Nat.add_comm _ _).le⟩

theorem identify (hfree : inst.saving = none) (shared : SharedFile) (now : Instant) :
    (inst.identify shared now).Kept := by
  have hload := h.load hfree shared now
  unfold Instance.identify
  rcases inst.runtime.identifyStart_cases shared.read now with ⟨error, hcase⟩ | ⟨hbusy, hcase⟩
  · simp only [hcase]
    exact hload
  · simp only [hcase]
    exact hload.start_request hfree hbusy none none

theorem poll (hfree : inst.saving = none) (shared : SharedFile) (now : Instant) :
    (inst.poll shared now).Kept := by
  have hload := h.load hfree shared now
  unfold Instance.poll
  rcases inst.runtime.pollStart_cases shared.read now with
    ⟨changed, hcase⟩ | ⟨account, -, hbusy, hcase⟩
  · simp only [hcase]
    exact hload
  · simp only [hcase]
    exact hload.start_request hfree hbusy (some account.accountId) _

theorem identified (hfree : inst.saving = none) (shared : SharedFile) (now : Instant)
    {request : Request} (hmem : request ∈ inst.requests)
    (result : Except LiveQuotaError DiscoveredQuotaAccount) :
    (inst.identified shared now request result).Kept := by
  have hload := h.load hfree shared now
  obtain ⟨candidate, hfinish⟩ :=
    inst.runtime.identifyFinish_fst shared.read now request.generation result
  unfold Instance.identified
  rw [hfinish, h.erase_request hmem]
  exact kept_of_free hfree (hload.coherent.withBusy false candidate) rfl fun _ h ↦ (nomatch h)

theorem polled (hfree : inst.saving = none) (shared : SharedFile) (now : Instant)
    {request : Request} (hmem : request ∈ inst.requests)
    (result : Except LiveQuotaError LiveQuotaReading) :
    (inst.polled shared now request result).Kept := by
  have hload := h.load hfree shared now
  obtain ⟨reading, error, backoff, nextPoll, hfinish⟩ :=
    (inst.runtime.load shared.read now).1.finishRead_eq now request.generation result
  unfold Instance.polled Runtime.pollFinish
  rw [hfinish, h.erase_request hmem]
  refine kept_of_free hfree ?_ rfl fun _ h ↦ (nomatch h)
  exact ⟨hload.coherent.ofDurable, hload.coherent.ofNone, hload.coherent.ofError,
    hload.coherent.ofPause⟩

theorem approve (hfree : inst.saving = none) (shared : SharedFile) (now : Instant)
    (accountId label : String) (consentedAt : DateTime) :
    (inst.approve shared now accountId label consentedAt).Kept := by
  have hload := h.load hfree shared now
  unfold Instance.approve
  cases hstart : inst.runtime.approveStart shared.read now accountId label consentedAt with
  | mk runtime answer =>
    have hruntime : runtime = (inst.runtime.load shared.read now).1 := by
      rw [← inst.runtime.approveStart_fst shared.read now accountId label consentedAt, hstart]
    subst hruntime
    cases answer with
    | error error => exact hload
    | ok save =>
      refine ⟨hload.coherent, hload.inFlight, hload.counted, ?_, fun saving hsaving hchange ↦ ?_⟩
      · intro saving hsaving
        cases hsaving
        exact inst.runtime.approveStart_ok shared.read now (congrArg Prod.snd hstart)
      · cases hsaving
        cases hchange

theorem change (hfree : inst.saving = none) (shared : SharedFile) (now : Instant)
    (accountId : String) (enabled revoke : Bool) :
    (inst.change shared now accountId enabled revoke).Kept := by
  have hload := h.load hfree shared now
  have hcoherent := (hload.coherent.invalidate now).disable
  unfold Instance.change
  rcases inst.runtime.changeStart_cases shared.read now accountId enabled revoke with
    ⟨error, hcase, -⟩ | ⟨answer, hreadable, hcase, hanswer⟩
  · simp only [hcase, fail]
    exact kept_of_free hfree hload.coherent hload.inFlight hload.counted
  · cases answer with
    | error error =>
      simp only [hcase, fail]
      refine kept_of_free hfree hcoherent hload.inFlight ?_
      intro request hmem
      exact (hload.counted request hmem).mono (Nat.le_succ _)
    | ok save =>
      simp only [hcase]
      refine ⟨hcoherent, hload.inFlight, ?_, ?_, fun _ _ _ ↦ ConsentFile.disable_disable _⟩
      · intro request hmem
        exact (hload.counted request hmem).succ
      · intro saving hsaving
        cases hsaving
        exact ⟨hreadable, Runtime.saveOf_eq_ok _ hanswer.symm⟩

theorem status (hfree : inst.saving = none) (shared : SharedFile) (now : Instant)
    {utc : DateTime} {answer : Runtime × LiveQuotaStatus}
    (hanswer : inst.runtime.status shared.read now utc = some answer) :
    { inst with runtime := answer.1 }.Kept := by
  have hload := h.load hfree shared now
  unfold Runtime.status at hanswer
  simp only [Option.bind_eq_bind, Option.bind_eq_some_iff] at hanswer
  obtain ⟨accounts, -, hanswer⟩ := hanswer
  cases hanswer
  exact hload

theorem approved {save : Save} (now : Instant) (saved : Except String SharedFile)
    (hsaving : inst.saving = some (.approve save)) : (inst.approved now save saved).Kept := by
  unfold Instance.approved
  cases saved with
  | error error => exact kept_of_free rfl h.coherent h.inFlight h.counted
  | ok shared =>
    refine kept_of_free rfl ?_ h.inFlight ?_
    · exact (Runtime.coherent_saved save.file false (h.expects _ hsaving).1).invalidate now
    · intro request hmem
      exact (h.counted request hmem).succ

theorem changed {save : Save} {enabled revoke ofEnabled : Bool}
    (saved : Except String SharedFile)
    (hsaving : inst.saving = some (.change save enabled revoke ofEnabled)) :
    (inst.changed save enabled revoke ofEnabled saved).Kept := by
  unfold Instance.changed
  cases saved with
  | error error =>
    refine kept_of_free rfl ?_ h.inFlight h.counted
    exact ⟨h.coherent.ofDurable, h.coherent.ofNone, h.coherent.ofError,
      fun _ ↦ h.changing _ hsaving rfl⟩
  | ok shared =>
    refine kept_of_free rfl ?_ ?_ ?_
    · exact Runtime.coherent_saved save.file _ (h.expects _ hsaving).1
    · simp only [Runtime.changeFinish, Runtime.enforceLocalPause_eq]
      exact h.inFlight
    · simp only [Runtime.changeFinish, Runtime.enforceLocalPause_eq]
      exact h.counted

end Kept

/-- What holds of an instance while no copy stays disabled after an error and every failed pause
is recorded. -/
structure Faithful (inst : Instance) : Prop where
  refused : inst.refused = true → inst.runtime.locallyPaused = true
  paused : inst.runtime.locallyPaused = true → inst.pending = true
  current : inst.pending = false →
    (∀ saving, inst.saving = some saving → saving.isChange = false) → inst.runtime.IsCurrent

theorem faithful_start (now : Instant) : (start now).Faithful :=
  ⟨fun h ↦ (nomatch h), fun h ↦ (nomatch h), fun _ _ _ _ _ h ↦ (nomatch h)⟩

/-- A file which names the account enabled names it in the loaded copy. -/
theorem named_of_isOfEnabled {runtime : Runtime} {shared : SharedFile} {accountId : String}
    {enabled revoke : Bool} (hcoherent : runtime.Coherent) (hread : shared.readError = none)
    (hof : isOfEnabled shared accountId enabled revoke = true) (now : Instant) :
    ∃ account ∈ (runtime.load shared.read now).1.file.accounts,
      account.accountId = accountId := by
  have hdurable := (runtime.load_ok shared.content now).2
  have hids : (runtime.load (.ok shared.content) now).1.file.accounts.map (·.accountId) =
      shared.content.accounts.map (·.accountId) := by
    obtain hfile | hfile := (hcoherent.load (.ok shared.content) now).ofDurable _ hdurable
    · rw [hfile]
    · rw [hfile, ConsentFile.map_accountId_disable]
  have hmem : accountId ∈ shared.content.accounts.map (·.accountId) := by
    simp only [isOfEnabled, ConsentFile.enabledAccounts, Bool.and_eq_true, List.any_eq_true,
      List.mem_filter, beq_iff_eq] at hof
    obtain ⟨-, account, ⟨haccount, -⟩, hid⟩ := hof
    exact List.mem_map.mpr ⟨account, haccount, hid⟩
  rw [← hids] at hmem
  simp only [SharedFile.read, hread]
  exact List.mem_map.mp hmem

namespace Faithful

variable {inst : Instance} (h : inst.Faithful) (hkept : inst.Kept)
  {shared : SharedFile} (hrecovers : inst.pending = false → ¬ inst.runtime.Recovers shared)
  (now : Instant)
include h hkept hrecovers

/-- The load which every operation starts with. -/
theorem load : { inst with runtime := (inst.runtime.load shared.read now).1 }.Faithful := by
  have hpaused := (inst.runtime.load_keeps shared.read now).1
  refine ⟨fun hrefused ↦ hpaused.trans (h.refused hrefused), fun hlocal ↦ ?_,
    fun hpending hsaving ↦ ?_⟩
  · exact h.paused (hpaused.symm.trans hlocal)
  · exact (h.current hpending hsaving).load hkept.coherent (hrecovers hpending) now

theorem identify : (inst.identify shared now).Faithful := by
  have hload := h.load hkept hrecovers now
  unfold Instance.identify
  rcases inst.runtime.identifyStart_cases shared.read now with ⟨error, hcase⟩ | ⟨hbusy, hcase⟩
  · simp only [hcase]
    exact hload
  · simp only [hcase]
    exact ⟨hload.refused, hload.paused, hload.current⟩

theorem poll : (inst.poll shared now).Faithful := by
  have hload := h.load hkept hrecovers now
  unfold Instance.poll
  rcases inst.runtime.pollStart_cases shared.read now with
    ⟨changed, hcase⟩ | ⟨account, -, hbusy, hcase⟩
  · simp only [hcase]
    exact hload
  · simp only [hcase]
    exact ⟨hload.refused, hload.paused, hload.current⟩

theorem identified (request : Request)
    (result : Except LiveQuotaError DiscoveredQuotaAccount) :
    (inst.identified shared now request result).Faithful := by
  have hload := h.load hkept hrecovers now
  obtain ⟨candidate, hfinish⟩ :=
    inst.runtime.identifyFinish_fst shared.read now request.generation result
  unfold Instance.identified
  rw [hfinish]
  exact ⟨hload.refused, hload.paused, hload.current⟩

theorem polled (request : Request) (result : Except LiveQuotaError LiveQuotaReading) :
    (inst.polled shared now request result).Faithful := by
  have hload := h.load hkept hrecovers now
  obtain ⟨reading, error, backoff, nextPoll, hfinish⟩ :=
    (inst.runtime.load shared.read now).1.finishRead_eq now request.generation result
  unfold Instance.polled Runtime.pollFinish
  rw [hfinish]
  exact ⟨hload.refused, hload.paused, hload.current⟩

theorem approve (hfree : inst.saving = none) (accountId label : String)
    (consentedAt : DateTime) : (inst.approve shared now accountId label consentedAt).Faithful := by
  have hload := h.load hkept hrecovers now
  have hcurrent := fun hpending ↦ hload.current hpending fun _ h ↦ by simp [hfree] at h
  unfold Instance.approve
  cases hstart : inst.runtime.approveStart shared.read now accountId label consentedAt with
  | mk runtime answer =>
    have hruntime : runtime = (inst.runtime.load shared.read now).1 := by
      rw [← inst.runtime.approveStart_fst shared.read now accountId label consentedAt, hstart]
    subst hruntime
    cases answer with
    | error error => exact hload
    | ok save => exact ⟨hload.refused, hload.paused, fun hpending _ ↦ hcurrent hpending⟩

theorem change (hfree : inst.saving = none) (accountId : String) (enabled revoke : Bool)
    (hread : isOfEnabled shared accountId enabled revoke = true → shared.readError = none) :
    (inst.change shared now accountId enabled revoke).Faithful := by
  have hload := h.load hkept hrecovers now
  have hcurrent := fun hpending ↦ hload.current hpending fun _ h ↦ by simp [hfree] at h
  -- an operation which fails here records a pause, but never one of an enabled account
  have hfail : ∀ runtime : Runtime,
      runtime.locallyPaused = (inst.runtime.load shared.read now).1.locallyPaused →
      (inst.pending = false → runtime.IsCurrent) →
      isOfEnabled shared accountId enabled revoke = false →
      (fail { inst with runtime } enabled revoke
        (isOfEnabled shared accountId enabled revoke)).Faithful := by
    intro runtime hpaused hcurrent hof
    refine ⟨fun hrefused ↦ ?_, fun hlocal ↦ ?_, fun hpending _ ↦ ?_⟩
    · simp only [fail, hof, Bool.or_false] at hrefused
      exact hpaused.trans (hload.refused hrefused)
    · have : inst.pending = true := hload.paused (hpaused.symm.trans hlocal)
      simp [fail, this]
    · simp only [fail, Bool.or_eq_false_iff] at hpending
      exact hcurrent hpending.1
  unfold Instance.change
  rcases inst.runtime.changeStart_cases shared.read now accountId enabled revoke with
    ⟨error, hcase, hwhy⟩ | ⟨answer, hreadable, hcase, hanswer⟩
  · simp only [hcase]
    refine hfail _ rfl hcurrent ?_
    by_contra hof
    rw [Bool.not_eq_false] at hof
    obtain ⟨account, hmem, hid⟩ :=
      named_of_isOfEnabled hkept.coherent (hread hof) hof now
    obtain herror | hnone := hwhy
    · simp [SharedFile.read, hread hof, Runtime.load_ok] at herror
    · exact hnone account hmem hid
  · cases answer with
    | error error =>
      simp only [hcase]
      have hdurable : (inst.runtime.load shared.read now).1.durableFile = none := by
        unfold Runtime.saveOf at hanswer
        split at hanswer
        · cases hanswer
        · assumption
      refine hfail _ rfl ?_ ?_
      · intro _ _ _ file hfile
        cases hdurable.symm.trans hfile
      · by_contra hof
        rw [Bool.not_eq_false] at hof
        simp [SharedFile.read, hread hof, Runtime.load_ok] at hdurable
    | ok save =>
      simp only [hcase]
      refine ⟨hload.refused, hload.paused, fun _ hsaving ↦ ?_⟩
      cases hsaving _ rfl

theorem status {utc : DateTime} {answer : Runtime × LiveQuotaStatus}
    (hanswer : inst.runtime.status shared.read now utc = some answer) :
    { inst with runtime := answer.1 }.Faithful := by
  have hload := h.load hkept hrecovers now
  unfold Runtime.status at hanswer
  simp only [Option.bind_eq_bind, Option.bind_eq_some_iff] at hanswer
  obtain ⟨accounts, -, hanswer⟩ := hanswer
  cases hanswer
  exact hload

end Faithful

theorem Faithful.approved {inst : Instance} (h : inst.Faithful) {save : Save} (now : Instant)
    (saved : Except String SharedFile) (hsaving : inst.saving = some (.approve save)) :
    (inst.approved now save saved).Faithful := by
  unfold Instance.approved
  cases saved with
  | error error =>
    refine ⟨h.refused, h.paused, fun hpending _ ↦ h.current hpending fun saving heq ↦ ?_⟩
    rw [hsaving] at heq
    cases heq
    rfl
  | ok shared =>
    refine ⟨fun hrefused ↦ (nomatch hrefused), fun hlocal ↦ (nomatch hlocal), ?_⟩
    intro _ _ _ _ file hfile
    exact Option.some.inj hfile

/-- A failed save of a change pauses the instance; only a pause or revoke is recorded by that, so
an enabling one must be covered by an earlier failure. -/
theorem Faithful.changed {inst : Instance} (h : inst.Faithful) {save : Save}
    {enabled revoke ofEnabled : Bool} {saved : Except String SharedFile}
    (hfails : saved.toOption = none → (enabled && !revoke) = true → inst.pending = true) :
    (inst.changed save enabled revoke ofEnabled saved).Faithful := by
  unfold Instance.changed
  cases saved with
  | error error =>
    refine ⟨fun _ ↦ rfl, fun _ ↦ ?_, fun _ _ _ hpaused ↦ (nomatch hpaused)⟩
    show (inst.pending || !(enabled && !revoke)) = true
    by_cases henabling : (enabled && !revoke) = true
    · simp [hfails rfl henabling]
    · simp [henabling]
  | ok shared =>
    refine ⟨fun hrefused ↦ ?_, fun hlocal ↦ ?_, fun _ _ ↦ ?_⟩
    · simp only [Bool.and_eq_true] at hrefused
      simp [Runtime.changeFinish, Runtime.enforceLocalPause_eq, h.refused hrefused.1, hrefused.2]
    · simp only [Runtime.changeFinish, Runtime.enforceLocalPause_eq, Bool.and_eq_true] at hlocal
      simp [h.paused hlocal.1, hlocal.2]
    · intro _ hpaused file hfile
      simp only [Runtime.changeFinish, Runtime.enforceLocalPause_eq] at hpaused hfile ⊢
      rw [hpaused]
      exact Option.some.inj hfile

end Instance

end AgentOdometer.Quota
