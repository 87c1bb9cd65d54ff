import AgentOdometer.Quota.ConsentInvariant

/-!
# Consent is respected

What any number of instances keep of one consent file, and the runs in which a failed pause stops
an instance and the status reports the file.
-/

namespace AgentOdometer.Quota

namespace SharedFile

variable {shared saved : SharedFile} {expected file : ConsentFile}
  {locked written : Except String Unit}

/-- A save which succeeds has compared the file and validated what it writes. -/
theorem saveFile_ok (h : saveFile shared expected file locked written = .ok saved) :
    shared.content = expected ∧ file.validate = .ok () ∧
      saved = { shared with content := file } := by
  unfold saveFile at h
  obtain ⟨_, hvalid, h⟩ := bind_eq_ok.mp h
  obtain ⟨_, -, h⟩ := bind_eq_ok.mp h
  obtain ⟨current, hread, h⟩ := bind_eq_ok.mp h
  obtain ⟨_, hsame, h⟩ := bind_eq_ok.mp h
  obtain ⟨_, -, h⟩ := bind_eq_ok.mp h
  have hcurrent : current = shared.content := by
    unfold read at hread
    split at hread
    · cases hread
    · exact (Except.ok.inj hread).symm
  rw [require_eq_ok, beq_iff_eq] at hsame
  exact ⟨hcurrent.symm.trans hsame, hvalid, (Except.ok.inj h).symm⟩

end SharedFile

namespace ConsentFile

/-- A valid file has at most one account enabled. -/
theorem validate_ok {file : ConsentFile} (h : file.validate = .ok ()) :
    file.enabledAccounts.length ≤ 1 := by
  unfold validate at h
  obtain ⟨_, hcounts, -⟩ := bind_eq_ok.mp h
  rw [require_eq_ok] at hcounts
  simp only [Bool.and_eq_true, decide_eq_true_eq] at hcounts
  exact hcounts.2

end ConsentFile

namespace System

variable {s t : System}

theorem act_eq_some {i : Nat} {next : Instance → Instance} (h : s.act i next = some t) :
    (s.instances i).saving = none ∧ t = s.set i (next (s.instances i)) := by
  unfold act at h
  split at h
  · rename_i hfree
    refine ⟨?_, (Option.some.inj h).symm⟩
    simpa [Instance.unlocked] using hfree
  · cases h

/-- A property of every instance is kept when one of them takes a state with it. -/
theorem forall_set {P : Instance → Prop} (h : ∀ i, P (s.instances i)) {i : Nat} {inst : Instance}
    (hinst : P inst) : ∀ j, P ((s.set i inst).instances j) := by
  intro j
  by_cases hij : j = i
  · subst hij
    simpa [set] using hinst
  · simpa [set, hij] using h j

/-- The save of an instance: it writes nothing and fails, or it has compared the file. -/
theorem finishSave_cases {i : Nat} {now : Instant} {locked written : Except String Unit}
    (h : s.finishSave i now locked written = some t) :
    ∃ saving saved, (s.instances i).saving = some saving ∧
      saved = s.saveOf saving.save locked written ∧
      t = { s with shared := saved.toOption.getD s.shared }.set i
        (match saving with
        | .approve save => (s.instances i).approved now save saved
        | .change save enabled revoke ofEnabled =>
            (s.instances i).changed save enabled revoke ofEnabled saved) := by
  unfold finishSave at h
  rw [Option.map_eq_some_iff] at h
  obtain ⟨saving, hsaving, rfl⟩ := h
  refine ⟨saving, _, hsaving, rfl, ?_⟩
  cases saving with
  | approve save => rfl
  | change save enabled revoke ofEnabled => rfl

/-- What the operation of an instance which holds its lock alone makes of it. -/
inductive Operates (shared : SharedFile) (inst : Instance) (i : Nat) :
    Action → Instance → Prop where
  | identify (now : Instant) :
      Operates shared inst i (.identify i now) (inst.identify shared now)
  | identified (now : Instant) {request : Request} (hmem : request ∈ inst.requests)
      (result : Except LiveQuotaError DiscoveredQuotaAccount) :
      Operates shared inst i (.identified i now request result)
        (inst.identified shared now request result)
  | approve (now : Instant) (accountId label : String) (consentedAt : DateTime) :
      Operates shared inst i (.approve i now accountId label consentedAt)
        (inst.approve shared now accountId label consentedAt)
  | change (now : Instant) (accountId : String) (enabled revoke : Bool) :
      Operates shared inst i (.change i now accountId enabled revoke)
        (inst.change shared now accountId enabled revoke)
  | poll (now : Instant) : Operates shared inst i (.poll i now) (inst.poll shared now)
  | polled (now : Instant) {request : Request} (hmem : request ∈ inst.requests)
      (result : Except LiveQuotaError LiveQuotaReading) :
      Operates shared inst i (.polled i now request result)
        (inst.polled shared now request result)
  | status (now : Instant) (utc : DateTime) {answer : Runtime × LiveQuotaStatus}
      (hanswer : inst.runtime.status shared.read now utc = some answer) :
      Operates shared inst i (.status i now utc) { inst with runtime := answer.1 }

/-- A step sets whether the file can be read, saves, or is an operation of one instance. -/
theorem step_cases {a : Action} (h : s.step a = some t) :
    (∃ readError, a = .setReadError readError ∧
      t = { s with shared := { s.shared with readError } }) ∨
    (∃ i now locked written, a = .save i now locked written ∧
      s.finishSave i now locked written = some t) ∨
    ∃ i inst, (s.instances i).saving = none ∧ Operates s.shared (s.instances i) i a inst ∧
      t = s.set i inst := by
  have hact : ∀ {i next}, s.act i next = some t →
      Operates s.shared (s.instances i) i a (next (s.instances i)) →
      ∃ i inst, (s.instances i).saving = none ∧ Operates s.shared (s.instances i) i a inst ∧
        t = s.set i inst := by
    intro i next hact hoperates
    obtain ⟨hfree, rfl⟩ := act_eq_some hact
    exact ⟨i, _, hfree, hoperates, rfl⟩
  cases a with
  | setReadError readError => exact .inl ⟨readError, rfl, (Option.some.inj h).symm⟩
  | save i now locked written => exact .inr (.inl ⟨i, now, locked, written, rfl, h⟩)
  | identify i now =>
    have h' : s.act i (·.identify s.shared now) = some t := h
    exact .inr (.inr (hact h' (.identify now)))
  | identified i now request result =>
    have h' : (if request ∈ (s.instances i).requests ∧ request.account = none then
      s.act i (·.identified s.shared now request result) else none) = some t := h
    split at h'
    · rename_i hmem
      exact .inr (.inr (hact h' (.identified now hmem.1 result)))
    · cases h'
  | approve i now accountId label consentedAt =>
    have h' : s.act i (·.approve s.shared now accountId label consentedAt) = some t := h
    exact .inr (.inr (hact h' (.approve now accountId label consentedAt)))
  | change i now accountId enabled revoke =>
    have h' : s.act i (·.change s.shared now accountId enabled revoke) = some t := h
    exact .inr (.inr (hact h' (.change now accountId enabled revoke)))
  | poll i now =>
    have h' : s.act i (·.poll s.shared now) = some t := h
    exact .inr (.inr (hact h' (.poll now)))
  | polled i now request result =>
    have h' : (if request ∈ (s.instances i).requests ∧ request.account.isSome then
      s.act i (·.polled s.shared now request result) else none) = some t := h
    split at h'
    · rename_i hmem
      exact .inr (.inr (hact h' (.polled now hmem.1 result)))
    · cases h'
  | status i now utc =>
    obtain ⟨answer, hanswer, h'⟩ := Option.bind_eq_some_iff.mp h
    exact .inr (.inr (hact h' (.status now utc hanswer)))

/-! ### Every run -/

/-- What holds in every run: the file is valid, and every instance keeps its part. -/
structure Kept (s : System) : Prop where
  valid : s.shared.content.validate = .ok ()
  instances : ∀ i, (s.instances i).Kept

theorem kept_start {shared : SharedFile} (h : shared.content.validate = .ok ())
    (started : Nat → Instant) : (start shared started).Kept :=
  ⟨h, fun i ↦ Instance.kept_start (started i)⟩

/-- An operation keeps what an instance keeps. -/
theorem Operates.kept {shared : SharedFile} {inst next : Instance} {i : Nat} {a : Action}
    (h : Operates shared inst i a next) (hkept : inst.Kept) (hfree : inst.saving = none) :
    next.Kept := by
  cases h with
  | identify now => exact hkept.identify hfree shared now
  | identified now hmem result => exact hkept.identified hfree shared now hmem result
  | approve now accountId label consentedAt =>
    exact hkept.approve hfree shared now accountId label consentedAt
  | change now accountId enabled revoke =>
    exact hkept.change hfree shared now accountId enabled revoke
  | poll now => exact hkept.poll hfree shared now
  | polled now hmem result => exact hkept.polled hfree shared now hmem result
  | status now utc hanswer => exact hkept.status hfree shared now hanswer

theorem Kept.step (h : s.Kept) {a : Action} (hstep : s.step a = some t) : t.Kept := by
  rcases step_cases hstep with ⟨error, -, rfl⟩ | ⟨i, now, locked, written, -, hsave⟩ |
    ⟨i, inst, hfree, hoperates, rfl⟩
  · exact ⟨h.valid, h.instances⟩
  · obtain ⟨saving, saved, hsaving, hsaved, rfl⟩ := finishSave_cases hsave
    refine ⟨?_, forall_set (s := { s with shared := saved.toOption.getD s.shared }) h.instances ?_⟩
    · cases saved with
      | error error => exact h.valid
      | ok written =>
        obtain ⟨-, hvalid, rfl⟩ := SharedFile.saveFile_ok hsaved.symm
        exact hvalid
    · cases saving with
      | approve save => exact (h.instances i).approved now saved hsaving
      | change save enabled revoke ofEnabled => exact (h.instances i).changed saved hsaving
  · exact ⟨h.valid, forall_set h.instances (hoperates.kept (h.instances i) hfree)⟩

/-- Only a save whose instance last read the contents of the file replaces them. -/
theorem Kept.content_eq (h : s.Kept) {a : Action} (hstep : s.step a = some t)
    (hne : t.shared.content ≠ s.shared.content) :
    ∃ i now locked written, a = .save i now locked written ∧
      (s.instances i).runtime.durableFile = some s.shared.content := by
  rcases step_cases hstep with ⟨error, -, rfl⟩ | ⟨i, now, locked, written, rfl, hsave⟩ |
    ⟨i, inst, -, -, rfl⟩
  · exact absurd rfl hne
  · obtain ⟨saving, saved, hsaving, hsaved, rfl⟩ := finishSave_cases hsave
    cases saved with
    | error error => exact absurd rfl hne
    | ok file =>
      obtain ⟨hexpected, -, -⟩ := SharedFile.saveFile_ok hsaved.symm
      refine ⟨i, now, locked, written, rfl, ?_⟩
      rw [hexpected]
      exact ((h.instances i).expects saving hsaving).2
  · exact absurd rfl hne

/-! ### What consent promises -/

/-- A view shows a reading. -/
def ShowsReading (view : LiveQuotaAccountView) : Prop :=
  view.observedAt.isSome ∨ view.buckets ≠ []

/-- What a step keeps in every run: one account at most is enabled, only an instance which last
read the file replaces it, one request at most is in flight, and only the account which the file
names enabled shows a reading. -/
structure Guarded (s : System) (a : Action) (t : System) : Prop where
  oneEnabled : t.shared.content.enabledAccounts.length ≤ 1
  noStaleWrite : t.shared.content ≠ s.shared.content →
    ∃ i now locked written, a = .save i now locked written ∧
      (s.instances i).runtime.durableFile = some s.shared.content
  oneRequest : ∀ i, (t.instances i).requests.length ≤ 1
  ownReading : ∀ i now utc, a = .status i now utc → ∀ answer, s.statusOf i now utc = some answer →
    ∀ view ∈ answer.2.accounts, ShowsReading view →
      s.shared.readError = none ∧ view.consent ∈ s.shared.content.enabledAccounts ∧
        ∃ reading, answer.1.reading = some reading ∧
          reading.accountId = view.consent.accountId ∧ view.observedAt = some reading.observedAt

/-- What a step keeps besides: a refused pause or revoke stops the polls of its instance, no
reading is stored whose request began before the latest approval or change, and the status
reports the accounts of the file. -/
structure Respects (s : System) (a : Action) (t : System) : Prop extends Guarded s a t where
  paused : ∀ i now, a = .poll i now → (s.instances i).refused = true →
    (t.instances i).requests = (s.instances i).requests
  freshReading : ∀ i now request result, a = .polled i now request result →
    request.changes < (s.instances i).changes →
      ∀ reading, (t.instances i).runtime.reading = some reading →
        (s.instances i).runtime.reading = some reading
  honestStatus : ∀ i now utc, a = .status i now utc → s.shared.readError = none →
    (s.instances i).pending = false → ∀ answer, s.statusOf i now utc = some answer →
      answer.2.accounts.map (·.consent) = s.shared.content.accounts

/-- A view which shows a reading is of an enabled account. -/
theorem showsReading_readingOf {runtime : Runtime} {utc : DateTime}
    {consent : QuotaAccountConsent} {view : LiveQuotaAccountView}
    (h : runtime.accountView utc consent = some view) (hshows : ShowsReading view) :
    ∃ reading, runtime.reading = some reading ∧ consent.enabled = true ∧
      reading.accountId = consent.accountId ∧ view.observedAt = some reading.observedAt := by
  obtain ⟨-, hobserved, hbuckets⟩ := Runtime.accountView_eq_some h
  cases hreading : runtime.readingOf consent with
  | none =>
    rw [hreading] at hobserved
    obtain hsome | hne := hshows
    · simp [hobserved] at hsome
    · exact absurd (hbuckets hreading) hne
  | some reading =>
    rw [hreading] at hobserved
    have hfilter := hreading
    unfold Runtime.readingOf at hfilter
    rw [Option.filter_eq_some_iff] at hfilter
    obtain ⟨hstored, hmatches⟩ := hfilter
    simp only [Bool.and_eq_true, beq_iff_eq] at hmatches
    exact ⟨reading, hstored, hmatches.1, hmatches.2, hobserved⟩

/-- The status of a coherent instance shows readings of the file's enabled account alone. -/
theorem Kept.ownReading (h : s.Kept) {i : Nat} {now : Instant} {utc : DateTime}
    {answer : Runtime × LiveQuotaStatus} (hanswer : s.statusOf i now utc = some answer)
    {view : LiveQuotaAccountView} (hview : view ∈ answer.2.accounts)
    (hshows : ShowsReading view) :
    s.shared.readError = none ∧ view.consent ∈ s.shared.content.enabledAccounts ∧
      ∃ reading, answer.1.reading = some reading ∧
        reading.accountId = view.consent.accountId ∧
          view.observedAt = some reading.observedAt := by
  obtain ⟨hruntime, haccounts⟩ := Runtime.status_eq_some hanswer
  obtain ⟨consent, hmem, hmade⟩ := Runtime.mem_of_mapM haccounts hview
  obtain ⟨reading, hreading, henabled, hid, hobserved⟩ := showsReading_readingOf hmade hshows
  have hconsent := (Runtime.accountView_eq_some hmade).1
  have hcoherent := (h.instances i).coherent.load s.shared.read now
  have hactive : ¬ (((s.instances i).runtime.load s.shared.read now).1.file.disable =
      ((s.instances i).runtime.load s.shared.read now).1.file) := by
    intro hdisabled
    simp [ConsentFile.enabledAccounts_of_disable_eq hdisabled consent hmem] at henabled
  cases hread : s.shared.readError with
  | some error =>
    refine absurd (hcoherent.ofError ?_) hactive
    simp [SharedFile.read, hread, Runtime.load_error]
  | none =>
    rw [hruntime, hconsent]
    refine ⟨rfl, ?_, reading, hreading, hid, hobserved⟩
    have hdurable : ((s.instances i).runtime.load s.shared.read now).1.durableFile =
        some s.shared.content := by
      simp [SharedFile.read, hread, Runtime.load_ok]
    obtain hfile | hfile := hcoherent.ofDurable _ hdurable
    · rw [hfile] at hmem
      exact List.mem_filter.mpr ⟨hmem, henabled⟩
    · refine absurd ?_ hactive
      rw [hfile, ConsentFile.disable_disable]

/-- Every step of every run keeps what is guarded. -/
theorem Kept.guarded (h : s.Kept) {a : Action} (hstep : s.step a = some t) : Guarded s a t := by
  refine ⟨ConsentFile.validate_ok (h.step hstep).valid, h.content_eq hstep, fun i ↦ ?_, ?_⟩
  · rw [((h.step hstep).instances i).inFlight]
    exact Bool.toNat_le _
  · intro i now utc _ answer hanswer view hview hshows
    exact h.ownReading hanswer hview hshows

/-! ### Runs in which it is kept -/

/-- The step does not read again, after an error and without a recorded failure, a file which it
last read and which names an account enabled. -/
def NoRecovery (s : System) (i : Nat) : Prop :=
  (s.instances i).pending = false → ¬ (s.instances i).runtime.Recovers s.shared

/-- No copy stays disabled after an error (`NoRecovery`); while the file is unreadable, nothing
asks to pause or revoke the account which it names enabled; the save of an enabling change fails
only while a failed pause is recorded; and fewer than `2^64 - 1` invalidations happen during a
request. -/
def IsClean (s : System) : Action → Prop
  | .setReadError _ => True
  | .identify i _ | .identified i _ _ _ | .approve i _ _ _ _ | .poll i _ | .status i _ _ =>
      s.NoRecovery i
  | .polled i _ request _ => s.NoRecovery i ∧
      (request.changes < (s.instances i).changes →
        (s.instances i).runtime.generation + 1 < request.generation + 2 ^ 64)
  | .change i _ accountId enabled revoke => s.NoRecovery i ∧
      (Instance.isOfEnabled s.shared accountId enabled revoke = true → s.shared.readError = none)
  | .save i _ locked written => ∀ save enabled revoke ofEnabled,
      (s.instances i).saving = some (.change save enabled revoke ofEnabled) →
        (s.saveOf save locked written).toOption = none → (enabled && !revoke) = true →
          (s.instances i).pending = true

/-- An operation of a clean step keeps an instance faithful. -/
theorem Operates.faithful {inst next : Instance} {i : Nat} {a : Action}
    (h : Operates s.shared inst i a next) (hinst : s.instances i = inst) (hkept : inst.Kept)
    (hfree : inst.saving = none) (hclean : s.IsClean a) (hfaithful : inst.Faithful) :
    next.Faithful := by
  subst hinst
  cases h with
  | identify now => exact hfaithful.identify hkept hclean now
  | identified now hmem result => exact hfaithful.identified hkept hclean now _ result
  | approve now accountId label consentedAt =>
    exact hfaithful.approve hkept hclean now hfree accountId label consentedAt
  | change now accountId enabled revoke =>
    exact hfaithful.change hkept hclean.1 now hfree accountId enabled revoke hclean.2
  | poll now => exact hfaithful.poll hkept hclean now
  | polled now hmem result => exact hfaithful.polled hkept hclean.1 now _ result
  | status now utc hanswer => exact hfaithful.status hkept hclean now hanswer

/-- A clean step keeps every instance faithful. -/
theorem faithful_step (hkept : s.Kept) (h : ∀ i, (s.instances i).Faithful) {a : Action}
    (hclean : s.IsClean a) (hstep : s.step a = some t) : ∀ i, (t.instances i).Faithful := by
  rcases step_cases hstep with ⟨error, -, rfl⟩ | ⟨i, now, locked, written, rfl, hsave⟩ |
    ⟨i, inst, hfree, hoperates, rfl⟩
  · exact h
  · obtain ⟨saving, saved, hsaving, hsaved, rfl⟩ := finishSave_cases hsave
    refine forall_set (s := { s with shared := saved.toOption.getD s.shared }) h ?_
    cases saving with
    | approve save => exact (h i).approved now saved hsaving
    | change save enabled revoke ofEnabled =>
      refine (h i).changed fun hfails henabling ↦ ?_
      exact hclean save enabled revoke ofEnabled hsaving (by rw [← hfails, hsaved]; rfl) henabling
  · exact forall_set h (hoperates.faithful rfl (hkept.instances i) hfree hclean (h i))

/-- A refused pause leaves nothing to poll. -/
theorem poll_of_refused {i : Nat} {now : Instant} (hkept : s.Kept)
    (h : (s.instances i).Faithful) (hrefused : (s.instances i).refused = true)
    (hstep : s.step (.poll i now) = some t) :
    (t.instances i).requests = (s.instances i).requests := by
  have h' : s.act i (·.poll s.shared now) = some t := hstep
  obtain ⟨-, rfl⟩ := act_eq_some h'
  simp only [set, Function.update_self, Instance.poll]
  rcases (s.instances i).runtime.pollStart_cases s.shared.read now with
    ⟨changed, hcase⟩ | ⟨account, hfind, -, -⟩
  · rw [hcase]
  · have hcoherent := (hkept.instances i).coherent.load s.shared.read now
    have hpaused := ((s.instances i).runtime.load_keeps s.shared.read now).1.trans
      (h.refused hrefused)
    rw [ConsentFile.find?_enabled_of_disable_eq (hcoherent.ofPause hpaused)] at hfind
    cases hfind

/-- A request which began before an approval or a change stores no reading. -/
theorem polled_of_stale {i : Nat} {now : Instant} {request : Request}
    {result : Except LiveQuotaError LiveQuotaReading} (hkept : s.Kept)
    (hstale : request.changes < (s.instances i).changes)
    (hbound : (s.instances i).runtime.generation + 1 < request.generation + 2 ^ 64)
    (hstep : s.step (.polled i now request result) = some t) {reading : LiveQuotaReading}
    (hreading : (t.instances i).runtime.reading = some reading) :
    (s.instances i).runtime.reading = some reading := by
  have h' : (if request ∈ (s.instances i).requests ∧ request.account.isSome then
    s.act i (·.polled s.shared now request result) else none) = some t := hstep
  split at h'
  · rename_i hmem
    obtain ⟨-, rfl⟩ := act_eq_some h'
    simp only [set, Function.update_self, Instance.polled, Runtime.pollFinish] at hreading
    obtain ⟨-, -, hnext, hcontinues⟩ := (s.instances i).runtime.load_keeps s.shared.read now
    have hcounted := (hkept.instances i).counted request hmem.1
    have hnewer := hcontinues.generation
    rw [Runtime.finishRead_of_stale _ _ _ (by unfold Request.IsCounted at hcounted; omega)]
      at hreading
    obtain hnone | ⟨hsame, -⟩ := hcontinues.reading
    · rw [hnone] at hreading
      cases hreading
    · exact hsame.symm.trans hreading
  · cases h'

/-- Without a recorded failure the status reports the accounts of a file which it can read. -/
theorem status_of_faithful {i : Nat} {now : Instant} {utc : DateTime} (hkept : s.Kept)
    (h : (s.instances i).Faithful) (hrecovers : s.NoRecovery i)
    (hfree : (s.instances i).saving = none) (hread : s.shared.readError = none)
    (hpending : (s.instances i).pending = false) {answer : Runtime × LiveQuotaStatus}
    (hanswer : s.statusOf i now utc = some answer) :
    answer.2.accounts.map (·.consent) = s.shared.content.accounts := by
  obtain ⟨-, haccounts⟩ := Runtime.status_eq_some hanswer
  rw [Runtime.map_consent_of_mapM haccounts]
  have hload := h.load (hkept.instances i) hrecovers now
  have hcurrent := hload.current hpending fun _ h ↦ by simp [hfree] at h
  have hpaused : ((s.instances i).runtime.load s.shared.read now).1.locallyPaused = false := by
    by_contra hpaused
    rw [Bool.not_eq_false] at hpaused
    exact absurd (hpending.symm.trans (hload.paused hpaused)) (fun h ↦ nomatch h)
  simp only [SharedFile.read, hread] at hcurrent hpaused ⊢
  obtain ⟨herror, hdurable⟩ := (s.instances i).runtime.load_ok s.shared.content now
  rw [hcurrent herror hpaused _ hdurable]

/-- In a run whose steps are clean every step respects the consent. -/
theorem consent_respected {shared : SharedFile} {started : Nat → Instant}
    (hvalid : shared.content.validate = .ok ()) {a : Action}
    (hrun : Transition.Reaches step IsClean (start shared started) s) (hclean : s.IsClean a)
    (hstep : s.step a = some t) : Respects s a t := by
  obtain ⟨hkept, hfaithful⟩ := @Transition.Reaches.invariant _ _ _ _ _ _
    (fun s ↦ s.Kept ∧ ∀ i, (s.instances i).Faithful)
    (fun s a t h hclean hstep ↦ ⟨h.1.step hstep, faithful_step h.1 h.2 hclean hstep⟩) hrun
    ⟨kept_start hvalid started, fun i ↦ Instance.faithful_start _⟩
  refine ⟨hkept.guarded hstep, ?_, ?_, ?_⟩
  · intro i now ha hrefused
    subst ha
    exact poll_of_refused hkept (hfaithful i) hrefused hstep
  · intro i now request result ha hstale reading hreading
    subst ha
    exact polled_of_stale hkept hstale (hclean.2 hstale) hstep hreading
  · intro i now utc ha hread hpending answer hanswer
    subst ha
    obtain ⟨_, -, hact⟩ := Option.bind_eq_some_iff.mp hstep
    exact status_of_faithful hkept (hfaithful i) hclean (act_eq_some hact).1 hread hpending hanswer

/-- A file which names one account, enabled. -/
def demoFile : SharedFile :=
  ⟨⟨1, [⟨"a", "A", .epoch, true⟩]⟩, none⟩

/-- Another instance holds the lock of the file. -/
def lockHeld : Except String Unit :=
  .error "Live quota settings are changing in another app; retry the action."

/-- The state after a step, or the same state. -/
def next (s : System) (a : Action) : System :=
  (s.step a).getD s

theorem step_next {a : Action} (h : (s.step a).isSome = true) : s.step a = some (s.next a) := by
  obtain ⟨t, ht⟩ := Option.isSome_iff_exists.mp h
  simp [next, ht]

/-- A pause whose save fails, before the next poll. -/
theorem refused_pause_respected :
    let s₁ := (start demoFile fun _ ↦ 0).next (.change 0 0 "a" false false)
    let s₂ := s₁.next (.save 0 0 lockHeld (.ok ()))
    (s₂.instances 0).refused = true ∧ Respects s₂ (.poll 0 0) (s₂.next (.poll 0 0)) := by
  intro s₁ s₂
  have hsaving : (s₁.instances 0).saving.map (fun saving ↦
      decide (saving = .change ⟨demoFile.content, ⟨1, [⟨"a", "A", .epoch, false⟩]⟩⟩
        false false true)) = some true := by
    decide +kernel
  have hclean₁ : (start demoFile fun _ ↦ 0).IsClean (.change 0 0 "a" false false) :=
    ⟨fun _ hrecovers ↦ (nomatch hrecovers.2.1), fun _ ↦ rfl⟩
  have hclean₂ : s₁.IsClean (.save 0 0 lockHeld (.ok ())) := by
    intro save enabled revoke ofEnabled hchange _ henabling
    rw [hchange] at hsaving
    simp only [Option.map_some, Option.some.injEq, decide_eq_true_eq, Saving.change.injEq]
      at hsaving
    simp [hsaving.2.1] at henabling
  have hclean₃ : s₂.IsClean (.poll 0 0) := by
    intro hpending
    have : (s₂.instances 0).pending = true := by decide +kernel
    exact absurd (hpending.symm.trans this) (fun h ↦ nomatch h)
  have hrun : Transition.Reaches step IsClean (start demoFile fun _ ↦ 0) s₂ :=
    ((Transition.Reaches.refl _).tail hclean₁ (step_next (by decide +kernel))).tail hclean₂
      (step_next (by decide +kernel))
  have hvalid : demoFile.content.validate = .ok () := by decide +kernel
  exact ⟨by decide +kernel,
    consent_respected hvalid hrun hclean₃ (step_next (by decide +kernel))⟩

/-- A pause is refused while the file is unreadable; the next poll reads it and starts. -/
theorem pause_of_unreadable_file_polled :
    ¬ ∀ (shared : SharedFile) (started : Nat → Instant) (s : System) (a : Action) (t : System),
      shared.content.validate = .ok () →
        Transition.Reaches step Transition.always (start shared started) s →
          s.step a = some t → Respects s a t := by
  intro hall
  let s₁ := (start demoFile fun _ ↦ 0).next
    (.setReadError (some "Live quota settings are unreadable; polling is off."))
  let s₂ := s₁.next (.change 0 0 "a" false false)
  let s₃ := s₂.next (.setReadError none)
  have hrun : Transition.Reaches step Transition.always (start demoFile fun _ ↦ 0) s₃ :=
    (((Transition.Reaches.refl _).tail trivial (step_next (by decide +kernel))).tail trivial
      (step_next (by decide +kernel))).tail trivial (step_next (by decide +kernel))
  have hrespects := hall demoFile (fun _ ↦ 0) s₃ (.poll 0 0) (s₃.next (.poll 0 0))
    (by decide +kernel) hrun (step_next (by decide +kernel))
  have hrefused : (s₃.instances 0).refused = true := by decide +kernel
  have hpolled : ((s₃.next (.poll 0 0)).instances 0).requests ≠ (s₃.instances 0).requests := by
    decide +kernel
  exact hpolled (hrespects.paused 0 0 rfl hrefused)

-- A file which is read again after an error, unchanged, is reported with its account paused.
example :
    let s₁ := (start demoFile fun _ ↦ 0).next (.status 0 0 .epoch)
    let s₂ := s₁.next (.setReadError (some "Live quota settings are unreadable; polling is off."))
    let s₃ := (s₂.next (.status 0 0 .epoch)).next (.setReadError none)
    (s₃.statusOf 0 0 .epoch).map (fun answer ↦ answer.2.accounts.map (·.consent.enabled)) =
      some [false] ∧ s₃.shared = demoFile := by
  decide +kernel

end System

end AgentOdometer.Quota
