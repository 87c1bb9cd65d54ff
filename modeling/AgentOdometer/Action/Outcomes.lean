import AgentOdometer.Action.Operations

/-!
# What transactions leave

The files of an action and the content of its target after each transaction, beside others who may
write the target between any two calls.
-/

namespace AgentOdometer.Action

open Program

variable {target : ResolvedTarget} {id : String} {w₀ w : World} {e : Entry} {x : TargetFile}
  {seen : Option Bytes} {p faulty : Prop} {sha256 : Bytes → String}
  {record : JournalRecord}

/-- What a transaction leaves: files of the action and a content of the target, which is there
unless others have written it. -/
def Leaves {α : Type} (target : ResolvedTarget) (id : String) (w₀ : World)
    (holds : Except ActionError α → Entry → TargetFile → Prop → World → Prop)
    (r : Except ActionError α) (w : World) : Prop :=
  ∃ e x p, Knows target id w₀ e x none p w ∧ holds r e x p w

theorem Entry.Records.isOf (h : e.Records sha256 target id record) : e.IsOf target id record :=
  .inr h.recorded

theorem Entry.Records.insert (h : e.Records sha256 target id record) {suffix : Suffix}
    (hcoherent : (e.events.insert suffix (record.as suffix)).isCoherent = true) :
    (e.insert record suffix).Records sha256 target id record :=
  ⟨h.recorded.insert hcoherent, h.backup, h.replacement, h.plain⟩

/-- A target which was readable is readable with another short content. -/
theorem Excused.of_replaced {bytes : Bytes} (hlength : bytes.length ≤ maxTargetBytes)
    (h : Excused faulty target w₀ (.regular bytes) w) : Excused faulty target w₀ x w := by
  refine h.imp_right fun h ↦ h.imp_right fun hunreadable ⟨other, _, _, hplain⟩ ↦ ?_
  exact hunreadable ⟨bytes, rfl, hlength, hplain⟩

/-- What is known holds unless a transaction is excused. -/
theorem Knows.fact_of (h : Knows target id w₀ e x seen p w)
    (hexcused : ¬Excused faulty target w₀ x w) : p := by
  by_contra hp
  exact hexcused (.inr (.inl fun hsame ↦ hp (h.fact hsame)))

/-! ### Undoing -/

/-- An action which is applied and not undone is undone if its target holds the recorded content. -/
def Undoes (sha256 : Bytes → String) (faulty : Prop) (target : ResolvedTarget) (w₀ : World)
    (record : JournalRecord) (e : Entry) (x : TargetFile) (r : Except ActionError Unit)
    (e' : Entry) (x' : TargetFile) (_ : Prop) (w' : World) : Prop :=
  Excused faulty target w₀ x w' ∨ (e.events.has .applied = true → e.events.has .undone = false →
    ∀ current backup, x = .regular current → sha256 current = record.afterSha256 →
      e.backup = some backup →
        r = .ok () ∧ x' = .regular backup ∧ e' = e.insert record .undone)

theorem isCoherent_of_applied {events : Events} {suffix : Suffix} {event : JournalRecord}
    (hcoherent : events.isCoherent = true) (happlied : events.has .applied = true)
    (hsuffix : suffix ≠ .aborted ∧ suffix ≠ .conflict) :
    (events.insert suffix event).isCoherent = true := by
  obtain ⟨haborted, hconflict⟩ := hsuffix
  simp only [Events.isCoherent, has_insert, happlied, decide_eq_false haborted.symm,
    decide_eq_false hconflict.symm, Bool.or_true, Bool.false_or] at hcoherent ⊢
  simpa using hcoherent

theorem ensures_undoTransaction (h : Knows target id w₀ e x seen p w)
    (hrecords : e.Records sha256 target id record) :
    (undoTransaction sha256 target id).Ensures (beside faulty)
      (Wrote sha256 target id record.beforeSha256 record.afterSha256)
      (Leaves target id w₀ (Undoes sha256 faulty target w₀ record e x)) w := by
  have hrecorded := hrecords.recorded
  obtain ⟨backup, hbackup, hlength, hsha⟩ := hrecords.backup
  have hexcused : ∀ {e' x' q seen'} (er : ActionError) (w' : World),
      Knows target id w₀ e' x' seen' q w' → Excused faulty target w₀ x w' →
      Leaves target id w₀ (Undoes sha256 faulty target w₀ record e x) (.error er) w' :=
    fun er w' hw' hreason ↦ ⟨_, _, _, hw'.forget, .inl hreason⟩
  rw [undoTransaction, ensures_bind]
  refine ensures_readValidatedJournal h hrecorded (fun w₁ h₁ ↦ ?_) hexcused
  simp only [after_ok, hrecorded.prepared]
  cases hundone : e.events.has .undone with
  | true =>
    rw [if_pos rfl]
    exact ensures_error.mpr ⟨_, _, _, h₁.forget, .inr fun _ h ↦
      absurd (hundone.symm.trans h) (by decide)⟩
  | false =>
  cases happlied : e.events.has .applied with
  | false =>
    exact ensures_error.mpr ⟨_, _, _, h₁.forget, .inr fun h ↦
      absurd (happlied.symm.trans h) (by decide)⟩
  | true =>
  rw [if_neg Bool.false_ne_true, Bool.not_true, if_neg Bool.false_ne_true, ensures_bind]
  refine ensures_readBackup h₁ hrecorded hbackup hlength hsha (fun w₂ h₂ ↦ ?_) hexcused
  rw [after_ok, ensures_bind]
  refine ensures_readTarget h₂ (fun current w₃ h₃ _ _ ↦ ?_) hexcused
  rw [after_ok]
  by_cases hafter : sha256 current = record.afterSha256
  · rw [if_neg (not_not_intro hafter), ensures_bind]
    refine ensures_atomicReplace h₃ hrecords rfl rfl hlength
      ⟨current, rfl, .inr ⟨hafter, hsha⟩⟩ (fun w₄ h₄ ↦ ?_)
      fun x' er w' _ hw' hreason ↦ hexcused er w' hw' hreason
    rw [after_ok, ensures_bind]
    refine ensures_readTarget h₄ (fun written w₅ h₅ _ _ ↦ ?_)
      fun er w' hw' hreason ↦ hexcused er w' hw' (hreason.of_replaced hlength)
    rw [after_ok]
    by_cases hbefore : sha256 written = record.beforeSha256
    · rw [if_neg (not_not_intro hbefore)]
      refine ensures_writeEvent .undone h₅ rfl rfl hrecords.isOf hundone
        (hrecords.insert (isCoherent_of_applied hrecorded.coherent happlied (by decide)))
        (fun w' hw' ↦ ⟨_, _, _, hw'.forget, .inr fun _ _ _ bytes _ _ hbytes ↦ ?_⟩)
        fun e' er w' _ hw' hreason ↦ hexcused er w' hw' (hreason.of_replaced hlength)
      rw [Option.some.inj (hbackup.symm.trans hbytes)]
      exact ⟨rfl, rfl, rfl⟩
    · rw [if_pos hbefore]
      by_cases hreason : Excused faulty target w₀ x w₅
      · exact ensures_error.mpr (hexcused _ _ h₅ hreason)
      · obtain ⟨-, hwritten⟩ := h₅.fact_of fun h ↦ hreason (h.of_replaced hlength)
        cases hwritten
        exact absurd hsha hbefore
  · rw [if_pos hafter, ensures_bind]
    have hleaves : ∀ e' er w', Knows target id w₀ e' x (some current)
        (p ∧ x = .regular current) w' →
        Leaves target id w₀ (Undoes sha256 faulty target w₀ record e x) (.error er) w' := by
      intro e' er w' hw'
      by_cases hreason : Excused faulty target w₀ x w'
      · exact hexcused er w' hw' hreason
      · refine ⟨_, _, _, hw'.forget, .inr fun _ _ bytes _ hbytes hsame ↦ ?_⟩
        cases (hw'.fact_of hreason).2.symm.trans hbytes
        exact absurd hsame hafter
    cases hconflict : e.events.has .undoConflict with
    | true =>
      exact ensures_writeEvent_present .undoConflict h₃ hrecorded hconflict
        fun er w' hw' ↦ hleaves e er w' hw'
    | false =>
      refine ensures_writeEvent .undoConflict h₃ rfl rfl hrecords.isOf hconflict
        (hrecords.insert (isCoherent_of_applied hrecorded.coherent happlied (by decide)))
        (fun w' hw' ↦ ?_) fun e' er w' _ hw' _ ↦ hleaves e' er w' hw'
      exact ensures_error.mpr (hleaves _ _ _ hw')

/-! ### Recovering -/

/-- The outcome of a recovery from the events of the action and the content of the target. -/
def recovery (sha256 : Bytes → String) (record : JournalRecord) (events : Events)
    (current : Bytes) : Except ActionError Recovery :=
  if events.has .undone then .ok .undone
  else if events.has .conflict || events.has .undoConflict then .error .conflict
  else if events.has .aborted then .ok .aborted
  else if sha256 current = record.beforeSha256 then
    .ok (if events.has .applied then .undone else .aborted)
  else if sha256 current = record.afterSha256 then .ok .applied
  else .error .conflict

/-- The event of an outcome. -/
def Recovery.suffix : Recovery → Suffix
  | .aborted => .aborted
  | .applied => .applied
  | .undone => .undone

/-- The event of the outcome is written if it is not there. -/
def recovered (record : JournalRecord) (e : Entry) : Except ActionError Recovery → Entry
  | .ok outcome =>
      if e.events.has outcome.suffix then e else e.insert record outcome.suffix
  | .error _ => e

theorem recovered_of_has (outcome : Recovery) (h : e.events.has outcome.suffix = true) :
    recovered record e (.ok outcome) = e :=
  if_pos h

/-- A recovery leaves the target alone and writes its outcome. -/
def Recovers (sha256 : Bytes → String) (faulty : Prop) (target : ResolvedTarget) (id : String)
    (w₀ : World) (record : JournalRecord) (e : Entry) (x : TargetFile)
    (r : Except ActionError Recovery) (e' : Entry) (x' : TargetFile) (_ : Prop) (w' : World) :
    Prop :=
  x' = x ∧ (e' = e ∨ ∃ suffix, (e.insert record suffix).Records sha256 target id record ∧
      e' = e.insert record suffix) ∧
    (Excused faulty target w₀ x w' ∨ ∀ current, x = .regular current →
      r = recovery sha256 record e.events current ∧ e' = recovered record e r)

/-- The last part of a recovery: it writes its outcome. -/
theorem ensures_outcome (outcome : Recovery) {current : Bytes}
    (h : Knows target id w₀ e x seen (p ∧ x = .regular current) w)
    (hrecords : e.Records sha256 target id record)
    (habsent : e.events.has outcome.suffix = false)
    (hcoherent : (e.events.insert outcome.suffix
      (record.as outcome.suffix)).isCoherent = true)
    (hrecovery : recovery sha256 record e.events current = .ok outcome) :
    (do
      writeEvent target id outcome.suffix (record.as outcome.suffix)
      pure outcome : Transaction Recovery).Ensures (beside faulty)
      (Wrote sha256 target id record.beforeSha256 record.afterSha256)
      (Leaves target id w₀ (Recovers sha256 faulty target id w₀ record e x)) w := by
  have hinsert := hrecords.insert hcoherent
  rw [ensures_bind]
  refine ensures_writeEvent _ h rfl rfl hrecords.isOf habsent hinsert (fun w' hw' ↦ ?_)
    fun e' er w' he' hw' hreason ↦
      ⟨_, _, _, hw'.forget, rfl, he'.imp_right fun he' ↦ ⟨_, hinsert, he'⟩, .inl hreason⟩
  rw [after_ok, ensures_pure]
  by_cases hreason : Excused faulty target w₀ x w'
  · exact ⟨_, _, _, hw'.forget, rfl, .inr ⟨_, hinsert, rfl⟩, .inl hreason⟩
  · refine ⟨_, _, _, hw'.forget, rfl, .inr ⟨_, hinsert, rfl⟩, .inr fun bytes hbytes ↦ ?_⟩
    cases (hw'.fact_of hreason).2.symm.trans hbytes
    refine ⟨hrecovery.symm, ?_⟩
    rw [recovered, if_neg (by rw [habsent]; exact Bool.false_ne_true)]

theorem ensures_recoverTransaction (h : Knows target id w₀ e x seen p w)
    (hrecords : e.Records sha256 target id record) :
    (recoverTransaction sha256 target id).Ensures (beside faulty)
      (Wrote sha256 target id record.beforeSha256 record.afterSha256)
      (Leaves target id w₀ (Recovers sha256 faulty target id w₀ record e x)) w := by
  have hrecorded := hrecords.recorded
  obtain ⟨backup, hbackup, hlength, hsha⟩ := hrecords.backup
  have hexcused : ∀ {x' q seen'} (er : ActionError) (w' : World), x' = x →
      Knows target id w₀ e x' seen' q w' → Excused faulty target w₀ x w' →
      Leaves target id w₀ (Recovers sha256 faulty target id w₀ record e x)
        (.error er) w' :=
    fun er w' hx hw' hreason ↦ ⟨_, _, _, hw'.forget, hx, .inl rfl, .inl hreason⟩
  -- the recovery ends without an event
  have hdone : ∀ {q seen'} (r : Except ActionError Recovery) (w' : World),
      Knows target id w₀ e x seen' q w' →
      (∀ current, x = .regular current → q →
        recovery sha256 record e.events current = r ∧ e = recovered record e r) →
      Leaves target id w₀ (Recovers sha256 faulty target id w₀ record e x) r w' := by
    intro q seen' r w' hw' hr
    by_cases hreason : Excused faulty target w₀ x w'
    · exact ⟨_, _, _, hw'.forget, rfl, .inl rfl, .inl hreason⟩
    · refine ⟨_, _, _, hw'.forget, rfl, .inl rfl, .inr fun current hcurrent ↦ ?_⟩
      obtain ⟨hrecovery, hsame⟩ := hr current hcurrent (hw'.fact_of hreason)
      exact ⟨hrecovery.symm, hsame⟩
  rw [recoverTransaction, ensures_bind]
  refine ensures_readValidatedJournal h hrecorded (fun w₁ h₁ ↦ ?_)
    fun er w' hw' ↦ hexcused er w' rfl hw'
  simp only [after_ok, hrecorded.prepared]
  rw [ensures_bind]
  refine ensures_readBackup h₁ hrecorded hbackup hlength hsha (fun w₂ h₂ ↦ ?_)
    fun er w' hw' ↦ hexcused er w' rfl hw'
  rw [after_ok]
  cases hundone : e.events.has .undone with
  | true =>
    rw [if_pos rfl, ensures_pure]
    exact hdone _ _ h₂ fun current _ _ ↦
      ⟨by rw [recovery, if_pos hundone], (recovered_of_has .undone hundone).symm⟩
  | false =>
  rw [if_neg Bool.false_ne_true]
  by_cases hconflict : (e.events.has .conflict || e.events.has .undoConflict) = true
  · rw [if_pos hconflict]
    exact ensures_error.mpr (hdone _ _ h₂ fun current _ _ ↦
      ⟨by rw [recovery, hundone, if_neg Bool.false_ne_true, if_pos hconflict], rfl⟩)
  rw [if_neg hconflict]
  cases haborted : e.events.has .aborted with
  | true =>
    rw [if_pos rfl, ensures_pure]
    refine hdone _ _ h₂ fun current _ _ ↦ ⟨?_, (recovered_of_has .aborted haborted).symm⟩
    rw [recovery, hundone, if_neg Bool.false_ne_true, if_neg hconflict, if_pos haborted]
  | false =>
  have hrecovery : ∀ current, recovery sha256 record e.events current =
      if sha256 current = record.beforeSha256 then
        .ok (if e.events.has .applied then .undone else .aborted)
      else if sha256 current = record.afterSha256 then .ok .applied
      else .error .conflict := by
    intro current
    rw [recovery, hundone, if_neg Bool.false_ne_true, if_neg hconflict, haborted,
      if_neg Bool.false_ne_true]
  rw [if_neg Bool.false_ne_true, ensures_bind]
  refine ensures_readTarget h₂ (fun current w₃ h₃ _ _ ↦ ?_) fun er w' hw' ↦
    hexcused er w' rfl hw'
  rw [after_ok]
  have hnone : e.events.has .conflict = false := by
    simp only [Bool.or_eq_true, not_or, Bool.not_eq_true] at hconflict
    exact hconflict.1
  have hcoherent := hrecorded.coherent
  by_cases hbefore : sha256 current = record.beforeSha256
  · rw [if_pos hbefore]
    cases happlied : e.events.has .applied with
    | true =>
      rw [if_pos rfl]
      refine ensures_outcome .undone h₃ hrecords hundone
        (isCoherent_of_applied hcoherent happlied (by decide)) ?_
      rw [hrecovery, if_pos hbefore, happlied, if_pos rfl]
    | false =>
      rw [if_neg Bool.false_ne_true]
      refine ensures_outcome .aborted h₃ hrecords haborted ?_ ?_
      · simp only [Events.isCoherent, happlied, hundone, hnone, haborted] at hcoherent
        simp_all [Events.isCoherent, Recovery.suffix]
      · rw [hrecovery, if_pos hbefore, happlied, if_neg Bool.false_ne_true]
  · rw [if_neg hbefore]
    by_cases hafter : sha256 current = record.afterSha256
    · rw [if_pos hafter]
      have houtcome : recovery sha256 record e.events current = .ok .applied := by
        rw [hrecovery, if_neg hbefore, if_pos hafter]
      cases happlied : e.events.has .applied with
      | true =>
        rw [Bool.not_true, if_neg Bool.false_ne_true, ensures_pure]
        refine hdone _ _ h₃ fun bytes hbytes hq ↦ ?_
        cases hq.2.symm.trans hbytes
        exact ⟨houtcome, (recovered_of_has .applied happlied).symm⟩
      | false =>
        rw [Bool.not_false, if_pos rfl]
        refine ensures_outcome .applied h₃ hrecords happlied ?_ houtcome
        simp_all [Events.isCoherent, Recovery.suffix]
    · rw [if_neg hafter]
      refine ensures_error.mpr (hdone _ _ h₃ fun bytes hbytes hq ↦ ?_)
      cases hq.2.symm.trans hbytes
      exact ⟨by rw [hrecovery, if_neg hbefore, if_neg hafter], rfl⟩

/-! ### Applying -/

/-- The files of an action which is prepared. -/
def preparedEntry (record : JournalRecord) (before : Bytes) : Entry :=
  (Entry.mk Events.none (some before)).insert record .prepared

/-- What an attempt to apply an action leaves: no event; a prepared action, whose target may have
been replaced; a refusal, when others have written the target; or an applied action. An applied
action may be reported as an error. -/
inductive Attempt (sha256 : Bytes → String) (target : ResolvedTarget) (id : String)
    (record : JournalRecord) (replacement : Bytes) (events : Events) (x : TargetFile) :
    Except ActionError String → Entry → TargetFile → Prop → Prop where
  | unrecorded {er : ActionError} {backup : Option Bytes} {q : Prop} :
      Attempt sha256 target id record replacement events x (.error er) ⟨events, backup⟩ x q
  | prepared {er : ActionError} {before : Bytes} {x' : TargetFile} {q : Prop} :
      events = Events.none → (preparedEntry record before).Records sha256 target id record →
      (q → x = .regular before) → x' = x ∨ x' = .regular replacement →
      Attempt sha256 target id record replacement events x (.error er)
        (preparedEntry record before) x' q
  | refused {er : ActionError} {before : Bytes} {x' : TargetFile} {q : Prop} :
      events = Events.none → ¬q → Attempt sha256 target id record replacement events x (.error er)
        ((preparedEntry record before).insert record .conflict) x' q
  | applied {r : Except ActionError String} {before : Bytes} {q : Prop} :
      events = Events.none → (q → x = .regular before) →
      ((preparedEntry record before).insert record .applied).Records sha256 target id record →
      r = .ok record.actionId ∨ (∃ er, r = .error er) →
      Attempt sha256 target id record replacement events x r
        ((preparedEntry record before).insert record .applied) (.regular replacement) q

/-- The attempt leaves its target as it was, or replaced and recorded. -/
def Attempts (sha256 : Bytes → String) (target : ResolvedTarget) (id : String)
    (record : JournalRecord) (replacement : Bytes) (events : Events) (x : TargetFile)
    (r : Except ActionError String) (e' : Entry) (x' : TargetFile) (q : Prop) (_ : World) : Prop :=
  Attempt sha256 target id record replacement events x r e' x' q

theorem ensures_applyPrepared {before replacement : Bytes} {interruptAt : InterruptAt}
    (h : Knows target id w₀ ⟨Events.none, some before⟩ x seen (p ∧ x = .regular before) w)
    (hlength : before.length ≤ maxTargetBytes) (hbefore : sha256 before = record.beforeSha256)
    (hreplacement : replacement.length ≤ maxTargetBytes)
    (hafter : sha256 replacement = record.afterSha256) (hactionId : record.actionId = id)
    (hprepared : record.as .prepared = record)
    (hplain : isPlain target.redactedIdentity = true) :
    (applyPrepared sha256 target replacement interruptAt id record).Ensures (beside faulty)
      (Wrote sha256 target id record.beforeSha256 record.afterSha256)
      (Leaves target id w₀ (Attempts sha256 target id record replacement Events.none x)) w := by
  rw [applyPrepared, ensures_bind]
  cases hvalid : validateEvent target id .prepared record with
  | error er =>
    rw [writeEvent, ensures_bind, ensures_ofExcept, hvalid]
    exact ⟨_, _, _, h.forget, .unrecorded⟩
  | ok =>
  have hrecords : (preparedEntry record before).Records sha256 target id record := by
    refine ⟨?_, ⟨before, rfl, hlength, hbefore⟩, ⟨replacement, hreplacement, hafter⟩, hplain⟩
    show IsRecorded target id record (Events.none.insert .prepared (record.as .prepared))
    rw [hprepared]
    exact IsRecorded.start hvalid
  have hpresent : ∀ {x' q seen'} (er : ActionError) (w' : World),
      x' = x ∨ x' = .regular replacement →
      Knows target id w₀ (preparedEntry record before) x' seen' q w' →
      (q → p ∧ x = .regular before) →
      Leaves target id w₀ (Attempts sha256 target id record replacement Events.none x)
        (.error er) w' :=
    fun er w' hx hw' hq ↦
      ⟨_, _, _, hw'.forget, .prepared rfl hrecords (fun h ↦ (hq h).2) hx⟩
  have hwrite : writeEvent target id .prepared record =
      writeEvent target id .prepared (record.as .prepared) := by
    rw [hprepared]
  rw [hwrite]
  refine ensures_writeEvent .prepared h rfl rfl (.inl rfl) rfl hrecords (fun w₁ h₁ ↦ ?_)
    fun e' er w' he' hw' _ ↦ ?_
  · rw [after_ok]
    by_cases hinterrupt : interruptAt = .afterPrepared
    · rw [if_pos hinterrupt]
      exact ensures_error.mpr (hpresent _ _ (.inl rfl) h₁ fun h ↦ h)
    rw [if_neg hinterrupt, ensures_bind]
    refine ensures_readTarget h₁ (fun current w₂ h₂ _ _ ↦ ?_)
      fun er w' hw' _ ↦ hpresent er w' (.inl rfl) hw' fun h ↦ h
    rw [after_ok]
    by_cases hcurrent : sha256 current = record.beforeSha256
    · rw [if_neg (not_not_intro hcurrent), ensures_bind]
      refine ensures_atomicReplace h₂ hrecords rfl rfl hreplacement
        ⟨current, rfl, .inl ⟨hcurrent, hafter⟩⟩ (fun w₃ h₃ ↦ ?_)
        fun x' er w' hx' hw' _ ↦ hpresent er w' hx' hw' fun h ↦ h.1
      rw [after_ok]
      by_cases hinterrupt : interruptAt = .afterTargetReplace
      · rw [if_pos hinterrupt]
        exact ensures_error.mpr (hpresent _ _ (.inr rfl) h₃ fun h ↦ h.1)
      rw [if_neg hinterrupt, ensures_bind]
      refine ensures_readTarget h₃ (fun written w₄ h₄ _ _ ↦ ?_)
        fun er w' hw' _ ↦ hpresent er w' (.inr rfl) hw' fun h ↦ h.1
      rw [after_ok]
      by_cases hwritten : sha256 written = record.afterSha256
      · rw [if_neg (not_not_intro hwritten), ensures_bind]
        have happlied : ((preparedEntry record before).insert record .applied).Records sha256
            target id record :=
          hrecords.insert rfl
        refine ensures_writeEvent .applied h₄ rfl rfl hrecords.isOf rfl happlied (fun w' hw' ↦ ?_)
          fun e' er w' he' hw' _ ↦ ?_
        · exact ensures_pure.mpr ⟨_, _, _, hw'.forget, .applied rfl (fun h ↦ h.1.1.2) happlied
            (.inl (by rw [hactionId]))⟩
        · rcases he' with rfl | rfl
          · exact hpresent er w' (.inr rfl) hw' fun h ↦ h.1.1
          · exact ⟨_, _, _, hw'.forget, .applied rfl (fun h ↦ h.1.1.2) happlied
              (.inr ⟨er, rfl⟩)⟩
      · rw [if_pos hwritten]
        exact ensures_error.mpr (hpresent _ _ (.inr rfl) h₄ fun h ↦ h.1.1)
    · rw [if_pos hcurrent, ensures_bind]
      have hedited : ¬((p ∧ x = .regular before) ∧ x = .regular current) := by
        rintro ⟨⟨-, hx⟩, hx'⟩
        cases hx.symm.trans hx'
        exact hcurrent hbefore
      refine ensures_writeEvent .conflict h₂ rfl rfl hrecords.isOf rfl (hrecords.insert rfl)
        (fun w' hw' ↦ ?_) fun e' er w' he' hw' _ ↦ ?_
      · exact ensures_error.mpr ⟨_, _, _, hw'.forget, .refused rfl hedited⟩
      · rcases he' with rfl | rfl
        · exact hpresent er w' (.inl rfl) hw' fun h ↦ h.1
        · exact ⟨_, _, _, hw'.forget, .refused rfl hedited⟩
  · rcases he' with rfl | rfl
    · exact ⟨_, _, _, hw'.forget, .unrecorded⟩
    · exact hpresent er w' (.inl rfl) hw' fun h ↦ h

/-- The backup of an action without events is created. -/
theorem ensures_createBackup {Q : Except ActionError Unit → World → Prop} {before after : String}
    (h : Knows target id w₀ e x seen p w) (hevents : e.events = Events.none)
    (hok : ∀ w', Knows target id w₀ ⟨Events.none, some []⟩ x seen p w' → Q (.ok ()) w')
    (herror : ∀ backup er w', Knows target id w₀ ⟨Events.none, backup⟩ x seen p w' →
      Q (.error er) w') :
    (createBackup target id).Ensures (beside faulty) (Wrote sha256 target id before after) Q w := by
  have hentry : e = ⟨Events.none, e.backup⟩ := by rw [← hevents]
  rw [hentry] at h
  refine ensures_write h (fun w₁ w₂ hw₁ hact ↦ ?_) (fun w₁ hw₁ _ ↦ herror _ _ _ hw₁)
    fun w₁ hw₁ _ ↦ herror _ _ _ hw₁
  rw [hw₁.entry] at hact
  split at hact
  · obtain rfl := Option.some.inj hact
    have hknows := hw₁.setEntry ⟨Events.none, some []⟩
    exact ⟨.backup w₁ [] (by rw [hw₁.entry]), hok _ hknows, fun _ ↦ herror _ _ _ hknows⟩
  · cases hact

/-- The backup of an action without events is written, or a part of it. -/
theorem ensures_fillBackup {bytes : Bytes} {Q : Except ActionError Unit → World → Prop}
    {before after : String} {backup : Option Bytes}
    (h : Knows target id w₀ ⟨Events.none, backup⟩ x seen p w)
    (hok : ∀ w', Knows target id w₀ ⟨Events.none, some bytes⟩ x seen p w' → Q (.ok ()) w')
    (herror : ∀ backup er w', Knows target id w₀ ⟨Events.none, backup⟩ x seen p w' →
      Q (.error er) w') :
    (fillBackup target id bytes).Ensures (beside faulty) (Wrote sha256 target id before after) Q
      w := by
  refine ensures_call.mpr fun w₁ hw₁ ↦ ?_
  have hknows := h.edited hw₁
  have hnone : (w₁.entry target id).events = Events.none := by rw [hknows.entry]
  refine ⟨fun w₂ hact ↦ ?_, (fun hact ↦ nomatch hact), ?_⟩
  · obtain rfl := Option.some.inj hact
    rw [hknows.entry]
    exact ⟨.backup w₁ bytes hnone, ensures_ok.mpr (hok _ (hknows.setEntry _))⟩
  · rintro w₂ n ⟨-, rfl⟩
    rw [hknows.entry]
    exact ⟨.backup w₂ (bytes.take n) hnone,
      ensures_error.mpr (herror _ _ _ (hknows.setEntry _))⟩

theorem ensures_applyTransactionWithId {sourceRevision expectedBefore : String}
    {replacement : Bytes} {interruptAt : InterruptAt} (h : Knows target id w₀ e x seen p w)
    (hentry : e.events = Events.none ∨ ∃ record, e.Records sha256 target id record) :
    (applyTransactionWithId sha256 target sourceRevision expectedBefore replacement interruptAt
      id).Ensures (beside faulty)
      (Wrote sha256 target id expectedBefore (sha256 replacement))
      (Leaves target id w₀ (Attempts sha256 target id
        (preparedRecord sha256 target sourceRevision expectedBefore replacement id) replacement
        e.events x)) w := by
  have hunrecorded : ∀ {backup q seen'} (er : ActionError) (w' : World),
      Knows target id w₀ ⟨e.events, backup⟩ x seen' q w' →
      Leaves target id w₀ (Attempts sha256 target id
        (preparedRecord sha256 target sourceRevision expectedBefore replacement id) replacement
        e.events x) (.error er) w' :=
    fun er w' hw' ↦ ⟨_, _, _, hw'.forget, .unrecorded⟩
  rw [applyTransactionWithId]
  cases hid : validId id with
  | false => exact ensures_error.mpr (hunrecorded _ _ h)
  | true =>
  rw [Bool.not_true, if_neg Bool.false_ne_true]
  by_cases hinput : (!isPlain sourceRevision || decide (replacement.length > maxTargetBytes) ||
      !canonicalHash expectedBefore) = true
  · rw [if_pos hinput]
    exact ensures_error.mpr (hunrecorded _ _ h)
  rw [if_neg hinput, ensures_bind]
  have hreplacement : replacement.length ≤ maxTargetBytes := by
    simp only [Bool.or_eq_true, decide_eq_true_eq, not_or] at hinput
    omega
  refine ensures_readTarget h (fun before w₁ h₁ hlength hplain ↦ ?_) fun er w' hw' _ ↦
    hunrecorded er w' hw'
  rw [after_ok]
  by_cases hbefore : sha256 before = expectedBefore
  swap
  · rw [if_pos hbefore]
    exact ensures_error.mpr (hunrecorded _ _ h₁)
  rw [if_neg (not_not_intro hbefore), ensures_bind]
  refine ensures_ensureJournalDir h₁ (fun w₂ h₂ ↦ ?_) fun er w' hw' _ ↦ hunrecorded er w' hw'
  rw [after_ok, ensures_bind]
  have hevents : ∀ suffix event, e.events suffix = some event →
      validateEvent target id suffix event = .ok () := by
    intro suffix event hevent
    rcases hentry with hnone | ⟨record, hrecords⟩
    · rw [hnone] at hevent
      cases hevent
    · exact hrecords.recorded.validateEvents hevent
  refine ensures_readJournalEvents h₂ hid hevents (fun w₃ h₃ ↦ ?_)
    fun er w' hw' _ ↦ hunrecorded er w' hw'
  rw [after_ok]
  rcases hentry with hnone | ⟨record, hrecords⟩
  swap
  · rw [hrecords.recorded.not_isEmpty, Bool.not_false, if_pos rfl,
      ensures_ofExcept_bind hrecords.recorded.validateJournal]
    exact ensures_error.mpr (hunrecorded _ _ h₃)
  have hempty : (!e.events.isEmpty) = false := by
    rw [hnone]
    rfl
  rw [hempty, if_neg Bool.false_ne_true, ensures_bind]
  rw [hnone] at hunrecorded ⊢
  refine ensures_createBackup h₃ hnone (fun w₄ h₄ ↦ ?_) fun _ er w' hw' ↦ hunrecorded er w' hw'
  rw [after_ok, ensures_bind]
  refine ensures_fillBackup h₄ (fun w₅ h₅ ↦ ?_) fun _ er w' hw' ↦ hunrecorded er w' hw'
  rw [after_ok]
  have hprepared : (preparedRecord sha256 target sourceRevision expectedBefore replacement
      id).as .prepared =
        preparedRecord sha256 target sourceRevision expectedBefore replacement id :=
    rfl
  exact ensures_applyPrepared h₅ hlength hbefore hreplacement rfl rfl hprepared hplain

end AgentOdometer.Action
