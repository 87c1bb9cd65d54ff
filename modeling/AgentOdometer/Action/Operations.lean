import AgentOdometer.Action.Steps

/-!
# The operations of a transaction

What writing an event, replacing the target and reading the journal and the backup leave, when
others may write the target between any two calls.
-/

namespace AgentOdometer.Action

open Program

variable {target : ResolvedTarget} {id : String} {w₀ w : World} {e : Entry} {x : TargetFile}
  {seen : Option Bytes} {p faulty : Prop} {sha256 : Bytes → String} {before after : String}
  {record : JournalRecord}

/-- The files of an action with one more event. -/
def Entry.insert (e : Entry) (record : JournalRecord) (suffix : Suffix) : Entry :=
  { e with events := e.events.insert suffix (record.as suffix) }

/-- The events of an entry are those of one action, or there is none. -/
def Entry.IsOf (target : ResolvedTarget) (id : String) (record : JournalRecord) (e : Entry) :
    Prop :=
  e.events = Events.none ∨ IsRecorded target id record e.events

theorem Entry.IsOf.validateEvent (h : e.IsOf target id record) {suffix : Suffix}
    {event : JournalRecord} (hevent : e.events suffix = some event) :
    validateEvent target id suffix event = .ok () := by
  rcases h with hnone | hrecorded
  · rw [hnone] at hevent
    cases hevent
  · exact hrecorded.validateEvents hevent

theorem Entry.IsOf.validateJournal (h : e.IsOf target id record) :
    (if e.events.isEmpty then .ok () else validateJournal e.events) = .ok () := by
  rcases h with hnone | hrecorded
  · rw [hnone]
    rfl
  · rw [hrecorded.validateJournal, ite_self]

/-- A readable target has a plain identity, so that an event fits into its file. -/
theorem Excused.of_long {w : World} {suffix : Suffix}
    (hvalid : validateEvent target id .prepared record = .ok ())
    (hlong : (record.as suffix).text.utf8ByteSize > maxJournalBytes) :
    Excused faulty target w₀ x w := by
  refine .inr (.inr ?_)
  rintro ⟨-, -, -, hplain⟩
  have := utf8ByteSize_text_le hvalid hplain suffix
  omega

/-- An event is published. -/
theorem ensures_publish {suffix : Suffix} {Q : Except ActionError Unit → World → Prop}
    (h : Knows target id w₀ e x seen p w) (hbefore : record.beforeSha256 = before)
    (hafter : record.afterSha256 = after) (hof : e.IsOf target id record)
    (habsent : e.events.has suffix = false)
    (hrecords : (e.insert record suffix).Records sha256 target id record)
    (hok : ∀ w', Knows target id w₀ (e.insert record suffix) x seen p w' → Q (.ok ()) w')
    (herror : ∀ e' er w', e' = e ∨ e' = e.insert record suffix →
      Knows target id w₀ e' x seen p w' → Excused faulty target w₀ x w' → Q (.error er) w') :
    (publish target id suffix (record.as suffix)).Ensures (beside faulty)
      (Wrote sha256 target id before after) Q w := by
  refine ensures_write h (fun w₁ w₂ hw₁ hact ↦ ?_) (fun w₁ hw₁ hact ↦ ?_)
    fun w₁ hw₁ hfaulty ↦ herror e _ w₁ (.inl rfl) hw₁ (.inl hfaulty)
  · have hact : w₁.setEntry target id (e.insert record suffix) = w₂ := by
      rw [hw₁.entry] at hact
      split at hact
      · exact Option.some.inj hact
      · cases hact
    subst hact
    have hwrote : Wrote sha256 target id before after w₁
        (w₁.setEntry target id (e.insert record suffix)) := by
      have hentry := hw₁.entry
      subst hentry
      exact .event w₁ record suffix hbefore hafter habsent hof hrecords
    exact ⟨hwrote, hok _ (hw₁.setEntry _),
      fun hfaulty ↦ herror _ _ _ (.inr rfl) (hw₁.setEntry _) (.inl hfaulty)⟩
  · have hpresent : w₁.entry target id ≠ .empty := by
      intro hempty
      obtain ⟨bytes, hbackup, -⟩ := hrecords.backup
      have hbackup : (w₁.entry target id).backup = some bytes := by
        rw [hw₁.entry]
        exact hbackup
      rw [hempty] at hbackup
      cases hbackup
    rw [hw₁.entry, World.hasJournal_of_entry_ne hpresent, habsent] at hact
    cases hact

/-- An event is written. -/
theorem ensures_writeEvent (suffix : Suffix) {Q : Except ActionError Unit → World → Prop}
    (h : Knows target id w₀ e x seen p w) (hbefore : record.beforeSha256 = before)
    (hafter : record.afterSha256 = after) (hof : e.IsOf target id record)
    (habsent : e.events.has suffix = false)
    (hrecords : (e.insert record suffix).Records sha256 target id record)
    (hok : ∀ w', Knows target id w₀ (e.insert record suffix) x seen p w' → Q (.ok ()) w')
    (herror : ∀ e' er w', e' = e ∨ e' = e.insert record suffix →
      Knows target id w₀ e' x seen p w' → Excused faulty target w₀ x w' → Q (.error er) w') :
    (writeEvent target id suffix (record.as suffix)).Ensures (beside faulty)
      (Wrote sha256 target id before after) Q w := by
  have hvalid := hrecords.recorded.valid
  have hid : validId id = true := (validateEvent_eq_ok.mp hvalid).2.2.2.1
  have herror₀ := fun er w' ↦ herror e er w' (.inl rfl)
  rw [writeEvent, ensures_ofExcept_bind (validateEvent_as hvalid suffix), ensures_bind]
  refine ensures_readJournalEvents h hid (fun _ _ ↦ hof.validateEvent) (fun w₁ h₁ ↦ ?_) herror₀
  have hjournal : validateJournal (e.events.insert suffix (record.as suffix)) = .ok () :=
    hrecords.recorded.validateJournal
  rw [after_ok, ensures_ofExcept_bind hof.validateJournal, habsent, if_neg Bool.false_ne_true]
  refine (ensures_ofExcept_bind hjournal).mpr ?_
  by_cases hlong : (record.as suffix).text.utf8ByteSize > maxJournalBytes
  · rw [if_pos hlong]
    exact ensures_error.mpr (herror₀ _ _ h₁ (.of_long hvalid hlong))
  · rw [if_neg hlong, ensures_bind]
    refine ensures_ensureJournalDir h₁ (fun w₂ h₂ ↦ ?_) herror₀
    rw [after_ok, ensures_bind]
    refine ensures_stage h₂ (fun w₃ h₃ ↦ ?_) (herror₀ _)
    rw [after_ok, ensures_bind]
    refine ensures_publish h₃ hbefore hafter hof habsent hrecords (fun w₄ h₄ ↦ ?_) herror
    rw [after_ok]
    exact ensures_stage h₄ hok fun w' hw' ↦ herror _ _ w' (.inr rfl) hw'

/-- An event which is present is not written again. -/
theorem ensures_writeEvent_present (suffix : Suffix)
    {Q : Except ActionError Unit → World → Prop} (h : Knows target id w₀ e x seen p w)
    (hrecorded : IsRecorded target id record e.events)
    (hpresent : e.events.has suffix = true)
    (herror : ∀ er w', Knows target id w₀ e x seen p w' → Q (.error er) w') :
    (writeEvent target id suffix (record.as suffix)).Ensures (beside faulty)
      (Wrote sha256 target id before after) Q w := by
  have hid : validId id = true := (validateEvent_eq_ok.mp hrecorded.valid).2.2.2.1
  rw [writeEvent, ensures_bind, ensures_ofExcept, validateEvent_as hrecorded.valid, after_ok,
    ensures_bind]
  refine ensures_readJournalEvents h hid (fun _ _ ↦ hrecorded.validateEvents) (fun w₁ h₁ ↦ ?_)
    fun er w' hw' _ ↦ herror er w' hw'
  rw [after_ok, ensures_bind, ensures_ofExcept, hrecorded.validateJournal, ite_self, after_ok,
    hpresent, if_pos rfl]
  exact ensures_error.mpr (herror _ w₁ h₁)

/-- The target is replaced. -/
theorem ensures_atomicReplace {bytes : Bytes} {Q : Except ActionError Unit → World → Prop}
    {current : Bytes} (h : Knows target id w₀ e x (some current) p w)
    (hrecords : e.Records sha256 target id record) (hbefore : record.beforeSha256 = before)
    (hafter : record.afterSha256 = after) (hlength : bytes.length ≤ maxTargetBytes)
    (hexchanges : Exchanges sha256 before after (.regular current) bytes)
    (hok : ∀ w', Knows target id w₀ e (.regular bytes) none p w' → Q (.ok ()) w')
    (herror : ∀ x' er w', x' = x ∨ x' = .regular bytes → Knows target id w₀ e x' none p w' →
      Excused faulty target w₀ x w' → Q (.error er) w') :
    (atomicReplace target bytes).Ensures (beside faulty) (Wrote sha256 target id before after) Q
      w := by
  rw [atomicReplace, if_neg (not_lt.mpr hlength), ensures_bind]
  refine ensures_checkedTarget h (fun w₁ h₁ _ ↦ ?_) fun er w' hw' ↦
    herror x er w' (.inl rfl) hw'.forget
  rw [after_ok, ensures_bind]
  refine ensures_stage h₁ (fun w₂ h₂ ↦ ?_) fun w' hw' ↦ herror x _ w' (.inl rfl) hw'.forget
  rw [after_ok]
  refine ensures_write h₂ (fun w₃ w₄ h₃ hact ↦ ?_) (fun _ _ hact ↦ nomatch hact)
    fun w₃ h₃ hfaulty ↦ herror x _ w₃ (.inl rfl) h₃.forget (.inl hfaulty)
  cases hact
  refine ⟨.replace w₃ record bytes hbefore hafter (h₃.entry.symm ▸ hrecords) fun hunseen ↦ ?_,
    hok _ (h₃.replace bytes), fun hfaulty ↦
      herror _ _ _ (.inr rfl) (h₃.replace bytes) (.inl hfaulty)⟩
  rw [h₃.current current rfl hunseen]
  exact hexchanges

/-- The backup of an action is read. -/
theorem ensures_readBackup {bytes : Bytes} {Q : Except ActionError Bytes → World → Prop}
    (h : Knows target id w₀ e x seen p w) (hrecorded : IsRecorded target id record e.events)
    (hbackup : e.backup = some bytes) (hlength : bytes.length ≤ maxTargetBytes)
    (hsha : sha256 bytes = record.beforeSha256)
    (hok : ∀ w', Knows target id w₀ e x seen p w' → Q (.ok bytes) w')
    (herror : ∀ er w', Knows target id w₀ e x seen p w' → Excused faulty target w₀ x w' →
      Q (.error er) w') :
    (readBackup sha256 target record).Ensures (beside faulty)
      (Wrote sha256 target id before after) Q w := by
  obtain ⟨-, -, hactionId, hid, -⟩ := validateEvent_eq_ok.mp hrecorded.valid
  rw [readBackup, hactionId, if_neg (by simp [hid]), ensures_bind]
  refine ensures_ensureJournalDir h (fun w₁ h₁ ↦ ?_) herror
  rw [after_ok]
  refine ensures_readWorld h₁ (fun w₂ h₂ ↦ ?_) (herror _)
  rw [h₂.entry]
  simp only [hbackup, if_neg (not_lt.mpr hlength), hsha, ne_eq, not_true_eq_false, if_false]
  exact hok w₂ h₂

/-- The journal of an action is read. -/
theorem ensures_readValidatedJournal {Q : Except ActionError Events → World → Prop}
    (h : Knows target id w₀ e x seen p w) (hrecorded : IsRecorded target id record e.events)
    (hok : ∀ w', Knows target id w₀ e x seen p w' → Q (.ok e.events) w')
    (herror : ∀ er w', Knows target id w₀ e x seen p w' → Excused faulty target w₀ x w' →
      Q (.error er) w') :
    (readValidatedJournal target id).Ensures (beside faulty)
      (Wrote sha256 target id before after) Q w := by
  have hid : validId id = true := (validateEvent_eq_ok.mp hrecorded.valid).2.2.2.1
  rw [readValidatedJournal, ensures_bind]
  refine ensures_readJournalEvents h hid (fun _ _ ↦ hrecorded.validateEvents) (fun w₁ h₁ ↦ ?_)
    herror
  rw [after_ok, ensures_ofExcept_bind hrecorded.validateJournal, ensures_pure]
  exact hok w₁ h₁

end AgentOdometer.Action
