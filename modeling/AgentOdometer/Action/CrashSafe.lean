import AgentOdometer.Action.Outcomes
import AgentOdometer.Lib.Transition

/-!
# Crash safety

The runs of transactions on one target, which may be cut between any two file operations, beside
others who may replace the target at any time. The journal validates in every state, the target is
only exchanged between its recorded contents, and an action is recovered and undone.
-/

namespace AgentOdometer.Action

open Program

/-- What the executor is asked to do. -/
inductive Operation where
  | apply (sourceRevision expectedBefore : String) (replacement : Bytes)
      (interruptAt : InterruptAt) (id : String)
  | undo (id : String)
  | recover (id : String)

/-- The file system and the transaction which is running. -/
structure System where
  world : World
  running : Option (Transaction Unit)

/-- What happens next: others replace the target, a transaction starts, its next call is made or
fails, or it is cut. -/
inductive Move where
  | replace (content : TargetFile)
  | start (operation : Operation)
  | go
  | fail (n : Nat)
  | crash

section Hash

variable (sha256 : Bytes → String) (target : ResolvedTarget)

/-- The transaction of an operation. -/
def Operation.program : Operation → Transaction Unit
  | .apply sourceRevision expectedBefore replacement interruptAt id => do
      let _ ← applyTransactionWithId sha256 target sourceRevision expectedBefore replacement
        interruptAt id
      pure ()
  | .undo id => undoTransaction sha256 target id
  | .recover id => do
      let _ ← recoverTransaction sha256 target id
      pure ()

def step (s : System) : Move → Option System
  | .replace content => some { s with world := s.world.edit target.file content }
  | .start operation =>
      match s.running with
      | none => some { s with running := some (operation.program sha256 target) }
      | some _ => none
  | .go =>
      match s.running with
      | none => none
      | some (.ok _) => some { s with running := none }
      | some (.error _) => some { s with running := none }
      | some (.call _ act _ next) =>
          match act s.world with
          | some w => some ⟨w, some (next (some s.world))⟩
          | none => some { s with running := some (next none) }
  | .fail n =>
      match s.running with
      | some (.call _ _ torn next) => some ⟨torn n s.world, some (next none)⟩
      | _ => none
  | .crash => some { s with running := none }

/-- The outcome which matches the events of an action and the content of its target. -/
def matching (events : Events) (isBefore : Bool) : Recovery :=
  if events.has .undone then .undone
  else if events.has .aborted then .aborted
  else if isBefore then (if events.has .applied then .undone else .aborted)
  else .applied

/-- The action is recovered with the outcome, also when it is recovered again, and it can be undone
if it was recovered as applied. -/
def RecoversAs (id : String) (before current : Bytes) (outcome : Recovery) (w : World) : Prop :=
  ∃ w' w'', (recoverTransaction sha256 target id).run w = (.ok outcome, w') ∧
    w'.files target.file = .regular current ∧
    (recoverTransaction sha256 target id).run w' = (.ok outcome, w'') ∧
    w''.files target.file = .regular current ∧
    w''.entry target id = w'.entry target id ∧
    (outcome = .applied → ∃ w₃, (undoTransaction sha256 target id).run w' = (.ok (), w₃) ∧
      w₃.files target.file = .regular before)

/-- What holds in every state. A prepared action has the backup it records. It is recovered with the
matching outcome while no conflict is recorded, and for good when it is recorded as undone. -/
structure IsCrashSafe (s : System) : Prop where
  journal : ∀ id, (s.world.entry target id).events = Events.none ∨
    (∀ suffix event, (s.world.entry target id).events suffix = some event →
      validateEvent target id suffix event = .ok ()) ∧
    validateJournal (s.world.entry target id).events = .ok ()
  backup : ∀ id record, (s.world.entry target id).events .prepared = some record →
    ∃ before, (s.world.entry target id).backup = some before ∧
      sha256 before = record.beforeSha256
  exchange : ∀ move s', move = .go ∨ (∃ n, move = .fail n) →
    step sha256 target s move = some s' →
    s.world.unseen target.file = false →
    s'.world.files target.file ≠ s.world.files target.file →
    ∃ id record before after, (s.world.entry target id).events .prepared = some record ∧
      (s.world.entry target id).backup = some before ∧ sha256 after = record.afterSha256 ∧
      (s.world.files target.file = .regular before ∧
          s'.world.files target.file = .regular after ∨
        s.world.files target.file = .regular after ∧
          s'.world.files target.file = .regular before)
  recover : ∀ id record before current,
    (s.world.entry target id).events .prepared = some record →
    (s.world.entry target id).backup = some before →
    s.world.files target.file = .regular current →
    current = before ∨ sha256 current = record.afterSha256 →
    (s.world.entry target id).events.has .undone = true ∨
      (s.world.entry target id).events.has .conflict = false ∧
        (s.world.entry target id).events.has .undoConflict = false →
    RecoversAs sha256 target id before current
      (matching (s.world.entry target id).events (decide (current = before))) s.world

end Hash

variable {sha256 : Bytes → String} {target : ResolvedTarget} {w w' : World} {id : String}
  {record : JournalRecord}

/-! ### The invariant -/

/-- What one call writes, for any action. -/
def Writes (sha256 : Bytes → String) (target : ResolvedTarget) (w w' : World) : Prop :=
  ∃ id before after, Wrote sha256 target id before after w w'

/-- The files of every action record it. -/
def Recorded (sha256 : Bytes → String) (target : ResolvedTarget) (w : World) : Prop :=
  ∀ id, (w.entry target id).events = Events.none ∨
    ∃ record, (w.entry target id).Records sha256 target id record

/-- Every action is recorded, and so it stays whatever the running transaction does. -/
structure IsSound (sha256 : Bytes → String) (target : ResolvedTarget) (s : System) : Prop where
  recorded : Recorded sha256 target s.world
  running : ∀ p, s.running = some p →
    p.Ensures (beside True) (Writes sha256 target) (fun _ _ ↦ True) s.world

theorem Wrote.recorded {before after : String} (h : Wrote sha256 target id before after w w')
    (hw : Recorded sha256 target w) : Recorded sha256 target w' := by
  intro other
  cases h with
  | same => exact hw other
  | see => exact hw other
  | createJournal =>
    rw [World.entry_createJournal]
    exact hw other
  | backup bytes hnone =>
    by_cases hother : other = id
    · subst hother
      rw [World.entry_setEntry]
      exact .inl rfl
    · rw [World.entry_setEntry_of_ne _ _ (.inr hother)]
      exact hw other
  | event record suffix _ _ _ _ hrecords =>
    by_cases hother : other = id
    · subst hother
      rw [World.entry_setEntry]
      exact .inr ⟨record, hrecords⟩
    · rw [World.entry_setEntry_of_ne _ _ (.inr hother)]
      exact hw other
  | replace => exact hw other

theorem Recorded.edited (h : Recorded sha256 target w) (hw : Edited w w') :
    Recorded sha256 target w' := by
  intro id
  rw [hw.entry]
  exact h id

theorem ensures_writes {α : Type} {before after : String} {p : Transaction α}
    {Q : Except ActionError α → World → Prop}
    (h : p.Ensures (beside True) (Wrote sha256 target id before after) Q w) :
    p.Ensures (beside True) (Writes sha256 target) (fun _ _ ↦ True) w :=
  (h.mono_rel fun _ _ hwrote ↦ ⟨id, before, after, hwrote⟩).mono fun _ _ _ ↦ trivial

theorem ensures_unit {α : Type} {p : Transaction α}
    (h : p.Ensures (beside True) (Writes sha256 target) (fun _ _ ↦ True) w) :
    (do let _ ← p; pure () : Transaction Unit).Ensures (beside True) (Writes sha256 target)
      (fun _ _ ↦ True) w := by
  rw [ensures_bind]
  refine h.mono fun r w' _ ↦ ?_
  cases r with
  | ok => exact ensures_pure.mpr trivial
  | error => trivial

/-- Without an event, the journal of an action is not valid. -/
theorem ensures_readValidatedJournal_none {α : Type} {k : Events → Transaction α}
    (hnone : (w.entry target id).events = Events.none) :
    (readValidatedJournal target id >>= k).Ensures (beside True) (Writes sha256 target)
      (fun _ _ ↦ True) w := by
  have hread : (readValidatedJournal target id >>= k).Ensures (beside True)
      (Wrote sha256 target id "" "") (fun _ _ ↦ True) w := by
    rw [ensures_bind, readValidatedJournal, ensures_bind]
    cases hid : validId id with
    | false =>
      rw [readJournalEvents, if_pos (by rw [hid]; rfl)]
      exact ensures_error.mpr trivial
    | true =>
      refine ensures_readJournalEvents (Knows.start target id w) hid
        (fun suffix event hevent ↦ ?_) (fun w' _ ↦ ?_) fun _ _ _ _ ↦ trivial
      · rw [hnone] at hevent
        cases hevent
      · rw [after_ok, hnone, ensures_bind, ensures_ofExcept]
        trivial
  exact ensures_writes hread

/-- A transaction keeps every action recorded. -/
theorem ensures_program (operation : Operation) (h : Recorded sha256 target w) :
    (operation.program sha256 target).Ensures (beside True) (Writes sha256 target)
      (fun _ _ ↦ True) w := by
  cases operation with
  | apply sourceRevision expectedBefore replacement interruptAt id =>
    exact ensures_unit (ensures_writes
      (ensures_applyTransactionWithId (Knows.start target id w) (h id)))
  | undo id =>
    rcases h id with hnone | ⟨record, hrecords⟩
    · exact ensures_readValidatedJournal_none hnone
    · exact ensures_writes (ensures_undoTransaction (Knows.start target id w) hrecords)
  | recover id =>
    rcases h id with hnone | ⟨record, hrecords⟩
    · exact ensures_unit (ensures_readValidatedJournal_none hnone)
    · exact ensures_unit (ensures_writes
        (ensures_recoverTransaction (Knows.start target id w) hrecords))

/-- One call of the running transaction. -/
theorem IsSound.writes {s s' : System} (h : IsSound sha256 target s) {move : Move}
    (hmove : move = .go ∨ ∃ n, move = .fail n) (hstep : step sha256 target s move = some s') :
    Writes sha256 target s.world s'.world ∧ ∀ p, s'.running = some p →
      p.Ensures (beside True) (Writes sha256 target) (fun _ _ ↦ True) s'.world := by
  have hsame : Writes sha256 target s.world s.world := ⟨"", "", "", .same _⟩
  obtain ⟨w, running⟩ := s
  cases running with
  | none =>
    rcases hmove with rfl | ⟨n, rfl⟩ <;> cases hstep
  | some p =>
    have hp := h.running p rfl
    cases p with
    | ok =>
      rcases hmove with rfl | ⟨n, rfl⟩
      · cases hstep
        exact ⟨hsame, fun _ h ↦ nomatch h⟩
      · cases hstep
    | error =>
      rcases hmove with rfl | ⟨n, rfl⟩
      · cases hstep
        exact ⟨hsame, fun _ h ↦ nomatch h⟩
      · cases hstep
    | call op act torn next =>
      obtain ⟨hdone, hrefused, hfailed⟩ := ensures_call.mp hp w (Edited.refl w)
      rcases hmove with rfl | ⟨n, rfl⟩
      · simp only [step] at hstep
        cases hact : act w with
        | none =>
          rw [hact] at hstep
          cases hstep
          exact ⟨hsame, fun p hp ↦ Option.some.inj hp ▸ hrefused hact⟩
        | some w₁ =>
          rw [hact] at hstep
          cases hstep
          exact ⟨(hdone w₁ hact).1, fun p hp ↦ Option.some.inj hp ▸ (hdone w₁ hact).2⟩
      · cases hstep
        obtain ⟨hwrites, hnext⟩ := hfailed w n ⟨trivial, rfl⟩
        exact ⟨hwrites, fun p hp ↦ Option.some.inj hp ▸ hnext⟩

theorem isSound_step {s s' : System} {move : Move} (h : IsSound sha256 target s)
    (hstep : step sha256 target s move = some s') : IsSound sha256 target s' := by
  cases move with
  | replace content =>
    cases hstep
    have hedit := Edited.edit s.world target.file content
    refine ⟨h.recorded.edited hedit, fun p hp ↦ ?_⟩
    exact (h.running p hp).of_others (fun _ _ _ ↦ Edited.trans) (fun _ _ _ _ _ ↦ trivial) hedit
  | start operation =>
    obtain ⟨w, running⟩ := s
    cases running with
    | none =>
      cases hstep
      exact ⟨h.recorded, fun p hp ↦ Option.some.inj hp ▸ ensures_program operation h.recorded⟩
    | some => cases hstep
  | go =>
    obtain ⟨⟨id, before, after, hwrote⟩, hrunning⟩ := h.writes (.inl rfl) hstep
    exact ⟨hwrote.recorded h.recorded, hrunning⟩
  | fail n =>
    obtain ⟨⟨id, before, after, hwrote⟩, hrunning⟩ := h.writes (.inr ⟨n, rfl⟩) hstep
    exact ⟨hwrote.recorded h.recorded, hrunning⟩
  | crash =>
    cases hstep
    exact ⟨h.recorded, fun _ h ↦ nomatch h⟩

/-! ### Recovery -/

theorem Wrote.edits {before after : String} (h : Wrote sha256 target id before after w w') :
    w'.edits = w.edits := by
  cases h <;> rfl

/-- What a transaction ensures holds of its undisturbed run, in which nobody writes the target. -/
theorem run_of_ensures {α : Type} {before after : String} {p : Transaction α}
    {Q : Except ActionError α → World → Prop}
    (h : p.Ensures (beside False) (Wrote sha256 target id before after) Q w) :
    Q (p.run w).1 (p.run w).2 ∧ (p.run w).2.edits = w.edits := by
  have hquiet := h.mono_surroundings (t := ⟨Eq, fun _ _ _ ↦ False⟩)
    (fun a b hab ↦ hab ▸ Edited.refl a) (fun _ _ _ h ↦ h.elim)
  have hedits := hquiet.and_of_rel (R := fun a b ↦ b.edits = a.edits)
    (fun a b c (hab : b.edits = a.edits) (hbc : c.edits = b.edits) ↦ hbc.trans hab)
    (fun a b (hab : a = b) ↦ congrArg World.edits hab.symm) (fun _ _ h ↦ h.edits) rfl
  exact hedits.run fun _ ↦ rfl

/-- A recovery that succeeds has the outcome which matches. -/
theorem recovery_eq_matching {events : Events} {current : Bytes} {isBefore : Bool}
    (hcurrent : if isBefore then sha256 current = record.beforeSha256
      else sha256 current ≠ record.beforeSha256 ∧ sha256 current = record.afterSha256)
    (hsettled : events.has .undone = true ∨
      events.has .conflict = false ∧ events.has .undoConflict = false) :
    recovery sha256 record events current = .ok (matching events isBefore) := by
  unfold recovery matching
  cases hundone : events.has .undone with
  | true => rfl
  | false =>
    rw [hundone] at hsettled
    obtain ⟨hconflict, hrefused⟩ := hsettled.resolve_left Bool.false_ne_true
    rw [hconflict, hrefused]
    cases haborted : events.has .aborted with
    | true => rfl
    | false =>
      cases isBefore with
      | true =>
        have hbefore : sha256 current = record.beforeSha256 := hcurrent
        simp [hbefore]
      | false =>
        obtain ⟨hbefore, hafter⟩ : sha256 current ≠ record.beforeSha256 ∧
            sha256 current = record.afterSha256 := hcurrent
        simp [hafter, hafter ▸ hbefore]

theorem has_recovered {e : Entry} (outcome : Recovery) :
    (recovered record e (.ok outcome)).events.has outcome.suffix = true := by
  rw [recovered]
  split
  · assumption
  · simp [Entry.insert]

theorem has_recovered_of_ne {e : Entry} (outcome : Recovery) {suffix : Suffix}
    (hne : suffix ≠ outcome.suffix) :
    (recovered record e (.ok outcome)).events.has suffix = e.events.has suffix := by
  rw [recovered]
  split
  · rfl
  · simp [Entry.insert, hne]

theorem backup_recovered {e : Entry} (r : Except ActionError Recovery) :
    (recovered record e r).backup = e.backup := by
  cases r with
  | error => rfl
  | ok outcome =>
    rw [recovered]
    split <;> rfl

theorem of_recovery_eq_applied {events : Events} {current : Bytes}
    (h : recovery sha256 record events current = .ok .applied) :
    events.has .undone = false ∧ sha256 current = record.afterSha256 := by
  unfold recovery at h
  repeat' split at h
  all_goals simp_all

/-- A recovered action is recovered with the same outcome, and nothing more is written. -/
theorem recovery_recovered {e : Entry} {current : Bytes} {outcome : Recovery}
    (h : recovery sha256 record e.events current = .ok outcome) :
    recovery sha256 record (recovered record e (.ok outcome)).events current = .ok outcome ∧
      recovered record (recovered record e (.ok outcome)) (.ok outcome) =
        recovered record e (.ok outcome) := by
  refine ⟨?_, recovered_of_has outcome (has_recovered outcome)⟩
  by_cases hpresent : e.events.has outcome.suffix = true
  · rwa [recovered_of_has outcome hpresent]
  · rw [recovered, if_neg hpresent]
    unfold recovery at h ⊢
    simp only [Entry.insert, has_insert]
    cases outcome <;> simp only [Recovery.suffix] at hpresent ⊢ <;>
      repeat' split at h <;> simp_all

/-- The undisturbed recovery of a recorded action whose target can be read. -/
theorem run_recoverTransaction {current : Bytes}
    (hrecords : (w.entry target id).Records sha256 target id record)
    (hcurrent : w.files target.file = .regular current)
    (hlength : current.length ≤ maxTargetBytes) :
    ((recoverTransaction sha256 target id).run w).1 =
        recovery sha256 record (w.entry target id).events current ∧
      ((recoverTransaction sha256 target id).run w).2.files target.file = .regular current ∧
      ((recoverTransaction sha256 target id).run w).2.entry target id =
        recovered record (w.entry target id)
          (recovery sha256 record (w.entry target id).events current) ∧
      (((recoverTransaction sha256 target id).run w).2.entry target id).Records sha256 target id
        record := by
  obtain ⟨⟨e', x', p', hknows, hx, hrecords', hrecovers⟩, hedits⟩ :=
    run_of_ensures (ensures_recoverTransaction (Knows.start target id w) hrecords)
  have hfile := hknows.content (congrFun hedits _)
  rw [hx, hcurrent] at hfile
  have hexcused : ¬Excused False target w (w.files target.file)
      ((recoverTransaction sha256 target id).run w).2 := by
    rintro (hfalse | hedited | hunreadable)
    · exact hfalse
    · exact hedited (congrFun hedits _)
    · exact hunreadable ⟨current, hcurrent, hlength, hrecords.plain⟩
  obtain ⟨hresult, hentry⟩ := hrecovers.resolve_left hexcused current hcurrent
  refine ⟨hresult, hfile, ?_, ?_⟩
  · rw [hknows.entry, hentry, hresult]
  · rw [hknows.entry]
    rcases hrecords' with rfl | ⟨suffix, hinsert, rfl⟩
    · exact hrecords
    · exact hinsert

/-- The undisturbed undoing of an applied action whose target holds the recorded content. -/
theorem run_undoTransaction {before current : Bytes}
    (hrecords : (w.entry target id).Records sha256 target id record)
    (happlied : (w.entry target id).events.has .applied = true)
    (hundone : (w.entry target id).events.has .undone = false)
    (hbackup : (w.entry target id).backup = some before)
    (hcurrent : w.files target.file = .regular current)
    (hlength : current.length ≤ maxTargetBytes) (hafter : sha256 current = record.afterSha256) :
    ((undoTransaction sha256 target id).run w).1 = .ok () ∧
      ((undoTransaction sha256 target id).run w).2.files target.file = .regular before := by
  obtain ⟨⟨e', x', p', hknows, hundoes⟩, hedits⟩ :=
    run_of_ensures (ensures_undoTransaction (Knows.start target id w) hrecords)
  have hexcused : ¬Excused False target w (w.files target.file)
      ((undoTransaction sha256 target id).run w).2 := by
    rintro (hfalse | hedited | hunreadable)
    · exact hfalse
    · exact hedited (congrFun hedits _)
    · exact hunreadable ⟨current, hcurrent, hlength, hrecords.plain⟩
  obtain ⟨hresult, hx, -⟩ := hundoes.resolve_left hexcused happlied hundone current before hcurrent
    hafter hbackup
  exact ⟨hresult, (hknows.content (congrFun hedits _)).trans hx⟩

theorem eq_mk_of_fst {α β : Type} {p : α × β} {a : α} (h : p.1 = a) : p = (a, p.2) :=
  Prod.ext h rfl

/-- An action without an open conflict is recovered with the matching outcome. -/
theorem recoversAs_matching (hinj : Function.Injective sha256)
    (hrecords : (w.entry target id).Records sha256 target id record) {before current : Bytes}
    (hbackup : (w.entry target id).backup = some before)
    (hcurrent : w.files target.file = .regular current)
    (hknown : current = before ∨ sha256 current = record.afterSha256)
    (hsettled : (w.entry target id).events.has .undone = true ∨
      (w.entry target id).events.has .conflict = false ∧
        (w.entry target id).events.has .undoConflict = false) :
    RecoversAs sha256 target id before current
      (matching (w.entry target id).events (decide (current = before))) w := by
  obtain ⟨bytes, hbytes, hshort, hbefore⟩ := hrecords.backup
  cases hbackup.symm.trans hbytes
  obtain ⟨after, hafterShort, hafter⟩ := hrecords.replacement
  have hlength : current.length ≤ maxTargetBytes := by
    rcases hknown with rfl | hcurrentAfter
    · exact hshort
    · rw [hinj (hcurrentAfter.trans hafter.symm)]
      exact hafterShort
  have houtcome : recovery sha256 record (w.entry target id).events current =
      .ok (matching (w.entry target id).events (decide (current = before))) := by
    refine recovery_eq_matching ?_ hsettled
    by_cases hsame : current = before
    · simp only [hsame, decide_true, if_true, hbefore]
    · simp only [hsame, decide_false, Bool.false_eq_true, if_false]
      exact ⟨fun h ↦ hsame (hinj (h.trans hbefore.symm)), hknown.resolve_left hsame⟩
  obtain ⟨hresult, hfile, hentry, hrecords'⟩ := run_recoverTransaction hrecords hcurrent hlength
  rw [houtcome] at hresult hentry
  obtain ⟨hresult', hfile', hentry', -⟩ := run_recoverTransaction hrecords' hfile hlength
  obtain ⟨hagain, hkept⟩ := recovery_recovered houtcome
  rw [hentry, hagain] at hresult' hentry'
  rw [hkept] at hentry'
  refine ⟨_, _, eq_mk_of_fst hresult, hfile, eq_mk_of_fst hresult', hfile',
    hentry'.trans hentry.symm, fun happlied ↦ ?_⟩
  rw [happlied] at houtcome hentry
  obtain ⟨hundone, hcurrentAfter⟩ := of_recovery_eq_applied houtcome
  obtain ⟨hresult₃, hfile₃⟩ := run_undoTransaction hrecords'
    (by rw [hentry]; exact has_recovered .applied)
    (by rw [hentry, has_recovered_of_ne .applied (by decide)]; exact hundone)
    (by rw [hentry, backup_recovered]; exact hbackup) hfile hlength hcurrentAfter
  exact ⟨_, eq_mk_of_fst hresult₃, hfile₃⟩

/-! ### Runs -/

/-- A prepared action is recorded. -/
theorem IsSound.exists_records {s : System} (h : IsSound sha256 target s)
    (hprepared : (s.world.entry target id).events .prepared = some record) :
    ∃ record', (s.world.entry target id).Records sha256 target id record' := by
  rcases h.recorded id with hnone | hrecords
  · rw [hnone] at hprepared
    cases hprepared
  · exact hrecords

theorem IsSound.isCrashSafe (hinj : Function.Injective sha256) {s : System}
    (h : IsSound sha256 target s) : IsCrashSafe sha256 target s where
  journal id := (h.recorded id).imp_right fun ⟨_, hrecords⟩ ↦
    ⟨fun _ _ ↦ hrecords.recorded.validateEvents, hrecords.recorded.validateJournal⟩
  backup id record hprepared := by
    obtain ⟨record', hrecords⟩ := h.exists_records hprepared
    obtain ⟨before, hbefore, -, hsha⟩ := hrecords.backup
    obtain rfl := Option.some.inj (hrecords.recorded.prepared.symm.trans hprepared)
    exact ⟨before, hbefore, hsha⟩
  exchange move s' hmove hstep hseen hchanged := by
    obtain ⟨⟨id, before, after, hwrote⟩, -⟩ := h.writes hmove hstep
    generalize s'.world = w' at hwrote hchanged ⊢
    cases hwrote with
    | same => exact absurd rfl hchanged
    | see => exact absurd rfl hchanged
    | createJournal => exact absurd rfl hchanged
    | backup => exact absurd rfl hchanged
    | event => exact absurd rfl hchanged
    | replace record bytes hbefore hafter hrecords hexchanges =>
      obtain ⟨current, hcurrent, hexchange⟩ := hexchanges hseen
      obtain ⟨backup, hbackup, -, hsha⟩ := hrecords.backup
      have hnew : (s.world.replace target bytes).files target.file = .regular bytes :=
        Function.update_self ..
      rcases hexchange with ⟨hold, hnewSha⟩ | ⟨hold, hnewSha⟩
      · refine ⟨id, record, backup, bytes, hrecords.recorded.prepared, hbackup,
          hnewSha.trans hafter.symm, .inl ⟨?_, hnew⟩⟩
        rw [hcurrent, hinj ((hold.trans hbefore.symm).trans hsha.symm)]
      · refine ⟨id, record, backup, current, hrecords.recorded.prepared, hbackup,
          hold.trans hafter.symm, .inr ⟨hcurrent, ?_⟩⟩
        rw [hnew, hinj ((hnewSha.trans hbefore.symm).trans hsha.symm)]
  recover id record before current hprepared hbackup hcurrent hknown hsettled := by
    obtain ⟨record', hrecords⟩ := h.exists_records hprepared
    obtain rfl := Option.some.inj (hrecords.recorded.prepared.symm.trans hprepared)
    exact recoversAs_matching hinj hrecords hbackup hcurrent hknown hsettled

theorem isSound_of_reaches {s t : System} (hs : IsSound sha256 target s)
    (hrun : Transition.Reaches (step sha256 target) Transition.always s t) :
    IsSound sha256 target t :=
  hrun.invariant (fun _ _ _ h _ hstep ↦ isSound_step h hstep) hs

/-- Every state of every run, from a state without a recorded action, is crash safe. -/
theorem isCrashSafe_of_reaches (sha256 : Bytes → String) (hinj : Function.Injective sha256)
    (target : ResolvedTarget) (s t : System) (hidle : s.running = none)
    (hstart : ∀ id, (s.world.entry target id).events = Events.none)
    (hrun : Transition.Reaches (step sha256 target) Transition.always s t) :
    IsCrashSafe sha256 target t := by
  have hs : IsSound sha256 target s := by
    refine ⟨fun id ↦ .inl (hstart id), fun p hp ↦ ?_⟩
    rw [hidle] at hp
    cases hp
  exact (isSound_of_reaches hs hrun).isCrashSafe hinj

/-! ### A refused undoing -/

/-- The digests of three texts; any other content has a text of its own. -/
def sampleSha256 (bytes : Bytes) : String :=
  if bytes = [98, 101, 102, 111, 114, 101] then
    "6db7d803e74f1ffa7d8f5adc0bf95b3e15bf4c8373fffadf546227cc6c6742cb"
  else if bytes = [97, 102, 116, 101, 114] then
    "f39592393ef0859cb196a52693d2cea00fb2df784b3c04ae54aa7cadb8e562f8"
  else if bytes = [101, 100, 105, 116, 101, 100] then
    "1fb9f4097256db2d7b1e13aff79cee44339891a31c556b9cf6093885773b3618"
  else String.ofList ('#' :: bytes.map fun b ↦ Char.ofNat b.toNat)

theorem sampleSha256_injective : Function.Injective sampleSha256 := by
  have hchar : ∀ n < 256, (Char.ofNat n).toNat = n := by decide +kernel
  have hbyte : Function.Injective fun b : UInt8 ↦ Char.ofNat b.toNat := by
    intro a b h
    have hnat := congrArg Char.toNat h
    rw [hchar _ a.toNat_lt, hchar _ b.toNat_lt] at hnat
    exact UInt8.toNat_inj.mp hnat
  -- no digest begins like the text of another content
  have hother : ∀ (bytes : Bytes) (digest : String), digest.toList.head? ≠ some '#' →
      String.ofList ('#' :: bytes.map fun b ↦ Char.ofNat b.toNat) ≠ digest := by
    rintro bytes digest hdigest rfl
    simp at hdigest
  intro a b h
  unfold sampleSha256 at h
  repeat' split at h
  all_goals first
    | (subst_vars; rfl)
    | exact absurd h (by decide +kernel)
    | exact absurd h (hother _ _ (by decide +kernel))
    | exact absurd h.symm (hother _ _ (by decide +kernel))
    | exact List.map_injective_iff.mpr hbyte
        (List.cons.inj (String.ofList_injective h)).2

def sampleTarget : ResolvedTarget :=
  ⟨"guard.json", "private-action-journal", "target:1"⟩

def sampleId : String :=
  "0000000000000000000000000000000a-0000000b-0000000000000000"

/-- The target holds the first text, and nothing is recorded. -/
def sampleSystem : System where
  world :=
    { files := fun _ ↦ .regular [98, 101, 102, 111, 114, 101]
      journals := fun _ ↦ none
      edits := fun _ ↦ []
      unseen := fun _ ↦ false
      lost := fun _ ↦ false }
  running := none

/-- The second text is applied. -/
def sampleApply : List Move :=
  .start (.apply "revision" "6db7d803e74f1ffa7d8f5adc0bf95b3e15bf4c8373fffadf546227cc6c6742cb"
    [97, 102, 116, 101, 114] .never sampleId) :: List.replicate 27 .go

/-- Others write the third text, undoing is refused, and others write the second text again. -/
def sampleRefusal : List Move :=
  sampleApply ++ [.replace (.regular [101, 100, 105, 116, 101, 100]), .start (.undo sampleId)] ++
    List.replicate 13 .go ++ [.replace (.regular [97, 102, 116, 101, 114])]

/-- The state after an action was applied. -/
theorem isCrashSafe_of_reaches_sample : ∃ t,
    Transition.run (step sampleSha256 sampleTarget) sampleSystem sampleApply = some t ∧
      IsCrashSafe sampleSha256 sampleTarget t := by
  have hrun : (Transition.run (step sampleSha256 sampleTarget) sampleSystem
      sampleApply).isSome = true := by
    decide +kernel
  obtain ⟨t, ht⟩ := Option.isSome_iff_exists.mp hrun
  exact ⟨t, ht, isCrashSafe_of_reaches sampleSha256 sampleSha256_injective sampleTarget
    sampleSystem t rfl (fun _ ↦ rfl) (Transition.reaches_of_run _ ht)⟩

/-- After a refused undoing, an action is not recovered although its target holds the recorded
content again. -/
theorem not_recovers_after_refusal : ¬ ∀ (sha256 : Bytes → String) (target : ResolvedTarget)
    (s t : System), Function.Injective sha256 → s.running = none →
    (∀ id, (s.world.entry target id).events = Events.none) →
    Transition.Reaches (step sha256 target) Transition.always s t →
    ∀ id record before current, (t.world.entry target id).events .prepared = some record →
      (t.world.entry target id).backup = some before →
      t.world.files target.file = .regular current →
      current = before ∨ sha256 current = record.afterSha256 →
      ∃ outcome, RecoversAs sha256 target id before current outcome t.world := by
  intro h
  have hrun : (Transition.run (step sampleSha256 sampleTarget) sampleSystem sampleRefusal).map
      (fun t ↦ ((t.world.entry sampleTarget sampleId).events .prepared,
        (t.world.entry sampleTarget sampleId).backup, t.world.files sampleTarget.file,
        ((recoverTransaction sampleSha256 sampleTarget sampleId).run t.world).1.toOption)) =
      some (some (preparedRecord sampleSha256 sampleTarget "revision"
          "6db7d803e74f1ffa7d8f5adc0bf95b3e15bf4c8373fffadf546227cc6c6742cb"
          [97, 102, 116, 101, 114] sampleId), some [98, 101, 102, 111, 114, 101],
        .regular [97, 102, 116, 101, 114], none) := by
    decide +kernel
  obtain ⟨t, ht, hstate⟩ := Option.map_eq_some_iff.mp hrun
  simp only [Prod.mk.injEq] at hstate
  obtain ⟨hprepared, hbackup, hcurrent, hrefused⟩ := hstate
  obtain ⟨outcome, w', w'', hrecovered, -⟩ := h sampleSha256 sampleTarget sampleSystem t
    sampleSha256_injective rfl (fun _ ↦ rfl) (Transition.reaches_of_run _ ht) sampleId _ _ _
    hprepared hbackup hcurrent (.inr rfl)
  rw [hrecovered] at hrefused
  cases hrefused

end AgentOdometer.Action
