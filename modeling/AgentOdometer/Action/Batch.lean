import AgentOdometer.Action.CrashSafe

/-!
# Batches of actions

Several actions which are applied one after the other, and undone in reverse when one of them
fails (`action_executor.rs:543–611`). Whatever calls of the attempts fail and whatever others write
at any time, a batch replaces every target or none of those which others have left alone.
-/

namespace AgentOdometer.Action

open Program

/-- `BatchItem`, `action_executor.rs:543–548`, with the id which `action_id` makes for it. -/
structure BatchItem where
  target : ResolvedTarget
  sourceRevision : String
  expectedBefore : String
  replacement : Bytes
  id : String

/-- What a call of a batch belongs to. -/
inductive Phase where
  | attempt
  | rollback
deriving DecidableEq

/-- `Result::err`. -/
def errorOf {α : Type} : Except ActionError α → Option ActionError
  | .ok _ => none
  | .error er => some er

section Hash

variable (sha256 : Bytes → String)

/-- `rollback_failed_attempt`, `action_executor.rs:596–611`. -/
def rollbackFailedAttempt (target : ResolvedTarget) (id : String) : Transaction Unit := do
  let events ← readJournalEvents target id
  if events.isEmpty then pure ()
  else do
    .ofExcept (validateJournal events)
    let outcome ← recoverTransaction sha256 target id
    if outcome = .applied then undoTransaction sha256 target id
    else pure ()

/-- The loop of `action_executor.rs:580–586`. The newest action is undone first, and the first
error is kept. -/
def undoApplied :
    List (ResolvedTarget × String) → Option ActionError → Transaction (Option ActionError)
  | [], rollbackError => pure rollbackError
  | (target, id) :: rest, rollbackError => do
      let undone ← (undoTransaction sha256 target id).attempt
      undoApplied rest (rollbackError.or (errorOf undone))

/-- Follows `action_executor.rs:575–586`. -/
def rollback (applied : List (ResolvedTarget × String)) (target : ResolvedTarget) (id : String) :
    Transaction (Option ActionError) := do
  let attempt ← (rollbackFailedAttempt sha256 target id).attempt
  undoApplied sha256 applied (errorOf attempt)

/-- The loop of `action_executor.rs:567–591` over the rest of the items, with the newest of the
applied actions first. -/
def applyItems (interruptAt : BatchItem → InterruptAt) :
    List (ResolvedTarget × String) → List BatchItem →
      Program Phase World ActionError (List String)
  | applied, [] => pure (applied.reverse.map Prod.snd)
  | applied, item :: rest => do
      let attempt ← ((applyTransactionWithId sha256 item.target item.sourceRevision
        item.expectedBefore item.replacement (interruptAt item) item.id).attempt).tag
          fun _ ↦ .attempt
      match attempt with
      | .ok _ => applyItems interruptAt ((item.target, item.id) :: applied) rest
      | .error er => do
          let rollbackError ← (rollback sha256 applied item.target item.id).tag fun _ ↦ .rollback
          .error (rollbackError.getD er)

/-- `apply_batch_using`, `action_executor.rs:559–594`, with attempts which may be interrupted. -/
def applyBatchUsing (interruptAt : BatchItem → InterruptAt) (items : List BatchItem) :
    Program Phase World ActionError (List String) :=
  if items.isEmpty || decide (items.length > 16) then .error .unsafeTarget
  else applyItems sha256 interruptAt [] items

end Hash

variable {sha256 : Bytes → String} {target : ResolvedTarget} {id : String} {w₀ w w' w'' : World}
  {e : Entry} {x : TargetFile} {seen : Option Bytes} {p : Prop} {record : JournalRecord}
  {applied : List (ResolvedTarget × String)} {contents contents' : String → TargetFile}

/-! ### What else stays -/

theorem unedited_of_suffix {file : String} (h : w₀.edits file <:+ w.edits file)
    (h' : w.edits file <:+ w'.edits file) (hsame : w'.edits file = w₀.edits file) :
    w.edits file = w₀.edits file ∧ w'.edits file = w.edits file := by
  have hw : w.edits file = w₀.edits file :=
    (h.eq_of_length_le (by rw [← hsame]; exact h'.length_le)).symm
  exact ⟨hw, hsame.trans hw.symm⟩

/-- Between two worlds, nothing has changed but the files of one action, its target, and what
others have written. -/
structure Framed (target : ResolvedTarget) (id : String) (w w' : World) : Prop where
  entry : ∀ (other : ResolvedTarget) (otherId : String), otherId ≠ id →
    w'.entry other otherId = w.entry other otherId
  history : ∀ file, w.edits file <:+ w'.edits file
  files : ∀ file, file ≠ target.file → w'.edits file = w.edits file →
    w'.files file = w.files file

namespace Framed

theorem refl (target : ResolvedTarget) (id : String) (w : World) : Framed target id w w :=
  ⟨fun _ _ _ ↦ rfl, fun _ ↦ List.suffix_rfl, fun _ _ _ ↦ rfl⟩

theorem trans (h : Framed target id w w') (h' : Framed target id w' w'') :
    Framed target id w w'' := by
  refine ⟨fun other otherId hne ↦ (h'.entry other otherId hne).trans (h.entry other otherId hne),
    fun file ↦ (h.history file).trans (h'.history file), fun file hne hsame ↦ ?_⟩
  obtain ⟨hfirst, hsecond⟩ := unedited_of_suffix (h.history file) (h'.history file) hsame
  exact (h'.files file hne hsecond).trans (h.files file hne hfirst)

theorem of_edited (h : Edited w w') : Framed target id w w' := by
  refine ⟨fun other otherId _ ↦ h.entry other otherId, h.isSuffix, fun file _ hsame ↦ ?_⟩
  rcases h.file file with ⟨hfile, -, -⟩ | ⟨older, hedits, -⟩
  · exact hfile
  · have hlength := congrArg List.length (hedits.symm.trans hsame)
    rw [List.length_cons, List.length_append] at hlength
    omega

theorem of_wrote {before after : String} (h : Wrote sha256 target id before after w w') :
    Framed target id w w' := by
  refine ⟨fun other otherId hne ↦ ?_, fun file ↦ by rw [h.edits], fun file hne _ ↦ ?_⟩
  · cases h with
    | same => rfl
    | see => rfl
    | createJournal => exact World.entry_createJournal ..
    | backup => exact World.entry_setEntry_of_ne _ _ (.inr hne)
    | event => exact World.entry_setEntry_of_ne _ _ (.inr hne)
    | replace => rfl
  · cases h with
    | replace => exact Function.update_of_ne hne ..
    | _ => rfl

end Framed

/-- A transaction changes nothing but the files of its action and its target. -/
theorem ensures_framed {α : Type} {faulty : Prop} {before after : String} {program : Transaction α}
    {Q : Except ActionError α → World → Prop}
    (h : program.Ensures (beside faulty) (Wrote sha256 target id before after) Q w) :
    program.Ensures (beside faulty) (fun _ _ ↦ True)
      (fun r w' ↦ Q r w' ∧ Framed target id w w') w :=
  (h.and_of_rel (R := Framed target id) (fun _ _ _ ↦ Framed.trans) (fun _ _ ↦ Framed.of_edited)
    (fun _ _ ↦ Framed.of_wrote) (Framed.refl target id w)).mono_rel fun _ _ _ ↦ trivial

/-! ### What a batch can restore -/

/-- Undoing the applied actions, the newest first, takes the files from some contents back to those
of the first world, but for files which others have written. -/
def Restores (sha256 : Bytes → String) (w₀ w : World) :
    List (ResolvedTarget × String) → (String → TargetFile) → Prop
  | [], contents => ∀ file, w.edits file = w₀.edits file → contents file = w₀.files file
  | (target, id) :: rest, contents =>
      (∃ record before after, (w.entry target id).Records sha256 target id record ∧
        (w.entry target id).events.has .applied = true ∧
        (w.entry target id).events.has .undone = false ∧
        (w.entry target id).backup = some before ∧ sha256 after = record.afterSha256 ∧
        after.length ≤ maxTargetBytes ∧
        (w.edits target.file = w₀.edits target.file → contents target.file = .regular after) ∧
        Restores sha256 w₀ w rest (Function.update contents target.file (.regular before)))

theorem Restores.mono (h : Restores sha256 w₀ w applied contents)
    (hentry : ∀ key ∈ applied, w'.entry key.1 key.2 = w.entry key.1 key.2)
    (hedits : ∀ file, w'.edits file = w₀.edits file → w.edits file = w₀.edits file)
    (hcontents : ∀ file, w'.edits file = w₀.edits file → contents' file = contents file) :
    Restores sha256 w₀ w' applied contents' := by
  induction applied generalizing contents contents' with
  | nil => exact fun file hsame ↦ (hcontents file hsame).trans (h file (hedits file hsame))
  | cons key rest ih =>
    obtain ⟨target, id⟩ := key
    obtain ⟨record, before, after, hrecords, happlied, hundone, hbackup, hafter, hlength, hcontent,
      hrest⟩ := h
    rw [List.forall_mem_cons] at hentry
    obtain ⟨hentry, hkeys⟩ := hentry
    have hentry : w'.entry target id = w.entry target id := hentry
    rw [← hentry] at hrecords happlied hundone hbackup
    refine ⟨record, before, after, hrecords, happlied, hundone, hbackup, hafter, hlength,
      fun hsame ↦ ?_, ih hrest hkeys fun file hsame ↦ ?_⟩
    · exact (hcontents _ hsame).trans (hcontent (hedits _ hsame))
    · by_cases hfile : file = target.file
      · rw [hfile, Function.update_self, Function.update_self]
      · rw [Function.update_of_ne hfile, Function.update_of_ne hfile, hcontents file hsame]

/-- Where a transaction of another action leaves its target as it was, the applied actions can
still be undone. -/
theorem Restores.framed (h : Restores sha256 w₀ w applied contents)
    (hhistory : ∀ file, w₀.edits file <:+ w.edits file) (hframed : Framed target id w w')
    (hid : id ∉ applied.map Prod.snd)
    (hcontents : ∀ file, file ≠ target.file → w.files file = contents file)
    (hcontents' : ∀ file, file ≠ target.file → contents' file = w'.files file)
    (htarget : w.edits target.file = w₀.edits target.file →
      w'.edits target.file = w.edits target.file → contents' target.file = contents target.file) :
    Restores sha256 w₀ w' applied contents' := by
  refine h.mono (fun key hkey ↦ hframed.entry key.1 key.2 fun heq ↦ ?_) (fun file hsame ↦ ?_)
    fun file hsame ↦ ?_
  · exact hid (heq ▸ List.mem_map_of_mem hkey)
  · exact (unedited_of_suffix (hhistory file) (hframed.history file) hsame).1
  · obtain ⟨hbefore, hsame⟩ := unedited_of_suffix (hhistory file) (hframed.history file) hsame
    by_cases hfile : file = target.file
    · rw [hfile] at hbefore hsame ⊢
      exact htarget hbefore hsame
    · rw [hcontents' file hfile, hframed.files file hfile hsame, hcontents file hfile]

/-- The newest action is undone. -/
theorem ensures_undo_newest (hhistory : ∀ file, w₀.edits file <:+ w.edits file)
    (h : Restores sha256 w₀ w ((target, id) :: applied) w.files)
    (hid : id ∉ applied.map Prod.snd) :
    (undoTransaction sha256 target id).Ensures (beside False) (fun _ _ ↦ True)
      (fun _ w' ↦ (∀ file, w₀.edits file <:+ w'.edits file) ∧
        Restores sha256 w₀ w' applied w'.files) w := by
  obtain ⟨record, before, after, hrecords, happlied, hundone, hbackup, hafter, hlength, hcontent,
    hrest⟩ := h
  refine (ensures_framed (ensures_undoTransaction (Knows.start target id w) hrecords)).mono ?_
  rintro r w' ⟨⟨e', x', q, hknows, hundoes⟩, hframed⟩
  refine ⟨fun file ↦ (hhistory file).trans (hframed.history file),
    hrest.framed hhistory hframed hid (fun file hfile ↦ (Function.update_of_ne hfile ..).symm)
      (fun _ _ ↦ rfl) fun hbefore hsame ↦ ?_⟩
  have hx : w.files target.file = .regular after := hcontent hbefore
  have hexcused : ¬Excused False target w (w.files target.file) w' := by
    rintro (hfaulty | hedited | hunreadable)
    · exact hfaulty
    · exact hedited hsame
    · exact hunreadable ⟨after, hx, hlength, hrecords.plain⟩
  obtain ⟨-, hx', -⟩ := hundoes.resolve_left hexcused happlied hundone after before hx hafter
    hbackup
  rw [Function.update_self, hknows.content hsame, hx']

/-- The applied actions are undone. -/
theorem ensures_undoApplied (rollbackError : Option ActionError)
    (hhistory : ∀ file, w₀.edits file <:+ w.edits file)
    (h : Restores sha256 w₀ w applied w.files) (hids : (applied.map Prod.snd).Nodup) :
    (undoApplied sha256 applied rollbackError).Ensures (beside False) (fun _ _ ↦ True)
      (fun r w' ↦ (∃ rollbackError, r = .ok rollbackError) ∧
        ∀ file, w'.edits file = w₀.edits file → w'.files file = w₀.files file) w := by
  induction applied generalizing w rollbackError with
  | nil => exact ensures_pure.mpr ⟨⟨_, rfl⟩, h⟩
  | cons key rest ih =>
    obtain ⟨target, id⟩ := key
    rw [List.map_cons, List.nodup_cons] at hids
    rw [undoApplied, ensures_bind, ensures_attempt]
    refine (ensures_undo_newest hhistory h hids.1).mono ?_
    rintro r w' ⟨hhistory', hrestores⟩
    rw [after_ok]
    exact ih _ hhistory' hrestores hids.2

/-! ### A failed attempt -/

/-- No event of the action is recorded, or its files record it. -/
def IsKept (sha256 : Bytes → String) (target : ResolvedTarget) (id : String) (w : World) : Prop :=
  (w.entry target id).events = Events.none ∨
    ∃ record, (w.entry target id).Records sha256 target id record

theorem IsKept.wrote {before after : String} (h : Wrote sha256 target id before after w w')
    (hw : IsKept sha256 target id w) : IsKept sha256 target id w' := by
  cases h with
  | same => exact hw
  | see => exact hw
  | createJournal =>
    rw [IsKept, World.entry_createJournal]
    exact hw
  | backup bytes hnone =>
    rw [IsKept, World.entry_setEntry]
    exact .inl rfl
  | event record suffix _ _ _ _ hrecords =>
    rw [IsKept, World.entry_setEntry]
    exact .inr ⟨record, hrecords⟩
  | replace => exact hw

/-- An action which is neither refused nor settled, with its target as before it or replaced. -/
structure IsPending (sha256 : Bytes → String) (record : JournalRecord) (before : Bytes) (e : Entry)
    (x : TargetFile) : Prop where
  unsettled : ∀ suffix : Suffix, suffix ≠ .prepared → suffix ≠ .applied →
    e.events.has suffix = false
  backup : e.backup = some before
  content : x = .regular before ∨ ∃ after, x = .regular after ∧ after.length ≤ maxTargetBytes ∧
    sha256 after = record.afterSha256 ∧ (sha256 after = record.beforeSha256 → after = before)

namespace IsPending

variable {before : Bytes}

theorem readable (h : IsPending sha256 record before e x)
    (hrecords : e.Records sha256 target id record) : Readable target x := by
  obtain ⟨bytes, hbackup, hlength, -⟩ := hrecords.backup
  cases h.backup.symm.trans hbackup
  rcases h.content with hx | ⟨after, hx, hafter, -, -⟩
  · exact ⟨_, hx, hlength, hrecords.plain⟩
  · exact ⟨_, hx, hafter, hrecords.plain⟩

theorem recovery_eq (h : IsPending sha256 record before e x) (current : Bytes) :
    recovery sha256 record e.events current =
      if sha256 current = record.beforeSha256 then
        .ok (if e.events.has .applied then .undone else .aborted)
      else if sha256 current = record.afterSha256 then .ok .applied
      else .error .conflict := by
  have hundone : e.events.has .undone = false := h.unsettled _ (by decide) (by decide)
  have hconflict : e.events.has .conflict = false := h.unsettled _ (by decide) (by decide)
  have hrefused : e.events.has .undoConflict = false := h.unsettled _ (by decide) (by decide)
  have haborted : e.events.has .aborted = false := h.unsettled _ (by decide) (by decide)
  rw [recovery, hundone, hconflict, hrefused, haborted, if_neg Bool.false_ne_true, Bool.or_false,
    if_neg Bool.false_ne_true, if_neg Bool.false_ne_true]

/-- Recovery succeeds: the target is found as before the action, or as it replaced it. -/
theorem recovers (h : IsPending sha256 record before e x)
    (hrecords : e.Records sha256 target id record) : ∃ current outcome,
      x = .regular current ∧ recovery sha256 record e.events current = .ok outcome ∧
      (outcome ≠ .applied → current = before) ∧
      (outcome = .applied → sha256 current = record.afterSha256) := by
  obtain ⟨bytes, hbackup, -, hsha⟩ := hrecords.backup
  cases h.backup.symm.trans hbackup
  rcases h.content with hx | ⟨after, hx, -, hafter, hcollision⟩
  · refine ⟨before, _, hx, (h.recovery_eq before).trans (if_pos hsha), fun _ ↦ rfl, ?_⟩
    split <;> intro heq <;> cases heq
  · by_cases hbefore : sha256 after = record.beforeSha256
    · refine ⟨after, _, hx, (h.recovery_eq after).trans (if_pos hbefore),
        fun _ ↦ hcollision hbefore, fun _ ↦ hafter⟩
    · refine ⟨after, .applied, hx, ?_, fun hne ↦ absurd rfl hne, fun _ ↦ hafter⟩
      rw [h.recovery_eq, if_neg hbefore, if_pos hafter]

end IsPending

variable {w₁ : World} {before : Bytes}

/-- The rollback of an attempt without an event changes no file. -/
theorem ensures_rollbackFailedAttempt_none {backup : Option Bytes}
    (h : Knows target id w₁ ⟨Events.none, backup⟩ x none p w) :
    (rollbackFailedAttempt sha256 target id).Ensures (beside False) (fun _ _ ↦ True)
      (fun _ w' ↦ Framed target id w w' ∧
        (w'.edits target.file = w₁.edits target.file → w'.files target.file = x)) w := by
  have hread : (rollbackFailedAttempt sha256 target id).Ensures (beside False)
      (Wrote sha256 target id "" "") (fun _ w' ↦
        w'.edits target.file = w₁.edits target.file → w'.files target.file = x) w := by
    rw [rollbackFailedAttempt, ensures_bind]
    cases hid : validId id with
    | false =>
      rw [readJournalEvents, hid, Bool.not_false, if_pos rfl]
      exact ensures_error.mpr h.content
    | true =>
      refine ensures_readJournalEvents h hid (fun suffix event hevent ↦ ?_) (fun w' hw' ↦ ?_)
        fun er w' hw' _ ↦ hw'.content
      · cases hevent
      · rw [after_ok, if_pos (show Events.none.isEmpty = true from rfl)]
        exact ensures_pure.mpr hw'.content
  exact (ensures_framed hread).mono fun _ _ hw ↦ hw.symm

/-- The rollback of a pending action restores its target. -/
theorem ensures_rollbackFailedAttempt (h : Knows target id w₁ e x none p w)
    (hrecords : e.Records sha256 target id record)
    (hpending : p → IsPending sha256 record before e x) :
    (rollbackFailedAttempt sha256 target id).Ensures (beside False) (fun _ _ ↦ True)
      (fun _ w' ↦ Framed target id w w' ∧
        (w'.edits target.file = w₁.edits target.file →
          w'.files target.file = .regular before)) w := by
  have hrecorded := hrecords.recorded
  have hid : validId id = true := (validateEvent_eq_ok.mp hrecorded.valid).2.2.2.1
  -- nothing but a write of others keeps the target of a pending action from being read
  have hunexcused : ∀ {w'}, p → w'.edits target.file = w₁.edits target.file →
      ¬Excused False target w₁ x w' := by
    rintro w' hp hsame (hfaulty | hedited | hunreadable)
    · exact hfaulty
    · exact hedited hsame
    · exact hunreadable ((hpending hp).readable hrecords)
  have hrestores : (rollbackFailedAttempt sha256 target id).Ensures (beside False)
      (Wrote sha256 target id record.beforeSha256 record.afterSha256) (fun _ w' ↦ p →
        w'.edits target.file = w₁.edits target.file →
          w'.files target.file = .regular before) w := by
    rw [rollbackFailedAttempt, ensures_bind]
    refine ensures_readJournalEvents h hid (fun _ _ ↦ hrecorded.validateEvents) (fun w₂ h₂ ↦ ?_)
      fun er w' _ hexcused hp hsame ↦ absurd hexcused (hunexcused hp hsame)
    rw [after_ok, hrecorded.not_isEmpty, if_neg Bool.false_ne_true,
      ensures_ofExcept_bind hrecorded.validateJournal, ensures_bind]
    refine (ensures_recoverTransaction h₂ hrecords).mono ?_
    rintro r w₃ ⟨e₃, x₃, q, h₃, rfl, hentry, hrecovers⟩
    have hresult : p → w₃.edits target.file = w₁.edits target.file → ∃ current outcome,
        x₃ = .regular current ∧ r = .ok outcome ∧ e₃ = recovered record e r ∧
        (outcome ≠ .applied → current = before) ∧
        (outcome = .applied → sha256 current = record.afterSha256) := by
      intro hp hsame
      obtain ⟨current, outcome, hx, hrecovery, hbefore, hafter⟩ := (hpending hp).recovers hrecords
      obtain ⟨hr, he⟩ := hrecovers.resolve_left (hunexcused hp hsame) current hx
      exact ⟨current, outcome, hx, hr.trans hrecovery, he, hbefore, hafter⟩
    cases r with
    | error er =>
      rw [after_error]
      intro hp hsame
      obtain ⟨_, _, -, hr, -⟩ := hresult hp hsame
      cases hr
    | ok outcome =>
      rw [after_ok]
      by_cases houtcome : outcome = .applied
      · rw [if_pos houtcome]
        have hrecords₃ : e₃.Records sha256 target id record := by
          rcases hentry with rfl | ⟨suffix, hinsert, rfl⟩
          · exact hrecords
          · exact hinsert
        have hstart : (undoTransaction sha256 target id).Ensures (beside False) _ _ w₃ :=
          ensures_undoTransaction (Knows.start target id w₃) (by rw [h₃.entry]; exact hrecords₃)
        refine hstart.mono ?_
        rintro r w₄ ⟨e₄, x₄, q', h₄, hundoes⟩ hp hsame
        obtain ⟨hsame₃, hsame₄⟩ := unedited_of_suffix h₃.history h₄.history hsame
        obtain ⟨current, _, hx, hr, he, -, hafter⟩ := hresult hp hsame₃
        cases hr
        have hfile : w₃.files target.file = .regular current := (h₃.content hsame₃).trans hx
        have hexcused : ¬Excused False target w₃ (w₃.files target.file) w₄ := by
          rintro (hfaulty | hedited | hunreadable)
          · exact hfaulty
          · exact hedited hsame₄
          · rw [h₃.content hsame₃] at hunreadable
            exact hunreadable ((hpending hp).readable hrecords)
        have happlied : (w₃.entry target id).events.has .applied = true := by
          rw [h₃.entry, he, houtcome]
          exact has_recovered .applied
        have hundone : (w₃.entry target id).events.has .undone = false := by
          rw [h₃.entry, he, houtcome, has_recovered_of_ne .applied (by decide)]
          exact (hpending hp).unsettled _ (by decide) (by decide)
        have hbackup : (w₃.entry target id).backup = some before := by
          rw [h₃.entry, he, backup_recovered]
          exact (hpending hp).backup
        obtain ⟨-, hx₄, -⟩ := hundoes.resolve_left hexcused happlied hundone current before hfile
          (hafter houtcome) hbackup
        rw [h₄.content hsame₄, hx₄]
      · rw [if_neg houtcome, ensures_pure]
        intro hp hsame
        obtain ⟨current, _, hx, hr, -, hbefore, -⟩ := hresult hp hsame
        cases hr
        rw [h₃.content hsame, hx, hbefore houtcome]
  refine (ensures_framed hrestores).mono fun _ w' hw' ↦ ⟨hw'.2, fun hsame ↦ ?_⟩
  exact hw'.1 (h.fact (unedited_of_suffix h.history (hw'.2.history _) hsame).1) hsame

/-! ### Batches -/

/-- What an attempt leaves, relative to the world before it. -/
structure Attempted (sha256 : Bytes → String) (item : BatchItem) (w : World)
    (r : Except ActionError String) (w' : World) : Prop where
  framed : Framed item.target item.id w w'
  kept : IsKept sha256 item.target item.id w'
  leaves : ∃ e x p, Knows item.target item.id w e x none p w' ∧
    Attempt sha256 item.target item.id (preparedRecord sha256 item.target item.sourceRevision
      item.expectedBefore item.replacement item.id) item.replacement Events.none
      (w.files item.target.file) r e x p ∧
    (e.events = Events.none ∨ item.replacement.length ≤ maxTargetBytes)

theorem IsKept.edited (h : Edited w w') (hw : IsKept sha256 target id w) :
    IsKept sha256 target id w' := by
  rw [IsKept, h.entry]
  exact hw

theorem ensures_attempted {item : BatchItem} {interruptAt : InterruptAt}
    (hfresh : (w.entry item.target item.id).events = Events.none) :
    (applyTransactionWithId sha256 item.target item.sourceRevision item.expectedBefore
      item.replacement interruptAt item.id).Ensures (beside True) (fun _ _ ↦ True)
      (Attempted sha256 item w) w := by
  have hknows := Knows.start item.target item.id w
  by_cases hlength : item.replacement.length ≤ maxTargetBytes
  · have hspec : (applyTransactionWithId sha256 item.target item.sourceRevision
        item.expectedBefore item.replacement interruptAt item.id).Ensures (beside True) _ _ w :=
      ensures_applyTransactionWithId hknows (.inl hfresh)
    have hboth := hspec.and_of_rel
      (R := fun a b ↦ Framed item.target item.id a b ∧
        (IsKept sha256 item.target item.id a → IsKept sha256 item.target item.id b))
      (fun _ _ _ hab hbc ↦ ⟨hab.1.trans hbc.1, fun ha ↦ hbc.2 (hab.2 ha)⟩)
      (fun _ _ hedited ↦ ⟨.of_edited hedited, .edited hedited⟩)
      (fun _ _ hwrote ↦ ⟨.of_wrote hwrote, .wrote hwrote⟩) ⟨.refl .., id⟩
    refine (hboth.mono ?_).mono_rel fun _ _ _ ↦ trivial
    rintro r w' ⟨⟨e, x, p, hw', hattempt⟩, hframed, hkept⟩
    rw [Attempts, hfresh] at hattempt
    exact ⟨hframed, hkept (.inl hfresh), e, x, p, hw', hattempt, .inr hlength⟩
  · have herror : ∃ er, applyTransactionWithId sha256 item.target item.sourceRevision
        item.expectedBefore item.replacement interruptAt item.id = .error er := by
      unfold applyTransactionWithId
      split
      · exact ⟨_, rfl⟩
      · rw [if_pos (by simp [Nat.lt_of_not_le hlength])]
        exact ⟨_, rfl⟩
    obtain ⟨er, her⟩ := herror
    have hentry : w.entry item.target item.id =
        ⟨Events.none, (w.entry item.target item.id).backup⟩ := by
      rw [← hfresh]
    rw [hentry] at hknows
    rw [her]
    exact ensures_error.mpr ⟨.refl .., .inl hfresh, _, _, _, hknows, .unrecorded, .inl rfl⟩

theorem isPending_of_records {item : BatchItem}
    (hrecords : e.Records sha256 item.target item.id (preparedRecord sha256 item.target
      item.sourceRevision item.expectedBefore item.replacement item.id))
    (hbackup : e.backup = some before)
    (hunsettled : ∀ suffix : Suffix, suffix ≠ .prepared → suffix ≠ .applied →
      e.events.has suffix = false)
    (hcollision : ∀ bytes, sha256 bytes = item.expectedBefore →
      sha256 item.replacement = item.expectedBefore → bytes = item.replacement)
    (hlength : item.replacement.length ≤ maxTargetBytes)
    (hx : x = .regular before ∨ x = .regular item.replacement) :
    IsPending sha256 (preparedRecord sha256 item.target item.sourceRevision item.expectedBefore
      item.replacement item.id) before e x := by
  obtain ⟨bytes, hbytes, -, hsha⟩ := hrecords.backup
  cases hbackup.symm.trans hbytes
  refine ⟨hunsettled, hbackup, hx.imp_right fun hx ↦ ⟨_, hx, hlength, rfl, fun hsame ↦ ?_⟩⟩
  exact (hcollision before hsha hsame).symm

/-- The attempts before a failed one are undone, after what the failed one has left. -/
theorem ensures_rollback {item : BatchItem} {er : ActionError}
    (hhistory : ∀ file, w₀.edits file <:+ w.edits file)
    (h : Restores sha256 w₀ w applied w.files) (hids : (item.id :: applied.map Prod.snd).Nodup)
    (hcollision : ∀ bytes, sha256 bytes = item.expectedBefore →
      sha256 item.replacement = item.expectedBefore → bytes = item.replacement)
    (hattempted : Attempted sha256 item w (.error er) w₁) :
    (rollback sha256 applied item.target item.id).Ensures (beside False) (fun _ _ ↦ True)
      (fun r w' ↦ (∃ rollbackError, r = .ok rollbackError) ∧
        ∀ file, w'.edits file = w₀.edits file → w'.files file = w₀.files file) w₁ := by
  obtain ⟨hframed, hkept, e, x, p, hknows, hattempt, hlength⟩ := hattempted
  rw [List.nodup_cons] at hids
  have hprepared : ∀ {e' : Entry}, e'.events.has .prepared = true → e' = e →
      item.replacement.length ≤ maxTargetBytes := by
    rintro e' hhas rfl
    refine hlength.resolve_left fun hnone ↦ ?_
    rw [hnone] at hhas
    cases hhas
  have hfailed : (rollbackFailedAttempt sha256 item.target item.id).Ensures (beside False)
      (fun _ _ ↦ True) (fun _ w' ↦ Framed item.target item.id w₁ w' ∧
        (w'.edits item.target.file = w.edits item.target.file →
          w'.files item.target.file = w.files item.target.file)) w₁ := by
    -- the rollback of a recorded attempt restores what the target held before it
    have hrestored : ∀ {before : Bytes}, (p → w.files item.target.file = .regular before) →
        ∀ w', (Framed item.target item.id w₁ w' ∧
          (w'.edits item.target.file = w.edits item.target.file →
            w'.files item.target.file = .regular before)) →
        Framed item.target item.id w₁ w' ∧
          (w'.edits item.target.file = w.edits item.target.file →
            w'.files item.target.file = w.files item.target.file) := by
      rintro before hbefore w' ⟨hframed', hfile⟩
      refine ⟨hframed', fun hsame ↦ (hfile hsame).trans (hbefore ?_).symm⟩
      exact hknows.fact (unedited_of_suffix (hframed.history _) (hframed'.history _) hsame).1
    cases hattempt with
    | unrecorded => exact ensures_rollbackFailedAttempt_none hknows
    | prepared _ hrecords hbefore hx =>
      have hlength := hprepared rfl rfl
      refine (ensures_rollbackFailedAttempt hknows hrecords fun hp ↦
        isPending_of_records hrecords rfl ?_ hcollision hlength ?_).mono fun _ ↦ hrestored hbefore
      · intro suffix hfirst _
        simp [preparedEntry, Entry.insert, hfirst]
      · exact hx.imp_left fun hx ↦ hx.trans (hbefore hp)
    | refused _ hedited =>
      rcases hkept with hnone | ⟨record, hrecords⟩
      · rw [hknows.entry] at hnone
        cases congrFun hnone .conflict
      · rw [hknows.entry] at hrecords
        have hnever (e : Entry) (x : TargetFile) : p → IsPending sha256 record [] e x :=
          fun hp ↦ absurd hp hedited
        exact (ensures_rollbackFailedAttempt hknows hrecords (hnever _ _)).mono
          fun _ ↦ hrestored fun hp ↦ absurd hp hedited
    | applied _ hbefore hrecords =>
      have hlength := hprepared rfl rfl
      refine (ensures_rollbackFailedAttempt hknows hrecords fun hp ↦
        isPending_of_records hrecords rfl ?_ hcollision hlength (.inr rfl)).mono
          fun _ ↦ hrestored hbefore
      intro suffix hfirst hsecond
      simp [preparedEntry, Entry.insert, hfirst, hsecond]
  rw [rollback, ensures_bind, ensures_attempt]
  refine hfailed.mono ?_
  rintro r w₂ ⟨hframed₂, htarget⟩
  rw [after_ok]
  have hframed' := hframed.trans hframed₂
  exact ensures_undoApplied _ (fun file ↦ (hhistory file).trans (hframed'.history file))
    (h.framed hhistory hframed' hids.1 (fun _ _ ↦ rfl) (fun _ _ ↦ rfl)
      fun _ hsame ↦ htarget hsame) hids.2

/-- What happens around a batch: others write files, and the calls of the attempts may fail. -/
def besideBatch : Surroundings Phase World where
  others := Edited
  fails := fun phase w w' ↦ phase = .attempt ∧ w' = w

theorem ensures_tag_attempt {α : Type} {program : Transaction α}
    {Q : Except ActionError α → World → Prop}
    (h : program.Ensures (beside True) (fun _ _ ↦ True) Q w) :
    (program.tag fun _ ↦ Phase.attempt).Ensures besideBatch (fun _ _ ↦ True) Q w :=
  ensures_tag.mpr (h.mono_surroundings (fun _ _ hedited ↦ hedited)
    fun _ _ _ hfails ↦ ⟨trivial, hfails.2⟩)

theorem ensures_tag_rollback {α : Type} {program : Transaction α}
    {Q : Except ActionError α → World → Prop}
    (h : program.Ensures (beside False) (fun _ _ ↦ True) Q w) :
    (program.tag fun _ ↦ Phase.rollback).Ensures besideBatch (fun _ _ ↦ True) Q w :=
  ensures_tag.mpr (h.mono_surroundings (fun _ _ hedited ↦ hedited)
    fun _ _ _ hfails ↦ absurd hfails.1 (by decide))

/-- What a file holds after the replacements of some items. -/
def replacedBy (items : List BatchItem) (file : String) (x : TargetFile) : TargetFile :=
  items.foldl (fun x item ↦ if item.target.file = file then .regular item.replacement else x) x

/-- What the rest of a batch leaves. -/
structure LeavesAllOrNone (w₀ w : World) (applied : List (ResolvedTarget × String))
    (items : List BatchItem) (r : Except ActionError (List String)) (w' : World) : Prop where
  all : ∀ ids, r = .ok ids →
    ids = applied.reverse.map Prod.snd ++ items.map BatchItem.id ∧
      (∀ file, w.edits file <:+ w'.edits file) ∧
      ∀ file, w'.edits file = w.edits file →
        w'.files file = replacedBy items file (w.files file)
  none : ∀ er, r = .error er →
    ∀ file, w'.edits file = w₀.edits file → w'.files file = w₀.files file

theorem ensures_applyItems {interruptAt : BatchItem → InterruptAt} {items : List BatchItem}
    (hhistory : ∀ file, w₀.edits file <:+ w.edits file)
    (h : Restores sha256 w₀ w applied w.files)
    (hids : (items.map BatchItem.id ++ applied.map Prod.snd).Nodup)
    (hfresh : ∀ item ∈ items, (w.entry item.target item.id).events = Events.none)
    (hcollision : ∀ item ∈ items, ∀ bytes, sha256 bytes = item.expectedBefore →
      sha256 item.replacement = item.expectedBefore → bytes = item.replacement) :
    (applyItems sha256 interruptAt applied items).Ensures besideBatch (fun _ _ ↦ True)
      (LeavesAllOrNone w₀ w applied items) w := by
  induction items generalizing w applied with
  | nil =>
    refine ensures_pure.mpr ⟨fun ids hids ↦ ?_, fun er her ↦ by cases her⟩
    cases hids
    exact ⟨(List.append_nil _).symm, fun _ ↦ List.suffix_rfl, fun _ _ ↦ rfl⟩
  | cons item rest ih =>
    rw [List.map_cons, List.cons_append, List.nodup_cons] at hids
    rw [List.forall_mem_cons] at hfresh hcollision
    have hnew : item.id ∉ applied.map Prod.snd :=
      fun hmem ↦ hids.1 (List.mem_append_right _ hmem)
    rw [applyItems, ensures_bind]
    refine ensures_tag_attempt (ensures_attempt.mpr ((ensures_attempted hfresh.1).mono ?_))
    rintro r w₁ hattempted
    rw [after_ok]
    cases r with
    | error er =>
      have hundo : (item.id :: applied.map Prod.snd).Nodup :=
        List.nodup_cons.mpr ⟨hnew, (List.nodup_append.mp hids.2).2.1⟩
      dsimp only
      rw [ensures_bind]
      refine ensures_tag_rollback ((ensures_rollback hhistory h hundo hcollision.1
        hattempted).mono ?_)
      rintro r w₂ ⟨⟨rollbackError, rfl⟩, hfiles⟩
      exact ensures_error.mpr ⟨fun ids hids ↦ (by cases hids), fun _ _ ↦ hfiles⟩
    | ok id =>
      obtain ⟨hframed, -, e, x, p, hknows, hattempt, hlength⟩ := hattempted
      cases hattempt with
      | @applied _ before _ _ hbefore hrecords =>
      have hlength := hlength.resolve_left fun hnone ↦ by cases congrFun hnone .prepared
      have hentry := hknows.entry
      have hhistory' : ∀ file, w₀.edits file <:+ w₁.edits file :=
        fun file ↦ (hhistory file).trans (hframed.history file)
      have hunedited : w₁.edits item.target.file = w₀.edits item.target.file →
          w₁.edits item.target.file = w.edits item.target.file := fun hsame ↦
        (unedited_of_suffix (hhistory _) (hframed.history _) hsame).2
      have hrestores : Restores sha256 w₀ w₁ ((item.target, item.id) :: applied) w₁.files := by
        rw [Restores, hentry]
        refine ⟨_, before, item.replacement, hrecords, rfl, rfl, rfl, rfl, hlength,
          fun hsame ↦ hknows.content (hunedited hsame), ?_⟩
        refine h.framed hhistory hframed hnew (fun _ _ ↦ rfl)
          (fun file hfile ↦ Function.update_of_ne hfile ..) fun _ hsame ↦ ?_
        rw [Function.update_self, hbefore (hknows.fact hsame)]
      have hdistinct : (rest.map BatchItem.id ++ item.id :: applied.map Prod.snd).Nodup :=
        List.perm_middle.nodup_iff.mpr (List.nodup_cons.mpr hids)
      have hfresh' : ∀ other ∈ rest, (w₁.entry other.target other.id).events = Events.none := by
        intro other hother
        rw [hframed.entry other.target other.id fun hsame ↦ hids.1 (List.mem_append_left _
          (hsame ▸ List.mem_map_of_mem hother))]
        exact hfresh.2 other hother
      refine (ih hhistory' hrestores hdistinct hfresh' hcollision.2).mono ?_
      rintro r w' ⟨hall, hnone⟩
      refine ⟨fun ids hids ↦ ?_, hnone⟩
      obtain ⟨hids, hhistory'', hfiles⟩ := hall ids hids
      refine ⟨?_, fun file ↦ (hframed.history file).trans (hhistory'' file), fun file hsame ↦ ?_⟩
      · rw [hids, List.reverse_cons, List.map_append, List.append_assoc]
        rfl
      · obtain ⟨hfirst, hsecond⟩ :=
          unedited_of_suffix (hframed.history file) (hhistory'' file) hsame
        rw [hfiles file hsecond, replacedBy, replacedBy, List.foldl_cons]
        by_cases hfile : item.target.file = file
        · subst hfile
          rw [if_pos rfl, hknows.content hfirst]
        · rw [if_neg hfile, hframed.files file (Ne.symm hfile) hfirst]

/-- A batch replaces the targets of all its items and returns their ids, or it leaves every target
as it was before the batch, whatever others write and whatever calls of its attempts fail. What
others have written to meanwhile is left out, and holds nothing up. -/
theorem batch_all_or_nothing (sha256 : Bytes → String) (interruptAt : BatchItem → InterruptAt)
    (items : List BatchItem) (w w' : World) (r : Except ActionError (List String))
    (hids : (items.map BatchItem.id).Nodup)
    (hfresh : ∀ item ∈ items, (w.entry item.target item.id).events = Events.none)
    (hcollision : ∀ item ∈ items, ∀ bytes, sha256 bytes = item.expectedBefore →
      sha256 item.replacement = item.expectedBefore → bytes = item.replacement)
    (h : Completes besideBatch (applyBatchUsing sha256 interruptAt items) w r w') :
    (∀ ids, r = .ok ids → ids = items.map BatchItem.id ∧
      ∀ file, w'.edits file = w.edits file →
        w'.files file = replacedBy items file (w.files file)) ∧
      ∀ er, r = .error er →
        ∀ file, w'.edits file = w.edits file → w'.files file = w.files file := by
  have hensures : (applyBatchUsing sha256 interruptAt items).Ensures besideBatch
      (fun _ _ ↦ True) (LeavesAllOrNone w w [] items) w := by
    rw [applyBatchUsing]
    split
    · exact ensures_error.mpr ⟨fun ids hids ↦ (by cases hids), fun _ _ _ _ ↦ rfl⟩
    · exact ensures_applyItems (fun _ ↦ List.suffix_rfl) (fun _ _ ↦ rfl)
        (by rwa [List.map_nil, List.append_nil]) hfresh hcollision
  obtain ⟨hall, hnone⟩ := h.of_ensures hensures
  exact ⟨fun ids hids ↦ ⟨(hall ids hids).1, (hall ids hids).2.2⟩, hnone⟩

/-- Two items which replace the same target one after the other. -/
def sampleItems : List BatchItem :=
  [⟨sampleTarget, "revision", "6db7d803e74f1ffa7d8f5adc0bf95b3e15bf4c8373fffadf546227cc6c6742cb",
      [97, 102, 116, 101, 114], sampleId⟩,
    ⟨sampleTarget, "revision", "f39592393ef0859cb196a52693d2cea00fb2df784b3c04ae54aa7cadb8e562f8",
      [101, 100, 105, 116, 101, 100], "0000000000000000000000000000000a-0000000b-0000000000000001"⟩]

/-- The first of these items, and one which expects a content the target does not have. -/
def staleItems : List BatchItem :=
  [⟨sampleTarget, "revision", "6db7d803e74f1ffa7d8f5adc0bf95b3e15bf4c8373fffadf546227cc6c6742cb",
      [97, 102, 116, 101, 114], sampleId⟩,
    ⟨sampleTarget, "revision", "1fb9f4097256db2d7b1e13aff79cee44339891a31c556b9cf6093885773b3618",
      [], "0000000000000000000000000000000a-0000000b-0000000000000001"⟩]

/-- A batch is applied in full, and one whose second attempt is refused takes its first back. -/
theorem batch_all_or_nothing_sample :
    (∃ ids, ((applyBatchUsing sampleSha256 (fun _ ↦ .never) sampleItems).run
        sampleSystem.world).1 = .ok ids ∧ ids = sampleItems.map BatchItem.id ∧
      ∀ file, ((applyBatchUsing sampleSha256 (fun _ ↦ .never) sampleItems).run
        sampleSystem.world).2.edits file = [] →
        ((applyBatchUsing sampleSha256 (fun _ ↦ .never) sampleItems).run
          sampleSystem.world).2.files file =
            replacedBy sampleItems file (.regular [98, 101, 102, 111, 114, 101])) ∧
    ∃ er, ((applyBatchUsing sampleSha256 (fun _ ↦ .never) staleItems).run
        sampleSystem.world).1 = .error er ∧
      ∀ file, ((applyBatchUsing sampleSha256 (fun _ ↦ .never) staleItems).run
        sampleSystem.world).2.edits file = [] →
        ((applyBatchUsing sampleSha256 (fun _ ↦ .never) staleItems).run
          sampleSystem.world).2.files file = .regular [98, 101, 102, 111, 114, 101] := by
  constructor
  · have happlied : ((applyBatchUsing sampleSha256 (fun _ ↦ .never) sampleItems).run
        sampleSystem.world).1.isOk = true := by
      decide +kernel
    cases hresult : ((applyBatchUsing sampleSha256 (fun _ ↦ .never) sampleItems).run
        sampleSystem.world).1 with
    | error er =>
      rw [hresult] at happlied
      cases happlied
    | ok ids =>
      exact ⟨ids, rfl, (batch_all_or_nothing sampleSha256 (fun _ ↦ .never) sampleItems
        sampleSystem.world _ _ (by decide) (fun _ _ ↦ rfl)
        (fun _ _ _ hbytes hsame ↦ sampleSha256_injective (hbytes.trans hsame.symm))
        (completes_run _ Edited.refl _)).1 ids hresult⟩
  · have hrefused : ((applyBatchUsing sampleSha256 (fun _ ↦ .never) staleItems).run
        sampleSystem.world).1.isOk = false := by
      decide +kernel
    cases hresult : ((applyBatchUsing sampleSha256 (fun _ ↦ .never) staleItems).run
        sampleSystem.world).1 with
    | ok ids =>
      rw [hresult] at hrefused
      cases hrefused
    | error er =>
      exact ⟨er, rfl, (batch_all_or_nothing sampleSha256 (fun _ ↦ .never) staleItems
        sampleSystem.world _ _ (by decide) (fun _ _ ↦ rfl)
        (fun _ _ _ hbytes hsame ↦ sampleSha256_injective (hbytes.trans hsame.symm))
        (completes_run _ Edited.refl _)).2 er hresult⟩

end AgentOdometer.Action
