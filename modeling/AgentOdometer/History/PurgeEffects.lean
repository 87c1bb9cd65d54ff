import AgentOdometer.History.ArchiveCalls
import AgentOdometer.History.JournalAgreement

/-!
# What a purge leaves

A purge which returns has removed exactly the rows of its candidates, has added their tombstones
and has written them to the journal before. A group of one identity and fingerprint is removed
as a whole.
-/

namespace AgentOdometer.History.Archive

open Ledger

variable {calendar : Calendar} {codec : Codec} {journalCodec : JournalCodec}
  {archive archive' middle : Archive} {identity : ExclusionIdentity}
  {candidates : List ExclusionIdentity} {preview : PurgePreview} {now : DateTime}

/-! ### Candidates -/

theorem isExpired_eq_not_keepsGroup (cutoff : String) (row : DurableSession) :
    isExpired calendar cutoff row = !keepsGroup calendar cutoff row := by
  have hday : (row.content.snapshot.any fun snapshot ↦ lastEventDay calendar snapshot < cutoff) =
      !row.content.snapshot.all fun snapshot ↦ cutoff ≤ lastEventDay calendar snapshot := by
    cases row.content.snapshot with
    | none => rfl
    | some snapshot =>
      simp only [Option.any_some, Option.all_some, ← decide_not]
      exact decide_eq_decide.mpr String.not_le.symm
  unfold isExpired keepsGroup
  rw [hday, Bool.not_or, Bool.not_or]
  congr 2
  exact decide_not

theorem mem_candidateRows {cutoff : String} {row : DurableSession} :
    row ∈ archive.candidateRows calendar cutoff ↔ row ∈ archive.store.sessions ∧
      isExpired calendar cutoff row = true ∧ ∀ sibling ∈ archive.store.sessions,
        sameGroup row sibling = true → isExpired calendar cutoff sibling = true := by
  unfold candidateRows
  rw [List.mem_insertionSort, List.mem_filter]
  simp only [Bool.and_eq_true, Bool.not_eq_true', List.any_eq_false, Bool.and_eq_true, not_and,
    Bool.not_eq_true, isExpired_eq_not_keepsGroup]

/-- With a candidate, every row of its group is a candidate. -/
theorem mem_candidateRows_of_sameGroup {cutoff : String} {row sibling : DurableSession}
    (h : row ∈ archive.candidateRows calendar cutoff) (hsibling : sibling ∈ archive.store.sessions)
    (hgroup : sameGroup row sibling = true) :
    sibling ∈ archive.candidateRows calendar cutoff := by
  rw [mem_candidateRows] at h ⊢
  obtain ⟨-, -, hall⟩ := h
  refine ⟨hsibling, hall sibling hsibling hgroup, ?_⟩
  intro other hother hsame
  apply hall other hother
  unfold sameGroup at hgroup hsame ⊢
  simp only [Bool.and_eq_true, decide_eq_true_eq] at hgroup hsame ⊢
  exact ⟨hsame.1.trans hgroup.1, hsame.2.trans hgroup.2⟩

theorem confirmPurge_eq_ok (h : archive.confirmPurge calendar codec preview now = .ok candidates) :
    candidates =
      (archive.candidateRows calendar preview.cutoffUtcDay).map (·.exclusionIdentity) := by
  unfold confirmPurge at h
  split at h
  · cases h
  · obtain ⟨_, -, h⟩ := bind_eq_ok.mp h
    split at h
    · cases h
    · simp only [bind_eq_ok, purgeCandidates, pure, Except.pure, Except.ok.injEq] at h
      obtain ⟨_, -, _, -, _, ⟨_, -, rfl⟩, _, -, rfl⟩ := h
      rfl

/-! ### Deletions -/

/-- The coverage metadata and the sidecars are left alone. -/
structure SameMetadata (archive archive' : Archive) : Prop where
  coverageComplete : archive'.coverageComplete = archive.coverageComplete
  lossBoundMs : archive'.lossBoundMs = archive.lossBoundMs
  lossTombstoneCount : archive'.lossTombstoneCount = archive.lossTombstoneCount
  lossRevision : archive'.lossRevision = archive.lossRevision
  marker : archive'.marker = archive.marker
  journal : archive'.journal = archive.journal

theorem SameMetadata.refl (archive : Archive) : archive.SameMetadata archive :=
  ⟨rfl, rfl, rfl, rfl, rfl, rfl⟩

theorem SameMetadata.trans (h : archive.SameMetadata middle) (h' : middle.SameMetadata archive') :
    archive.SameMetadata archive' where
  coverageComplete := h'.coverageComplete.trans h.coverageComplete
  lossBoundMs := h'.lossBoundMs.trans h.lossBoundMs
  lossTombstoneCount := h'.lossTombstoneCount.trans h.lossTombstoneCount
  lossRevision := h'.lossRevision.trans h.lossRevision
  marker := h'.marker.trans h.marker
  journal := h'.journal.trans h.journal

/-- The rows of some identities are gone, and their tombstones are there. -/
structure Removes (removed : List ExclusionIdentity) (archive archive' : Archive) : Prop where
  purged : archive'.store.purged = archive.store.purged ++ removed.map tombstone
  identities : archive'.store.identities =
    archive.store.identities.filter (·.1 ∉ removed.map (·.1))
  metadata : archive.SameMetadata archive'

theorem Removes.refl (archive : Archive) : Removes [] archive archive where
  purged := (List.append_nil _).symm
  identities := by
    simp
  metadata := .refl archive

theorem Removes.trans {removed removed' : List ExclusionIdentity}
    (h : Removes removed archive middle) (h' : Removes removed' middle archive') :
    Removes (removed ++ removed') archive archive' where
  purged := by
    rw [h'.purged, h.purged, List.map_append, List.append_assoc]
  identities := by
    rw [h'.identities, h.identities, List.filter_filter]
    apply List.filter_congr
    intro identity _
    rw [List.map_append, ← Bool.decide_and]
    apply decide_eq_decide.mpr
    rw [List.mem_append]
    tauto
  metadata := h.metadata.trans h'.metadata

theorem removes_nil_deleteFrom {key : String} {table : OwnedTable}
    (h : archive.deleteFrom key table = .ok archive') : Removes [] archive archive' := by
  have hcontent : ∀ table, Removes [] archive { archive with
      store := archive.store.updateRow key fun row ↦
        { row with content := clearContent table row.content } } := by
    intro table
    have hidentities : (archive.store.updateRow key fun row ↦
        { row with content := clearContent table row.content }).identities =
          archive.store.identities := HistoryStore.identities_updateRow fun _ ↦ rfl
    refine ⟨(List.append_nil _).symm, ?_, ⟨rfl, rfl, rfl, rfl, rfl, rfl⟩⟩
    exact hidentities.trans (Removes.refl archive).identities
  have hsame : ∀ (store : HistoryStore) (overrides : List (String × String)),
      store.purged = archive.store.purged → store.sessions = archive.store.sessions →
        Removes [] archive { archive with store, projectOverrides := overrides } := by
    intro store overrides hpurged hsessions
    refine ⟨hpurged.trans (List.append_nil _).symm, ?_, ⟨rfl, rfl, rfl, rfl, rfl, rfl⟩⟩
    have hidentities : store.identities = archive.store.identities := by
      unfold HistoryStore.identities
      rw [hsessions]
    exact hidentities.trans (Removes.refl archive).identities
  cases table with
  | projectSessionOverrides => cases h; exact hsame _ _ rfl rfl
  | sourceLocations => cases h; exact hsame _ _ rfl rfl
  | sourceArtifacts =>
    simp only [deleteFrom, deleteArtifacts, bind_eq_ok, pure, Except.pure, Except.ok.injEq] at h
    obtain ⟨_, -, rfl⟩ := h
    exact hsame _ _ rfl rfl
  | sessionSummaries => cases h; exact hcontent _
  | sessionSnapshots => cases h; exact hcontent _
  | durableTokenEvents => cases h; exact hcontent _
  | durableToolEvents => cases h; exact hcontent _
  | durableFindingEvents => cases h; exact hcontent _
  | durableToolDimensionEvents => cases h; exact hcontent _
  | rollupTokenTotals => cases h; exact hcontent _
  | rollupToolMetrics => cases h; exact hcontent _
  | rollupMutationChains => cases h; exact hcontent _
  | rollupToolDimensions => cases h; exact hcontent _

theorem removes_nil_deleteTables {key : String} {tables : List OwnedTable}
    (h : tables.foldlM (fun archive table ↦ archive.deleteFrom key table) archive = .ok archive') :
    Removes [] archive archive' := by
  induction tables generalizing archive with
  | nil =>
    cases h
    exact .refl _
  | cons table rest ih =>
    rw [List.foldlM_cons, bind_eq_ok] at h
    obtain ⟨middle, hdelete, hrest⟩ := h
    exact (removes_nil_deleteFrom hdelete).trans (ih hrest)

theorem removes_removeCandidate (h : archive.removeCandidate identity = .ok archive') :
    Removes [identity] archive archive' := by
  simp only [removeCandidate, bind_eq_ok, insertTombstone, deleteSession, pure, Except.pure,
    Except.ok.injEq] at h
  obtain ⟨inserted, ⟨_, -, rfl⟩, deleted, hdeleted, _, -, rfl⟩ := h
  have hremoves := removes_nil_deleteTables hdeleted
  refine ⟨?_, ?_, ?_⟩
  · exact hremoves.purged.trans (List.append_nil _)
  · have hfilter : (deleted.store.sessions.filter (·.sessionKey ≠ identity.1)).map
        (·.exclusionIdentity) = deleted.store.identities.filter (·.1 ≠ identity.1) := by
      unfold HistoryStore.identities
      rw [List.filter_map]
      rfl
    have hkept : deleted.store.identities = archive.store.identities :=
      hremoves.identities.trans (Removes.refl archive).identities.symm
    refine hfilter.trans ?_
    rw [hkept]
    apply List.filter_congr
    intro other _
    apply decide_eq_decide.mpr
    rw [List.map_singleton, List.mem_singleton]
  · obtain ⟨hcoverage, hbound, hcount, hrevision, hmarker, hjournal⟩ := hremoves.metadata
    exact ⟨hcoverage, hbound, hcount, hrevision, hmarker, hjournal⟩

theorem removes_removeCandidates (h : candidates.foldlM removeCandidate archive = .ok archive') :
    Removes candidates archive archive' := by
  induction candidates generalizing archive with
  | nil =>
    cases h
    exact .refl _
  | cons identity rest ih =>
    rw [List.foldlM_cons, bind_eq_ok] at h
    obtain ⟨middle, hremove, hrest⟩ := h
    exact (removes_removeCandidate hremove).trans (ih hrest)

/-! ### The journal -/

theorem journalAfter_eq (journalCodec : JournalCodec) (archive : Archive)
    (candidates : List ExclusionIdentity) (now : DateTime) :
    Journal.step journalCodec archive.journal (.write candidates now.timestampMillis) =
      some (archive.journalAfter journalCodec candidates now) := by
  unfold journalAfter
  unfold Journal.step
  simp only
  split
  · rfl
  · split <;> rfl

/-- A call of the writer which returned has written its identities. -/
theorem written_journalAfter
    (h : (journalCodec.writeExclusions archive.journal.file candidates
      now.timestampMillis).1 = .ok ()) (hne : candidates ≠ []) :
    (archive.journalAfter journalCodec candidates now).written =
      archive.journal.written ++ [⟨1, now.timestampMillis, candidates⟩] := by
  have hstep := journalAfter_eq journalCodec archive candidates now
  simp only [Journal.step, h, hne, if_false, Option.some.injEq] at hstep
  rw [← hstep]

/-- The journal keeps what is written. -/
theorem mem_written_journalAfter {record : ExclusionRecord}
    (h : record ∈ archive.journal.written) :
    record ∈ (archive.journalAfter journalCodec candidates now).written := by
  have hstep := journalAfter_eq journalCodec archive candidates now
  unfold Journal.step at hstep
  simp only at hstep
  split at hstep
  · rw [← Option.some.inj hstep]
    exact h
  · split at hstep
    · rw [← Option.some.inj hstep]
      exact h
    · rw [← Option.some.inj hstep]
      exact List.mem_append_left _ h

/-! ### The purge -/

/-- The archive in which the transaction of a purge removes its candidates. -/
structure Recorded (archive recorded : Archive) : Prop where
  store : recorded.store = archive.store
  recovered : recorded.organization = archive.organization
  marker : recorded.marker = archive.marker
  journal : recorded.journal = archive.journal

theorem recorded_recordLoss {removed : Nat} {newBound : Option Int} {recorded : Archive}
    (h : archive.recordLoss removed newBound = .ok recorded) : archive.Recorded recorded := by
  unfold recordLoss at h
  simp only at h
  split at h
  · simp only [bind_eq_ok, pure, Except.pure, Except.ok.injEq] at h
    obtain ⟨_, -, _, -, rfl⟩ := h
    exact ⟨rfl, rfl, rfl, rfl⟩
  · cases h
    exact ⟨rfl, rfl, rfl, rfl⟩

theorem recorded_recordPurge {removed : Nat} {newBound : Option Int} {recorded : Archive}
    (h : archive.recordPurge removed newBound = .ok recorded) : archive.Recorded recorded := by
  unfold recordPurge at h
  split at h
  · cases h
    exact ⟨rfl, rfl, rfl, rfl⟩
  · exact recorded_recordLoss h

/-- What the transaction of a purge commits. -/
theorem commitPurge_eq_ok {cutoff : String}
    (h : archive.commitPurge calendar cutoff candidates = .ok archive') :
    ∃ recorded, archive.recordPurge candidates.length
        (accountingLossBound calendar (archive.candidateRows calendar cutoff)) = .ok recorded ∧
      archive.Recorded recorded ∧ Removes candidates recorded archive' := by
  unfold commitPurge at h
  obtain ⟨recorded, hrecorded, hremoved⟩ := bind_eq_ok.mp h
  exact ⟨recorded, hrecorded, recorded_recordPurge hrecorded, removes_removeCandidates hremoved⟩

/-- A purge which returns confirmed its candidates, wrote the journal and committed. -/
theorem purgeRetained_eq_ok {result : PurgeResult}
    (h : archive.purgeRetained calendar codec journalCodec preview now = (.ok result, archive')) :
    ∃ candidates, archive.confirmPurge calendar codec preview now = .ok candidates ∧
      (journalCodec.writeExclusions archive.journal.file candidates
        now.timestampMillis).1 = .ok () ∧
      ({ archive with journal := archive.journalAfter journalCodec candidates now } :
        Archive).commitPurge calendar preview.cutoffUtcDay candidates = .ok archive' ∧
      result = ⟨candidates.map (·.1), now⟩ := by
  unfold purgeRetained at h
  split at h
  · cases h
  · next candidates hconfirm =>
    simp only at h
    split at h
    · cases h
    · next hwrite =>
      split at h
      · cases h
      · next purged hcommit =>
        cases h
        exact ⟨candidates, hconfirm, hwrite, hcommit, rfl⟩

/-- A purge leaves the archive which it returns with, one whose journal is written, or the one it
was called on. -/
theorem purgeRetained_cases (calendar : Calendar) (codec : Codec) (journalCodec : JournalCodec)
    (archive : Archive) (preview : PurgePreview) (now : DateTime) :
    (∃ result, (archive.purgeRetained calendar codec journalCodec preview now).1 = .ok result) ∨
      (archive.purgeRetained calendar codec journalCodec preview now).2 = archive ∨
      ∃ candidates, archive.confirmPurge calendar codec preview now = .ok candidates ∧
        (archive.purgeRetained calendar codec journalCodec preview now).2 =
          { archive with journal := archive.journalAfter journalCodec candidates now } := by
  unfold purgeRetained
  cases hconfirm : archive.confirmPurge calendar codec preview now with
  | error e => exact .inr (.inl rfl)
  | ok candidates =>
    simp only
    split
    · exact .inr (.inr ⟨candidates, rfl, rfl⟩)
    · split
      · exact .inr (.inr ⟨candidates, rfl, rfl⟩)
      · exact .inl ⟨_, rfl⟩

end AgentOdometer.History.Archive
