import AgentOdometer.History.PurgeEffects

/-!
# Purged transcripts

After a purge the tombstone of a session and its journal record exclude every transcript of its
identity and first-event fingerprint, over observations, restarts, recoveries and later purges.
The fingerprint of a transcript is final once it has a token event (`history_store.rs:4900`); that
of a transcript without one changes when it grows.
-/

namespace AgentOdometer.History

open Ledger Transition

/-! ### Transcripts -/

/-- A later state of a transcript, with the same id, start and first turn. -/
structure Extends (transcript later : Session) : Prop where
  id : later.id = transcript.id
  identity : effectiveStorageId later = effectiveStorageId transcript
  startedAt : later.startedAt = transcript.startedAt
  firstTurn : later.turns.head?.map (·.turnId) = transcript.turns.head?.map (·.turnId)
  events : transcript.tokensHistory <+: later.tokensHistory

/-- A transcript which an observation computes the identity and the fingerprint of a row for. -/
structure TranscriptOf (codec : Codec) (row : DurableSession) (transcript : Session) : Prop where
  providerId : hasProviderId transcript = true
  identity : effectiveStorageId transcript = row.identityKey
  fingerprint : firstEventFingerprint codec transcript = row.firstEventFingerprint

theorem Extends.refl (transcript : Session) : Extends transcript transcript :=
  ⟨rfl, rfl, rfl, rfl, List.prefix_refl _⟩

/-- A transcript with a token event keeps its fingerprint. -/
theorem Extends.fingerprint {codec : Codec} {transcript later : Session}
    (h : Extends transcript later) (hevents : transcript.tokensHistory ≠ []) :
    firstEventFingerprint codec later = firstEventFingerprint codec transcript := by
  have hhead : later.tokensHistory.head? = transcript.tokensHistory.head? := by
    obtain ⟨rest, hrest⟩ := h.events
    rw [← hrest, List.head?_append_of_ne_nil _ hevents]
  unfold firstEventFingerprint
  simp only [hhead, h.startedAt, h.firstTurn]

/-- A later state of the transcript of a row is a transcript of the row. -/
theorem TranscriptOf.extends {codec : Codec} {row : DurableSession} {transcript later : Session}
    (h : TranscriptOf codec row transcript) (hextends : Extends transcript later)
    (hevents : transcript.tokensHistory ≠ []) : TranscriptOf codec row later where
  providerId := by
    have hid := h.providerId
    unfold hasProviderId at hid ⊢
    rw [hextends.id]
    exact hid
  identity := hextends.identity.trans h.identity
  fingerprint := (hextends.fingerprint hevents).trans h.fingerprint

/-- The observation of an excluded transcript is refused. -/
theorem observeOne_of_isExcluded {codec : Codec} {row : DurableSession} {store : HistoryStore}
    {observation : Observation} (maintainRollups : Bool)
    (h : TranscriptOf codec row observation.session)
    (hexcluded : store.isExcluded row.identityKey row.firstEventFingerprint = true) :
    HistoryStore.observeOne codec maintainRollups store observation = .error .purgedSource := by
  rw [← h.identity, ← h.fingerprint] at hexcluded
  unfold HistoryStore.observeOne
  simp only [h.providerId, ensure, if_true, Observation.incoming, hexcluded, Bool.not_true,
    Bool.false_eq_true, if_false]
  rfl

namespace Archive

variable {calendar : Calendar} {codec : Codec} {journalCodec : JournalCodec}
  {archive archive' opened : Archive} {identity fingerprint : String} {call : ArchiveCall}

/-! ### Conditions of a call -/

/-- The journal record of a purge is read back as it is written. -/
def AppendsReadable (calendar : Calendar) (codec : Codec) (journalCodec : JournalCodec)
    (archive : Archive) : ArchiveCall → Prop
  | .purge preview now | .purgeInterrupted preview now _ =>
      ∀ candidates, archive.confirmPurge calendar codec preview now = .ok candidates →
        journalCodec.ReadsBack ⟨1, now.timestampMillis, candidates⟩
  | _ => True

/-- The journal has one identity for each session key and fingerprint. -/
def JournalUnambiguous (records : List ExclusionRecord) : Prop :=
  ∀ excluded ∈ records.flatMap (·.identities), ∀ other ∈ records.flatMap (·.identities),
    excluded.1 = other.1 → excluded.2.2 = other.2.2 → excluded = other

instance (records : List ExclusionRecord) : Decidable (JournalUnambiguous records) :=
  inferInstanceAs (Decidable (∀ excluded ∈ records.flatMap (·.identities),
    ∀ other ∈ records.flatMap (·.identities),
      excluded.1 = other.1 → excluded.2.2 = other.2.2 → excluded = other))

/-- A replacement is prepared from a journal which has one identity for each of its keys. -/
def RecoversUnambiguously (archive : Archive) : ArchiveCall → Prop
  | .recover _ true => JournalUnambiguous archive.journal.written
  | _ => True

/-! ### The journal of a run -/

/-- What holds of every archive which is reached. -/
structure Sound (journalCodec : JournalCodec) (archive : Archive) : Prop where
  keysDistinct : archive.store.KeysDistinct
  journal : journalCodec.Holds archive.journal.written archive.journal.file

theorem sound_newInstallation : newInstallation.Sound journalCodec where
  keysDistinct := List.nodup_nil
  journal := JournalCodec.holds_empty

theorem restoreExclusion_sessions (store : HistoryStore) (identity : ExclusionIdentity) :
    (restoreExclusion store identity).sessions = store.sessions := by
  unfold restoreExclusion
  split <;> rfl

theorem mem_purged_restoreExclusion {store : HistoryStore} {purged : PurgedSession}
    (identity : ExclusionIdentity) (h : purged ∈ store.purged) :
    purged ∈ (restoreExclusion store identity).purged := by
  unfold restoreExclusion
  split
  · exact h
  · exact List.mem_append_left _ h

theorem sessions_restored (identities : List ExclusionIdentity) (store : HistoryStore) :
    (identities.foldl restoreExclusion store).sessions = store.sessions := by
  induction identities generalizing store with
  | nil => rfl
  | cons identity rest ih => exact (ih _).trans (restoreExclusion_sessions store identity)

theorem mem_purged_restored {purged : PurgedSession} (identities : List ExclusionIdentity)
    {store : HistoryStore} (h : purged ∈ store.purged) :
    purged ∈ (identities.foldl restoreExclusion store).purged := by
  induction identities generalizing store with
  | nil => exact h
  | cons identity rest ih => exact ih (mem_purged_restoreExclusion identity h)

theorem mem_purged_of_restored {purged : PurgedSession} {identities : List ExclusionIdentity}
    {store : HistoryStore} (h : purged ∈ (identities.foldl restoreExclusion store).purged) :
    purged ∈ store.purged ∨ ∃ excluded ∈ identities, purged = tombstone excluded := by
  induction identities generalizing store with
  | nil => exact .inl h
  | cons identity rest ih =>
    rcases ih h with hstore | ⟨excluded, hmem, heq⟩
    · unfold restoreExclusion at hstore
      split at hstore
      · exact .inl hstore
      · rcases List.mem_append.mp hstore with hold | hnew
        · exact .inl hold
        · exact .inr ⟨identity, List.mem_cons_self, List.mem_singleton.mp hnew⟩
    · exact .inr ⟨excluded, List.mem_cons_of_mem _ hmem, heq⟩

/-- In a ledger without sessions every identity of the journal takes its primary key. -/
theorem exists_purged_restored {identities : List ExclusionIdentity} (store : HistoryStore)
    (hsessions : store.sessions = []) {excluded : ExclusionIdentity}
    (h : excluded ∈ identities) :
    ∃ purged ∈ (identities.foldl restoreExclusion store).purged,
      purged.sessionKey = excluded.1 ∧ purged.firstEventFingerprint = excluded.2.2 := by
  induction identities generalizing store with
  | nil => cases h
  | cons identity rest ih =>
    rcases List.mem_cons.mp h with rfl | hrest
    · have hrow : store.row? excluded.1 = none := by
        unfold HistoryStore.row?
        rw [hsessions]
        rfl
      have hinserted : ∃ purged ∈ (restoreExclusion store excluded).purged,
          purged.sessionKey = excluded.1 ∧ purged.firstEventFingerprint = excluded.2.2 := by
        unfold restoreExclusion
        rw [hrow]
        cases hhas : hasTombstone store excluded with
        | true =>
          obtain ⟨purged, hmem, hkeys⟩ := List.any_eq_true.mp hhas
          rw [Bool.and_eq_true, decide_eq_true_eq, decide_eq_true_eq] at hkeys
          exact ⟨purged, hmem, hkeys⟩
        | false => exact ⟨tombstone excluded, List.mem_append_right _ (List.mem_singleton_self _),
          rfl, rfl⟩
      obtain ⟨purged, hmem, hkeys⟩ := hinserted
      exact ⟨purged, mem_purged_restored rest hmem, hkeys⟩
    · exact ih _ ((restoreExclusion_sessions store identity).trans hsessions) hrest

/-- What opening a ledger leaves, when its exclusions can be read. -/
theorem openStore_eq_ok (h : archive.openStore journalCodec = .ok opened) :
    ∃ records, journalCodec.readExclusions archive.journal.file = .ok records ∧
      opened.store = ((records.flatMap (·.identities)).foldl restoreExclusion
        archive.store).reopen ∧ opened.journal = archive.journal := by
  have hstore : archive.applyMarker.store = archive.store := by
    unfold applyMarker
    split <;> rfl
  have hjournal : archive.applyMarker.journal = archive.journal := by
    unfold applyMarker
    split <;> rfl
  simp only [openStore, restoreExclusions, bind_eq_ok, pure, Except.pure, Except.ok.injEq] at h
  obtain ⟨_, ⟨records, hread, rfl⟩, rfl⟩ := h
  rw [hjournal] at hread
  exact ⟨records, hread, by rw [hstore], hjournal⟩

theorem readExclusions_eq_written {records : List ExclusionRecord}
    (h : journalCodec.Holds archive.journal.written archive.journal.file)
    (hread : journalCodec.readExclusions archive.journal.file = .ok records) :
    records = archive.journal.written := by
  rw [h.readExclusions] at hread
  split at hread
  · exact (Except.ok.inj hread).symm
  · cases hread

theorem respects_reopen (store : HistoryStore) : store.Respects store.reopen := by
  unfold HistoryStore.reopen
  split
  · exact .rebuildRollupsScoped _
  · exact .refl _

theorem keysDistinct_restored {store : HistoryStore} (identities : List ExclusionIdentity)
    (h : store.KeysDistinct) :
    ((identities.foldl restoreExclusion store).reopen).KeysDistinct := by
  apply (respects_reopen _).keysDistinct
  unfold HistoryStore.KeysDistinct HistoryStore.identities at h ⊢
  rw [sessions_restored]
  exact h

theorem keysDistinct_openStore (hkeys : archive.store.KeysDistinct)
    (h : archive.openStore journalCodec = .ok opened) : opened.store.KeysDistinct := by
  obtain ⟨records, -, hstore, -⟩ := openStore_eq_ok h
  rw [hstore]
  exact keysDistinct_restored _ hkeys

theorem holds_openStore (hjournal : journalCodec.Holds archive.journal.written archive.journal.file)
    (h : archive.openStore journalCodec = .ok opened) :
    journalCodec.Holds opened.journal.written opened.journal.file := by
  obtain ⟨records, -, -, hsame⟩ := openStore_eq_ok h
  rw [hsame]
  exact hjournal

theorem toOption_eq_some {ε α : Type} {result : Except ε α} {a : α}
    (h : result.toOption = some a) : result = .ok a := by
  cases result with
  | error e => cases h
  | ok b => cases h; rfl

theorem holds_journalAfter {candidates : List ExclusionIdentity} {now : DateTime}
    (h : journalCodec.Holds archive.journal.written archive.journal.file)
    (hread : journalCodec.ReadsBack ⟨1, now.timestampMillis, candidates⟩) :
    journalCodec.Holds (archive.journalAfter journalCodec candidates now).written
      (archive.journalAfter journalCodec candidates now).file :=
  Journal.holds_step (a := .write candidates now.timestampMillis) h hread
    (journalAfter_eq journalCodec archive candidates now)

theorem keysDistinct_of_removes {removed : List ExclusionIdentity}
    (h : Removes removed archive archive') (hkeys : archive.store.KeysDistinct) :
    archive'.store.KeysDistinct := by
  unfold HistoryStore.KeysDistinct at hkeys ⊢
  rw [h.identities]
  exact List.Nodup.sublist (List.filter_sublist.map _) hkeys

/-- A plain call respects the tombstones and leaves the coverage metadata and the sidecars. -/
theorem respects_step (hplain : call.isPlain = true)
    (hstep : step calendar codec journalCodec archive call = some archive') :
    archive.store.Respects archive'.store ∧ archive.SameMetadata archive' := by
  cases call with
  | store c =>
    have hcall : some (archive.callStore codec c) = some archive' := by
      cases c <;> first | exact hstep | cases hplain
    rw [← Option.some.inj hcall]
    exact ⟨.call c, rfl, rfl, rfl, rfl, rfl, rfl⟩
  | beginScan =>
    cases hstep
    exact ⟨.of_eq rfl rfl, rfl, rfl, rfl, rfl, rfl, rfl⟩
  | finishScan generation =>
    cases hstep
    refine ⟨?_, rfl, rfl, rfl, rfl, rfl, rfl⟩
    refine HistoryStore.Respects.trans ?_ .refreshMissing
    exact .of_eq rfl rfl
  | markPathMissing path =>
    cases hstep
    exact ⟨.markPathMissing path, rfl, rfl, rfl, rfl, rfl, rfl⟩
  | annotate c =>
    cases hstep
    exact ⟨.refl _, rfl, rfl, rfl, rfl, rfl, rfl⟩
  | reassignSessionProject key projectKey =>
    cases hstep
    unfold reassignSessionProject
    split <;> exact ⟨.refl _, rfl, rfl, rfl, rfl, rfl, rfl⟩
  | clearSessionOverride key =>
    cases hstep
    exact ⟨.refl _, rfl, rfl, rfl, rfl, rfl, rfl⟩
  | setRetentionPolicy policy =>
    cases hstep
    cases hset : archive.setRetentionPolicy policy with
    | error e => exact ⟨.refl _, rfl, rfl, rfl, rfl, rfl, rfl⟩
    | ok set =>
      simp only [setRetentionPolicy, bind_eq_ok, pure, Except.pure, Except.ok.injEq] at hset
      obtain ⟨_, -, _, -, rfl⟩ := hset
      exact ⟨.refl _, rfl, rfl, rfl, rfl, rfl, rfl⟩
  | purge preview now => cases hplain
  | purgeInterrupted preview now written => cases hplain
  | recover now moved => cases hplain

/-- The archive which an interrupted purge leaves differs in its journal. -/
theorem interruptedPurge_store {preview : PurgePreview} {now : DateTime} {written : Option Nat} :
    (archive.interruptedPurge calendar codec journalCodec preview now written).store =
      archive.store := by
  unfold interruptedPurge
  split
  · rfl
  · split <;> rfl

/-- A step of the journal. -/
theorem holds_interruptedPurge {preview : PurgePreview} {now : DateTime} {written : Option Nat}
    (h : journalCodec.Holds archive.journal.written archive.journal.file)
    (hread : AppendsReadable calendar codec journalCodec archive
      (.purgeInterrupted preview now written)) :
    journalCodec.Holds
      (archive.interruptedPurge calendar codec journalCodec preview now written).journal.written
      (archive.interruptedPurge calendar codec journalCodec preview now written).journal.file := by
  unfold interruptedPurge
  cases hconfirm : archive.confirmPurge calendar codec preview now with
  | error e => exact h
  | ok candidates =>
    cases written with
    | none => exact holds_journalAfter h (hread candidates hconfirm)
    | some bytes =>
      exact Journal.holds_step (a := .crash candidates now.timestampMillis bytes) h
        (hread candidates hconfirm) rfl

theorem keysDistinct_purgeRetained {preview : PurgePreview} {now : DateTime}
    (h : archive.store.KeysDistinct) :
    (archive.purgeRetained calendar codec journalCodec preview now).2.store.KeysDistinct := by
  rcases purgeRetained_cases calendar codec journalCodec archive preview now with
    ⟨result, hresult⟩ | hsame | ⟨candidates, -, hwritten⟩
  · obtain ⟨candidates, -, -, hcommit, -⟩ := purgeRetained_eq_ok (Prod.ext hresult rfl)
    obtain ⟨recorded, -, hrecorded, hremoves⟩ := commitPurge_eq_ok hcommit
    apply keysDistinct_of_removes hremoves
    rw [hrecorded.store]
    exact h
  · rw [hsame]
    exact h
  · rw [hwritten]
    exact h

theorem holds_purgeRetained {preview : PurgePreview} {now : DateTime}
    (h : journalCodec.Holds archive.journal.written archive.journal.file)
    (hread : AppendsReadable calendar codec journalCodec archive (.purge preview now)) :
    journalCodec.Holds
      (archive.purgeRetained calendar codec journalCodec preview now).2.journal.written
      (archive.purgeRetained calendar codec journalCodec preview now).2.journal.file := by
  rcases purgeRetained_cases calendar codec journalCodec archive preview now with
    ⟨result, hresult⟩ | hsame | ⟨candidates, hconfirm, hwritten⟩
  · obtain ⟨candidates, hconfirm, -, hcommit, -⟩ := purgeRetained_eq_ok (Prod.ext hresult rfl)
    obtain ⟨recorded, -, hrecorded, hremoves⟩ := commitPurge_eq_ok hcommit
    rw [hremoves.metadata.journal, hrecorded.journal]
    exact holds_journalAfter h (hread candidates hconfirm)
  · rw [hsame]
    exact h
  · rw [hwritten]
    exact holds_journalAfter h (hread candidates hconfirm)

/-- Session keys stay a primary key. -/
theorem keysDistinct_step (h : archive.store.KeysDistinct)
    (hstep : step calendar codec journalCodec archive call = some archive') :
    archive'.store.KeysDistinct := by
  rcases call.isPlain_or with hplain | rfl | ⟨preview, now, rfl⟩ |
    ⟨preview, now, written, rfl⟩ | ⟨now, moved, rfl⟩
  · exact (respects_step hplain hstep).1.keysDistinct h
  · exact keysDistinct_openStore h (toOption_eq_some hstep)
  · cases hstep
    exact keysDistinct_purgeRetained h
  · apply keysDistinct_openStore _ (toOption_eq_some hstep)
    rw [interruptedPurge_store]
    exact h
  · simp only [step] at hstep
    split at hstep
    · cases hstep
    · apply keysDistinct_openStore _ (toOption_eq_some hstep)
      unfold prepareRecovery
      split
      · exact List.nodup_nil
      · exact h

/-- The journal keeps complete records and an incomplete tail. -/
theorem holds_step (h : journalCodec.Holds archive.journal.written archive.journal.file)
    (hread : AppendsReadable calendar codec journalCodec archive call)
    (hstep : step calendar codec journalCodec archive call = some archive') :
    journalCodec.Holds archive'.journal.written archive'.journal.file := by
  rcases call.isPlain_or with hplain | rfl | ⟨preview, now, rfl⟩ |
    ⟨preview, now, written, rfl⟩ | ⟨now, moved, rfl⟩
  · rw [(respects_step hplain hstep).2.journal]
    exact h
  · exact holds_openStore h (toOption_eq_some hstep)
  · cases hstep
    exact holds_purgeRetained h hread
  · exact holds_openStore (holds_interruptedPurge h hread) (toOption_eq_some hstep)
  · simp only [step] at hstep
    split at hstep
    · cases hstep
    · apply holds_openStore _ (toOption_eq_some hstep)
      unfold prepareRecovery
      split <;> exact h

theorem sound_step (h : archive.Sound journalCodec)
    (hread : AppendsReadable calendar codec journalCodec archive call)
    (hstep : step calendar codec journalCodec archive call = some archive') :
    archive'.Sound journalCodec where
  keysDistinct := keysDistinct_step h.keysDistinct hstep
  journal := holds_step h.journal hread hstep

/-! ### Exclusion -/

/-- A pair of identity and fingerprint which is excluded, has no session and is recorded in the
journal. -/
structure Excluded (identity fingerprint : String) (archive : Archive) : Prop where
  tombstone : archive.store.isExcluded identity fingerprint = true
  absent : ∀ stored ∈ archive.store.identities, stored.2 ≠ (identity, fingerprint)
  recorded : ∃ record ∈ archive.journal.written, ∃ key,
    (key, identity, fingerprint) ∈ record.identities

theorem isExcluded_of_subset {store store' : HistoryStore}
    (hsubset : ∀ purged ∈ store.purged, purged ∈ store'.purged)
    (h : store.isExcluded identity fingerprint = true) :
    store'.isExcluded identity fingerprint = true := by
  unfold HistoryStore.isExcluded at h ⊢
  obtain ⟨purged, hmem, hmatch⟩ := List.any_eq_true.mp h
  exact List.any_eq_true.mpr ⟨purged, hsubset purged hmem, hmatch⟩

theorem absent_of_respects {store store' : HistoryStore} (hkeys : store.KeysDistinct)
    (hrespects : store.Respects store') (h : store.isExcluded identity fingerprint = true)
    (habsent : ∀ stored ∈ store.identities, stored.2 ≠ (identity, fingerprint)) :
    ∀ stored ∈ store'.identities, stored.2 ≠ (identity, fingerprint) := by
  intro stored hmem heq
  rcases hrespects.identities hkeys stored hmem with hold | hfree
  · exact habsent stored hold heq
  · rw [heq, h] at hfree
    cases hfree

theorem Excluded.of_respects (h : archive.Excluded identity fingerprint)
    (hkeys : archive.store.KeysDistinct) (hrespects : archive.store.Respects archive'.store)
    (hjournal : archive'.journal = archive.journal) :
    archive'.Excluded identity fingerprint where
  tombstone := by
    rw [HistoryStore.isExcluded_congr hrespects.purged]
    exact h.tombstone
  absent := absent_of_respects hkeys hrespects h.tombstone h.absent
  recorded := by
    rw [hjournal]
    exact h.recorded

/-- Opening a ledger again keeps its tombstones. -/
theorem excluded_openStore (h : archive.Excluded identity fingerprint)
    (hkeys : archive.store.KeysDistinct) (hopen : archive.openStore journalCodec = .ok opened) :
    opened.Excluded identity fingerprint := by
  obtain ⟨records, -, hstore, hjournal⟩ := openStore_eq_ok hopen
  have htombstone : ((records.flatMap (·.identities)).foldl restoreExclusion
      archive.store).isExcluded identity fingerprint = true :=
    isExcluded_of_subset (fun _ ↦ mem_purged_restored _) h.tombstone
  have hrespects := respects_reopen
    ((records.flatMap (·.identities)).foldl restoreExclusion archive.store)
  have hkeys' : ((records.flatMap (·.identities)).foldl restoreExclusion
      archive.store).KeysDistinct := by
    unfold HistoryStore.KeysDistinct HistoryStore.identities at hkeys ⊢
    rw [sessions_restored]
    exact hkeys
  refine ⟨?_, ?_, ?_⟩
  · rw [hstore, HistoryStore.isExcluded_congr hrespects.purged]
    exact htombstone
  · rw [hstore]
    apply absent_of_respects hkeys' hrespects htombstone
    unfold HistoryStore.identities
    rw [sessions_restored]
    exact h.absent
  · rw [hjournal]
    exact h.recorded

/-- A replacement receives the tombstones of the journal. -/
theorem excluded_replacement {now : DateTime}
    (hholds : journalCodec.Holds archive.journal.written archive.journal.file)
    (hunambiguous : JournalUnambiguous archive.journal.written)
    (hrecorded : ∃ record ∈ archive.journal.written, ∃ key,
      (key, identity, fingerprint) ∈ record.identities)
    (hopen : (archive.prepareRecovery now true).openStore journalCodec = .ok opened) :
    opened.Excluded identity fingerprint := by
  obtain ⟨records, hread, hstore, hjournal⟩ := openStore_eq_ok hopen
  obtain rfl : records = archive.journal.written := readExclusions_eq_written hholds hread
  obtain ⟨record, hrecord, key, hmem⟩ := hrecorded
  have hidentity : (key, identity, fingerprint) ∈
      archive.journal.written.flatMap (·.identities) :=
    List.mem_flatMap.mpr ⟨record, hrecord, hmem⟩
  have hrespects := respects_reopen ((archive.journal.written.flatMap (·.identities)).foldl
    restoreExclusion newInstallation.store)
  have hsessions : ((archive.journal.written.flatMap (·.identities)).foldl restoreExclusion
      newInstallation.store).identities = [] := by
    unfold HistoryStore.identities
    rw [sessions_restored]
    rfl
  have htombstone : ((archive.journal.written.flatMap (·.identities)).foldl restoreExclusion
      newInstallation.store).isExcluded identity fingerprint = true := by
    obtain ⟨purged, hpurged, hkey, hfingerprint⟩ :=
      exists_purged_restored newInstallation.store rfl hidentity
    rcases mem_purged_of_restored hpurged with hold | ⟨excluded, hexcluded, rfl⟩
    · cases hold
    · obtain rfl := hunambiguous excluded hexcluded _ hidentity hkey hfingerprint
      unfold HistoryStore.isExcluded
      refine List.any_eq_true.mpr ⟨_, hpurged, ?_⟩
      simp [Archive.tombstone]
  refine ⟨?_, ?_, ?_⟩
  · rw [hstore]
    exact (congrFun (congrFun (HistoryStore.isExcluded_congr hrespects.purged) _) _).trans
      htombstone
  · rw [hstore]
    apply absent_of_respects _ hrespects htombstone
    · rw [hsessions]
      exact fun _ h ↦ nomatch h
    · unfold HistoryStore.KeysDistinct
      rw [hsessions]
      exact List.nodup_nil
  · rw [hjournal]
    exact ⟨record, hrecord, key, hmem⟩

theorem recorded_journalAfter {candidates : List ExclusionIdentity} {now : DateTime}
    (h : ∃ record ∈ archive.journal.written, ∃ key,
      (key, identity, fingerprint) ∈ record.identities) :
    ∃ record ∈ (archive.journalAfter journalCodec candidates now).written, ∃ key,
      (key, identity, fingerprint) ∈ record.identities := by
  obtain ⟨record, hrecord, key, hmem⟩ := h
  exact ⟨record, mem_written_journalAfter hrecord, key, hmem⟩

/-- A later purge keeps the tombstones. -/
theorem excluded_purgeRetained {preview : PurgePreview} {now : DateTime}
    (h : archive.Excluded identity fingerprint) :
    (archive.purgeRetained calendar codec journalCodec preview now).2.Excluded
      identity fingerprint := by
  rcases purgeRetained_cases calendar codec journalCodec archive preview now with
    ⟨result, hresult⟩ | hsame | ⟨candidates, hconfirm, hwritten⟩
  · obtain ⟨candidates, hconfirm, -, hcommit, -⟩ :=
      purgeRetained_eq_ok (Prod.ext hresult rfl)
    obtain ⟨recorded, -, hrecorded, hremoves⟩ := commitPurge_eq_ok hcommit
    refine ⟨?_, ?_, ?_⟩
    · apply isExcluded_of_subset _ h.tombstone
      intro purged hpurged
      rw [hremoves.purged, hrecorded.store]
      exact List.mem_append_left _ hpurged
    · intro stored hstored
      rw [hremoves.identities, hrecorded.store] at hstored
      exact h.absent stored (List.mem_of_mem_filter hstored)
    · rw [hremoves.metadata.journal, hrecorded.journal]
      exact recorded_journalAfter h.recorded
  · rw [hsame]
    exact h
  · rw [hwritten]
    exact ⟨h.tombstone, h.absent, recorded_journalAfter h.recorded⟩

theorem excluded_interruptedPurge {preview : PurgePreview} {now : DateTime}
    {written : Option Nat} (h : archive.Excluded identity fingerprint) :
    (archive.interruptedPurge calendar codec journalCodec preview now written).Excluded
      identity fingerprint := by
  refine ⟨?_, ?_, ?_⟩
  · rw [interruptedPurge_store]
    exact h.tombstone
  · rw [interruptedPurge_store]
    exact h.absent
  · unfold interruptedPurge
    split
    · exact h.recorded
    · split
      · exact recorded_journalAfter h.recorded
      · exact h.recorded

/-- What is excluded stays excluded. -/
theorem excluded_step (hsound : archive.Sound journalCodec)
    (h : archive.Excluded identity fingerprint)
    (hrecover : RecoversUnambiguously archive call)
    (hstep : step calendar codec journalCodec archive call = some archive') :
    archive'.Excluded identity fingerprint := by
  rcases call.isPlain_or with hplain | rfl | ⟨preview, now, rfl⟩ |
    ⟨preview, now, written, rfl⟩ | ⟨now, moved, rfl⟩
  · obtain ⟨hrespects, hmetadata⟩ := respects_step hplain hstep
    exact h.of_respects hsound.keysDistinct hrespects hmetadata.journal
  · exact excluded_openStore h hsound.keysDistinct (toOption_eq_some hstep)
  · cases hstep
    exact excluded_purgeRetained h
  · apply excluded_openStore (excluded_interruptedPurge h) _ (toOption_eq_some hstep)
    rw [interruptedPurge_store]
    exact hsound.keysDistinct
  · simp only [step] at hstep
    split at hstep
    · cases hstep
    · cases moved with
      | true =>
        exact excluded_replacement hsound.journal hrecover h.recorded (toOption_eq_some hstep)
      | false =>
        refine excluded_openStore ?_ ?_ (toOption_eq_some hstep)
        · exact ⟨h.tombstone, h.absent, h.recorded⟩
        · exact hsound.keysDistinct

/-- A purge excludes every pair of identity and fingerprint which it removes a row of. -/
theorem excluded_of_purge {preview : PurgePreview} {now : DateTime} {result : PurgeResult}
    {row : DurableSession} (hsound : archive.Sound journalCodec)
    (hpurge : archive.purgeRetained calendar codec journalCodec preview now =
      (.ok result, archive'))
    (hrow : row ∈ archive.store.sessions) (hremoved : row.sessionKey ∈ result.removedKeys) :
    archive'.Excluded row.identityKey row.firstEventFingerprint := by
  obtain ⟨candidates, hconfirm, hwrite, hcommit, rfl⟩ := purgeRetained_eq_ok hpurge
  obtain ⟨recorded, -, hrecorded, hremoves⟩ := commitPurge_eq_ok hcommit
  have hcandidates := confirmPurge_eq_ok hconfirm
  have hcandidate : row ∈ archive.candidateRows calendar preview.cutoffUtcDay := by
    obtain ⟨identity, hidentity, hkey⟩ := List.mem_map.mp hremoved
    rw [hcandidates] at hidentity
    obtain ⟨other, hother, rfl⟩ := List.mem_map.mp hidentity
    obtain rfl : other = row :=
      HistoryStore.row_unique hsound.keysDistinct (mem_candidateRows.mp hother).1 hrow hkey
    exact hother
  have hmem : row.exclusionIdentity ∈ candidates := by
    rw [hcandidates]
    exact List.mem_map_of_mem hcandidate
  refine ⟨?_, ?_, ?_⟩
  · unfold HistoryStore.isExcluded
    rw [hremoves.purged]
    refine List.any_eq_true.mpr ⟨tombstone row.exclusionIdentity,
      List.mem_append_right _ (List.mem_map_of_mem hmem), ?_⟩
    simp [tombstone, DurableSession.exclusionIdentity]
  · intro stored hstored heq
    rw [hremoves.identities, hrecorded.store, List.mem_filter, decide_eq_true_eq] at hstored
    obtain ⟨hstored, hkept⟩ := hstored
    obtain ⟨sibling, hsibling, rfl⟩ := List.mem_map.mp hstored
    have hgroup : sameGroup row sibling = true := by
      unfold sameGroup
      rw [Bool.and_eq_true, decide_eq_true_eq, decide_eq_true_eq]
      exact ⟨congrArg Prod.fst heq, congrArg Prod.snd heq⟩
    apply hkept
    rw [hcandidates]
    exact List.mem_map_of_mem
      (List.mem_map_of_mem (mem_candidateRows_of_sameGroup hcandidate hsibling hgroup))
  · rw [hremoves.metadata.journal, hrecorded.journal]
    have hne : candidates ≠ [] := List.ne_nil_of_mem hmem
    refine ⟨⟨1, now.timestampMillis, candidates⟩, ?_, row.sessionKey, hmem⟩
    rw [written_journalAfter hwrite hne]
    exact List.mem_append_right _ (List.mem_singleton_self _)

end Archive

end AgentOdometer.History
