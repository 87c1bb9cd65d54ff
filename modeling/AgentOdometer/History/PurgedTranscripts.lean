import AgentOdometer.History.Exclusion

/-!
# Purged transcripts never return

Over every run behind a purge, the transcripts of a removed row are refused when the row had the
identity and the fingerprint of the transcript and the transcript had a token event. A transcript
without one is imported again once it has grown.
-/

namespace AgentOdometer.History

namespace Archive

open Ledger Transition

variable {calendar : Calendar} {codec : Codec} {journalCodec : JournalCodec}
  {archive purged later : Archive} {preview : PurgePreview} {now : DateTime}
  {result : PurgeResult} {row : DurableSession} {transcript extended : Session}

/-- The conditions on a call behind a purge. -/
def KeepsExclusions (calendar : Calendar) (codec : Codec) (journalCodec : JournalCodec)
    (archive : Archive) (call : ArchiveCall) : Prop :=
  AppendsReadable calendar codec journalCodec archive call ∧ RecoversUnambiguously archive call

/-- A call which observes later states of one transcript, restarts or recovers. -/
def OnlyReturns (transcript : Session) : ArchiveCall → Prop
  | .store (.observe observation) | .store (.observeBulk observation) =>
      Extends transcript observation.session
  | .store (.observeBulkBatch observations) =>
      ∀ observation ∈ observations, Extends transcript observation.session
  | .store .reopen | .recover _ _ => True
  | _ => False

theorem sound_of_reachable
    (h : ReachableVia calendar codec journalCodec (AppendsReadable calendar codec journalCodec)
      archive) : archive.Sound journalCodec :=
  Reaches.invariant (fun _ _ _ hs hok hstep ↦ sound_step hs hok hstep) h sound_newInstallation

/-- What is excluded stays excluded over a run. -/
theorem excluded_of_run {identity fingerprint : String} (hsound : archive.Sound journalCodec)
    (hexcluded : archive.Excluded identity fingerprint)
    (hrun : Reaches (step calendar codec journalCodec)
      (KeepsExclusions calendar codec journalCodec) archive later) :
    later.Sound journalCodec ∧ later.Excluded identity fingerprint := by
  induction hrun with
  | refl => exact ⟨hsound, hexcluded⟩
  | tail _ hvia ih =>
    obtain ⟨call, hok, hstep⟩ := hvia
    exact ⟨sound_step ih.1 hok.1 hstep, excluded_step ih.1 ih.2 hok.2 hstep⟩

/-- A batch of excluded transcripts writes nothing. -/
theorem observeBulkBatch_excluded {store : HistoryStore} {observations : List Observation}
    (htranscript : TranscriptOf codec row transcript) (hevents : transcript.tokensHistory ≠ [])
    (hexcluded : store.isExcluded row.identityKey row.firstEventFingerprint = true)
    (hextends : ∀ observation ∈ observations, Extends transcript observation.session) :
    store.call codec (.observeBulkBatch observations) = store := by
  cases observations with
  | nil => rfl
  | cons observation rest =>
    have hrefused := observeOne_of_isExcluded false
      (htranscript.extends (hextends observation List.mem_cons_self) hevents) hexcluded
    simp only [HistoryStore.call, HistoryStore.observeBulkBatch, hrefused]
    rfl

theorem identities_openStore {opened : Archive}
    (h : archive.openStore journalCodec = .ok opened) :
    opened.store.identities = archive.store.identities := by
  obtain ⟨records, -, hstore, -⟩ := openStore_eq_ok h
  have hreopen : ∀ store : HistoryStore, store.reopen.identities = store.identities := by
    intro store
    unfold HistoryStore.reopen
    split
    · exact HistoryStore.identities_updateWhere fun _ ↦ rfl
    · rfl
  rw [hstore, hreopen]
  unfold HistoryStore.identities
  rw [sessions_restored]

/-- Where only later states of a purged transcript are observed, no session appears. -/
theorem identities_subset_step {call : ArchiveCall}
    (htranscript : TranscriptOf codec row transcript) (hevents : transcript.tokensHistory ≠ [])
    (hexcluded : archive.Excluded row.identityKey row.firstEventFingerprint)
    (honly : OnlyReturns transcript call)
    (hstep : step calendar codec journalCodec archive call = some later) :
    later.store.identities ⊆ archive.store.identities := by
  cases call with
  | store c =>
    cases c with
    | observe observation =>
      have hrefused := observeOne_of_isExcluded true (htranscript.extends honly hevents)
        hexcluded.tombstone
      cases hstep
      simp only [callStore, HistoryStore.call, hrefused, committed]
      exact List.Subset.refl _
    | observeBulk observation =>
      have hrefused := observeOne_of_isExcluded false (htranscript.extends honly hevents)
        hexcluded.tombstone
      cases hstep
      simp only [callStore, HistoryStore.call, hrefused, committed]
      exact List.Subset.refl _
    | observeBulkBatch observations =>
      have hrefused := observeBulkBatch_excluded htranscript hevents hexcluded.tombstone honly
      cases hstep
      simp only [callStore, hrefused]
      exact List.Subset.refl _
    | reopen =>
      rw [identities_openStore (toOption_eq_some hstep)]
      exact List.Subset.refl _
    | updateSnapshotBatch now sessions => cases honly
    | overlayThreadNames updates => cases honly
    | rebuildRollups => cases honly
    | rebuildRollupsIfStale => cases honly
  | recover now moved =>
    simp only [step] at hstep
    split at hstep
    · cases hstep
    · rw [identities_openStore (toOption_eq_some hstep)]
      unfold prepareRecovery
      split
      · exact List.nil_subset _
      · exact List.Subset.refl _
  | beginScan => cases honly
  | finishScan generation => cases honly
  | markPathMissing path => cases honly
  | annotate c => cases honly
  | reassignSessionProject key projectKey => cases honly
  | clearSessionOverride key => cases honly
  | setRetentionPolicy policy => cases honly
  | purge preview now => cases honly
  | purgeInterrupted preview now written => cases honly

/-- Behind a purge of a row with the identity and the fingerprint of a transcript which has a token
event, every later state of the transcript is refused and no row of that identity and fingerprint
appears; where nothing else is observed, no session appears at all. -/
theorem purged_transcript_never_returns
    (hreach : ReachableVia calendar codec journalCodec
      (AppendsReadable calendar codec journalCodec) archive)
    (hread : AppendsReadable calendar codec journalCodec archive (.purge preview now))
    (hpurge : archive.purgeRetained calendar codec journalCodec preview now = (.ok result, purged))
    (hrow : row ∈ archive.store.sessions) (hremoved : row.sessionKey ∈ result.removedKeys)
    (htranscript : TranscriptOf codec row transcript) (hevents : transcript.tokensHistory ≠ [])
    (hrun : Reaches (step calendar codec journalCodec)
      (KeepsExclusions calendar codec journalCodec) purged later) :
    (∀ maintainRollups observation, Extends transcript observation.session →
      HistoryStore.observeOne codec maintainRollups later.store observation =
        .error .purgedSource) ∧
    (∀ stored ∈ later.store.sessions,
      ¬ (stored.identityKey = row.identityKey ∧
        stored.firstEventFingerprint = row.firstEventFingerprint)) ∧
    (Reaches (step calendar codec journalCodec) (fun archive call ↦
        KeepsExclusions calendar codec journalCodec archive call ∧ OnlyReturns transcript call)
          purged later → later.store.identities ⊆ purged.store.identities) := by
  have hsound : archive.Sound journalCodec := sound_of_reachable hreach
  have hpurged : purged.Sound journalCodec := by
    have hstep : step calendar codec journalCodec archive (.purge preview now) = some purged :=
      congrArg some (congrArg Prod.snd hpurge)
    exact sound_step hsound hread hstep
  have hexcluded := excluded_of_purge hsound hpurge hrow hremoved
  obtain ⟨-, hlater⟩ := excluded_of_run hpurged hexcluded hrun
  refine ⟨?_, ?_, ?_⟩
  · intro maintainRollups observation hextends
    exact observeOne_of_isExcluded maintainRollups (htranscript.extends hextends hevents)
      hlater.tombstone
  · rintro stored hstored ⟨hidentity, hfingerprint⟩
    apply hlater.absent _ (List.mem_map_of_mem hstored)
    exact Prod.ext hidentity hfingerprint
  · intro honly
    clear hrun hlater
    induction honly with
    | refl => exact List.Subset.refl _
    | tail hbefore hvia ih =>
      obtain ⟨call, hok, hstep⟩ := hvia
      obtain ⟨-, hmiddle⟩ := excluded_of_run hpurged hexcluded
        (Reaches.mono (fun _ _ hok ↦ hok.1) hbefore)
      exact List.Subset.trans
        (identities_subset_step htranscript hevents hmiddle hok.2 hstep) ih

/-! ### A purged thread -/

/-- A purge whose checks, journal record and transaction succeed. -/
theorem purgeRetained_of_commit {candidates : List ExclusionIdentity}
    (hconfirm : archive.confirmPurge calendar codec preview now = .ok candidates)
    (hwrite : (journalCodec.writeExclusions archive.journal.file candidates
      now.timestampMillis).1 = .ok ())
    (hcommit : ({ archive with journal := archive.journalAfter journalCodec candidates now } :
      Archive).commitPurge calendar preview.cutoffUtcDay candidates = .ok purged) :
    archive.purgeRetained calendar codec journalCodec preview now =
      (.ok ⟨candidates.map (·.1), now⟩, purged) := by
  unfold purgeRetained
  simp only [hconfirm, hwrite, hcommit]

/-- The days of January 1970, and instants at midnight. -/
def january : Calendar where
  dayText day := "1970-01-" ++ (if day < 9 then "0" else "") ++ toString (day + 1)
  parseDay text := (List.range 31).findSome? fun day ↦
    if "1970-01-" ++ (if day < 9 then "0" else "") ++ toString (day + 1) = text then
      some (day : Int)
    else none
  jsonText instant :=
    "1970-01-" ++ (if utcDay instant < 9 then "0" else "") ++ toString (utcDay instant + 1) ++
      "T00:00:00Z"
  unixSeconds text := if text = "1970-01-01T00:00:00Z" then some 0 else none

/-- Ten days after the epoch. -/
def januaryEleventh : DateTime :=
  (DateTime.ofMillis? 864000000).getD .epoch

/-- A ledger with one observed transcript, whose source is gone, and a retention of one day. -/
def retainedThread (events : List TokenHistoryPoint) : Archive :=
  { newInstallation with
    store := (newInstallation.store.call sampleCodec
      (.observe (sampleObservation (sampleSession events)))).markPathMissing "rollout.jsonl"
    retentionPolicy := ⟨some 1⟩
    retentionPolicyRevision := 1 }

/-- The identity of the thread. -/
def threadIdentity (events : List TokenHistoryPoint) : ExclusionIdentity :=
  ("codex:thread:thread", "codex:thread:thread",
    firstEventFingerprint sampleCodec (sampleSession events))

/-- The journal record of the purge. -/
def threadRecord (events : List TokenHistoryPoint) : ExclusionRecord :=
  ⟨1, januaryEleventh.timestampMillis, [threadIdentity events]⟩

/-- The preview of the purge. -/
def threadPreview (events : List TokenHistoryPoint) : PurgePreview :=
  ((retainedThread events).previewPurge january sampleCodec januaryEleventh).toOption.getD
    ⟨"", 0, 0, 0, 0, .zero, ""⟩

/-- The ledger behind the purge. -/
def purgedThread (events : List TokenHistoryPoint) : Archive :=
  (({ retainedThread events with
    journal := (retainedThread events).journalAfter (plainCodec (threadRecord events))
      [threadIdentity events] januaryEleventh } : Archive).commitPurge january
        (threadPreview events).cutoffUtcDay [threadIdentity events]).toOption.getD newInstallation

theorem reachable_retainedThread (journalCodec : JournalCodec) (events : List TokenHistoryPoint) :
    ReachableVia january sampleCodec journalCodec
      (AppendsReadable january sampleCodec journalCodec) (retainedThread events) := by
  let observed : Archive :=
    newInstallation.callStore sampleCodec (.observe (sampleObservation (sampleSession events)))
  let missing : Archive :=
    { observed with store := observed.store.markPathMissing "rollout.jsonl" }
  have hobserved : ReachableVia january sampleCodec journalCodec
      (AppendsReadable january sampleCodec journalCodec) observed :=
    Reaches.tail (a := .store (.observe (sampleObservation (sampleSession events))))
      (Reaches.refl _) trivial rfl
  have hmissing : ReachableVia january sampleCodec journalCodec
      (AppendsReadable january sampleCodec journalCodec) missing :=
    Reaches.tail (a := .markPathMissing "rollout.jsonl") hobserved trivial rfl
  exact Reaches.tail (a := .setRetentionPolicy ⟨some 1⟩) hmissing trivial rfl

/-- The purge of a thread, for a history whose preview names it. -/
theorem purge_retainedThread {events : List TokenHistoryPoint}
    (hconfirm : ((retainedThread events).confirmPurge january sampleCodec (threadPreview events)
      januaryEleventh).toOption = some [threadIdentity events])
    (hfits : (plainBytes (threadRecord events)).length < maxRecordBytes)
    (hcommit : (({ retainedThread events with
      journal := (retainedThread events).journalAfter (plainCodec (threadRecord events))
        [threadIdentity events] januaryEleventh } : Archive).commitPurge january
          (threadPreview events).cutoffUtcDay [threadIdentity events]).toOption.isSome = true) :
    (retainedThread events).purgeRetained january sampleCodec (plainCodec (threadRecord events))
      (threadPreview events) januaryEleventh =
        (.ok ⟨["codex:thread:thread"], januaryEleventh⟩, purgedThread events) := by
  refine purgeRetained_of_commit (toOption_eq_some hconfirm) ?_ ?_
  · exact congrArg Prod.fst (Journal.writeExclusions_first (List.cons_ne_nil _ _) hfits)
  · obtain ⟨archive, harchive⟩ := Option.isSome_iff_exists.mp hcommit
    unfold purgedThread
    rw [harchive]
    exact toOption_eq_some harchive

/-- The row of the thread. -/
theorem exists_row_retainedThread (events : List TokenHistoryPoint)
    (hcount : (retainedThread events).store.sessions.length = 1)
    (hidentity : (retainedThread events).store.identities = [threadIdentity events]) :
    ∃ row ∈ (retainedThread events).store.sessions,
      row.exclusionIdentity = threadIdentity events ∧
        TranscriptOf sampleCodec row (sampleSession events) := by
  obtain ⟨row, hrow⟩ := List.length_eq_one_iff.mp hcount
  have hrowIdentity : row.exclusionIdentity = threadIdentity events := by
    unfold HistoryStore.identities at hidentity
    rw [hrow] at hidentity
    exact List.head_eq_of_cons_eq hidentity
  have hthread : effectiveStorageId (Session.blank .codex "thread" .epoch) =
      "codex:thread:thread" := by decide +kernel
  have hprovider : hasProviderId (Session.blank .codex "thread" .epoch) = true := by
    decide +kernel
  refine ⟨row, by rw [hrow]; exact List.mem_singleton_self row, hrowIdentity, hprovider, ?_, ?_⟩
  · exact hthread.trans (congrArg (·.2.1) hrowIdentity).symm
  · exact (congrArg (·.2.2) hrowIdentity).symm

/-- The record of the thread's purge is read back. -/
theorem appendsReadable_retainedThread {events : List TokenHistoryPoint}
    (hconfirm : ((retainedThread events).confirmPurge january sampleCodec (threadPreview events)
      januaryEleventh).toOption = some [threadIdentity events])
    (hline : newline ∉ plainBytes (threadRecord events)) :
    AppendsReadable january sampleCodec (plainCodec (threadRecord events))
      (retainedThread events) (.purge (threadPreview events) januaryEleventh) := by
  intro candidates hcandidates
  cases (toOption_eq_some hconfirm).symm.trans hcandidates
  exact readsBack_plainCodec hline

/-- The thread with one event is purged, and observed with two. -/
theorem purged_transcript_never_returns_thread :
    ∃ row ∈ (retainedThread [sampleEvent 5]).store.sessions,
      (∀ maintainRollups observation,
        Extends (sampleSession [sampleEvent 5]) observation.session →
          HistoryStore.observeOne sampleCodec maintainRollups
            ((purgedThread [sampleEvent 5]).callStore sampleCodec (.observe (sampleObservation
              (sampleSession [sampleEvent 5, sampleEvent 10])))).store observation =
                .error .purgedSource) ∧
      (∀ stored ∈ ((purgedThread [sampleEvent 5]).callStore sampleCodec (.observe
          (sampleObservation (sampleSession [sampleEvent 5, sampleEvent 10])))).store.sessions,
        ¬ (stored.identityKey = row.identityKey ∧
          stored.firstEventFingerprint = row.firstEventFingerprint)) ∧
      (Reaches (step january sampleCodec (plainCodec (threadRecord [sampleEvent 5])))
          (fun archive call ↦ KeepsExclusions january sampleCodec
            (plainCodec (threadRecord [sampleEvent 5])) archive call ∧
              OnlyReturns (sampleSession [sampleEvent 5]) call)
          (purgedThread [sampleEvent 5])
          ((purgedThread [sampleEvent 5]).callStore sampleCodec (.observe (sampleObservation
            (sampleSession [sampleEvent 5, sampleEvent 10])))) →
        ((purgedThread [sampleEvent 5]).callStore sampleCodec (.observe (sampleObservation
          (sampleSession [sampleEvent 5, sampleEvent 10])))).store.identities ⊆
            (purgedThread [sampleEvent 5]).store.identities) := by
  have hconfirm : ((retainedThread [sampleEvent 5]).confirmPurge january sampleCodec
      (threadPreview [sampleEvent 5]) januaryEleventh).toOption =
        some [threadIdentity [sampleEvent 5]] := by decide +kernel
  have hpurge := purge_retainedThread hconfirm (by decide +kernel) (by decide +kernel)
  obtain ⟨row, hrow, hidentity, htranscript⟩ :=
    exists_row_retainedThread [sampleEvent 5] (by decide +kernel) (by decide +kernel)
  have hkey : row.sessionKey = "codex:thread:thread" := congrArg (·.1) hidentity
  refine ⟨row, hrow, purged_transcript_never_returns (reachable_retainedThread _ _)
    (appendsReadable_retainedThread hconfirm (by decide +kernel)) hpurge hrow
    (List.mem_singleton.mpr hkey) htranscript (List.cons_ne_nil _ _) ?_⟩
  exact Reaches.tail (a := .store (.observe (sampleObservation
    (sampleSession [sampleEvent 5, sampleEvent 10])))) (Reaches.refl _) ⟨trivial, trivial⟩ rfl

/-- A thread without token events is purged and imported again once it has one. -/
theorem purged_transcript_returns :
    ¬ ∀ (calendar : Calendar) (codec : Codec) (journalCodec : JournalCodec)
      (archive purged : Archive) (preview : PurgePreview) (now : DateTime) (result : PurgeResult)
      (row : DurableSession) (transcript : Session),
      ReachableVia calendar codec journalCodec (AppendsReadable calendar codec journalCodec)
        archive →
      AppendsReadable calendar codec journalCodec archive (.purge preview now) →
      archive.purgeRetained calendar codec journalCodec preview now = (.ok result, purged) →
      row ∈ archive.store.sessions → row.sessionKey ∈ result.removedKeys →
      TranscriptOf codec row transcript →
      ∀ observation, Extends transcript observation.session →
        HistoryStore.observeOne codec true purged.store observation = .error .purgedSource := by
  intro h
  have hconfirm : ((retainedThread []).confirmPurge january sampleCodec (threadPreview [])
      januaryEleventh).toOption = some [threadIdentity []] := by decide +kernel
  have hpurge := purge_retainedThread hconfirm (by decide +kernel) (by decide +kernel)
  obtain ⟨row, hrow, hidentity, htranscript⟩ :=
    exists_row_retainedThread [] (by decide +kernel) (by decide +kernel)
  have hextends : Extends (sampleSession []) (sampleSession [sampleEvent 5]) :=
    ⟨rfl, rfl, rfl, rfl, List.nil_prefix⟩
  have hrefused := h january sampleCodec (plainCodec (threadRecord [])) (retainedThread [])
    (purgedThread []) (threadPreview []) januaryEleventh _ row (sampleSession [])
    (reachable_retainedThread _ _) (appendsReadable_retainedThread hconfirm (by decide +kernel))
    hpurge hrow (List.mem_singleton.mpr (congrArg (·.1) hidentity)) htranscript
    (sampleObservation (sampleSession [sampleEvent 5])) hextends
  have himported : (HistoryStore.observeOne sampleCodec true (purgedThread []).store
      (sampleObservation (sampleSession [sampleEvent 5]))).toOption.isSome = true := by
    decide +kernel
  rw [hrefused] at himported
  cases himported

end Archive

end AgentOdometer.History
