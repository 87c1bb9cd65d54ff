import AgentOdometer.History.PurgedTranscripts

/-!
# Dated coverage proofs

The loss bound, the tombstone count and the purge revision of `history_meta` over every run: a
proof which `accounting_coverage_since` returns bounds every event of every purged session, and
its revision counts the purges which removed a session.
-/

namespace AgentOdometer.History

open Ledger Transition

/-! ### The bound -/

/-- The timestamps of the token and tool events of a session. -/
def eventTimestamps (content : SessionContent) : List Int :=
  content.facts.tokens.map (·.timestampMs) ++ content.facts.tools.map (·.timestampMs)

namespace Archive

variable {calendar : Calendar} {codec : Codec} {journalCodec : JournalCodec}
  {archive archive' opened : Archive} {call : ArchiveCall}

theorem le_raise (highest : Int) (timestamps : List Int) : highest ≤ raise highest timestamps := by
  unfold raise
  induction timestamps generalizing highest with
  | nil => exact le_refl _
  | cons t rest ih => exact le_trans (le_max_left _ _) (ih (max highest t))

theorem le_raise_of_mem {highest t : Int} {timestamps : List Int} (h : t ∈ timestamps) :
    t ≤ raise highest timestamps := by
  unfold raise
  induction timestamps generalizing highest with
  | nil => cases h
  | cons u rest ih =>
    rcases List.mem_cons.mp h with rfl | hrest
    · exact le_trans (le_max_right _ _) (le_raise (max highest t) rest)
    · exact ih hrest

/-- The bound of a session is that of its events. -/
theorem le_sessionBound {content : SessionContent} {bound : Int}
    (h : sessionBound calendar content = some bound) :
    0 ≤ bound ∧ ∀ t ∈ eventTimestamps content, t ≤ bound := by
  unfold sessionBound at h
  simp only [Option.bind_eq_bind, Option.bind_eq_some_iff] at h
  obtain ⟨snapshot, -, start, -, finish, -, h⟩ := h
  split at h
  · cases h
  · simp only [Option.bind_eq_some_iff] at h
    obtain ⟨highest, hhighest, h⟩ := h
    split at h
    · cases h
    · next hsign =>
      cases h
      have hraised : raise (max start finish) (eventTimestamps content) ≤ bound := by
        cases hhour : lastHour content with
        | none =>
          rw [hhour] at hhighest
          cases hhighest
          exact le_refl _
        | some hour =>
          rw [hhour] at hhighest
          obtain ⟨hourBound, -, rfl⟩ := Option.map_eq_some_iff.mp hhighest
          exact le_max_left _ _
      refine ⟨by omega, ?_⟩
      intro t ht
      exact le_trans (le_raise_of_mem ht) hraised

theorem le_accountingLossBound {rows : List DurableSession} {bound : Int}
    (h : accountingLossBound calendar rows = some bound) :
    0 ≤ bound ∧ ∀ row ∈ rows, ∀ t ∈ eventTimestamps row.content, t ≤ bound := by
  induction rows generalizing bound with
  | nil => cases h
  | cons row rest ih =>
    cases rest with
    | nil =>
      obtain ⟨hsign, hle⟩ := le_sessionBound h
      refine ⟨hsign, ?_⟩
      intro other hother
      rw [List.mem_singleton.mp hother]
      exact hle
    | cons next rest =>
      simp only [accountingLossBound, Option.bind_eq_bind, Option.bind_eq_some_iff, pure,
        Option.some.injEq] at h
      obtain ⟨own, hown, others, hothers, rfl⟩ := h
      obtain ⟨hsign, hle⟩ := le_sessionBound hown
      obtain ⟨-, hrest⟩ := ih hothers
      refine ⟨le_trans hsign (le_max_left _ _), ?_⟩
      intro other hother t ht
      rcases List.mem_cons.mp hother with rfl | hother
      · exact le_trans (hle t ht) (le_max_left _ _)
      · exact le_trans (hrest other hother t ht) (le_max_right _ _)

/-! ### What is committed -/

/-- A purge with the rows it removed, or the replacement of the database. -/
inductive Loss where
  | purge (removed : List DurableSession)
  | replacement
deriving DecidableEq

/-- Whether a loss removed a session. -/
def Loss.removesSessions : Loss → Bool
  | .purge removed => !removed.isEmpty
  | .replacement => true

/-- What a call commits. -/
def committedBy (calendar : Calendar) (codec : Codec) (journalCodec : JournalCodec)
    (archive : Archive) : ArchiveCall → List Loss
  | .purge preview now =>
      match (archive.purgeRetained calendar codec journalCodec preview now).1 with
      | .error _ => []
      | .ok result =>
          [.purge (archive.store.sessions.filter (·.sessionKey ∈ result.removedKeys))]
  | .recover _ true => [.replacement]
  | _ => []

/-- An archive with what was committed so far. -/
structure Audited where
  archive : Archive
  committed : List Loss

/-- A call and what it commits. -/
def auditedStep (calendar : Calendar) (codec : Codec) (journalCodec : JournalCodec)
    (state : Audited) (call : ArchiveCall) : Option Audited :=
  (step calendar codec journalCodec state.archive call).map fun archive ↦
    ⟨archive, state.committed ++ committedBy calendar codec journalCodec state.archive call⟩

/-- The beginning of every run. -/
def Audited.start : Audited :=
  ⟨newInstallation, []⟩

/-- The purges which removed a session. -/
def purgeCount (committed : List Loss) : Nat :=
  committed.countP Loss.removesSessions

/-- The events of every purged session are within a bound. -/
def BoundedBy (committed : List Loss) (bound : Int) : Prop :=
  ∀ removed, Loss.purge removed ∈ committed → ∀ row ∈ removed,
    ∀ t ∈ eventTimestamps row.content, t ≤ bound

/-- What the metadata of an archive without a recovery marker says about the losses. -/
structure Accounted (archive : Archive) (committed : List Loss) : Prop where
  kept : Loss.replacement ∉ committed
  complete : archive.store.purged = [] → purgeCount committed = 0
  counted : ∀ count, archive.lossTombstoneCount = some count →
    count ≤ archive.store.purged.length
  bounded : ∀ bound revision, archive.lossBoundMs = some bound →
    archive.lossTombstoneCount = some archive.store.purged.length →
      archive.lossRevision = some revision →
        BoundedBy committed bound ∧ revision = purgeCount committed

theorem accounted_start : Accounted newInstallation [] where
  kept := List.not_mem_nil
  complete := fun _ ↦ rfl
  counted := fun _ h ↦ nomatch h
  bounded := fun _ _ h ↦ nomatch h

/-- A call which adds tombstones at most and commits nothing. -/
theorem Accounted.of_same {committed : List Loss} (h : Accounted archive committed)
    (hpurged : archive.store.purged <+: archive'.store.purged)
    (hbound : archive'.lossBoundMs = archive.lossBoundMs)
    (hcount : archive'.lossTombstoneCount = archive.lossTombstoneCount)
    (hrevision : archive'.lossRevision = archive.lossRevision) :
    Accounted archive' committed where
  kept := h.kept
  complete := by
    intro hnil
    rw [hnil] at hpurged
    exact h.complete (List.prefix_nil.mp hpurged)
  counted := by
    intro count hsome
    rw [hcount] at hsome
    exact le_trans (h.counted count hsome) hpurged.length_le
  bounded := by
    intro bound revision hbound' hcount' hrevision'
    rw [hbound] at hbound'
    rw [hcount] at hcount'
    rw [hrevision] at hrevision'
    have hlength : archive.store.purged.length = archive'.store.purged.length :=
      le_antisymm hpurged.length_le (h.counted _ hcount')
    exact h.bounded bound revision hbound' (by rw [hcount', hlength]) hrevision'

theorem purged_restored (identities : List ExclusionIdentity) (store : HistoryStore) :
    store.purged <+: (identities.foldl restoreExclusion store).purged := by
  induction identities generalizing store with
  | nil => exact List.prefix_refl _
  | cons identity rest ih =>
    refine List.IsPrefix.trans ?_ (ih _)
    unfold restoreExclusion
    split
    · exact List.prefix_refl _
    · exact List.prefix_append _ _

/-- Opening a ledger adds tombstones at most, and leaves the loss metadata and the marker. -/
theorem openStore_loss (h : archive.openStore journalCodec = .ok opened) :
    archive.store.purged <+: opened.store.purged ∧ opened.lossBoundMs = archive.lossBoundMs ∧
      opened.lossTombstoneCount = archive.lossTombstoneCount ∧
      opened.lossRevision = archive.lossRevision ∧ opened.marker = archive.marker := by
  obtain ⟨records, -, hstore, -⟩ := openStore_eq_ok h
  refine ⟨?_, ?_⟩
  · rw [hstore, (respects_reopen _).purged]
    exact purged_restored _ _
  · simp only [openStore, restoreExclusions, bind_eq_ok, pure, Except.pure,
      Except.ok.injEq] at h
    obtain ⟨_, ⟨records, -, rfl⟩, rfl⟩ := h
    unfold applyMarker
    split <;> exact ⟨rfl, rfl, rfl, rfl⟩

/-! ### Purges -/

theorem boundedBy_of_purgeCount {committed : List Loss} (h : purgeCount committed = 0)
    (bound : Int) : BoundedBy committed bound := by
  intro removed hmem row hrow
  have hempty : (!removed.isEmpty) = false :=
    Bool.eq_false_iff.mpr (List.countP_eq_zero.mp h _ hmem)
  cases removed with
  | nil => cases hrow
  | cons other rest => cases hempty

theorem BoundedBy.mono {committed : List Loss} {bound larger : Int}
    (h : BoundedBy committed bound) (hle : bound ≤ larger) : BoundedBy committed larger :=
  fun removed hmem row hrow t ht ↦ le_trans (h removed hmem row hrow t ht) hle

theorem BoundedBy.append {committed : List Loss} {removed : List DurableSession} {bound : Int}
    (h : BoundedBy committed bound)
    (hremoved : ∀ row ∈ removed, ∀ t ∈ eventTimestamps row.content, t ≤ bound) :
    BoundedBy (committed ++ [.purge removed]) bound := by
  intro other hmem
  rcases List.mem_append.mp hmem with hmem | hmem
  · exact h other hmem
  · cases List.mem_singleton.mp hmem
    exact hremoved

theorem purgeCount_append (committed : List Loss) (removed : List DurableSession) :
    purgeCount (committed ++ [.purge removed]) =
      purgeCount committed + if removed = [] then 0 else 1 := by
  unfold purgeCount
  rw [List.countP_append, List.countP_singleton]
  cases removed <;> rfl

/-- An empty purge loses nothing. -/
theorem Accounted.append_empty {committed : List Loss} (h : Accounted archive committed) :
    Accounted archive (committed ++ [.purge []]) where
  kept := by
    intro hmem
    rcases List.mem_append.mp hmem with hmem | hmem
    · exact h.kept hmem
    · cases List.mem_singleton.mp hmem
  complete := by
    intro hnil
    rw [purgeCount_append, if_pos rfl]
    exact h.complete hnil
  counted := h.counted
  bounded := by
    intro bound revision hbound hcount hrevision
    obtain ⟨hbounded, hsame⟩ := h.bounded bound revision hbound hcount hrevision
    rw [purgeCount_append, if_pos rfl]
    exact ⟨hbounded.append (fun _ hrow ↦ nomatch hrow), hsame⟩

/-- The proof which a purge continues is right. -/
theorem previousProof_accounted {committed : List Loss} {previous : Option Int} {revision : Nat}
    (h : Accounted archive committed)
    (hprevious : archive.previousProof = some (previous, revision)) :
    revision = purgeCount committed ∧
      ∀ current, BoundedBy committed ((previous.map (max · current)).getD current) := by
  unfold previousProof at hprevious
  simp only at hprevious
  split at hprevious
  · cases hprevious
  · split at hprevious
    · next hnil =>
      split at hprevious
      · cases hprevious
        have hcount := h.complete (List.length_eq_zero_iff.mp hnil)
        exact ⟨hcount.symm, fun current ↦ boundedBy_of_purgeCount hcount _⟩
      · cases hprevious
    · split at hprevious
      · next bound count stored hbound hcount hrevision =>
        split at hprevious
        · next hvalid =>
          cases hprevious
          obtain ⟨-, rfl, -⟩ := hvalid
          obtain ⟨hbounded, hsame⟩ := h.bounded bound _ hbound hcount hrevision
          exact ⟨hsame, fun current ↦ hbounded.mono (le_max_left _ _)⟩
        · cases hprevious
      · cases hprevious

/-- The metadata of a purge which removes sessions is right. -/
theorem accounted_recordLoss {committed : List Loss} {recorded : Archive}
    {removed : List DurableSession} {count : Nat} {newBound : Option Int}
    (h : Accounted archive committed)
    (hrecord : archive.recordLoss count newBound = .ok recorded)
    (hbound : ∀ bound, newBound = some bound → ∀ row ∈ removed,
      ∀ t ∈ eventTimestamps row.content, t ≤ bound)
    (hremoved : removed ≠ []) (hcount : 0 < count)
    (hloss : archive'.lossBoundMs = recorded.lossBoundMs ∧
      archive'.lossTombstoneCount = recorded.lossTombstoneCount ∧
      archive'.lossRevision = recorded.lossRevision)
    (hlength : archive'.store.purged.length = archive.store.purged.length + count) :
    Accounted archive' (committed ++ [.purge removed]) := by
  obtain ⟨hloss, hlossCount, hlossRevision⟩ := hloss
  have hkept : Loss.replacement ∉ committed ++ [.purge removed] := by
    intro hmem
    rcases List.mem_append.mp hmem with hmem | hmem
    · exact h.kept hmem
    · cases List.mem_singleton.mp hmem
  have hne : archive'.store.purged ≠ [] := by
    intro hnil
    rw [hnil, List.length_nil] at hlength
    omega
  unfold recordLoss at hrecord
  simp only at hrecord
  split at hrecord
  · next previous revision current hprevious =>
    simp only [bind_eq_ok, pure, Except.pure, Except.ok.injEq] at hrecord
    obtain ⟨_, -, _, -, rfl⟩ := hrecord
    obtain ⟨hrevision, hbounded⟩ := previousProof_accounted h hprevious
    refine ⟨hkept, fun hnil ↦ absurd hnil hne, ?_, ?_⟩
    · intro stored hstored
      rw [hlossCount] at hstored
      cases hstored
      exact le_of_eq hlength.symm
    · intro bound stored hstored _ hstoredRevision
      rw [hloss] at hstored
      rw [hlossRevision] at hstoredRevision
      cases hstored
      cases hstoredRevision
      have hcurrent : current ≤ (previous.map (max · current)).getD current := by
        cases previous with
        | none => exact le_refl _
        | some old => exact le_max_right _ _
      refine ⟨(hbounded current).append ?_, ?_⟩
      · intro row hrow t ht
        exact le_trans (hbound current rfl row hrow t ht) hcurrent
      · rw [purgeCount_append, if_neg hremoved, hrevision]
  · cases hrecord
    refine ⟨hkept, fun hnil ↦ absurd hnil hne, ?_, ?_⟩
    · intro stored hstored
      rw [hlossCount] at hstored
      cases hstored
    · intro bound stored hstored
      rw [hloss] at hstored
      cases hstored

/-- A purge which returns is accounted for. -/
theorem accounted_purge {committed : List Loss} {preview : PurgePreview} {now : DateTime}
    {result : PurgeResult} (h : Accounted archive committed) (hkeys : archive.store.KeysDistinct)
    (hpurge : archive.purgeRetained calendar codec journalCodec preview now =
      (.ok result, archive')) :
    Accounted archive' (committed ++
      [.purge (archive.store.sessions.filter (·.sessionKey ∈ result.removedKeys))]) := by
  obtain ⟨candidates, hconfirm, -, hcommit, rfl⟩ := purgeRetained_eq_ok hpurge
  obtain ⟨recorded, hrecord, hrecorded, hremoves⟩ := commitPurge_eq_ok hcommit
  have hcandidates := confirmPurge_eq_ok hconfirm
  have hpurged : archive'.store.purged = archive.store.purged ++ candidates.map tombstone := by
    rw [hremoves.purged, hrecorded.store]
  have hloss : archive'.lossBoundMs = recorded.lossBoundMs ∧
      archive'.lossTombstoneCount = recorded.lossTombstoneCount ∧
      archive'.lossRevision = recorded.lossRevision :=
    ⟨hremoves.metadata.lossBoundMs, hremoves.metadata.lossTombstoneCount,
      hremoves.metadata.lossRevision⟩
  by_cases hnil : candidates = []
  · subst hnil
    cases hrecord
    have hsame : Accounted archive' committed :=
      h.of_same (by rw [hpurged]; exact List.prefix_append _ _) hloss.1 hloss.2.1 hloss.2.2
    have hremoved : (archive.store.sessions.filter fun row ↦
        row.sessionKey ∈ ([] : List ExclusionIdentity).map (·.1)) = [] :=
      List.filter_eq_nil_iff.mpr fun _ _ hmem ↦ nomatch of_decide_eq_true hmem
    rw [hremoved]
    exact hsame.append_empty
  · have hlength : candidates.length ≠ 0 := fun hzero ↦ hnil (List.length_eq_zero_iff.mp hzero)
    unfold recordPurge at hrecord
    rw [if_neg hlength] at hrecord
    have hrows : ∀ row ∈ archive.store.sessions.filter (·.sessionKey ∈ candidates.map (·.1)),
        row ∈ archive.candidateRows calendar preview.cutoffUtcDay := by
      intro row hrow
      rw [List.mem_filter, decide_eq_true_eq] at hrow
      obtain ⟨identity, hidentity, hkey⟩ := List.mem_map.mp hrow.2
      rw [hcandidates] at hidentity
      obtain ⟨other, hother, rfl⟩ := List.mem_map.mp hidentity
      obtain rfl : other = row :=
        HistoryStore.row_unique hkeys (mem_candidateRows.mp hother).1 hrow.1 hkey
      exact hother
    have hremoved : (archive.store.sessions.filter fun row ↦
        row.sessionKey ∈ candidates.map (·.1)) ≠ [] := by
      obtain ⟨identity, hidentity⟩ := List.exists_mem_of_ne_nil _ hnil
      have hmem := hidentity
      rw [hcandidates] at hmem
      obtain ⟨row, hrow, rfl⟩ := List.mem_map.mp hmem
      apply List.ne_nil_of_mem (a := row)
      rw [List.mem_filter, decide_eq_true_eq]
      exact ⟨(mem_candidateRows.mp hrow).1, List.mem_map_of_mem hidentity⟩
    have hwritten : Accounted ({ archive with
        journal := archive.journalAfter journalCodec candidates now } : Archive) committed :=
      h.of_same (List.prefix_refl _) rfl rfl rfl
    apply accounted_recordLoss hwritten hrecord _ hremoved (Nat.pos_of_ne_zero hlength) hloss
    · rw [hpurged, List.length_append, List.length_map]
    · intro bound hbound row hrow
      exact (le_accountingLossBound hbound).2 row (hrows row hrow)

/-! ### Runs -/

theorem marker_openStore (h : archive.openStore journalCodec = .ok opened)
    (hmarker : opened.marker = none) : archive.marker = none := by
  rw [(openStore_loss h).2.2.2.2] at hmarker
  exact hmarker

theorem accounted_openStore {committed : List Loss} (h : Accounted archive committed)
    (hopen : archive.openStore journalCodec = .ok opened) : Accounted opened committed := by
  obtain ⟨hpurged, hbound, hcount, hrevision, -⟩ := openStore_loss hopen
  exact h.of_same hpurged hbound hcount hrevision

theorem interruptedPurge_loss (calendar : Calendar) (codec : Codec) (journalCodec : JournalCodec)
    (archive : Archive) (preview : PurgePreview) (now : DateTime) (written : Option Nat) :
    let left := archive.interruptedPurge calendar codec journalCodec preview now written
    left.lossBoundMs = archive.lossBoundMs ∧ left.lossTombstoneCount = archive.lossTombstoneCount ∧
      left.lossRevision = archive.lossRevision ∧ left.marker = archive.marker := by
  unfold interruptedPurge
  simp only
  split
  · exact ⟨rfl, rfl, rfl, rfl⟩
  · split <;> exact ⟨rfl, rfl, rfl, rfl⟩

/-- What an archive without a marker says about its losses, once it says so. -/
def AccountedUnmarked (state : Audited) : Prop :=
  state.archive.store.KeysDistinct ∧
    (state.archive.marker = none → Accounted state.archive state.committed)

theorem committedBy_plain (hplain : call.isPlain = true) :
    committedBy calendar codec journalCodec archive call = [] := by
  cases call with
  | purge preview now => cases hplain
  | recover now moved => cases hplain
  | store c => rfl
  | beginScan => rfl
  | finishScan generation => rfl
  | markPathMissing path => rfl
  | annotate c => rfl
  | reassignSessionProject key projectKey => rfl
  | clearSessionOverride key => rfl
  | setRetentionPolicy policy => rfl
  | purgeInterrupted preview now written => cases hplain

/-- A purge is accounted for, whether or not it returns. -/
theorem accounted_purgeRetained {committed : List Loss} {preview : PurgePreview} {now : DateTime}
    (hkeys : archive.store.KeysDistinct)
    (h : archive.marker = none → Accounted archive committed)
    (hmarker : (archive.purgeRetained calendar codec journalCodec preview now).2.marker = none) :
    Accounted (archive.purgeRetained calendar codec journalCodec preview now).2
      (committed ++ committedBy calendar codec journalCodec archive (.purge preview now)) := by
  simp only [committedBy]
  cases houtcome : (archive.purgeRetained calendar codec journalCodec preview now).1 with
  | error e =>
    rcases purgeRetained_cases calendar codec journalCodec archive preview now with
      ⟨result, hresult⟩ | hsame | ⟨candidates, -, hwritten⟩
    · cases hresult.symm.trans houtcome
    · rw [hsame] at hmarker ⊢
      rw [List.append_nil]
      exact h hmarker
    · rw [hwritten] at hmarker ⊢
      rw [List.append_nil]
      exact (h hmarker).of_same (List.prefix_refl _) rfl rfl rfl
  | ok result =>
    have hpurge : archive.purgeRetained calendar codec journalCodec preview now =
        (.ok result, (archive.purgeRetained calendar codec journalCodec preview now).2) :=
      Prod.ext houtcome rfl
    obtain ⟨candidates, -, -, hcommit, -⟩ := purgeRetained_eq_ok hpurge
    obtain ⟨recorded, -, hrecorded, hremoves⟩ := commitPurge_eq_ok hcommit
    rw [hremoves.metadata.marker, hrecorded.marker] at hmarker
    exact accounted_purge (h hmarker) hkeys hpurge

theorem accounted_step {state state' : Audited} (h : AccountedUnmarked state)
    (hstep : auditedStep calendar codec journalCodec state call = some state') :
    AccountedUnmarked state' := by
  obtain ⟨archive', hcall, rfl⟩ := Option.map_eq_some_iff.mp hstep
  refine ⟨keysDistinct_step h.1 hcall, ?_⟩
  intro hmarker
  change archive'.marker = none at hmarker
  rcases call.isPlain_or with hplain | rfl | ⟨preview, now, rfl⟩ |
    ⟨preview, now, written, rfl⟩ | ⟨now, moved, rfl⟩
  · obtain ⟨hrespects, hmetadata⟩ := respects_step hplain hcall
    rw [hmetadata.marker] at hmarker
    rw [committedBy_plain hplain, List.append_nil]
    refine (h.2 hmarker).of_same ?_ hmetadata.lossBoundMs hmetadata.lossTombstoneCount
      hmetadata.lossRevision
    rw [hrespects.purged]
  · have hopen : state.archive.openStore journalCodec = .ok archive' := toOption_eq_some hcall
    simp only [committedBy, List.append_nil]
    exact accounted_openStore (h.2 (marker_openStore hopen hmarker)) hopen
  · cases hcall
    exact accounted_purgeRetained h.1 h.2 hmarker
  · have hopen := toOption_eq_some hcall
    obtain ⟨hbound, hcount, hrevision, hsame⟩ := interruptedPurge_loss calendar codec
      journalCodec state.archive preview now written
    have hunmarked := marker_openStore hopen hmarker
    rw [hsame] at hunmarked
    simp only [committedBy, List.append_nil]
    refine accounted_openStore ((h.2 hunmarked).of_same ?_ hbound hcount hrevision) hopen
    rw [interruptedPurge_store]
  · simp only [step] at hcall
    split at hcall
    · cases hcall
    · have hunmarked := marker_openStore (toOption_eq_some hcall) hmarker
      unfold prepareRecovery at hunmarked
      split at hunmarked <;> cases hunmarked

theorem accounted_start_unmarked : AccountedUnmarked .start :=
  ⟨List.nodup_nil, fun _ ↦ accounted_start⟩

theorem accounted_of_run {state state' : Audited} (h : AccountedUnmarked state)
    (hrun : Reaches (auditedStep calendar codec journalCodec) always state state') :
    AccountedUnmarked state' :=
  Reaches.invariant (fun _ _ _ hs _ hstep ↦ accounted_step hs hstep) hrun h

theorem accounted_reached {state : Audited}
    (hreach : Reaches (auditedStep calendar codec journalCodec) always .start state) :
    AccountedUnmarked state :=
  accounted_of_run accounted_start_unmarked hreach

/-- What is committed is not taken back. -/
theorem committed_of_run {state state' : Audited}
    (hrun : Reaches (auditedStep calendar codec journalCodec) always state state') :
    state.committed <+: state'.committed := by
  induction hrun with
  | refl => exact List.prefix_refl _
  | tail _ hvia ih =>
    obtain ⟨call, -, hstep⟩ := hvia
    obtain ⟨archive', -, rfl⟩ := Option.map_eq_some_iff.mp hstep
    exact ih.trans (List.prefix_append _ _)

/-! ### Proofs -/

/-- What a proof was read from. -/
theorem accountingCoverageSince_eq_some {ε : Type} {exclusions : Except ε Unit} {fromMs : Int}
    {proof : AccountingCoverageProof}
    (h : archive.accountingCoverageSince exclusions fromMs = .ok (some proof)) :
    archive.marker = none ∧
      ((archive.store.purged = [] ∧ proof = ⟨none, 0, 0⟩) ∨
        ∃ bound revision, archive.lossBoundMs = some bound ∧ bound < fromMs ∧
          archive.lossTombstoneCount = some archive.store.purged.length ∧
          archive.lossRevision = some revision ∧
          proof = ⟨some bound, archive.store.purged.length, revision⟩) := by
  unfold accountingCoverageSince at h
  obtain ⟨_, -, h⟩ := bind_eq_ok.mp h
  split at h
  · cases h
  · next hrecovered =>
    rw [Bool.or_eq_true, not_or] at hrecovered
    have hmarker : archive.marker = none :=
      Option.not_isSome_iff_eq_none.mp hrecovered.1
    refine ⟨hmarker, ?_⟩
    simp only at h
    split at h
    · left
      by_cases hcount : archive.store.purged.length = 0
      · rw [if_pos hcount] at h
        cases h
        exact ⟨List.length_eq_zero_iff.mp hcount, rfl⟩
      · rw [if_neg hcount] at h
        cases h
    · right
      split at h
      · next bound recorded revision hbound hrecorded hrevision =>
        split at h
        · next hvalid =>
          cases h
          obtain ⟨-, -, hfrom, rfl, -⟩ := hvalid
          exact ⟨bound, revision, hbound, hfrom, hrecorded, hrevision, rfl⟩
        · cases h
      · cases h

/-- The revision of a proof is the number of purges which removed a session. -/
theorem revision_of_proof {state : Audited} (h : AccountedUnmarked state) {ε : Type}
    {exclusions : Except ε Unit} {fromMs : Int} {proof : AccountingCoverageProof}
    (hproof : state.archive.accountingCoverageSince exclusions fromMs = .ok (some proof)) :
    proof.purgeRevision = purgeCount state.committed := by
  obtain ⟨hmarker, hread⟩ := accountingCoverageSince_eq_some hproof
  have haccounted := h.2 hmarker
  rcases hread with ⟨hpurged, rfl⟩ | ⟨bound, revision, hbound, -, hcount, hrevision, rfl⟩
  · exact (haccounted.complete hpurged).symm
  · exact (haccounted.bounded bound revision hbound hcount hrevision).2

/-- A proof which is returned is right about every purged event, and equal proofs stand for the
same purges. -/
theorem coverage_proof_sound {state : Audited}
    (hreach : Reaches (auditedStep calendar codec journalCodec) always .start state)
    {ε : Type} {exclusions : Except ε Unit} {fromMs : Int} {proof : AccountingCoverageProof}
    (hproof : state.archive.accountingCoverageSince exclusions fromMs = .ok (some proof)) :
    (∀ removed, Loss.purge removed ∈ state.committed → ∀ row ∈ removed,
      ∀ t ∈ eventTimestamps row.content, t < fromMs) ∧
    ∀ (state' : Audited) (exclusions' : Except ε Unit) (fromMs' : Int),
      Reaches (auditedStep calendar codec journalCodec) always state state' →
        state'.archive.accountingCoverageSince exclusions' fromMs' = .ok (some proof) →
          ∃ entries, state'.committed = state.committed ++ entries ∧
            ∀ entry ∈ entries, entry = Loss.purge [] := by
  have hunmarked := accounted_reached hreach
  refine ⟨?_, ?_⟩
  · intro removed hmem row hrow t ht
    obtain ⟨hmarker, hread⟩ := accountingCoverageSince_eq_some hproof
    have haccounted := hunmarked.2 hmarker
    rcases hread with ⟨hpurged, -⟩ | ⟨bound, revision, hbound, hfrom, hcount, hrevision, -⟩
    · have hle := boundedBy_of_purgeCount (haccounted.complete hpurged) (fromMs - 1)
      exact Int.lt_of_le_sub_one (hle removed hmem row hrow t ht)
    · obtain ⟨hbounded, -⟩ := haccounted.bounded bound revision hbound hcount hrevision
      exact lt_of_le_of_lt (hbounded removed hmem row hrow t ht) hfrom
  · intro state' exclusions' fromMs' hrun hproof'
    have hunmarked' := accounted_of_run hunmarked hrun
    obtain ⟨hmarker', -⟩ := accountingCoverageSince_eq_some hproof'
    obtain ⟨entries, hentries⟩ := committed_of_run hrun
    have hsame : purgeCount state.committed = purgeCount state'.committed :=
      (revision_of_proof hunmarked hproof).symm.trans (revision_of_proof hunmarked' hproof')
    refine ⟨entries, hentries.symm, ?_⟩
    intro entry hentry
    have hkeeps : entry.removesSessions = false := by
      unfold purgeCount at hsame
      rw [← hentries, List.countP_append] at hsame
      have hzero : entries.countP Loss.removesSessions = 0 := by omega
      exact Bool.eq_false_iff.mpr (List.countP_eq_zero.mp hzero entry hentry)
    cases entry with
    | replacement => cases hkeeps
    | purge removed =>
      cases removed with
      | nil => rfl
      | cons row rest => cases hkeeps

/-! ### A purged thread -/

/-- Every run of the archive is a run with its commits. -/
theorem exists_audited {ok : Archive → ArchiveCall → Prop}
    (h : Reaches (step calendar codec journalCodec) ok newInstallation archive) :
    ∃ committed, Reaches (auditedStep calendar codec journalCodec) always .start
      ⟨archive, committed⟩ := by
  induction h with
  | refl => exact ⟨[], Reaches.refl _⟩
  | @tail before _ _ hvia ih =>
    obtain ⟨committed, hreach⟩ := ih
    obtain ⟨call, -, hstep⟩ := hvia
    refine ⟨committed ++ committedBy calendar codec journalCodec before call,
      Reaches.tail (a := call) hreach trivial ?_⟩
    simp only [auditedStep, hstep, Option.map_some]

/-- The thread with one event at the epoch is purged, and a window from the second day is
complete. -/
theorem coverage_proof_sound_thread :
    ∃ committed, (∀ removed, Loss.purge removed ∈ committed → ∀ row ∈ removed,
      ∀ t ∈ eventTimestamps row.content, t < 86400000) ∧
    ∀ (state' : Audited) (exclusions' : Except Unit Unit) (fromMs' : Int),
      Reaches (auditedStep january sampleCodec (plainCodec (threadRecord [sampleEvent 5]))) always
          ⟨purgedThread [sampleEvent 5], committed⟩ state' →
        state'.archive.accountingCoverageSince exclusions' fromMs' =
            .ok (some ⟨some 3599999, 1, 1⟩) →
          ∃ entries, state'.committed = committed ++ entries ∧
            ∀ entry ∈ entries, entry = Loss.purge [] := by
  have hconfirm : ((retainedThread [sampleEvent 5]).confirmPurge january sampleCodec
      (threadPreview [sampleEvent 5]) januaryEleventh).toOption =
        some [threadIdentity [sampleEvent 5]] := by decide +kernel
  have hpurge := purge_retainedThread hconfirm (by decide +kernel) (by decide +kernel)
  have hstep : step january sampleCodec (plainCodec (threadRecord [sampleEvent 5]))
      (retainedThread [sampleEvent 5])
        (.purge (threadPreview [sampleEvent 5]) januaryEleventh) =
          some (purgedThread [sampleEvent 5]) := congrArg some (congrArg Prod.snd hpurge)
  have hread := appendsReadable_retainedThread hconfirm (by decide +kernel)
  obtain ⟨committed, hreach⟩ := exists_audited
    (Reaches.tail (reachable_retainedThread _ [sampleEvent 5]) hread hstep)
  have hproof : ((purgedThread [sampleEvent 5]).accountingCoverageSince (.ok () : Except Unit Unit)
      86400000).toOption = some (some ⟨some 3599999, 1, 1⟩) := by decide +kernel
  exact ⟨committed, coverage_proof_sound hreach (toOption_eq_some hproof)⟩

/-- A purge without candidates commits between two equal proofs. -/
theorem empty_purge_between_equal_proofs :
    ¬ ∀ (calendar : Calendar) (codec : Codec) (journalCodec : JournalCodec)
      (state state' : Audited) (proof : AccountingCoverageProof),
      Reaches (auditedStep calendar codec journalCodec) always .start state →
      state.archive.accountingCoverageSince (.ok () : Except Unit Unit) 0 = .ok (some proof) →
      Reaches (auditedStep calendar codec journalCodec) always state state' →
      state'.archive.accountingCoverageSince (.ok () : Except Unit Unit) 0 = .ok (some proof) →
        state'.committed = state.committed := by
  intro h
  let journalCodec := plainCodec (threadRecord [])
  let governed : Archive :=
    { newInstallation with retentionPolicy := ⟨some 1⟩, retentionPolicyRevision := 1 }
  let preview : PurgePreview := ⟨"1970-01-10", 1, 0, 0, 0, .zero, stableHash "1970-01-10\u001f0"⟩
  have hconfirm : (governed.confirmPurge january sampleCodec preview januaryEleventh).toOption =
      some [] := by decide +kernel
  have hpurge : governed.purgeRetained january sampleCodec journalCodec preview januaryEleventh =
      (.ok ⟨[], januaryEleventh⟩, governed) :=
    purgeRetained_of_commit (toOption_eq_some hconfirm) rfl rfl
  have hgoverned : Reaches (auditedStep january sampleCodec journalCodec) always .start
      ⟨governed, []⟩ :=
    Reaches.tail (a := .setRetentionPolicy ⟨some 1⟩) (Reaches.refl _) trivial rfl
  have hstep : auditedStep january sampleCodec journalCodec ⟨governed, []⟩
      (.purge preview januaryEleventh) = some ⟨governed, [.purge []]⟩ := by
    simp only [auditedStep, step, committedBy, hpurge, Option.map_some]
    rfl
  have hsame := h january sampleCodec journalCodec ⟨governed, []⟩ ⟨governed, [.purge []]⟩
    ⟨none, 0, 0⟩ hgoverned rfl (Reaches.tail (Reaches.refl _) trivial hstep) rfl
  cases hsame

end Archive

end AgentOdometer.History
