import AgentOdometer.History.ExclusionJournal
import AgentOdometer.History.Organization
import AgentOdometer.Ledger.RowIdentity

/-!
# Retention, purge and recovery

The ledger file with its metadata and its two sidecars: the exclusion journal and the recovery
marker. Follows `history_lifecycle.rs:115–253,382–395,480–770,791–933`,
`history_recovery.rs:52–165` and `history_store.rs:643–665`.
-/

namespace AgentOdometer.History

open Ledger

/-- The texts of days and instants which chrono and SQLite read and write. A day is counted from
the Unix epoch. -/
structure Calendar where
  /-- `NaiveDate::to_string`. -/
  dayText : Int → String
  /-- `NaiveDate::parse_from_str` with `%Y-%m-%d`. -/
  parseDay : String → Option Int
  /-- The JSON text of an instant. -/
  jsonText : DateTime → String
  /-- `CAST(strftime('%s', …) AS INTEGER)`. -/
  unixSeconds : String → Option Int

/-- The UTC day of an instant. -/
def utcDay (now : DateTime) : Int :=
  now.nanos / 86400000000000

/-- `RetentionPolicy`, `history_lifecycle.rs:122–126`. -/
structure RetentionPolicy where
  retainedDays : Option Nat
deriving Repr, DecidableEq

/-- `PurgePreview`, `history_lifecycle.rs:139–151`. -/
structure PurgePreview where
  cutoffUtcDay : String
  policyRevision : Nat
  sessions : Nat
  identityGroups : Nat
  snapshotBytes : Nat
  tokens : TokenTotals
  revision : String
deriving Repr, DecidableEq

/-- `PurgeResult`, `history_lifecycle.rs:153–157`. -/
structure PurgeResult where
  removedKeys : List String
  purgedAt : DateTime
deriving Repr, DecidableEq

/-- `AccountingCoverageProof`, `history_lifecycle.rs:162–167`. -/
structure AccountingCoverageProof where
  lossBoundMs : Option Int
  tombstoneCount : Nat
  purgeRevision : Nat
deriving Repr, DecidableEq

/-- Why a preview, a purge or a policy is refused. -/
inductive PurgeError where
  | noRetentionDuration
  | tooManyCandidates
  | policyChanged
  | invalidCutoff
  | cutoffFormat
  | cutoffExceedsPolicy
  | historyChanged
  | journal (error : JournalError)
  | tombstoneCountOverflow
  | purgeRevisionOverflow
  | duplicateTombstone
  | foreignKey
  | retentionDuration
  | policyRevisionExhausted
deriving Repr, DecidableEq

/-- The text of an error. Follows `history_lifecycle.rs:522,632,652,661,664,667,673,720,723,912,
918`. -/
def PurgeError.message : PurgeError → String
  | .noRetentionDuration => "choose a retention duration before reviewing purge"
  | .tooManyCandidates =>
      "purge candidate limit exceeded; select a shorter retention duration"
  | .policyChanged =>
      "retention policy changed after the purge preview; review a fresh preview"
  | .invalidCutoff => "invalid purge cutoff; review a fresh preview"
  | .cutoffFormat => "invalid purge cutoff format; review a fresh preview"
  | .cutoffExceedsPolicy =>
      "purge cutoff exceeds the current retention policy; review a fresh preview"
  | .historyChanged => "history changed after the purge preview; review a fresh preview"
  | .journal error => error.message
  | .tombstoneCountOverflow => "tombstone count overflow"
  | .purgeRevisionOverflow => "purge revision overflow"
  | .duplicateTombstone =>
      "UNIQUE constraint failed: purged_sessions.session_key, " ++
        "purged_sessions.first_event_fingerprint"
  | .foreignKey => "FOREIGN KEY constraint failed"
  | .retentionDuration => "retention duration must be between 1 and 36500 days"
  | .policyRevisionExhausted => "retention policy revision exhausted"

/-- `u64::MAX`. -/
def u64Max : Nat :=
  2 ^ 64 - 1

/-- The ledger file and its sidecars: the tables, the `history_meta` rows of coverage, purge and
retention, the recovery marker and the exclusion journal. -/
structure Archive where
  store : HistoryStore
  organization : Organization
  projectOverrides : List (String × String)
  coverageComplete : Bool
  lossBoundMs : Option Int
  lossTombstoneCount : Option Nat
  lossRevision : Option Nat
  retentionPolicy : RetentionPolicy
  retentionPolicyRevision : Nat
  marker : Option Int
  journal : Journal

/-- The tables whose rows belong to one session. -/
inductive OwnedTable where
  | projectSessionOverrides
  | sourceLocations
  | sourceArtifacts
  | sessionSummaries
  | sessionSnapshots
  | durableTokenEvents
  | durableToolEvents
  | durableFindingEvents
  | durableToolDimensionEvents
  | rollupTokenTotals
  | rollupToolMetrics
  | rollupMutationChains
  | rollupToolDimensions
deriving Repr, DecidableEq

/-- The tables which a purge deletes from, in their order. Follows
`history_lifecycle.rs:742–756`. -/
def OwnedTable.purged : List OwnedTable :=
  [.projectSessionOverrides, .sourceLocations, .sourceArtifacts, .sessionSummaries,
    .sessionSnapshots, .durableTokenEvents, .durableToolEvents, .durableFindingEvents,
    .durableToolDimensionEvents, .rollupTokenTotals, .rollupToolMetrics, .rollupMutationChains,
    .rollupToolDimensions]

/-- The tables whose session key references `durable_sessions` without a cascade. Follows
`history_store.rs:3261–3330,4331–4418` and `history_lifecycle.rs:18–21`. -/
def OwnedTable.referencing : List OwnedTable :=
  [.projectSessionOverrides, .sourceArtifacts, .sourceLocations, .sessionSnapshots,
    .durableTokenEvents, .durableToolEvents, .durableFindingEvents, .rollupTokenTotals,
    .rollupToolMetrics, .rollupMutationChains, .durableToolDimensionEvents,
    .rollupToolDimensions, .sessionSummaries]

namespace Archive

/-! ### Candidates -/

section Candidates

variable (calendar : Calendar) (codec : Codec) (archive : Archive)

/-- `substr(json_extract(summary_json,'$.last_event_at'),1,10)`. -/
def lastEventDay (snapshot : Session) : String :=
  String.ofList ((calendar.jsonText snapshot.lastEventAt).toList.take 10)

/-- A row which a purge may remove on its own. Follows `history_lifecycle.rs:485–487`. -/
def isExpired (cutoff : String) (row : DurableSession) : Bool :=
  row.lifecycle ≠ .present && !row.content.ledgerDirty &&
    row.content.snapshot.any fun snapshot ↦ lastEventDay calendar snapshot < cutoff

/-- A row which keeps its group. Follows `history_lifecycle.rs:491–492`. -/
def keepsGroup (cutoff : String) (sibling : DurableSession) : Bool :=
  sibling.lifecycle = .present || sibling.content.ledgerDirty ||
    sibling.content.snapshot.all fun snapshot ↦ cutoff ≤ lastEventDay calendar snapshot

/-- The rows of one provider identity and first-event fingerprint. -/
def sameGroup (row sibling : DurableSession) : Bool :=
  sibling.identityKey = row.identityKey && sibling.firstEventFingerprint = row.firstEventFingerprint

/-- `PURGE_CANDIDATES_SQL`, `history_lifecycle.rs:480–494`. -/
def candidateRows (cutoff : String) : List DurableSession :=
  (archive.store.sessions.filter fun row ↦
    isExpired calendar cutoff row && !archive.store.sessions.any fun sibling ↦
      sameGroup row sibling && keepsGroup calendar cutoff sibling).insertionSort
    fun left right ↦ left.sessionKey ≤ right.sessionKey

/-- The lifecycle column. -/
def lifecycleText : SessionLifecycle → String
  | .present => "present"
  | .retained => "retained"
  | .superseded => "superseded"
  | .purged => "purged"

/-- What a candidate adds to the revision of a preview. Follows `history_lifecycle.rs:533`. -/
def revisionPart (row : DurableSession) : String :=
  unitSeparator ++ row.sessionKey ++ unitSeparator ++ row.content.currentSnapshotHash.getD "" ++
    unitSeparator ++ lifecycleText row.lifecycle

/-- The preview of the candidates. Follows `history_lifecycle.rs:499–547`. -/
def previewOf (cutoff : String) (policyRevision : Nat) (rows : List DurableSession) :
    PurgePreview where
  cutoffUtcDay := cutoff
  policyRevision := policyRevision
  sessions := rows.length
  identityGroups := (rows.map (·.exclusionIdentity.2)).dedup.length
  snapshotBytes :=
    (rows.map fun row ↦ (row.content.snapshot.map fun s ↦ (codec.encode s).utf8ByteSize).getD 0).sum
  tokens := (rows.map fun row ↦ (row.content.snapshot.map (·.tokensTotal)).getD 0).foldl (· + ·) 0
  revision := codec.stableHash (cutoff ++ unitSeparator ++
    toString archive.organization.revision ++ String.join (rows.map revisionPart))

/-- `purge_candidates`, `history_lifecycle.rs:496–548`, with the policy revision its callers
fill in. -/
def purgeCandidates (cutoff : String) :
    Except PurgeError (PurgePreview × List ExclusionIdentity) := do
  let rows := archive.candidateRows calendar cutoff
  require (rows.length ≤ 100000) .tooManyCandidates
  return (archive.previewOf codec cutoff archive.retentionPolicyRevision rows,
    rows.map (·.exclusionIdentity))

/-- `preview_purge`, `history_lifecycle.rs:625–636`. -/
def previewPurge (now : DateTime) : Except PurgeError PurgePreview :=
  match archive.retentionPolicy.retainedDays with
  | none => .error .noRetentionDuration
  | some days => do
      let (preview, _) ← archive.purgeCandidates calendar codec
        (calendar.dayText (utcDay now - days))
      return preview

end Candidates

/-! ### Loss accounting -/

section Loss

variable (calendar : Calendar) (archive : Archive)

/-- The end of a text of seconds, in milliseconds. Follows `history_lifecycle.rs:203–204`. -/
def secondEnd (text : String) : Option Int :=
  (calendar.unixSeconds text).map (· * 1000 + 999)

/-- The end of an hour bucket, in `i64`. Follows `history_lifecycle.rs:229–232`. -/
def hourEnd (hour : Int) : Option Int :=
  if i64Min ≤ hour * 3600000 ∧ hour * 3600000 ≤ i64Max ∧ hour * 3600000 + 3599999 ≤ i64Max then
    some (hour * 3600000 + 3599999)
  else none

/-- The larger of a bound and the timestamps of a table. -/
def raise (highest : Int) (timestamps : List Int) : Int :=
  timestamps.foldl max highest

/-- The larger of a bound and the end of the last rollup hour. Follows
`history_lifecycle.rs:228–235`. -/
def raiseToHour (highest : Int) : Option Int → Option Int
  | none => some highest
  | some hour => (hourEnd hour).map (max highest)

/-- `max(hour_bucket)` of the token rollups. -/
def lastHour (content : SessionContent) : Option Int :=
  (content.rollups.tokens.toList.map fun entry ↦ entry.1.1).max?

/-- The bound of one session. Follows `history_lifecycle.rs:200–238`. -/
def sessionBound (content : SessionContent) : Option Int := do
  let snapshot ← content.snapshot
  let start ← secondEnd calendar (calendar.jsonText snapshot.startedAt)
  let finish ← secondEnd calendar (calendar.jsonText snapshot.lastEventAt)
  let tokens := content.facts.tokens.map (·.timestampMs)
  let tools := content.facts.tools.map (·.timestampMs)
  if (tokens ++ tools).any (· < 0) then none
  else
    let highest := raise (max start finish) (tokens ++ tools)
    let highest ← raiseToHour highest (lastHour content)
    if highest < 0 ∨ start < 0 ∨ finish < 0 then none else some highest

/-- `accounting_loss_bound`, `history_lifecycle.rs:192–243`. -/
def accountingLossBound : List DurableSession → Option Int
  | [] => none
  | [row] => sessionBound calendar row.content
  | row :: rest => do
      let bound ← sessionBound calendar row.content
      let others ← accountingLossBound rest
      return max bound others

/-- The proof which a purge continues: the bound of the losses before it, if there were any, and
their revision. Follows `history_lifecycle.rs:680–705`. -/
def previousProof : Option (Option Int × Nat) :=
  let recovered := archive.organization.recovered || archive.marker.isSome
  if recovered then none
  else if archive.store.purged.length = 0 then
    if archive.coverageComplete then some (none, 0) else none
  else
    match archive.lossBoundMs, archive.lossTombstoneCount, archive.lossRevision with
    | some bound, some count, some revision =>
        if 0 ≤ bound ∧ count = archive.store.purged.length ∧ 0 < revision then
          some (some bound, revision)
        else none
    | _, _, _ => none

/-- The metadata of a purge which removes sessions. Follows `history_lifecycle.rs:712–744`. -/
def recordLoss (removed : Nat) (newBound : Option Int) : Except PurgeError Archive :=
  let dropped := { archive with
    coverageComplete := false
    lossBoundMs := none
    lossTombstoneCount := none
    lossRevision := none }
  match archive.previousProof, newBound with
  | some (previousBound, revision), some currentBound => do
      require (archive.store.purged.length + removed ≤ u64Max) .tombstoneCountOverflow
      require (revision + 1 ≤ u64Max) .purgeRevisionOverflow
      return { dropped with
        lossBoundMs := some ((previousBound.map (max · currentBound)).getD currentBound)
        lossTombstoneCount := some (archive.store.purged.length + removed)
        lossRevision := some (revision + 1) }
  | _, _ => .ok dropped

/-- The metadata of a purge. Follows `history_lifecycle.rs:707–712`. -/
def recordPurge (removed : Nat) (newBound : Option Int) : Except PurgeError Archive :=
  if removed = 0 then .ok archive else archive.recordLoss removed newBound

/-- `accounting_coverage_since`, `history_lifecycle.rs:794–843`. `exclusions` is the outcome of
`ExclusionCache::verify`. -/
def accountingCoverageSince {ε : Type} (exclusions : Except ε Unit) (fromMs : Int) :
    Except ε (Option AccountingCoverageProof) := do
  exclusions
  if archive.marker.isSome || archive.organization.recovered then return none
  let count := archive.store.purged.length
  if archive.coverageComplete then
    return if count = 0 then some ⟨none, 0, 0⟩ else none
  else
    match archive.lossBoundMs, archive.lossTombstoneCount, archive.lossRevision with
    | some bound, some recorded, some revision =>
        if 0 < count ∧ 0 ≤ bound ∧ bound < fromMs ∧ recorded = count ∧ 0 < revision then
          return some ⟨some bound, count, revision⟩
        else return none
    | _, _, _ => return none

end Loss

/-! ### Deletion -/

section Deletion

variable (archive : Archive)

/-- The content of a session without the rows of one table. A session has a summary exactly as
long as it has a snapshot: both are the snapshot field, which goes with the snapshot. -/
def clearContent (table : OwnedTable) (content : SessionContent) : SessionContent :=
  match table with
  | .sessionSnapshots => { content with snapshot := none }
  | .durableTokenEvents => { content with facts := { content.facts with tokens := [] } }
  | .durableToolEvents => { content with facts := { content.facts with tools := [] } }
  | .durableFindingEvents => { content with facts := { content.facts with findings := [] } }
  | .durableToolDimensionEvents =>
      { content with facts := { content.facts with dimensions := [] } }
  | .rollupTokenTotals => { content with rollups := { content.rollups with tokens := ∅ } }
  | .rollupToolMetrics => { content with rollups := { content.rollups with tools := ∅ } }
  | .rollupMutationChains => { content with rollups := { content.rollups with chains := ∅ } }
  | .rollupToolDimensions => { content with rollups := { content.rollups with dimensions := ∅ } }
  | _ => content

/-- Whether a content has rows of a table. -/
def contentHasRows (content : SessionContent) : OwnedTable → Bool
  | .sessionSummaries | .sessionSnapshots => content.snapshot.isSome
  | .durableTokenEvents => !content.facts.tokens.isEmpty
  | .durableToolEvents => !content.facts.tools.isEmpty
  | .durableFindingEvents => !content.facts.findings.isEmpty
  | .durableToolDimensionEvents => !content.facts.dimensions.isEmpty
  | .rollupTokenTotals => !content.rollups.tokens.isEmpty
  | .rollupToolMetrics => !content.rollups.tools.isEmpty
  | .rollupMutationChains => !content.rollups.chains.isEmpty
  | .rollupToolDimensions => !content.rollups.dimensions.isEmpty
  | _ => false

/-- Whether a table has rows of a session. -/
def hasRows (key : String) (table : OwnedTable) : Bool :=
  match table with
  | .projectSessionOverrides => archive.projectOverrides.any fun entry ↦ entry.1 = key
  | .sourceLocations => archive.store.locations.toList.any fun entry ↦ entry.2.sessionKey = key
  | .sourceArtifacts => archive.store.artifacts.toList.any fun entry ↦ entry.2.sessionKey = key
  | table => (archive.store.row? key).any fun row ↦ contentHasRows row.content table

/-- `DELETE FROM source_artifacts`, which no location may reference any more. -/
def deleteArtifacts (key : String) : Except PurgeError Archive := do
  let kept := archive.store.artifacts.filter fun _ artifact ↦ artifact.sessionKey ≠ key
  require (archive.store.locations.toList.all fun entry ↦ kept.contains entry.2.artifactKey)
    .foreignKey
  return { archive with store := { archive.store with artifacts := kept } }

/-- `DELETE FROM {table} WHERE session_key=?1`. -/
def deleteFrom (key : String) (table : OwnedTable) : Except PurgeError Archive :=
  match table with
  | .projectSessionOverrides =>
      .ok { archive with projectOverrides := archive.projectOverrides.filter (·.1 ≠ key) }
  | .sourceLocations =>
      .ok { archive with
        store := { archive.store with
          locations := archive.store.locations.filter fun _ location ↦ location.sessionKey ≠ key } }
  | .sourceArtifacts => archive.deleteArtifacts key
  | table =>
      .ok { archive with
        store := archive.store.updateRow key fun row ↦
          { row with content := clearContent table row.content } }

/-- The tombstone of an identity. -/
def tombstone (identity : ExclusionIdentity) : PurgedSession :=
  ⟨identity.1, identity.2.1, identity.2.2⟩

/-- Whether the primary key of a tombstone is taken. -/
def hasTombstone (store : HistoryStore) (identity : ExclusionIdentity) : Bool :=
  store.purged.any fun purged ↦
    purged.sessionKey = identity.1 && purged.firstEventFingerprint = identity.2.2

/-- `INSERT INTO purged_sessions`. -/
def insertTombstone (identity : ExclusionIdentity) : Except PurgeError Archive := do
  require (!hasTombstone archive.store identity) .duplicateTombstone
  return { archive with
    store := { archive.store with purged := archive.store.purged ++ [tombstone identity] } }

/-- The annotations which go with a session row. -/
def cascadeAnnotations (organization : Organization) (identity : ExclusionIdentity) :
    Organization :=
  let removed := fun row : AnnotationRow ↦
    row.sessionKey = identity.1 ∧ row.firstEventFingerprint = identity.2.2
  { organization with
    annotations := organization.annotations.filter fun row ↦ ¬ removed row
    annotationTags := organization.annotationTags.filter fun tag ↦
      !organization.annotations.any fun row ↦ removed row && row.key = tag.key }

/-- `DELETE FROM durable_sessions`, which no row of another table may reference any more. -/
def deleteSession (identity : ExclusionIdentity) : Except PurgeError Archive := do
  require (OwnedTable.referencing.all fun table ↦ !archive.hasRows identity.1 table) .foreignKey
  return { archive with
    organization := cascadeAnnotations archive.organization identity
    store := { archive.store with
      sessions := archive.store.sessions.filter (·.sessionKey ≠ identity.1) } }

/-- The removal of one candidate. Follows `history_lifecycle.rs:739–763`. -/
def removeCandidate (identity : ExclusionIdentity) : Except PurgeError Archive := do
  let archive ← archive.insertTombstone identity
  let archive ← OwnedTable.purged.foldlM (fun archive table ↦ archive.deleteFrom identity.1 table)
    archive
  let archive := { archive with
    store := { archive.store with
      rollupsPending := archive.store.rollupsPending.filter (· ≠ identity.1) } }
  archive.deleteSession identity

end Deletion

/-! ### Purge -/

section Purge

variable (calendar : Calendar) (codec : Codec) (journalCodec : JournalCodec) (archive : Archive)

/-- The checks of a purge, and the candidates they leave. Follows
`history_lifecycle.rs:647–674`. -/
def confirmPurge (preview : PurgePreview) (now : DateTime) :
    Except PurgeError (List ExclusionIdentity) :=
  match archive.retentionPolicy.retainedDays with
  | none => .error .policyChanged
  | some days => do
      require (archive.retentionPolicyRevision = preview.policyRevision) .policyChanged
      match calendar.parseDay preview.cutoffUtcDay with
      | none => .error .invalidCutoff
      | some reviewed => do
          require (calendar.dayText reviewed = preview.cutoffUtcDay) .cutoffFormat
          require (reviewed ≤ utcDay now - days) .cutoffExceedsPolicy
          let (current, candidates) ← archive.purgeCandidates calendar codec preview.cutoffUtcDay
          require (current = preview) .historyChanged
          return candidates

/-- The transaction of a purge behind the journal record. Follows
`history_lifecycle.rs:710–765`. -/
def commitPurge (cutoff : String) (candidates : List ExclusionIdentity) :
    Except PurgeError Archive := do
  let recorded ← archive.recordPurge candidates.length
    (accountingLossBound calendar (archive.candidateRows calendar cutoff))
  candidates.foldlM removeCandidate recorded

/-- The journal after a call of the writer. -/
def journalAfter (candidates : List ExclusionIdentity) (now : DateTime) : Journal :=
  (Journal.step journalCodec archive.journal (.write candidates now.timestampMillis)).getD
    archive.journal

/-- `purge_retained`, `history_lifecycle.rs:640–770`: its outcome and the archive it leaves. The
journal record stays when the transaction fails. -/
def purgeRetained (preview : PurgePreview) (now : DateTime) :
    Except PurgeError PurgeResult × Archive :=
  match archive.confirmPurge calendar codec preview now with
  | .error e => (.error e, archive)
  | .ok candidates =>
      let written := { archive with journal := archive.journalAfter journalCodec candidates now }
      match (journalCodec.writeExclusions archive.journal.file candidates
          now.timestampMillis).1 with
      | .error e => (.error (.journal e), written)
      | .ok () =>
          match written.commitPurge calendar preview.cutoffUtcDay candidates with
          | .error e => (.error e, written)
          | .ok purged => (.ok ⟨candidates.map (·.1), now⟩, purged)

/-- The archive when the process dies inside a purge: with a part of the journal record, or with
all of it. -/
def interruptedPurge (preview : PurgePreview) (now : DateTime) (written : Option Nat) : Archive :=
  match archive.confirmPurge calendar codec preview now with
  | .error _ => archive
  | .ok candidates =>
      match written with
      | none => { archive with journal := archive.journalAfter journalCodec candidates now }
      | some bytes =>
          { archive with
            journal := (Journal.step journalCodec archive.journal
              (.crash candidates now.timestampMillis bytes)).getD archive.journal }

/-- `set_retention_policy`, `history_lifecycle.rs:903–925`. -/
def setRetentionPolicy (policy : RetentionPolicy) : Except PurgeError Archive := do
  require (policy.retainedDays.all fun days ↦ 1 ≤ days ∧ days ≤ 36500) .retentionDuration
  require (archive.retentionPolicyRevision + 1 ≤ u64Max) .policyRevisionExhausted
  return { archive with
    retentionPolicy := policy
    retentionPolicyRevision := archive.retentionPolicyRevision + 1 }

end Purge

/-! ### Opening and recovery -/

/-- The tables of a new ledger file. -/
def newInstallation : Archive where
  store := .empty
  organization := ⟨[], [], [], 0, false⟩
  projectOverrides := []
  coverageComplete := true
  lossBoundMs := none
  lossTombstoneCount := none
  lossRevision := none
  retentionPolicy := ⟨none⟩
  retentionPolicyRevision := 0
  marker := none
  journal := .empty

/-- `apply_marker`, `history_recovery.rs:75–92`. -/
def applyMarker (archive : Archive) : Archive :=
  match archive.marker with
  | none => archive
  | some _ =>
      { archive with
        coverageComplete := false
        organization := { archive.organization with recovered := true } }

/-- `INSERT OR IGNORE INTO purged_sessions` for a session which is not stored. Follows
`history_lifecycle.rs:386–389`. -/
def restoreExclusion (store : HistoryStore) (identity : ExclusionIdentity) : HistoryStore :=
  if (store.row? identity.1).isSome || hasTombstone store identity then store
  else { store with purged := store.purged ++ [tombstone identity] }

/-- `restore_exclusions`, `history_lifecycle.rs:382–395`. -/
def restoreExclusions (journalCodec : JournalCodec) (archive : Archive) :
    Except JournalError Archive := do
  let records ← journalCodec.readExclusions archive.journal.file
  return { archive with
    store := (records.flatMap (·.identities)).foldl restoreExclusion archive.store }

/-- `open`, `history_store.rs:643–665`. -/
def openStore (journalCodec : JournalCodec) (archive : Archive) : Except JournalError Archive := do
  let archive ← restoreExclusions journalCodec archive.applyMarker
  return { archive with store := archive.store.reopen }

/-- The preparation of `recover_unavailable`, `history_recovery.rs:97–161`: the marker is written,
and the database is moved away unless the process dies before. -/
def prepareRecovery (now : DateTime) (moved : Bool) (archive : Archive) : Archive :=
  if moved then
    { newInstallation with marker := some now.timestampMillis, journal := archive.journal }
  else { archive with marker := some now.timestampMillis }

end Archive

end AgentOdometer.History
