import AgentOdometer.Ledger.Reconcile

/-!
# Observations and overlays

`observe_one_in_transaction` (`history_store.rs:4890–4996`) and the snapshot writes
(`history_store.rs:5005–5152`), then the calls of the store as transactions: a call which
fails leaves the ledger as it was.
-/

namespace AgentOdometer.Ledger

/-- A check which fails with the given error. -/
def ensure (holds : Bool) (error : LedgerError) : Except LedgerError Unit :=
  if holds then .ok () else .error error

/-- The keys which an observation returns. Follows `history_store.rs:4886–4889`. -/
structure Observed where
  key : String
  displaced : Option String
  rollupsDeferred : Bool
deriving Repr, DecidableEq

namespace Observation

/-- The transcript to be reconciled. Follows `history_store.rs:4897–4901`. -/
def incoming (codec : Codec) (observation : Observation) : Incoming where
  path := observation.path
  identity := effectiveStorageId observation.session
  fingerprint := firstEventFingerprint codec observation.session
  session := observation.session
  now := observation.now

/-- The session as it is archived under a key. Follows `history_store.rs:4922–4926`. -/
def archived (observation : Observation) (key : String) : Session :=
  { observation.session with
    storageId := key
    sourceAvailability := .present
    lifecycle := .present
    filePath := observation.path }

end Observation

namespace HistoryStore

/-- The artifact row of an observation. Follows `history_store.rs:4932–4940`. -/
def upsertArtifact (store : HistoryStore) (artifactKey : String) (row : DurableSession)
    (now : Int) : HistoryStore :=
  { store with
    artifacts := store.artifacts.insert artifactKey
      (match store.artifacts[artifactKey]? with
      | none =>
          { identityKey := row.identityKey
            firstEventFingerprint := row.firstEventFingerprint
            sessionKey := row.sessionKey
            createdAtMs := now
            lastSeenAtMs := now }
      | some artifact =>
          { artifact with
            lastSeenAtMs := now
            firstEventFingerprint := row.firstEventFingerprint }) }

/-- The location row of an observation. Follows `history_store.rs:4944–4952`. -/
def upsertLocation (store : HistoryStore) (path artifactKey key : String) (now generation : Int) :
    HistoryStore :=
  { store with
    locations := store.locations.insert path
      (match store.locations[path]? with
      | none =>
          { artifactKey, sessionKey := key, present := true, firstSeenAtMs := now,
            lastSeenAtMs := now, seenGeneration := generation }
      | some location =>
          { location with
            artifactKey, sessionKey := key, present := true, lastSeenAtMs := now,
            seenGeneration := max location.seenGeneration generation }) }

/-- The session which lost its source path. Follows `history_store.rs:4957–4959`. -/
def supersede (store : HistoryStore) (previous : Option String) : HistoryStore :=
  match previous with
  | none => store
  | some previous =>
      if store.hasPresentLocation previous then store
      else store.updateRow previous fun row ↦ { row with lifecycle := .superseded }

/-- `refresh_collision_flags`, `history_store.rs:5826–5837`. -/
def refreshCollisionFlags (store : HistoryStore) (identity : String) : HistoryStore :=
  let count := store.sessions.countP fun row ↦ row.identityKey = identity && row.fingerprintIsFinal
  { store with
    sessions := Table.updateWhere (fun row ↦ row.identityKey = identity)
      (fun row ↦ { row with collision := decide (1 < count) }) store.sessions }

/-- The row of an observed session: its project, its content, and `lifecycle='present'`. -/
def observedRow (observation : Observation) (content : SessionContent) (row : DurableSession) :
    DurableSession :=
  { row.recordProject observation.project observation.session with
    lifecycle := .present
    content := content }

/-- The writes of an observation, in the order of the source. `row` is the session's row after
reconciliation. Follows `history_store.rs:4927–4994`. -/
def recordObservation (store : HistoryStore) (observation : Observation) (row : DurableSession)
    (artifactKey : String) (displaced : Option String) (content : SessionContent)
    (rollupsDeferred : Bool) : HistoryStore :=
  let store := store.upsertArtifact artifactKey row observation.now
  let store := store.upsertLocation observation.path artifactKey row.sessionKey observation.now
    observation.generation
  let store := store.updateRow row.sessionKey (observedRow observation content)
  let store := store.supersede displaced
  let store := if rollupsDeferred then store.markRollupsStale row.sessionKey else store
  store.refreshCollisionFlags (effectiveStorageId observation.session)

/-- The row of a key which must exist. -/
def requireRow (store : HistoryStore) (key : String) : Except LedgerError DurableSession :=
  match store.row? key with
  | none => .error (.unknownSession key)
  | some row => .ok row

/-- `observe_one_in_transaction`, `history_store.rs:4890–4996`. -/
def observeOne (codec : Codec) (maintainRollups : Bool) (store : HistoryStore)
    (observation : Observation) : Except LedgerError (Observed × HistoryStore) := do
  ensure (hasProviderId observation.session) .missingProviderId
  let incoming := observation.incoming codec
  ensure (!store.isExcluded incoming.identity incoming.fingerprint) .purgedSource
  let displaced := (store.locations[observation.path]?).map (·.sessionKey)
  let (key, store) ← store.reconcileSession codec incoming
  let row ← store.requireRow key
  let archived := applyProjectIdentity row observation.project (observation.archived key)
  let artifactKey ← store.sourceArtifactKey codec incoming.identity observation.session key
  ensure (store.artifactFree artifactKey key) .artifactOfOtherSession
  let (content, factsChanged) ←
    observeContent codec maintainRollups observation.session archived row.content
  let rollupsDeferred := !maintainRollups && factsChanged
  let displaced := displaced.filter (· ≠ key)
  return (⟨key, displaced, rollupsDeferred⟩,
    store.recordObservation observation row artifactKey displaced content rollupsDeferred)

/-- `observe_bulk_batch`, `history_store.rs:820–845`: one transaction. -/
def observeBulkBatch (codec : Codec) (store : HistoryStore) :
    List Observation → Except LedgerError (List Observed × HistoryStore)
  | [] => .ok ([], store)
  | observation :: rest => do
      let (observed, store) ← observeOne codec false store observation
      let (written, store) ← observeBulkBatch codec store rest
      return (observed :: written, store)

/-- The session of a metadata overlay as it is archived. Follows `history_store.rs:5010–5023`. -/
def overlaidSession (row : DurableSession) (project : Option ProjectIdentity)
    (session : Session) : Session :=
  applyProjectIdentity row project { session with storageId := effectiveStorageId session }

/-- The row of an overlaid session. -/
def overlaidRow (project : Option ProjectIdentity) (session : Session) (now : Int)
    (content : SessionContent) (row : DurableSession) : DurableSession :=
  { row.recordProject project session with
    lastSeenAtMs := now
    content := content }

/-- `update_snapshot_in_transaction`, `history_store.rs:5005–5071`. -/
def updateSnapshot (codec : Codec) (store : HistoryStore) (session : Session) (now : Int)
    (project : Option ProjectIdentity) : Except LedgerError HistoryStore := do
  let key := effectiveStorageId session
  let row ← store.requireRow key
  let content := overlayContent codec (overlaidSession row project session) row.content
  return store.updateRow key (overlaidRow project session now content)

/-- `update_snapshot_batch`, `history_store.rs:1350–1367`: one transaction. -/
def updateSnapshotBatch (codec : Codec) (store : HistoryStore) (now : Int) :
    List (Session × Option ProjectIdentity) → Except LedgerError HistoryStore
  | [] => .ok store
  | (session, project) :: rest => do
      let store ← updateSnapshot codec store session now project
      updateSnapshotBatch codec store now rest

/-- `overlay_thread_names`, `history_store.rs:1410–1421` and `5108–5152`: one transaction.
Writing the overlay a row already has leaves the row as it is. -/
def overlayThreadNames (store : HistoryStore) :
    List (String × Option String) → Except LedgerError HistoryStore
  | [] => .ok store
  | (key, threadName) :: rest => do
      let _ ← store.requireRow key
      overlayThreadNames (store.updateRow key fun row ↦
        { row with content := overlayThreadName threadName row.content }) rest

end HistoryStore

end AgentOdometer.Ledger
