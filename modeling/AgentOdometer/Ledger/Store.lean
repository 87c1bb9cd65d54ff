import AgentOdometer.Ledger.Content

/-!
# The durable ledger

The tables of `history_store.rs:3233–3309` and the writes to them which do not depend on how
a transcript is reconciled.
-/

namespace AgentOdometer.Ledger

open Std (ExtTreeMap)

/-- A row of `durable_sessions`, with the rows of the tables keyed by it. Follows
`history_store.rs:3234–3254`. -/
structure DurableSession where
  sessionKey : String
  identityKey : String
  firstEventFingerprint : String
  fingerprintIsFinal : Bool
  collision : Bool
  createdAtMs : Int
  lastSeenAtMs : Int
  lifecycle : SessionLifecycle
  projectKey : Option String
  projectLabel : Option String
  projectProvenance : Option ProjectProvenance
  projectSourceDirectory : Option String
  content : SessionContent
deriving DecidableEq

/-- A row of `source_artifacts`. Follows `history_store.rs:3266–3273`. -/
structure SourceArtifact where
  identityKey : String
  firstEventFingerprint : String
  sessionKey : String
  createdAtMs : Int
  lastSeenAtMs : Int
deriving Repr, DecidableEq

/-- A row of `source_locations`. Follows `history_store.rs:3274–3282`. -/
structure SourceLocation where
  artifactKey : String
  sessionKey : String
  present : Bool
  firstSeenAtMs : Int
  lastSeenAtMs : Int
  seenGeneration : Int
deriving Repr, DecidableEq

/-- A row of `purged_sessions`. -/
structure PurgedSession where
  sessionKey : String
  identityKey : String
  firstEventFingerprint : String
deriving Repr, DecidableEq

/-- The ledger: sessions in insertion order, artifacts by key, locations by path, and the
rollup markers of `history_meta`. -/
structure HistoryStore where
  sessions : List DurableSession
  artifacts : ExtTreeMap String SourceArtifact
  locations : ExtTreeMap String SourceLocation
  purged : List PurgedSession
  rollupsStale : Bool
  rollupsPending : List String
  scanGeneration : Int
deriving DecidableEq

/-- A resolved project. Follows `project_identity.rs:70–86`. -/
structure ProjectIdentity where
  projectKey : String
  label : String
  provenance : ProjectProvenance
deriving Repr, DecidableEq

/-- One call of an observation: the normalized source path, the parsed transcript, the scan
generation, the clock, and the project which a probe of the file system would find. -/
structure Observation where
  path : String
  session : Session
  generation : Int
  now : Int
  project : Option ProjectIdentity
deriving DecidableEq

namespace HistoryStore

/-- The ledger of a new installation. -/
def empty : HistoryStore where
  sessions := []
  artifacts := ∅
  locations := ∅
  purged := []
  rollupsStale := false
  rollupsPending := []
  scanGeneration := 0

/-- The session row of a key. -/
def row? (store : HistoryStore) (key : String) : Option DurableSession :=
  Table.lookup DurableSession.sessionKey key store.sessions

/-- Rewrite the session row of a key. -/
def updateRow (store : HistoryStore) (key : String) (f : DurableSession → DurableSession) :
    HistoryStore :=
  { store with sessions := Table.update DurableSession.sessionKey key f store.sessions }

/-- Whether a location of the session is present. -/
def hasPresentLocation (store : HistoryStore) (key : String) : Bool :=
  store.locations.toList.any fun entry ↦ entry.2.sessionKey = key && entry.2.present

/-- `is_excluded`, `history_lifecycle.rs:254–259`. -/
def isExcluded (store : HistoryStore) (identity fingerprint : String) : Bool :=
  store.purged.any fun purged ↦
    (purged.identityKey = identity || purged.sessionKey = identity) &&
      purged.firstEventFingerprint = fingerprint

/-! ### Rollup markers -/

/-- `mark_rollups_stale`, `history_store.rs:5171–5189`. -/
def markRollupsStale (store : HistoryStore) (key : String) : HistoryStore :=
  { store with
    rollupsStale := true
    rollupsPending := store.rollupsPending.insert key }

/-- `clear_rollups_stale`, `history_store.rs:5191–5203`. -/
def clearRollupsStale (store : HistoryStore) : HistoryStore :=
  { store with rollupsStale := false, rollupsPending := [] }

/-- `RollupScope`, `history_store.rs:5257–5268`. -/
inductive RollupScope where
  | entireLedger
  | deferredSessions
deriving Repr, DecidableEq

/-- Whether a rebuild covers a session. Follows `history_store.rs:5276–5282`. -/
def covers (store : HistoryStore) (scope : RollupScope) (key : String) : Bool :=
  match scope with
  | .entireLedger => true
  | .deferredSessions => key ∈ store.rollupsPending

/-- `rebuild_rollups_in_transaction`, `history_store.rs:5270–5339`. -/
def rebuildRollupsIn (store : HistoryStore) (scope : RollupScope) : HistoryStore :=
  { store with
    sessions := Table.updateWhere (fun row ↦ store.covers scope row.sessionKey)
      (fun row ↦ { row with content := rebuildContent row.content }) store.sessions }

/-- `rebuild_rollups_scoped`, `history_store.rs:909–916`. -/
def rebuildRollupsScoped (store : HistoryStore) (scope : RollupScope) : HistoryStore :=
  (store.rebuildRollupsIn scope).clearRollupsStale

/-- `rebuild_rollups_if_stale`, `history_store.rs:924–963`. -/
def rebuildRollupsIfStale (store : HistoryStore) : HistoryStore :=
  if !store.rollupsStale then store
  else if store.rollupsPending.isEmpty then store.rebuildRollupsScoped .entireLedger
  else store.rebuildRollupsScoped .deferredSessions

/-- A ledger opened again: the uncommitted transaction is gone, and stale rollups are rebuilt.
Follows `history_store.rs:643–665`. -/
def reopen (store : HistoryStore) : HistoryStore :=
  if store.rollupsStale then store.rebuildRollupsScoped .entireLedger else store

/-! ### Locations -/

/-- `begin_scan`, `history_store.rs:695–707`. -/
def beginScan (store : HistoryStore) : HistoryStore :=
  { store with scanGeneration := store.scanGeneration + 1 }

/-- `refresh_missing`, `history_lifecycle.rs:114–120`. -/
def refreshMissing (store : HistoryStore) : HistoryStore :=
  { store with
    sessions := Table.updateWhere
      (fun row ↦ row.lifecycle = .present && !store.hasPresentLocation row.sessionKey)
      (fun row ↦ { row with lifecycle := .retained }) store.sessions }

/-- `mark_path_missing`, `history_store.rs:1285–1304`. -/
def markPathMissing (store : HistoryStore) (path : String) : HistoryStore :=
  match store.locations[path]? with
  | none => store
  | some location =>
      refreshMissing { store with
        locations := store.locations.insert path { location with present := false } }

end HistoryStore

/-! ### Project identity -/

/-- Whether the stored project is still that of the session's directory. Follows
`history_store.rs:4446`. -/
def DurableSession.keepsProject (row : DurableSession) (session : Session) : Bool :=
  row.projectKey.isSome && row.projectSourceDirectory = session.workingDirectory

/-- The session which `apply_project_identity` leaves, `history_store.rs:4429–4476`. -/
def applyProjectIdentity (row : DurableSession) (project : Option ProjectIdentity)
    (session : Session) : Session :=
  if row.keepsProject session then
    { session with
      projectKey := row.projectKey
      projectLabel := row.projectLabel
      projectProvenance := row.projectProvenance }
  else
    { session with
      projectKey := project.map (·.projectKey)
      projectLabel := project.map (·.label)
      projectProvenance := project.map (·.provenance) }

/-- The row which `apply_project_identity` leaves, `history_store.rs:4429–4476`. -/
def DurableSession.recordProject (row : DurableSession) (project : Option ProjectIdentity)
    (session : Session) : DurableSession :=
  if row.keepsProject session then row
  else
    { row with
      projectKey := project.map (·.projectKey)
      projectLabel := project.map (·.label)
      projectProvenance := project.map (·.provenance)
      projectSourceDirectory := session.workingDirectory }

end AgentOdometer.Ledger
