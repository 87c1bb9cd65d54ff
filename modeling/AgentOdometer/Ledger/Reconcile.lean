import AgentOdometer.Ledger.Store

/-!
# Reconciliation

`reconcile_session` (`history_store.rs:4478–4681`): the choice of the durable session which a
transcript belongs to, and the updates which go with the choice. The rules are tried in the
order of the source; each reads the current snapshots of the candidate rows.
-/

namespace AgentOdometer.Ledger

/-- What reconciliation decides for a transcript. -/
inductive Reconciliation where
  /-- The stored history gains its first turn, which changes its fingerprint. -/
  | gainFirstTurn (key : String)
  /-- The transcript is of a stored lineage. -/
  | touch (key : String)
  /-- A row without token events receives its final fingerprint. -/
  | finalize (key : String)
  /-- The transcript is a new durable session. -/
  | insert (key : String)
deriving Repr, DecidableEq

/-- The session key which is chosen. -/
def Reconciliation.key : Reconciliation → String
  | .gainFirstTurn key => key
  | .touch key => key
  | .finalize key => key
  | .insert key => key

/-- A transcript to be reconciled. -/
structure Incoming where
  path : String
  identity : String
  fingerprint : String
  session : Session
  now : Int

/-- Whether the first-event fingerprint can no longer change. Follows
`history_store.rs:4900`. -/
def Incoming.fingerprintIsFinal (incoming : Incoming) : Bool :=
  !incoming.session.tokensHistory.isEmpty

/-! ### Artifacts -/

/-- The artifact of a history under an identity. Follows `history_store.rs:6030–6034`. -/
def baseArtifactKey (codec : Codec) (identity : String) (session : Session) : String :=
  "artifact-" ++
    codec.stableHash (identity ++ unitSeparator ++ historyLineage codec session)

/-- The artifact of a history which another session owns already. Follows
`history_store.rs:6045–6048`. -/
def distinctArtifactKey (codec : Codec) (identity : String) (session : Session)
    (durableKey : String) : String :=
  "artifact-" ++ codec.stableHash
    (identity ++ unitSeparator ++ historyLineage codec session ++ unitSeparator ++ durableKey)

/-- Whether an artifact is free for a session: unknown, or its own. -/
def HistoryStore.artifactFree (store : HistoryStore) (artifactKey durableKey : String) : Bool :=
  (store.artifacts[artifactKey]?).all fun artifact ↦ artifact.sessionKey = durableKey

/-- `source_artifact_key`, `history_store.rs:6024–6063`. -/
def HistoryStore.sourceArtifactKey (codec : Codec) (store : HistoryStore) (identity : String)
    (session : Session) (durableKey : String) : Except LedgerError String :=
  let base := baseArtifactKey codec identity session
  let distinct := distinctArtifactKey codec identity session durableKey
  if store.artifactFree base durableKey then .ok base
  else if store.artifactFree distinct durableKey then .ok distinct
  else .error .artifactHashCollision

namespace HistoryStore

variable (codec : Codec) (store : HistoryStore) (incoming : Incoming)

/-! ### Candidates -/

/-- The row, snapshot and artifact which the path last led to, when the row is of the same
identity and has another final fingerprint. Follows `history_store.rs:4496–4507`. -/
def priorFromPath : Option (DurableSession × Session × String) := do
  let location ← store.locations[incoming.path]?
  let row ← store.row? location.sessionKey
  let artifact ← store.artifacts[location.artifactKey]?
  let stored ← row.content.snapshot
  if artifact.sessionKey = row.sessionKey ∧ row.identityKey = incoming.identity ∧
      row.fingerprintIsFinal ∧ row.firstEventFingerprint ≠ incoming.fingerprint then
    some (row, stored, location.artifactKey)
  else none

/-- Whether an appended transcript supplies the first turn of the stored one. Follows
`history_store.rs:4511–4516`. -/
def gainsFirstTurn (incoming stored : Session) : Bool :=
  stored.turns.isEmpty && !incoming.turns.isEmpty && !stored.tokensHistory.isEmpty &&
    stored.tokensHistory.length ≤ incoming.tokensHistory.length &&
    provisionalMetadataMatches incoming stored &&
    historiesShareLineage incoming.tokensHistory stored.tokensHistory

/-- Whether a transcript which lacks the first turn is an older state of the stored one.
Follows `history_store.rs:4533–4540`. -/
def isStaleCopy (incoming stored : Session) : Bool :=
  !stored.turns.isEmpty && incoming.turns.isEmpty && !stored.tokensHistory.isEmpty &&
    !incoming.tokensHistory.isEmpty &&
    incoming.tokensHistory.length ≤ stored.tokensHistory.length &&
    provisionalMetadataMatches incoming stored &&
    historiesShareLineage incoming.tokensHistory stored.tokensHistory

/-- The rule of the source path. Follows `history_store.rs:4508–4548`. -/
def reconcileFromPath : Except LedgerError (Option Reconciliation) :=
  match store.priorFromPath incoming with
  | none => .ok none
  | some (row, stored, boundArtifact) =>
      if gainsFirstTurn incoming.session stored then .ok (some (.gainFirstTurn row.sessionKey))
      else do
        let artifact ← sourceArtifactKey codec store incoming.identity incoming.session
          row.sessionKey
        if boundArtifact = artifact ∧ isStaleCopy incoming.session stored then
          return some (.touch row.sessionKey)
        else
          return none

/-- The row continues or repeats the transcript. -/
def DurableSession.sharesLineage (row : DurableSession) (incoming : Session) : Bool :=
  row.content.snapshot.any fun stored ↦
    historiesShareLineage incoming.tokensHistory stored.tokensHistory

/-- The rule of the identity and fingerprint. Follows `history_store.rs:4550–4572`. -/
def reconcileByLineage : Option Reconciliation :=
  (store.sessions.find? fun row ↦
    row.identityKey = incoming.identity && row.firstEventFingerprint = incoming.fingerprint &&
      DurableSession.sharesLineage row incoming.session).map (.touch ·.sessionKey)

/-- Whether a stored subagent of an older format is the transcript under another file name.
Follows `history_store.rs:4594–4600`. -/
def DurableSession.isRenamedSubagent (row : DurableSession) (incoming : Incoming) : Bool :=
  row.sessionKey ≠ incoming.identity && row.content.snapshot.any fun stored ↦
    isLegacyClaudeSubagent stored &&
      stored.parentThreadId = incoming.session.parentThreadId &&
      !incoming.session.tokensHistory.isEmpty && !stored.tokensHistory.isEmpty &&
      historiesShareLineage incoming.session.tokensHistory stored.tokensHistory

/-- The rule of renamed subagents. Follows `history_store.rs:4574–4608`. -/
def reconcileRenamedSubagent : Option Reconciliation :=
  if isLegacyClaudeSubagent incoming.session then
    (store.sessions.find? fun row ↦ DurableSession.isRenamedSubagent row incoming).map
      (.touch ·.sessionKey)
  else none

/-- The row without token events which the path last led to. Follows
`history_store.rs:4614–4621`. -/
def provisionalFromPath : Option String := do
  let location ← store.locations[incoming.path]?
  let row ← store.row? location.sessionKey
  if row.identityKey = incoming.identity ∧ !row.fingerprintIsFinal then some row.sessionKey
  else none

/-- The only row of the identity without token events, when its metadata matches. Follows
`history_store.rs:4625–4645`. -/
def provisionalOfIdentity : Option String :=
  let candidates := store.sessions.filter fun row ↦
    row.identityKey = incoming.identity && !row.fingerprintIsFinal && row.content.snapshot.isSome
  match candidates with
  | [row] =>
      if row.content.snapshot.any (provisionalMetadataMatches incoming.session) then
        some row.sessionKey
      else none
  | _ => none

/-- The rule of provisional rows. Follows `history_store.rs:4610–4658`. -/
def reconcileProvisional : Option Reconciliation :=
  if incoming.fingerprintIsFinal then
    ((store.provisionalFromPath incoming).or (store.provisionalOfIdentity incoming)).map .finalize
  else none

/-- The suffixed key of a transcript which collides with a stored session. Follows
`history_store.rs:4671`. -/
def collisionKey : String :=
  incoming.identity ++ ":collision:" ++
    String.ofList ((historyLineage codec incoming.session).toList.take 12)

/-- The key of a new durable session. Follows `history_store.rs:4660–4674`. -/
def newSessionKey : String :=
  if (store.row? incoming.identity).isSome then collisionKey codec incoming
  else incoming.identity

/-- The choice of `reconcile_session`. -/
def chooseSession : Except LedgerError Reconciliation := do
  let fromPath ← reconcileFromPath codec store incoming
  return (((fromPath.or (reconcileByLineage store incoming)).or
    (reconcileRenamedSubagent store incoming)).or
      (reconcileProvisional store incoming)).getD (.insert (newSessionKey codec store incoming))

/-! ### Updates -/

/-- A row on insertion. Follows `history_store.rs:4675–4679`. -/
def newRow (key : String) : DurableSession where
  sessionKey := key
  identityKey := incoming.identity
  firstEventFingerprint := incoming.fingerprint
  fingerprintIsFinal := incoming.fingerprintIsFinal
  collision := false
  createdAtMs := incoming.now
  lastSeenAtMs := incoming.now
  lifecycle := .present
  projectKey := none
  projectLabel := none
  projectProvenance := none
  projectSourceDirectory := none
  content := .fresh

/-- The artifacts of a session take over its fingerprint. Follows
`history_store.rs:4522–4525,4652–4655`. -/
def refingerprintArtifacts (key : String) : HistoryStore :=
  { store with
    artifacts := store.artifacts.map fun _ artifact ↦
      if artifact.sessionKey = key then
        { artifact with firstEventFingerprint := incoming.fingerprint }
      else artifact }

/-- The updates which go with a choice. -/
def applyReconciliation : Reconciliation → Except LedgerError HistoryStore
  | .gainFirstTurn key =>
      .ok (refingerprintArtifacts (store.updateRow key fun row ↦ { row with
        firstEventFingerprint := incoming.fingerprint
        lastSeenAtMs := incoming.now }) incoming key)
  | .touch key =>
      .ok (store.updateRow key fun row ↦ { row with lastSeenAtMs := incoming.now })
  | .finalize key =>
      .ok (refingerprintArtifacts (store.updateRow key fun row ↦ { row with
        firstEventFingerprint := incoming.fingerprint
        fingerprintIsFinal := true
        lastSeenAtMs := incoming.now }) incoming key)
  | .insert key =>
      if (store.row? key).isSome then .error .duplicateSessionKey
      else .ok { store with sessions := store.sessions ++ [newRow incoming key] }

/-- `reconcile_session`, `history_store.rs:4478–4681`. -/
def reconcileSession : Except LedgerError (String × HistoryStore) := do
  let choice ← chooseSession codec store incoming
  let store ← applyReconciliation store incoming choice
  return (choice.key, store)

end HistoryStore

end AgentOdometer.Ledger
