import AgentOdometer.Ledger.Identity
import AgentOdometer.Lib.Table

/-!
# The stored content of a durable session

What the ledger holds under one session key: the current snapshot, its dirty flag and name
overlay, the fact rows and the rollup rows; and the functions which write it
(`history_store.rs:5341–5822`). A failed write is rolled back with its transaction, so a
function reports the range check of its rows before it returns them.
-/

namespace AgentOdometer.Ledger

open GroupBy Telemetry

/-- Why a write is refused. -/
inductive LedgerError where
  | missingProviderId
  | purgedSource
  | duplicateSessionKey
  | artifactHashCollision
  | artifactOfOtherSession
  | countOutOfRange
  | unknownSession (key : String)
deriving Repr, DecidableEq

/-- The text of an error. Follows `history_store.rs:4942,5021,5928,6060,6186` and
`history_lifecycle.rs:249`. -/
def LedgerError.message : LedgerError → String
  | .missingProviderId => "cannot archive a session without a provider session id"
  | .purgedSource => "source history was explicitly purged and is excluded from reimport"
  | .duplicateSessionKey => "UNIQUE constraint failed: durable_sessions.session_key"
  | .artifactHashCollision => "source artifact hash collision"
  | .artifactOfOtherSession => "source artifact belongs to a different durable session"
  | .countOutOfRange => "token count exceeded SQLite integer range"
  | .unknownSession key => "cannot update snapshot for unknown durable session " ++ key

/-- The columns of one durable session which its snapshot writes change, with its fact and
rollup rows. Follows `history_store.rs:3234–3330`. -/
structure SessionContent where
  currentSnapshotVersion : Nat
  currentSnapshotHash : Option String
  snapshot : Option Session
  ledgerDirty : Bool
  threadNameOverlay : Option String
  threadNameOverlaySet : Bool
  facts : SessionFacts
  rollups : Rollups
deriving DecidableEq

/-- No facts. -/
def SessionFacts.empty : SessionFacts :=
  ⟨[], [], [], []⟩

/-- No rollup rows. -/
def Rollups.empty : Rollups :=
  ⟨∅, ∅, ∅, ∅⟩

/-- A row on insertion: the column defaults of `history_store.rs:3234–3254`. -/
def SessionContent.fresh : SessionContent where
  currentSnapshotVersion := 0
  currentSnapshotHash := none
  snapshot := none
  ledgerDirty := false
  threadNameOverlay := none
  threadNameOverlaySet := false
  facts := .empty
  rollups := .empty

/-- `to_i64` of every listed count, `history_store.rs:6185–6187`. -/
def requireInRange (counts : List Nat) : Except LedgerError Unit :=
  if ∀ count ∈ counts, (count : Int) ≤ i64Max then .ok () else .error .countOutOfRange

/-! ### Snapshots -/

/-- `SnapshotPolicy`, `history_store.rs:4683–4691`. -/
inductive SnapshotPolicy where
  | source
  | metadataOverlay
deriving Repr, DecidableEq

/-- The hash a session's snapshot is stored with. -/
def snapshotHash (codec : Codec) (session : Session) : String :=
  codec.stableHash (codec.encode session)

/-- Whether the snapshot of a session replaces the stored one: not when it is the same text,
and under the source policy not when it is behind it. Follows `history_store.rs:5363–5374`. -/
def storesSnapshot (codec : Codec) (policy : SnapshotPolicy) (incoming : Session)
    (content : SessionContent) : Bool :=
  if content.currentSnapshotHash = some (snapshotHash codec incoming) then false
  else
    match policy, content.snapshot with
    | .source, some current => sourceSnapshotIsMonotonic incoming current
    | _, _ => true

/-- The next snapshot version, without a name overlay. Follows `history_store.rs:5375–5408`. -/
def nextSnapshot (codec : Codec) (incoming : Session) (content : SessionContent) :
    SessionContent :=
  { content with
    currentSnapshotVersion := content.currentSnapshotVersion + 1
    currentSnapshotHash := some (snapshotHash codec incoming)
    snapshot := some incoming
    threadNameOverlay := none
    threadNameOverlaySet := false }

/-- `store_snapshot`, `history_store.rs:5341–5411`. -/
def storeSnapshot (codec : Codec) (policy : SnapshotPolicy) (incoming : Session)
    (content : SessionContent) : SessionContent × Bool :=
  if storesSnapshot codec policy incoming content then
    (nextSnapshot codec incoming content, true)
  else (content, false)

/-! ### Facts -/

/-- `COALESCE(MAX(event_index) + 1, 0)`, `history_store.rs:5419–5425`. -/
def nextEventIndex (tokens : List TokenFact) : Nat :=
  tokens.foldl (fun next fact ↦ max next (fact.eventIndex + 1)) 0

/-- Fill in the request input of the stored rows of one event. Follows
`history_store.rs:5438–5451`. -/
def backfillEvent (codec : Codec) (tokens : List TokenFact) (event : TokenHistoryPoint) :
    List TokenFact :=
  match event.requestInputTokens with
  | none => tokens
  | some requestInputTokens =>
      Table.updateWhere
        (fun fact ↦ fact.eventKey = tokenEventKey codec event && fact.requestInputTokens.isNone)
        (fun fact ↦ { fact with requestInputTokens := some requestInputTokens }) tokens

/-- Whether a stored row lacks its request input. Follows `history_store.rs:5431–5436`. -/
def missingRequestEvidence (tokens : List TokenFact) : Bool :=
  tokens.any fun fact ↦ fact.requestInputTokens.isNone

/-- Fill in missing request inputs from events stored earlier. Follows
`history_store.rs:5427–5453`. -/
def backfill (codec : Codec) (events : List TokenHistoryPoint) (tokens : List TokenFact) :
    List TokenFact :=
  if missingRequestEvidence tokens then events.foldl (backfillEvent codec) tokens else tokens

/-- The request inputs which backfilling converts. Follows `history_store.rs:5442–5450`. -/
def backfillCounts (events : List TokenHistoryPoint) (stored : List TokenFact) : List Nat :=
  if missingRequestEvidence stored then
    (events.take (nextEventIndex stored)).filterMap (·.requestInputTokens)
  else []

/-- A stored row on a conflicting insert. Follows `history_store.rs:5463–5464`. -/
def coalesceRequestInput (excluded stored : TokenFact) : TokenFact :=
  { stored with requestInputTokens := excluded.requestInputTokens.or stored.requestInputTokens }

/-- `INSERT … ON CONFLICT(session_key, event_key)`, `history_store.rs:5458–5464`. -/
def insertTokenFact : List TokenFact → TokenFact → List TokenFact :=
  Table.upsert TokenFact.eventKey coalesceRequestInput

/-- The rows of a history, each with its position in the history. -/
def tokenRows (codec : Codec) (events : List TokenHistoryPoint) : List TokenFact :=
  events.mapIdx (TokenFact.ofEvent (tokenEventKey codec))

/-- The counts of a token row which are converted to SQLite integers. -/
def TokenFact.counts (fact : TokenFact) : List Nat :=
  fact.requestInputTokens.toList ++
    [fact.cumulativeTotalTokens, fact.delta.inputTokens, fact.delta.cachedInputTokens,
      fact.delta.outputTokens, fact.delta.reasoningOutputTokens, fact.delta.totalTokens,
      fact.delta.cacheCreationInputTokens]

/-- The rows of a history which are not stored yet: those from the next index on. Follows
`history_store.rs:5466`. -/
def suffixRows (codec : Codec) (events : List TokenHistoryPoint) (stored : List TokenFact) :
    List TokenFact :=
  (tokenRows codec events).drop (nextEventIndex stored)

/-- The stored rows with their request inputs filled in from the incoming history. -/
def backfilledRows (codec : Codec) (events : List TokenHistoryPoint) (stored : List TokenFact) :
    List TokenFact :=
  backfill codec (events.take (nextEventIndex stored)) stored

/-- `store_token_events`, `history_store.rs:5413–5523`. Adding no rows leaves the rollup as
it is, so the guard on an empty suffix is not repeated. -/
def storeTokenEvents (codec : Codec) (maintainRollups : Bool) (events : List TokenHistoryPoint)
    (content : SessionContent) : Except LedgerError SessionContent := do
  let stored := content.facts.tokens
  requireInRange (backfillCounts events stored)
  let suffix := suffixRows codec events stored
  requireInRange (suffix.flatMap TokenFact.counts)
  let tokens := suffix.foldl insertTokenFact (backfilledRows codec events stored)
  let rollup :=
    if maintainRollups then addEntries content.rollups.tokens (tokenEntries suffix)
    else content.rollups.tokens
  return { content with
    facts := { content.facts with tokens }
    rollups := { content.rollups with tokens := rollup } }

/-- One observation of the rollup loop. Follows `history_store.rs:5689–5733`. -/
def accumulateRollups (rollups : Rollups) (item : ToolObservation) : Rollups :=
  let bucket := hourBucket item.timestamp.timestampMillis
  let model := keySentinel item.model
  { rollups with
    tools := updateEntry rollups.tools (bucket, model) 0 (accumulateObservation · item)
    chains :=
      if item.kind = .mutation then
        updateEntry rollups.chains
          (bucket, model, keySentinel item.turnId, keySentinel item.target) 0 (· + 1)
      else rollups.chains
    dimensions := (dimensionKeys item).foldl (fun dimensions key ↦
      updateEntry dimensions (bucket, key.1, key.2) 0
        (accumulateDimensionCall · item.outcome item.outputBytes item.durationMs))
      rollups.dimensions }

/-- The rollup rows with those of the tool tables replaced. Follows
`history_store.rs:5671–5733`. -/
def replaceToolRollups (rollups : Rollups) (observations : List ToolObservation) : Rollups :=
  observations.foldl accumulateRollups { rollups with tools := ∅, chains := ∅, dimensions := ∅ }

/-- The columns of a tool rollup row. Follows `history_store.rs:5761–5781`. -/
def toolRollupCounts (metrics : ToolMetrics) : List Nat :=
  [metrics.calls, metrics.reads, metrics.searches, metrics.mutations, metrics.commands,
    metrics.other, metrics.successes, metrics.failures, metrics.unknown, metrics.durationMs,
    metrics.outputBytes, metrics.coreOriginCalls, metrics.mcpOriginCalls,
    metrics.providerOriginCalls, metrics.unknownOriginCalls]

/-- The columns of a dimension rollup row. Follows `history_store.rs:5740–5749`. -/
def dimensionRollupCounts (metrics : ToolDimensionMetrics) : List Nat :=
  [metrics.calls, metrics.failures, metrics.outputBytes, metrics.durationMs]

/-- The tool rollup columns which are converted to SQLite integers. -/
def Rollups.toolCounts (rollups : Rollups) : List Nat :=
  rollups.dimensions.toList.flatMap (fun row ↦ dimensionRollupCounts row.2) ++
    rollups.tools.toList.flatMap (fun row ↦ toolRollupCounts row.2) ++
    rollups.chains.toList.map Prod.snd

/-- `store_tool_events`, `history_store.rs:5571–5793`. -/
def storeToolEvents (maintainRollups : Bool) (observations : List ToolObservation)
    (content : SessionContent) : Except LedgerError SessionContent := do
  requireInRange (observations.map (·.outputBytes))
  let facts := { content.facts with
    tools := observations.map ToolFact.ofObservation
    dimensions := observations.flatMap DimensionFact.ofObservation }
  let rollups :=
    if maintainRollups then replaceToolRollups content.rollups observations else content.rollups
  requireInRange (if maintainRollups then rollups.toolCounts else [])
  return { content with facts, rollups }

/-- `store_finding_events`, `history_store.rs:5797–5820`. -/
def storeFindingEvents (findings : List OptimizationFinding) (content : SessionContent) :
    Except LedgerError SessionContent := do
  requireInRange (findings.map (·.avoidableCalls))
  return { content with
    facts := { content.facts with findings := findings.map FindingFact.ofFinding } }

/-- All fact tables of one session. Follows `history_store.rs:4973–4982`. -/
def storeFacts (codec : Codec) (maintainRollups : Bool) (session : Session)
    (content : SessionContent) : Except LedgerError SessionContent := do
  let content ← storeTokenEvents codec maintainRollups session.tokensHistory content
  let content ← storeToolEvents maintainRollups session.toolObservations content
  storeFindingEvents session.optimizationFindings content

/-- The facts of a session once they are written. -/
def factsAfter (codec : Codec) (session : Session) (stored : List TokenFact) : SessionFacts where
  tokens := (suffixRows codec session.tokensHistory stored).foldl insertTokenFact
    (backfilledRows codec session.tokensHistory stored)
  tools := session.toolObservations.map ToolFact.ofObservation
  dimensions := session.toolObservations.flatMap DimensionFact.ofObservation
  findings := session.optimizationFindings.map FindingFact.ofFinding

/-- The rollup rows once the facts of a session are written incrementally. -/
def rollupsAfter (codec : Codec) (session : Session) (content : SessionContent) : Rollups :=
  replaceToolRollups
    { content.rollups with
      tokens := addEntries content.rollups.tokens
        (tokenEntries (suffixRows codec session.tokensHistory content.facts.tokens)) }
    session.toolObservations

/-- The content once the facts of a session are written. -/
def writeFacts (codec : Codec) (maintainRollups : Bool) (session : Session)
    (content : SessionContent) : SessionContent :=
  { content with
    facts := factsAfter codec session content.facts.tokens
    rollups := if maintainRollups then rollupsAfter codec session content else content.rollups }

/-- The counts which writing the facts of a session converts to SQLite integers. -/
def convertedCounts (codec : Codec) (maintainRollups : Bool) (session : Session)
    (content : SessionContent) : List Nat :=
  backfillCounts session.tokensHistory content.facts.tokens ++
    (suffixRows codec session.tokensHistory content.facts.tokens).flatMap TokenFact.counts ++
    session.toolObservations.map (·.outputBytes) ++
    (if maintainRollups then (rollupsAfter codec session content).toolCounts else []) ++
    session.optimizationFindings.map (·.avoidableCalls)

/-! ### Writes of a whole session -/

/-- Snapshot, facts and dirty flag of an observation; also whether the facts were written.
Follows `history_store.rs:4964–4992`. -/
def observeContent (codec : Codec) (maintainRollups : Bool) (session archived : Session)
    (content : SessionContent) : Except LedgerError (SessionContent × Bool) := do
  let (content, factsChanged) := storeSnapshot codec .source archived content
  let content ← if factsChanged then storeFacts codec maintainRollups session content
    else pure content
  return ({ content with ledgerDirty := false }, factsChanged)

/-- The content once an observation succeeded. -/
def observedContent (codec : Codec) (maintainRollups : Bool) (session archived : Session)
    (content : SessionContent) : SessionContent :=
  let written :=
    if storesSnapshot codec .source archived content then
      writeFacts codec maintainRollups session (nextSnapshot codec archived content)
    else content
  { written with ledgerDirty := false }

/-- Snapshot and dirty flag of a metadata overlay. Follows `history_store.rs:5033–5069`. -/
def overlayContent (codec : Codec) (archived : Session) (content : SessionContent) :
    SessionContent :=
  let historyMatches := content.snapshot.any fun durable ↦ historyMatchesDurable durable archived
  { (storeSnapshot codec .metadataOverlay archived content).1 with ledgerDirty := !historyMatches }

/-- The overlaid thread name. Follows `history_store.rs:5127–5133`. -/
def overlayThreadName (threadName : Option String) (content : SessionContent) : SessionContent :=
  { content with threadNameOverlay := threadName, threadNameOverlaySet := true }

/-- The rollup rows recomputed from the facts. Follows `history_store.rs:5280–5337`. -/
def rebuildContent (content : SessionContent) : SessionContent :=
  { content with rollups := rebuildRollups content.facts }

/-- The rows of a prefix are the first rows of the history. -/
theorem tokenRows_take (codec : Codec) (events : List TokenHistoryPoint) (n : Nat) :
    tokenRows codec (events.take n) = (tokenRows codec events).take n := by
  apply List.ext_getElem?
  intro i
  unfold tokenRows
  rw [List.getElem?_mapIdx, List.getElem?_take, List.getElem?_take]
  split
  · rw [List.getElem?_mapIdx]
  · rfl

/-! ### What the writes return -/

private theorem bind_requireInRange {α : Type} {counts : List Nat}
    {next : Unit → Except LedgerError α} {result : α} :
    (requireInRange counts >>= next) = .ok result ↔
      (∀ count ∈ counts, (count : Int) ≤ i64Max) ∧ next () = .ok result := by
  unfold requireInRange
  split
  · next h => exact ⟨fun hnext ↦ ⟨h, hnext⟩, And.right⟩
  · next h => exact ⟨(fun hnext ↦ nomatch hnext), fun hnext ↦ absurd hnext.1 h⟩

/-- Writing the facts succeeds exactly when every converted count is in range. -/
theorem storeFacts_eq_ok {codec : Codec} {maintainRollups : Bool} {session : Session}
    {content content' : SessionContent} :
    storeFacts codec maintainRollups session content = .ok content' ↔
      (∀ count ∈ convertedCounts codec maintainRollups session content, (count : Int) ≤ i64Max) ∧
        writeFacts codec maintainRollups session content = content' := by
  unfold storeFacts storeTokenEvents storeToolEvents storeFindingEvents convertedCounts
  simp only [bind_assoc, bind_requireInRange, pure_bind, List.forall_mem_append]
  cases maintainRollups with
  | false => simp only [and_assoc, pure, Except.pure, Except.ok.injEq]; rfl
  | true => simp only [and_assoc, pure, Except.pure, Except.ok.injEq]; rfl

/-- An observation succeeds exactly when its facts, if it writes them, are in range. -/
theorem observeContent_eq_ok {codec : Codec} {maintainRollups changed : Bool}
    {session archived : Session} {content content' : SessionContent} :
    observeContent codec maintainRollups session archived content = .ok (content', changed) ↔
      storesSnapshot codec .source archived content = changed ∧
        (changed → ∀ count ∈ convertedCounts codec maintainRollups session content,
          (count : Int) ≤ i64Max) ∧
        observedContent codec maintainRollups session archived content = content' := by
  unfold observeContent observedContent storeSnapshot
  cases hstores : storesSnapshot codec .source archived content with
  | false =>
    constructor
    · intro h
      cases h
      exact ⟨rfl, fun h ↦ absurd h Bool.false_ne_true, rfl⟩
    · rintro ⟨rfl, -, rfl⟩
      rfl
  | true =>
    simp only [if_true]
    constructor
    · intro h
      cases hfacts : storeFacts codec maintainRollups session (nextSnapshot codec archived content)
        with
      | error e => rw [hfacts] at h; cases h
      | ok written =>
        rw [hfacts] at h
        obtain ⟨hrange, rfl⟩ := storeFacts_eq_ok.mp hfacts
        cases h
        exact ⟨rfl, fun _ ↦ hrange, rfl⟩
    · rintro ⟨rfl, hrange, rfl⟩
      have hfacts : storeFacts codec maintainRollups session (nextSnapshot codec archived content)
          = .ok (writeFacts codec maintainRollups session (nextSnapshot codec archived content)) :=
        storeFacts_eq_ok.mpr ⟨hrange rfl, rfl⟩
      rw [hfacts]
      rfl

end AgentOdometer.Ledger
