import AgentOdometer.Base.Machine
import AgentOdometer.Base.StableHash
import AgentOdometer.Base.Text
import AgentOdometer.Ledger.Facts

/-!
# Identities of durable sessions

The texts from which the ledger derives a session's identity, first-event fingerprint,
lineage and event keys, and the comparisons of two transcripts
(`history_store.rs:5926–6084`, `model.rs:45–62,946–961`).
-/

namespace AgentOdometer.Ledger

/-- The two library functions which reconciliation compares results of: the stable text
hash, and the JSON text of a session. A stored snapshot is the session it encodes. -/
structure Codec where
  stableHash : String → String
  encode : Session → String

/-- The separator of fields, `\u{1f}`. -/
def unitSeparator : String :=
  "\u001f"

/-- The separator of records, `\u{1e}`. -/
def recordSeparator : String :=
  "\u001e"

/-! ### Storage ids -/

/-- `storage_id_for_session`, `model.rs:45–54`. -/
def storageIdForSession (provider : ProviderId) (providerSessionId : String) : String :=
  if provider = .codex then "codex:thread:" ++ providerSessionId
  else provider.value ++ ":session:" ++ providerSessionId

/-- `storage_id_for_claude_subagent`, `model.rs:60–62`. -/
def storageIdForClaudeSubagent (parentSessionId agentId : String) : String :=
  "claude_code:subagent:" ++ parentSessionId ++ ":" ++ agentId

/-- `Session::effective_storage_id`, `model.rs:947–961`. -/
def effectiveStorageId (session : Session) : String :=
  if session.storageId ≠ "" then session.storageId
  else if session.harness = .claudeCode ∧ session.source = some "subagent" then
    match session.parentThreadId with
    | some parentSessionId => storageIdForClaudeSubagent parentSessionId session.id
    | none => storageIdForSession session.harness session.id
  else storageIdForSession session.harness session.id

/-- A session without a provider session id is not archived. Follows
`history_store.rs:5926–5931`. -/
def hasProviderId (session : Session) : Bool :=
  !Text.isBlank session.id

/-- `is_legacy_claude_subagent`, `history_store.rs:5961–5969`. -/
def isLegacyClaudeSubagent (session : Session) : Bool :=
  session.harness = .claudeCode && session.source = some "subagent" &&
    session.subagentIdIsPathFallback &&
    session.parentThreadId.any fun parent ↦ !Text.isBlank parent

/-! ### Event signatures -/

/-- `token_event_signature`, `history_store.rs:6065–6077`. -/
def tokenEventSignature (event : TokenHistoryPoint) : String :=
  String.intercalate unitSeparator
    [toString event.timestamp.timestampMillis, event.model.getD "", event.serviceTier.getD "",
      toString event.totalTokens, toString event.delta.inputTokens,
      toString event.delta.cachedInputTokens, toString event.delta.outputTokens,
      toString event.delta.reasoningOutputTokens]

/-- `token_event_key`, `history_store.rs:5822–5824`. -/
def tokenEventKey (codec : Codec) (event : TokenHistoryPoint) : String :=
  codec.stableHash (tokenEventSignature event)

/-- The text whose hash is the lineage: every signature, closed by the record separator. -/
def lineageText (events : List TokenHistoryPoint) : String :=
  let value := String.join (events.map fun event ↦ tokenEventSignature event ++ recordSeparator)
  if value = "" then "empty" else value

/-- `history_lineage`, `history_store.rs:6005–6017`. -/
def historyLineage (codec : Codec) (session : Session) : String :=
  codec.stableHash (lineageText session.tokensHistory)

/-- `first_event_fingerprint`, `history_store.rs:5933–5959`. -/
def firstEventFingerprint (codec : Codec) (session : Session) : String :=
  let firstTurn := session.turns.head?
  let firstEvent := session.tokensHistory.head?
  "first-" ++ codec.stableHash (String.intercalate unitSeparator
    ["v1", toString session.startedAt.timestampMillis, (firstTurn.map (·.turnId)).getD "",
      toString ((firstEvent.map (·.timestamp.timestampMillis)).getD 0),
      (firstEvent.bind (·.model)).getD "", toString ((firstEvent.map (·.totalTokens)).getD 0),
      toString ((firstEvent.map (·.delta.totalTokens)).getD 0),
      toString ((firstEvent.map (·.delta.inputTokens)).getD 0)])

/-! ### Comparisons of transcripts -/

/-- `histories_share_lineage`, `history_store.rs:5971–5975`. -/
def historiesShareLineage (left right : List TokenHistoryPoint) : Bool :=
  (left.zip right).all fun pair ↦ tokenEventSignature pair.1 = tokenEventSignature pair.2

/-- `optional_metadata_matches`, `history_store.rs:5998–6003`. -/
def optionalMetadataMatches {α : Type} [DecidableEq α] (left right : Option α) : Bool :=
  match left, right with
  | some left, some right => left = right
  | _, _ => true

/-- `provisional_metadata_matches`, `history_store.rs:5977–5996`. -/
def provisionalMetadataMatches (incoming stored : Session) : Bool :=
  incoming.harness = stored.harness && incoming.startedAt = stored.startedAt &&
    optionalMetadataMatches incoming.parentThreadId stored.parentThreadId &&
    optionalMetadataMatches incoming.forkedFromId stored.forkedFromId &&
    optionalMetadataMatches incoming.agentPath stored.agentPath &&
    optionalMetadataMatches incoming.firstUserMessage stored.firstUserMessage &&
    match incoming.turns.head?, stored.turns.head? with
    | some incoming, some stored =>
        incoming.turnId = stored.turnId &&
          optionalMetadataMatches incoming.startedAt stored.startedAt &&
          optionalMetadataMatches incoming.userMessage stored.userMessage
    | _, _ => true

/-- `source_snapshot_is_monotonic`, `history_store.rs:6079–6084`. -/
def sourceSnapshotIsMonotonic (incoming current : Session) : Bool :=
  current.tokensHistory.length < incoming.tokensHistory.length ||
    (incoming.tokensHistory.length = current.tokensHistory.length &&
      current.lastEventAt ≤ incoming.lastEventAt &&
      !(incoming.turns.isEmpty && !current.turns.isEmpty))

/-- The history comparison of a metadata overlay. Follows `history_store.rs:5048–5052`. -/
def historyMatchesDurable (durable archived : Session) : Bool :=
  durable.tokensHistory.length = archived.tokensHistory.length &&
    durable.tokensHistory.getLast?.map (·.timestamp) =
      archived.tokensHistory.getLast?.map (·.timestamp) &&
    durable.toolObservations.length = archived.toolObservations.length &&
    durable.optimizationFindings.length = archived.optimizationFindings.length

end AgentOdometer.Ledger
