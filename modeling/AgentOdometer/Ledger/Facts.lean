import AgentOdometer.Telemetry.Metrics

/-!
# Facts and rollups

The per-event rows the durable ledger keeps for a session, at millisecond granularity, and
the hour-bucket rollups which `rebuild_rollups_in_transaction` derives from them
(`history_store.rs:5270–5339`).
-/

namespace AgentOdometer.Ledger

open Std (ExtTreeMap)
open GroupBy Telemetry

/-- Milliseconds of an hour. -/
def hourMs : Int :=
  3600000

/-- Hour bucket of an instant, by truncating division. Follows `history_store.rs:2683–2685`. -/
def hourBucket (timestampMs : Int) : Int :=
  timestampMs.tdiv hourMs

/-- The grouping column of an optional value. Follows `history_store.rs:2692–2694`. -/
def keySentinel (value : Option String) : String :=
  value.getD ""

/-- The optional value of a grouping column. Follows `history_store.rs:2696–2702`. -/
def sentinelToOption (value : String) : Option String :=
  if value = "" then none else some value

theorem sentinelToOption_keySentinel {value : Option String} (h : value ≠ some "") :
    sentinelToOption (keySentinel value) = value := by
  cases value with
  | none => rfl
  | some s =>
    have hs : s ≠ "" := fun hs ↦ h (congrArg some hs)
    exact if_neg hs

theorem sentinelToOption_injective : Function.Injective sentinelToOption := by
  intro a b h
  unfold sentinelToOption at h
  split at h <;> split at h
  · next ha hb => exact ha.trans hb.symm
  · contradiction
  · contradiction
  · exact Option.some.inj h

/-! ### Fact rows -/

/-- A row of `durable_token_events`. Follows `history_store.rs:3293–3309`. -/
structure TokenFact where
  eventKey : String
  eventIndex : Nat
  timestampMs : Int
  model : Option String
  serviceTier : Option String
  requestInputTokens : Option Nat
  cumulativeTotalTokens : Nat
  delta : TokenTotals
deriving Repr, DecidableEq

/-- A row of `durable_tool_events`. Follows `history_store.rs:3311–3322`. -/
structure ToolFact where
  timestampMs : Int
  model : Option String
  kind : ToolKind
  outcome : ToolOutcome
  turnId : Option String
  target : Option String
  durationMs : Option Nat
  outputBytes : Nat
  origin : ToolOrigin
deriving Repr, DecidableEq

/-- A row of `durable_tool_dimension_events`. Follows `history_store.rs:4395–4404`. -/
structure DimensionFact where
  timestampMs : Int
  model : Option String
  dimensionKind : String
  dimensionValue : String
  outcome : ToolOutcome
  outputBytes : Nat
  durationMs : Option Nat
deriving Repr, DecidableEq

/-- A row of `durable_finding_events`. Follows `history_store.rs:3324–3330`. -/
structure FindingFact where
  timestampMs : Option Int
  ruleId : String
  severity : String
  avoidableCalls : Nat
deriving Repr, DecidableEq

/-- All fact rows of one session, each table in insertion order. -/
structure SessionFacts where
  tokens : List TokenFact
  tools : List ToolFact
  dimensions : List DimensionFact
  findings : List FindingFact
deriving Repr, DecidableEq

section Rows

variable {τ : Type} [Timestamp τ]

/-- The row of a token event. Follows `history_store.rs:5468–5486`. -/
def TokenFact.ofEvent (eventKey : TokenHistoryPoint τ → String) (index : Nat)
    (event : TokenHistoryPoint τ) : TokenFact where
  eventKey := eventKey event
  eventIndex := index
  timestampMs := Timestamp.timestampMillis event.timestamp
  model := event.model
  serviceTier := event.serviceTier
  requestInputTokens := event.requestInputTokens
  cumulativeTotalTokens := event.totalTokens
  delta := event.delta

/-- The row of a tool observation. Follows `history_store.rs:5584–5598`. -/
def ToolFact.ofObservation (item : ToolObservation τ) : ToolFact where
  timestampMs := Timestamp.timestampMillis item.timestamp
  model := item.model
  kind := item.kind
  outcome := item.outcome
  turnId := item.turnId
  target := item.target
  durationMs := item.durationMs
  outputBytes := item.outputBytes
  origin := item.origin

/-- The rows of a tool observation's open-set dimensions. Follows
`history_store.rs:5620–5644`. -/
def DimensionFact.ofObservation (item : ToolObservation τ) : List DimensionFact :=
  (dimensionKeys item).map fun key ↦
    { timestampMs := Timestamp.timestampMillis item.timestamp
      model := item.model
      dimensionKind := key.1
      dimensionValue := key.2
      outcome := item.outcome
      outputBytes := item.outputBytes
      durationMs := item.durationMs }

/-- The row of a finding. Follows `history_store.rs:5811–5819`. -/
def FindingFact.ofFinding (finding : OptimizationFinding τ) : FindingFact where
  timestampMs := finding.timestamp.map Timestamp.timestampMillis
  ruleId := finding.ruleId
  severity := finding.severity
  avoidableCalls := finding.avoidableCalls

/-- The facts of a session whose every event is stored once. -/
def SessionFacts.ofSession (eventKey : TokenHistoryPoint τ → String) (session : Session τ) :
    SessionFacts where
  tokens := session.tokensHistory.mapIdx (TokenFact.ofEvent eventKey)
  tools := session.toolObservations.map ToolFact.ofObservation
  dimensions := session.toolObservations.flatMap DimensionFact.ofObservation
  findings := session.optimizationFindings.map FindingFact.ofFinding

end Rows

/-! ### Rollups -/

/-- Group of a token row: hour bucket, model and tier. -/
def TokenFact.rollupKey (fact : TokenFact) : Int × String × String :=
  (hourBucket fact.timestampMs, keySentinel fact.model, keySentinel fact.serviceTier)

/-- Group of a tool row: hour bucket and model. -/
def ToolFact.rollupKey (fact : ToolFact) : Int × String :=
  (hourBucket fact.timestampMs, keySentinel fact.model)

/-- Group of a mutation row: hour bucket, model, turn and target. -/
def ToolFact.chainKey (fact : ToolFact) : Int × String × String × String :=
  (hourBucket fact.timestampMs, keySentinel fact.model, keySentinel fact.turnId,
    keySentinel fact.target)

/-- Group of a dimension row: hour bucket, kind and value. -/
def DimensionFact.rollupKey (fact : DimensionFact) : Int × String × String :=
  (hourBucket fact.timestampMs, fact.dimensionKind, fact.dimensionValue)

private def countIf (p : Prop) [Decidable p] : Nat :=
  if p then 1 else 0

/-- The summed columns of one tool row. Follows `history_store.rs:5302–5320`. -/
def ToolFact.counters (fact : ToolFact) : ToolMetrics where
  calls := 1
  reads := countIf (fact.kind = .read)
  searches := countIf (fact.kind = .search)
  mutations := countIf (fact.kind = .mutation)
  commands := countIf (fact.kind = .command)
  other := countIf (fact.kind = .other)
  successes := countIf (fact.outcome = .success)
  failures := countIf (fact.outcome = .failure)
  unknown := countIf (fact.outcome ≠ .success ∧ fact.outcome ≠ .failure)
  mutationTargets := 0
  oneShotMutations := 0
  retryCount := 0
  durationMs := fact.durationMs.getD 0
  outputBytes := fact.outputBytes
  coreOriginCalls := countIf (fact.origin = .core)
  mcpOriginCalls := countIf (fact.origin = .mcp)
  providerOriginCalls := countIf (fact.origin = .provider)
  unknownOriginCalls := countIf (fact.origin ≠ .core ∧ fact.origin ≠ .mcp ∧ fact.origin ≠ .provider)

/-- The summed columns of one dimension row. Follows `history_store.rs:5328–5336`. -/
def DimensionFact.counters (fact : DimensionFact) : ToolDimensionMetrics where
  calls := 1
  failures := countIf (fact.outcome = .failure)
  outputBytes := fact.outputBytes
  durationMs := fact.durationMs.getD 0
  tokens := 0

/-- The four rollup tables of one session. Follows `history_store.rs:4331–4376` and
`4407–4418`. -/
@[ext]
structure Rollups where
  tokens : ExtTreeMap (Int × String × String) TokenTotals
  tools : ExtTreeMap (Int × String) ToolMetrics
  chains : ExtTreeMap (Int × String × String × String) Nat
  dimensions : ExtTreeMap (Int × String × String) ToolDimensionMetrics
deriving DecidableEq

/-- Token entries to be grouped. -/
def tokenEntries (facts : List TokenFact) : List ((Int × String × String) × TokenTotals) :=
  facts.map fun fact ↦ (fact.rollupKey, fact.delta)

/-- Tool entries to be grouped. -/
def toolEntries (facts : List ToolFact) : List ((Int × String) × ToolMetrics) :=
  facts.map fun fact ↦ (fact.rollupKey, fact.counters)

/-- Mutation entries to be grouped. -/
def chainFactEntries (facts : List ToolFact) : List ((Int × String × String × String) × Nat) :=
  (facts.filter fun fact ↦ fact.kind = .mutation).map fun fact ↦ (fact.chainKey, 1)

/-- Dimension entries to be grouped. -/
def dimensionFactEntries (facts : List DimensionFact) :
    List ((Int × String × String) × ToolDimensionMetrics) :=
  facts.map fun fact ↦ (fact.rollupKey, fact.counters)

/-- The rollup rows of one session. Follows `history_store.rs:5288–5337`. -/
def rebuildRollups (facts : SessionFacts) : Rollups where
  tokens := groupSum (tokenEntries facts.tokens)
  tools := groupSum (toolEntries facts.tools)
  chains := groupSum (chainFactEntries facts.tools)
  dimensions := groupSum (dimensionFactEntries facts.dimensions)

/-- The rebuild counts a stored observation as the live accumulator does. -/
theorem counters_ofObservation {τ : Type} [Timestamp τ] (item : ToolObservation τ) :
    (ToolFact.ofObservation item).counters = observationCounters item := by
  unfold observationCounters accumulateObservation ToolFact.counters ToolFact.ofObservation
  rw [ToolMetrics.zero_def]
  unfold ToolMetrics.zero
  cases item.kind <;> cases item.outcome <;> cases item.origin <;> simp [countIf]

/-- The rebuild counts a dimension row as the live accumulator does. -/
theorem DimensionFact.counters_eq (fact : DimensionFact) :
    fact.counters =
      accumulateDimensionCall 0 fact.outcome fact.outputBytes fact.durationMs := by
  unfold DimensionFact.counters accumulateDimensionCall countIf
  ext
  · exact (Nat.zero_add 1).symm
  · simp only
    split
    · exact (Nat.zero_add 1).symm
    · rfl
  · exact (Nat.zero_add fact.outputBytes).symm
  · exact (Nat.zero_add (fact.durationMs.getD 0)).symm
  · rfl

end AgentOdometer.Ledger
