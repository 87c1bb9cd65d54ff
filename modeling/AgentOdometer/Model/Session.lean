import AgentOdometer.Base.Time
import AgentOdometer.Model.Provider

/-!
# Sessions

The transcript-derived records of `model.rs`. Counters are unbounded naturals; `f64` and
`f32` are Lean's binary64 and binary32; ordered and hashed maps are extensional tree maps.
Instants are of type `τ`, by default without leap seconds.
-/

namespace AgentOdometer

open Std (ExtTreeMap)

/-- Whether the source transcript can be read. Follows `model.rs:17–25`. -/
inductive SourceAvailability where
  | present
  | missing
deriving Repr, DecidableEq, Inhabited

/-- Retention of a session. Follows `model.rs:27–37`. -/
inductive SessionLifecycle where
  | present
  | retained
  | superseded
  | purged
deriving Repr, DecidableEq, Inhabited

/-- Normalized tool kind. Follows `model.rs:69–78`. -/
inductive ToolKind where
  | read
  | search
  | mutation
  | command
  | other
deriving Repr, DecidableEq

/-- Outcome of a tool call. Follows `model.rs:92–100`. -/
inductive ToolOutcome where
  | pending
  | success
  | failure
  | unknown
deriving Repr, DecidableEq

/-- Normalized tool origin. Follows `model.rs:117–125`. -/
inductive ToolOrigin where
  | core
  | mcp
  | provider
  | unknown
deriving Repr, DecidableEq

/-- One observed tool call. Follows `model.rs:161–211`. -/
structure ToolObservation (τ : Type := DateTime) where
  callId : String
  turnId : Option String
  harness : ProviderId
  model : Option String
  timestamp : τ
  kind : ToolKind
  name : String
  providers : List String
  effectiveTools : List String
  target : Option String
  resourceId : Option String
  origin : ToolOrigin
  shellFamily : Option String
  language : Option String
  outcome : ToolOutcome
  durationMs : Option Nat
  outputBytes : Nat
deriving Repr, DecidableEq

/-- Counters of one open-set dimension value. Follows `model.rs:230–240`. -/
structure ToolDimensionMetrics where
  calls : Nat
  failures : Nat
  outputBytes : Nat
  durationMs : Nat
  tokens : Nat
deriving Repr, DecidableEq

/-- Tool counters. Follows `model.rs:250–282`. -/
structure ToolMetrics where
  calls : Nat
  reads : Nat
  searches : Nat
  mutations : Nat
  commands : Nat
  other : Nat
  successes : Nat
  failures : Nat
  unknown : Nat
  mutationTargets : Nat
  oneShotMutations : Nat
  retryCount : Nat
  durationMs : Nat
  outputBytes : Nat
  coreOriginCalls : Nat
  mcpOriginCalls : Nat
  providerOriginCalls : Nat
  unknownOriginCalls : Nat
deriving Repr, DecidableEq

/-- Category of a turn. Follows `model.rs:307–320`. -/
inductive TaskCategory where
  | planning
  | exploration
  | coding
  | debugging
  | testing
  | review
  | other
deriving Repr, DecidableEq

/-- Derived classification of a turn. Follows `model.rs:322–328`. -/
structure TurnClassification where
  version : Nat
  category : TaskCategory
  confidence : Float32
  signals : List String
deriving DecidableEq

/-- Token counters. Follows `model.rs:384–398`. -/
structure TokenTotals where
  inputTokens : Nat
  cachedInputTokens : Nat
  cacheCreationInputTokens : Nat
  outputTokens : Nat
  reasoningOutputTokens : Nat
  totalTokens : Nat
deriving Repr, DecidableEq

/-- Usage of one (model, tier) pair. Follows `model.rs:812–820`. -/
structure TierBucket where
  model : String
  serviceTier : Option String
  tokens : TokenTotals
deriving Repr, DecidableEq

/-- Totals of one task category. Follows `model.rs:341–348`. -/
structure CategoryMetric where
  turns : Nat
  tokens : TokenTotals
  toolCalls : Nat
  buckets : List TierBucket
deriving Repr, DecidableEq

/-- A derived optimization finding. Follows `model.rs:350–369`. -/
structure OptimizationFinding (τ : Type := DateTime) where
  version : Nat
  ruleId : String
  severity : String
  confidence : String
  turnId : Option String
  model : Option String
  timestamp : Option τ
  evidence : String
  remediation : String
  occurrences : Nat
  avoidableCalls : Nat
deriving Repr, DecidableEq

/-- Counts over findings. Follows `model.rs:371–377`. -/
structure OptimizationSummary where
  findings : Nat
  warnings : Nat
  likelyAvoidableCalls : Nat
  byRule : ExtTreeMap String Nat
deriving DecidableEq

/-- One token event. Follows `model.rs:416–434`. -/
structure TokenHistoryPoint (τ : Type := DateTime) where
  timestamp : τ
  model : Option String
  serviceTier : Option String
  requestInputTokens : Option Nat
  totalTokens : Nat
  delta : TokenTotals
deriving Repr, DecidableEq

/-- One reported subscription window. Follows `model.rs:439–444`. -/
structure RateLimitWindow (τ : Type := DateTime) where
  usedPercent : Float
  windowMinutes : Option Nat
  resetsAt : Option τ
deriving DecidableEq

/-- One (collapsed) rate-limit observation. Follows `model.rs:475–497`. -/
structure RateLimitSnapshotPoint (τ : Type := DateTime) where
  timestamp : τ
  turnId : Option String
  limitId : Option String
  primary : Option (RateLimitWindow τ)
  secondary : Option (RateLimitWindow τ)
  runStartedAt : Option τ
  observationCount : Nat
deriving DecidableEq

/-- Status of a turn. Follows `model.rs:581–589`. -/
inductive TurnStatus where
  | inProgress
  | completed
  | aborted
  | rolledBack
deriving Repr, DecidableEq, Inhabited

/-- One user turn. Follows `model.rs:594–622`. -/
structure TurnInfo (τ : Type := DateTime) where
  turnId : String
  index : Nat
  model : Option String
  reasoningEffort : Option String
  collaborationMode : Option String
  serviceTier : Option String
  status : TurnStatus
  abortReason : Option String
  startedAt : Option τ
  completedAt : Option τ
  durationMs : Option Nat
  timeToFirstTokenMs : Option Nat
  userMessage : Option String
  lastAgentMessage : Option String
  tokens : TokenTotals
  toolMetrics : ToolMetrics
  classification : TurnClassification
deriving DecidableEq

/-- Why a project identity was chosen. Follows `project_identity.rs:28–45`. -/
inductive ProjectProvenance where
  | repositoryRoot
  | workspaceRoot
  | providerProjectId
  | fallbackPathIdentity
deriving Repr, DecidableEq

namespace TaskCategory

/-- Position in the declaration. -/
def rank : TaskCategory → Nat
  | .planning => 0
  | .exploration => 1
  | .coding => 2
  | .debugging => 3
  | .testing => 4
  | .review => 5
  | .other => 6

theorem rank_injective : Function.Injective rank := by
  intro a b h
  cases a <;> cases b <;> first | rfl | exact absurd h (by decide)

/-- Declaration order, as `#[derive(Ord)]` gives it. -/
instance : Ord TaskCategory :=
  ⟨compareOn rank⟩

instance : Std.TransOrd TaskCategory :=
  inferInstanceAs (Std.TransCmp (compareOn rank))

instance : Std.LawfulEqOrd TaskCategory :=
  lawfulEqCmp_compareOn rank_injective

end TaskCategory

/-- A parsed transcript. Follows `model.rs:624–706`. -/
structure Session (τ : Type := DateTime) where
  id : String
  storageId : String
  harness : ProviderId
  threadName : Option String
  forkedFromId : Option String
  parentThreadId : Option String
  agentPath : Option String
  agentNickname : Option String
  filePath : String
  sourceAvailability : SourceAvailability
  lifecycle : SessionLifecycle
  archived : Bool
  startedAt : τ
  lastEventAt : τ
  workingDirectory : Option String
  originator : Option String
  source : Option String
  subagentIdIsPathFallback : Bool
  historyMode : Option String
  memoryMode : Option String
  cliVersion : Option String
  modelProvider : Option String
  model : Option String
  serviceTier : Option String
  planType : Option String
  creditsUnlimited : Option Bool
  creditsBalance : Option Float
  contextWindow : Option Nat
  latestContextTokens : Option Nat
  totalTurns : Nat
  firstUserMessage : Option String
  tokensTotal : TokenTotals
  tokensByModel : ExtTreeMap String TokenTotals
  tokensHistory : List (TokenHistoryPoint τ)
  rateLimitsHistory : List (RateLimitSnapshotPoint τ)
  turns : List (TurnInfo τ)
  toolObservations : List (ToolObservation τ)
  toolMetrics : ToolMetrics
  toolMetricsByModel : ExtTreeMap String ToolMetrics
  categoryTotals : ExtTreeMap TaskCategory CategoryMetric
  optimizationFindings : List (OptimizationFinding τ)
  projectKey : Option String
  projectLabel : Option String
  projectProvenance : Option ProjectProvenance
deriving DecidableEq

namespace TokenTotals

/-- No tokens. -/
def zero : TokenTotals :=
  ⟨0, 0, 0, 0, 0, 0⟩

end TokenTotals

namespace ToolMetrics

/-- No tool calls. -/
def zero : ToolMetrics :=
  ⟨0, 0, 0, 0, 0, 0, 0, 0, 0, 0, 0, 0, 0, 0, 0, 0, 0, 0⟩

end ToolMetrics

/-- A session of the given identity in which nothing has been observed. -/
def Session.blank {τ : Type} (harness : ProviderId) (id : String) (startedAt : τ) : Session τ :=
  { id, harness, startedAt
    storageId := ""
    threadName := none
    forkedFromId := none
    parentThreadId := none
    agentPath := none
    agentNickname := none
    filePath := ""
    sourceAvailability := .present
    lifecycle := .present
    archived := false
    lastEventAt := startedAt
    workingDirectory := none
    originator := none
    source := none
    subagentIdIsPathFallback := false
    historyMode := none
    memoryMode := none
    cliVersion := none
    modelProvider := none
    model := none
    serviceTier := none
    planType := none
    creditsUnlimited := none
    creditsBalance := none
    contextWindow := none
    latestContextTokens := none
    totalTurns := 0
    firstUserMessage := none
    tokensTotal := .zero
    tokensByModel := ∅
    tokensHistory := []
    rateLimitsHistory := []
    turns := []
    toolObservations := []
    toolMetrics := .zero
    toolMetricsByModel := ∅
    categoryTotals := ∅
    optimizationFindings := []
    projectKey := none
    projectLabel := none
    projectProvenance := none }

end AgentOdometer
