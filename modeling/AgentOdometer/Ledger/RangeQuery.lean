import AgentOdometer.Ledger.Windows
import AgentOdometer.Model.RangeTotals

/-!
# The range query of the durable ledger

`range_totals_multi_on` and `compute_range_totals` (`history_store.rs:1964–2301` and
`2818–3028`): one batch of windows is planned, the rollup rows, edge facts and findings of
all windows are read once per session, and each window is assembled from the pooled rows.
-/

namespace AgentOdometer.Ledger

open Std (ExtTreeMap)
open GroupBy Telemetry

/-- The tables of one session. -/
structure SessionTables where
  facts : SessionFacts
  rollups : Rollups

/-- A pooled dimension row. Follows `history_store.rs:3034–3041`. -/
structure DimensionEdgeEvent where
  timestampMs : Int
  dimensionKind : String
  dimensionValue : String
  outcome : ToolOutcome
  outputBytes : Nat
  durationMs : Option Nat
deriving Repr, DecidableEq

/-- Everything read for one session, pooled over the windows of the batch. -/
structure PooledRows where
  tokenRows : List ((Int × String × String) × TokenTotals)
  toolRows : List ((Int × String) × ToolMetrics)
  chainRows : List ((Int × String × String × String) × Nat)
  dimensionRows : List ((Int × String × String) × ToolDimensionMetrics)
  edgeTokens : List TokenHistoryPoint
  edgeTools : List ToolObservation
  edgeDimensions : List DimensionEdgeEvent
  findings : List OptimizationFinding

/-! ### Reading rows -/

/-- A token row as an event. Follows `history_store.rs:2171–2191`. -/
def TokenFact.toPoint (fact : TokenFact) : TokenHistoryPoint where
  timestamp := (DateTime.ofMillis? fact.timestampMs).getD .epoch
  model := fact.model
  serviceTier := fact.serviceTier
  requestInputTokens := fact.requestInputTokens
  totalTokens := fact.cumulativeTotalTokens
  delta := fact.delta

/-- A tool row as an observation; columns which are not stored are left blank. Follows
`history_store.rs:2201–2239`. -/
def ToolFact.toObservation (fact : ToolFact) : ToolObservation where
  callId := ""
  turnId := fact.turnId
  harness := .codex
  model := fact.model
  timestamp := (DateTime.ofMillis? fact.timestampMs).getD .epoch
  kind := fact.kind
  name := ""
  providers := []
  effectiveTools := []
  target := fact.target
  resourceId := none
  origin := fact.origin
  shellFamily := none
  language := none
  outcome := fact.outcome
  durationMs := fact.durationMs
  outputBytes := fact.outputBytes

/-- A dimension row as a pooled event. Follows `history_store.rs:2250–2262`. -/
def DimensionFact.toEdgeEvent (fact : DimensionFact) : DimensionEdgeEvent where
  timestampMs := fact.timestampMs
  dimensionKind := fact.dimensionKind
  dimensionValue := fact.dimensionValue
  outcome := fact.outcome
  outputBytes := fact.outputBytes
  durationMs := fact.durationMs

/-- A finding row as a finding. Follows `history_store.rs:2267–2277`. -/
def FindingFact.toFinding (fact : FindingFact) : OptimizationFinding where
  version := 0
  ruleId := fact.ruleId
  severity := fact.severity
  confidence := ""
  turnId := none
  model := none
  timestamp := fact.timestampMs.bind DateTime.ofMillis?
  evidence := ""
  remediation := ""
  occurrences := 0
  avoidableCalls := fact.avoidableCalls

/-- The distinct edges of all plans, in order of first appearance. Follows
`history_store.rs:2009–2016`. -/
def poolEdges (plans : List WindowPlan) : List (Int × Int) :=
  plans.foldl (fun pooled plan ↦ plan.edges.foldl (fun pooled edge ↦
    if edge ∈ pooled then pooled else pooled ++ [edge]) pooled) []

/-- `(column BETWEEN ? AND ?) OR …`, false when there are no ranges. Follows
`history_store.rs:2774–2793`. -/
def inRanges (ranges : List (Int × Int)) (value : Int) : Bool :=
  ranges.any (between value)

/-- The finding predicate. Follows `history_store.rs:2020–2027`. -/
def inFindingRanges (windowMs : List (Option Int × Option Int)) : Option Int → Bool
  | some ms => inRanges (windowMs.map fun w ↦ (w.1.getD i64Min, w.2.getD i64Max)) ms
  | none => decide ((none, none) ∈ windowMs)

/-- `ORDER BY timestamp_ms`, keeping the stored order among equal timestamps. -/
def orderByTimestamp {α : Type} (timestampMs : α → Int) (rows : List α) : List α :=
  rows.insertionSort fun a b ↦ timestampMs a ≤ timestampMs b

/-- Read the rows of one session for a batch of windows. Follows
`history_store.rs:2029–2280`. -/
def readRows (tables : SessionTables) (windowMs : List (Option Int × Option Int))
    (plans : List WindowPlan) : PooledRows :=
  let buckets := plans.filterMap WindowPlan.fullBuckets
  let edges := poolEdges plans
  { tokenRows := tables.rollups.tokens.toList.filter fun row ↦ inRanges buckets row.1.1
    toolRows := tables.rollups.tools.toList.filter fun row ↦ inRanges buckets row.1.1
    chainRows := tables.rollups.chains.toList.filter fun row ↦ inRanges buckets row.1.1
    dimensionRows := tables.rollups.dimensions.toList.filter fun row ↦ inRanges buckets row.1.1
    edgeTokens := (orderByTimestamp TokenFact.timestampMs
      (tables.facts.tokens.filter fun fact ↦ inRanges edges fact.timestampMs)).map
        TokenFact.toPoint
    edgeTools := (orderByTimestamp ToolFact.timestampMs
      (tables.facts.tools.filter fun fact ↦ inRanges edges fact.timestampMs)).map
        ToolFact.toObservation
    edgeDimensions := (orderByTimestamp DimensionFact.timestampMs
      (tables.facts.dimensions.filter fun fact ↦ inRanges edges fact.timestampMs)).map
        DimensionFact.toEdgeEvent
    findings := (tables.facts.findings.filter fun fact ↦
      inFindingRanges windowMs fact.timestampMs).map FindingFact.toFinding }

/-! ### Assembling a window -/

/-- The optional grouping key of a model column. -/
def modelKey (model : String) : Option String :=
  if model = "" then none else some model

/-- The chain an observation belongs to. Follows `history_store.rs:2915–2918`. -/
def chainKey {τ : Type} (item : ToolObservation τ) : String × String :=
  (item.turnId.getD "", item.target.getD "")

/-- Token totals of rollup rows and edge events. Follows `history_store.rs:2839–2852`. -/
def mergeTokens (rows : List ((Int × String × String) × TokenTotals))
    (edges : List TokenHistoryPoint) : TokenTotals :=
  edges.foldl (fun total point ↦ total + point.delta)
    (rows.foldl (fun total row ↦ total + row.2) 0)

/-- Totals by model and tier. Follows `history_store.rs:2840–2862`. -/
def mergeBuckets (rows : List ((Int × String × String) × TokenTotals))
    (edges : List TokenHistoryPoint) : ExtTreeMap (String × Option String) TokenTotals :=
  groupFold (fun point ↦ point.model.map fun model ↦ (model, point.serviceTier))
    0 (fun total point ↦ total + point.delta)
    (groupFold (fun row ↦
        (modelKey row.1.2.1).map fun model ↦ (model, sentinelToOption row.1.2.2))
      0 (fun total row ↦ total + row.2) ∅ rows)
    edges

/-- Additive tool counters. Follows `history_store.rs:2881–2915`. -/
def mergeCounters (rows : List ((Int × String) × ToolMetrics)) (edges : List ToolObservation) :
    ToolMetrics :=
  edges.foldl accumulateObservation (rows.foldl (fun counters row ↦ counters + row.2) 0)

/-- Additive tool counters by model. Follows `history_store.rs:2882–2926`. -/
def mergeModelCounters (rows : List ((Int × String) × ToolMetrics))
    (edges : List ToolObservation) : ExtTreeMap String ToolMetrics :=
  groupFold (fun item ↦ item.model) 0 accumulateObservation
    (groupFold (fun row ↦ modelKey row.1.2) 0 (fun counters row ↦ counters + row.2) ∅ rows)
    edges

/-- Lengths of the mutation chains. Follows `history_store.rs:2883–2922`. -/
def mergeChains (rows : List ((Int × String × String × String) × Nat))
    (mutations : List ToolObservation) : ExtTreeMap (String × String) Nat :=
  groupFold (fun item ↦ some (chainKey item)) 0 (fun count _ ↦ count + 1)
    (groupFold (fun row ↦ some row.1.2.2) 0 (fun count row ↦ count + row.2) ∅ rows)
    mutations

/-- Lengths of the mutation chains by model. Follows `history_store.rs:2884–2932`. -/
def mergeModelChains (rows : List ((Int × String × String × String) × Nat))
    (mutations : List ToolObservation) : ExtTreeMap String (ExtTreeMap (String × String) Nat) :=
  groupFold (fun item ↦ item.model) ∅
    (fun chains item ↦ updateEntry chains (chainKey item) 0 (· + 1))
    (groupFold (fun row ↦ modelKey row.1.2.1) ∅
      (fun chains row ↦ updateEntry chains row.1.2.2 0 (· + row.2)) ∅ rows)
    mutations

/-- Open-set dimensions. Follows `history_store.rs:2975–3004`. -/
def mergeDimensions (rows : List ((Int × String × String) × ToolDimensionMetrics))
    (edges : List DimensionEdgeEvent) :
    ExtTreeMap String (ExtTreeMap String ToolDimensionMetrics) :=
  groupFold (fun event ↦ some event.dimensionKind) ∅
    (fun inner event ↦ updateEntry inner event.dimensionValue 0 fun entry ↦
      accumulateDimensionCall entry event.outcome event.outputBytes event.durationMs)
    (groupFold (fun row ↦ some row.1.2.1) ∅
      (fun inner row ↦ updateEntry inner row.1.2.2 0 (· + row.2)) ∅ rows)
    edges

/-- Whether a finding belongs to a window. Follows `history_store.rs:2957–2960`. -/
def findingInWindow (fromMs toMs : Option Int) (finding : OptimizationFinding) : Bool :=
  match finding.timestamp with
  | some t => inWindow fromMs toMs t.timestampMillis
  | none => fromMs.isNone && toMs.isNone

/-- Findings of a window. Follows `history_store.rs:2955–2961`. -/
def selectFindings (fromMs toMs : Option Int) (findings : List OptimizationFinding) :
    List OptimizationFinding :=
  findings.filter (findingInWindow fromMs toMs)

/-- Merge pooled rollup rows and edge events into the totals of one window. Follows
`history_store.rs:2818–3028`. -/
def computeRangeTotals (fromMs toMs : Option Int) (plan : WindowPlan) (rows : PooledRows) :
    RangeTotals :=
  let isWhole (bucket : Int) : Bool := plan.inBucketRange bucket
  -- Edge events of other windows may lie in a bucket which this window counts as a whole.
  let isEdge (ms : Int) : Bool := inWindow fromMs toMs ms && !isWhole (hourBucket ms)
  let tokenRows := rows.tokenRows.filter fun row ↦ isWhole row.1.1
  let edgeTokens := rows.edgeTokens.filter fun point ↦ isEdge point.timestamp.timestampMillis
  let toolRows := rows.toolRows.filter fun row ↦ isWhole row.1.1
  let chainRows := rows.chainRows.filter fun row ↦ isWhole row.1.1
  let edgeTools := rows.edgeTools.filter fun item ↦ isEdge item.timestamp.timestampMillis
  let mutations := edgeTools.filter fun item ↦ item.kind = .mutation
  let dimensionRows := rows.dimensionRows.filter fun row ↦ isWhole row.1.1
  let edgeDimensions := rows.edgeDimensions.filter fun event ↦ isEdge event.timestampMs
  let tokens := mergeTokens tokenRows edgeTokens
  let allChain := mergeChains chainRows mutations
  let byModelChain := mergeModelChains chainRows mutations
  let findings := selectFindings fromMs toMs rows.findings
  { tokens
    buckets := ((mergeBuckets tokenRows edgeTokens).toList.map RangeTotals.ofEntry).insertionSort
      RangeTotals.bucketLe
    toolMetrics := withChainFields (mergeCounters toolRows edgeTools)
      (allChain.toList.map Prod.snd)
    toolMetricsByModel := (mergeModelCounters toolRows edgeTools).map fun model counters ↦
      withChainFields counters ((byModelChain.getD model ∅).toList.map Prod.snd)
    optimizationFindingsCount := findings.length
    optimizationSummary := .fromFindings findings
    toolDimensions := insertContextSources (mergeDimensions dimensionRows edgeDimensions) tokens }

/-- Bounds of a window in milliseconds. Follows `history_store.rs:1994–2002`. -/
def windowMillis {τ : Type} [Timestamp τ] (window : RangeWindow τ) : Option Int × Option Int :=
  (window.1.map Timestamp.timestampMillis, window.2.map Timestamp.timestampMillis)

/-- The totals of one session in every window of a batch. Follows
`history_store.rs:2281–2298`. -/
def sessionRangeTotals {τ : Type} [Timestamp τ] (tables : SessionTables)
    (windows : List (RangeWindow τ)) : List RangeTotals :=
  let windowMs := windows.map windowMillis
  let plans := windowMs.map fun w ↦ planWindow w.1 w.2
  let rows := readRows tables windowMs plans
  (windowMs.zip plans).map fun (w, plan) ↦ computeRangeTotals w.1 w.2 plan rows

/-! ### The batch -/

/-- Limits of one query. Follows `query_control.rs:10–19`; time and cancellation are not
modelled. -/
structure QueryControl where
  maxSessions : Nat
  maxWindows : Nat
  maxRows : Nat
  rows : Nat

/-- Why a query is refused. -/
inductive QueryError where
  | sessionLimit (limit : Nat)
  | windowLimit (limit : Nat)
  | cardinality
  | reversedWindow
  | rowLimit (limit : Nat)
deriving Repr, DecidableEq

/-- Text of a refusal. Follows `history_store.rs:1973–1989` and `query_control.rs:62–64`. -/
def QueryError.message : QueryError → String
  | .sessionLimit limit => "query session limit exceeded (" ++ toString limit ++ ")"
  | .windowLimit limit => "query window limit exceeded (" ++ toString limit ++ ")"
  | .cardinality => "query result cardinality limit exceeded"
  | .reversedWindow => "query end precedes start"
  | .rowLimit limit => "query row limit exceeded (" ++ toString limit ++ ")"

/-- Number of rows read for one session. -/
def PooledRows.count (rows : PooledRows) : Nat :=
  rows.tokenRows.length + rows.toolRows.length + rows.chainRows.length +
    rows.dimensionRows.length + rows.edgeTokens.length + rows.edgeTools.length +
    rows.edgeDimensions.length + rows.findings.length

/-- Whether a window's bounds are reversed. -/
def reversed : RangeWindow → Bool
  | (some start, some stop) => decide (start > stop)
  | _ => false

/-- Whether a window has anything to show. Follows `commands.rs:1339–1341`. -/
def rangeHasData (range : RangeTotals) : Bool :=
  range.tokens.totalTokens ≠ 0 || range.toolMetrics.calls ≠ 0

/-- Insert the totals of one session that have data. Follows `history_store.rs:2295–2297`. -/
def insertRanges (key : String) (out : List (ExtTreeMap String RangeTotals))
    (ranges : List RangeTotals) : List (ExtTreeMap String RangeTotals) :=
  out.zipWith (fun totals range ↦
    if rangeHasData range then totals.insert key range else totals) ranges

/-- Query one session within the row budget. Follows `history_store.rs:2102–2299`. -/
def querySession (control : QueryControl) (tables : String → SessionTables)
    (windows : List RangeWindow) (acc : Nat × List (ExtTreeMap String RangeTotals))
    (key : String) : Except QueryError (Nat × List (ExtTreeMap String RangeTotals)) :=
  let windowMs := windows.map windowMillis
  let plans := windowMs.map fun w ↦ planWindow w.1 w.2
  let consumed := acc.1 + (readRows (tables key) windowMs plans).count
  if consumed > control.maxRows then .error (.rowLimit control.maxRows)
  else .ok (consumed, insertRanges key acc.2 (sessionRangeTotals (tables key) windows))

/-- Range totals of several sessions. Follows `history_store.rs:1964–2301`. -/
def rangeTotalsMultiOn (control : QueryControl) (tables : String → SessionTables)
    (sessionKeys : List String) (windows : List RangeWindow) :
    Except QueryError (List (ExtTreeMap String RangeTotals)) :=
  if sessionKeys.length > control.maxSessions then .error (.sessionLimit control.maxSessions)
  else if windows.length > control.maxWindows then .error (.windowLimit control.maxWindows)
  else if sessionKeys.length * windows.length > control.maxRows then .error .cardinality
  else if windows.any reversed then .error .reversedWindow
  else
    (sessionKeys.foldlM (querySession control tables windows)
      (control.rows, windows.map fun _ ↦ ∅)).map Prod.snd

end AgentOdometer.Ledger
