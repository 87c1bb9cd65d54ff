import AgentOdometer.Base.Machine
import AgentOdometer.Base.StableHash
import AgentOdometer.Base.Text
import AgentOdometer.Lib.Lines
import AgentOdometer.Model.RangeTotals

/-!
# Correlation of sessions with external events

The usage before and after each event, and the choice of the sessions which can contribute to
it (`correlation.rs:8–480`). Arithmetic on instants which panics returns `none`; the pricing of
an observation is filled in by the caller.
-/

namespace AgentOdometer.Correlation

open Std (ExtTreeMap)
open GroupBy

/-- An event of the timeline. Follows `correlation.rs:8–20`. -/
structure ExternalEvent where
  id : String
  timestamp : DateTime
  scope : Option String
  source : String
  kind : String
  metadata : ExtTreeMap String String

/-- A correlation request. Follows `correlation.rs:22–32`. -/
structure CorrelationQuery where
  events : List ExternalEvent
  beforeDays : Int
  afterDays : Int
  excludeConfounded : Bool
  includeSubagents : Bool

/-- Usage in one window of an event. Follows `correlation.rs:41–52`. -/
structure CorrelationObservation where
  sessionCount : Nat
  turnCount : Nat
  sessionDurationMs : Nat
  tokens : TokenTotals
  bucketsByHarness : ExtTreeMap ProviderId (List TierBucket)
  toolMetrics : ToolMetrics

/-- The derived default. -/
def CorrelationObservation.empty : CorrelationObservation :=
  ⟨0, 0, 0, 0, ∅, 0⟩

/-- The report of one event. Follows `correlation.rs:54–67`. -/
structure EventCorrelation where
  event : ExternalEvent
  before : CorrelationObservation
  after : CorrelationObservation
  afterWindowEnd : DateTime
  afterWindowComplete : Bool
  minimumSessionCount : Nat
  sampleReady : Bool
  tokenDelta : Int
  sessionDelta : Int
  confoundingEventIds : List String
  warnings : List String

/-- `MINIMUM_SESSION_COUNT`. -/
def MINIMUM_SESSION_COUNT : Nat :=
  3

/-! ### Scopes -/

/-- What decides whether a session is in scope. Follows `correlation.rs:83–89`. -/
structure SessionScope where
  harness : ProviderId
  workingDirectory : Option String
  parentThreadId : Option String
  agentPath : Option String
  source : Option String

/-- The scope of a full session. Follows `correlation.rs:91–107`. -/
def scopeOf (session : Session) : SessionScope :=
  ⟨session.harness, session.workingDirectory, session.parentThreadId, session.agentPath,
    session.source⟩

/-- The fields of a resident summary which the choice of candidates reads. Follows
`correlation.rs:109–125` and `model.rs:814–828`. -/
structure SessionSummary where
  scope : SessionScope
  startedAt : DateTime
  lastEventAt : DateTime

/-- `SessionSummary::of`, `model.rs:807–855`. -/
def SessionSummary.of (session : Session) : SessionSummary :=
  ⟨scopeOf session, session.startedAt, session.lastEventAt⟩

/-- `is_subagent`, `correlation.rs:127–131`. -/
def isSubagent (session : SessionScope) : Bool :=
  session.parentThreadId.isSome || session.agentPath.isSome || session.source == some "subagent"

/-- `normalized_scope`, `correlation.rs:133–138`. -/
def normalizedScope (value : String) : String :=
  let slashed := value.toList.map fun c ↦ if c = '\\' then '/' else c
  String.ofList ((slashed.reverse.dropWhile (· == '/')).reverse.map Char.toLower)

/-- `project_scope_identity`, `correlation.rs:146–151`. -/
def projectScopeIdentity (value : String) : String :=
  "project:" ++ stableHash (normalizedScope value)

/-- The loop of `redacted_scope_matches`, `correlation.rs:155–163`. -/
def redactedScopeMatchesFrom (eventScope : String) (candidate : List Char) : Bool :=
  if projectScopeIdentity (String.ofList candidate) == eventScope then true
  else
    match _h : Lines.lastIndex '/' candidate with
    | none => false
    | some separator => redactedScopeMatchesFrom eventScope (candidate.take separator)
termination_by candidate.length
decreasing_by
  have hlt := Lines.lt_of_lastIndex _h
  rw [List.length_take]
  omega

/-- `redacted_scope_matches`, `correlation.rs:153–164`. -/
def redactedScopeMatches (cwd eventScope : String) : Bool :=
  redactedScopeMatchesFrom eventScope (normalizedScope cwd).toList

/-- The comparison of a working directory with the scope of an event. Follows
`correlation.rs:185–192`. -/
def pathScopeMatches (cwd eventScope : String) : Bool :=
  let eventScope := normalizedScope eventScope
  let cwd := normalizedScope cwd
  cwd == eventScope || Text.startsWith cwd (eventScope ++ "/") ||
    Text.startsWith eventScope (cwd ++ "/")

/-- `scope_matches`, `correlation.rs:166–193`. -/
def scopeMatches (session : SessionScope) (event : ExternalEvent) : Bool :=
  if event.metadata["harness"]?.any (· != session.harness.value) then false
  else
    match event.scope with
    | none => true
    | some eventScope =>
        match session.workingDirectory with
        | none => false
        | some cwd =>
            if Text.startsWith eventScope "project:" then redactedScopeMatches cwd eventScope
            else pathScopeMatches cwd eventScope

/-! ### Windows -/

/-- `interval_overlaps`, `correlation.rs:210–217`. -/
def intervalOverlaps (start stop : DateTime) (window : RangeWindow) : Bool :=
  window.1.all (fun lower ↦ stop ≥ lower) && window.2.all (fun upper ↦ start ≤ upper)

/-- `overlap_duration_ms`, `correlation.rs:219–228`. -/
def overlapDurationMs (start stop : DateTime) (window : RangeWindow) : Nat :=
  let start := window.1.elim start (max start)
  let stop := window.2.elim stop (min stop)
  (stop.signedDurationSince start).numMilliseconds.toNat

/-- The bounds before and after an event. -/
structure EventWindows where
  beforeStart : DateTime
  beforeEnd : DateTime
  afterStart : DateTime
  afterEnd : DateTime

/-- The window before the event. -/
def EventWindows.before (windows : EventWindows) : RangeWindow :=
  (some windows.beforeStart, some windows.beforeEnd)

/-- The window after the event. -/
def EventWindows.after (windows : EventWindows) : RangeWindow :=
  (some windows.afterStart, some windows.afterEnd)

/-- The windows of one event. Follows `event_windows`, `correlation.rs:270–289`. -/
def eventWindows (query : CorrelationQuery) (event : ExternalEvent) : Option EventWindows := do
  let beforeStart ← event.timestamp.sub? (← Duration.days? (max query.beforeDays 0))
  let beforeEnd ← event.timestamp.sub? (← Duration.milliseconds? 1)
  let afterEnd ← event.timestamp.add? (← Duration.days? (max query.afterDays 0))
  return ⟨beforeStart, beforeEnd, event.timestamp, afterEnd⟩

/-- The ids of the other events in the windows of an event. Follows `event_exclusions`,
`correlation.rs:294–321`. -/
def confounds (query : CorrelationQuery) (event : ExternalEvent) (windows : EventWindows) :
    List String :=
  (query.events.filter fun other ↦
      other.id ≠ event.id ∧ other.timestamp ≥ windows.beforeStart ∧
        other.timestamp ≤ windows.afterEnd ∧
          (event.scope = none ∨ other.scope = none ∨ other.scope = event.scope)).map
    ExternalEvent.id

/-- An event with its windows and the events which confound it. -/
structure EventPlan where
  event : ExternalEvent
  windows : EventWindows
  confounds : List String

/-- The plan of one event. -/
def eventPlan (query : CorrelationQuery) (event : ExternalEvent) : Option EventPlan :=
  (eventWindows query event).map fun windows ↦ ⟨event, windows, confounds query event windows⟩

/-- The plan of every event, or a panic. -/
def eventPlans (query : CorrelationQuery) : Option (List EventPlan) :=
  query.events.mapM (eventPlan query)

/-- Whether the samples of an event are left out. Follows `correlation.rs:322–325`. -/
def isExcluded (query : CorrelationQuery) (plan : EventPlan) : Bool :=
  query.excludeConfounded && !plan.confounds.isEmpty

/-- Whether an event takes samples of a session. -/
def isMatched (query : CorrelationQuery) (session : SessionScope) (plan : EventPlan) : Bool :=
  !isExcluded query plan && scopeMatches session plan.event

/-- Whether a session is looked at. -/
def isIncluded (query : CorrelationQuery) (session : SessionScope) : Bool :=
  query.includeSubagents || !isSubagent session

/-! ### The choice of candidates -/

/-- Whether the span of a session overlaps a window of an event. -/
def overlapsPlan (summary : SessionSummary) (plan : EventPlan) : Bool :=
  intervalOverlaps summary.startedAt summary.lastEventAt plan.windows.before ||
    intervalOverlaps summary.startedAt summary.lastEventAt plan.windows.after

/-- Whether a session can contribute. Follows `correlation.rs:358–373`. -/
def isCandidate (query : CorrelationQuery) (plans : List EventPlan) (summary : SessionSummary) :
    Bool :=
  isIncluded query summary.scope &&
    plans.any fun plan ↦ isMatched query summary.scope plan && overlapsPlan summary plan

/-- `candidate_session_keys`, `correlation.rs:352–376`. -/
def candidateSessionKeys (summaries : List (String × SessionSummary)) (query : CorrelationQuery) :
    Option (List String) :=
  (eventPlans query).map fun plans ↦
    (summaries.filter fun entry ↦ isCandidate query plans entry.2).map Prod.fst

/-! ### The correlation -/

/-- `add_bucket`, `correlation.rs:199–208`. -/
def addBucket (target : List TierBucket) (value : TierBucket) : List TierBucket :=
  RangeTotals.addToBucket value.model value.serviceTier value.tokens target

/-- The turns of a session which overlap a window. Follows `correlation.rs:240–248`. -/
def turnsInWindow (session : Session) (window : RangeWindow) : List TurnInfo :=
  session.turns.filter fun turn ↦
    intervalOverlaps (turn.startedAt.getD session.startedAt)
      (turn.completedAt.getD session.lastEventAt) window

/-- `add_range`, `correlation.rs:230–266`. -/
def addRange (out : CorrelationObservation) (session : Session) (window : RangeWindow)
    (range : RangeTotals) : CorrelationObservation :=
  if range.tokens.totalTokens = 0 ∧ range.toolMetrics.calls = 0 then out
  else
    { sessionCount := out.sessionCount + 1
      turnCount := out.turnCount + (turnsInWindow session window).length
      sessionDurationMs := out.sessionDurationMs +
        overlapDurationMs session.startedAt session.lastEventAt window
      tokens := out.tokens + range.tokens
      bucketsByHarness := updateEntry out.bucketsByHarness session.harness [] fun buckets ↦
        range.buckets.foldl addBucket buckets
      toolMetrics := out.toolMetrics + range.toolMetrics }

/-- `as_chunks::<2>`. -/
def chunksOfTwo {α : Type} : List α → List (α × α)
  | a :: b :: rest => (a, b) :: chunksOfTwo rest
  | _ => []

/-- The observations before and after an event. -/
abbrev Observations :=
  CorrelationObservation × CorrelationObservation

/-- The totals of one session for one event. Follows `correlation.rs:424–437`. -/
def addPair (session : Session) (observations : List Observations)
    (sample : (EventPlan × Nat) × RangeTotals × RangeTotals) : List Observations :=
  observations.modify sample.1.2 fun observation ↦
    (addRange observation.1 session sample.1.1.windows.before sample.2.1,
      addRange observation.2 session sample.1.1.windows.after sample.2.2)

/-- One session. Follows `correlation.rs:399–438`. -/
def correlateSession (query : CorrelationQuery) (plans : List EventPlan)
    (observations : List Observations) (session : Session) : List Observations :=
  if isIncluded query (scopeOf session) then
    let matched := plans.zipIdx.filter fun entry ↦ isMatched query (scopeOf session) entry.1
    let requested := matched.flatMap fun entry ↦ [entry.1.windows.before, entry.1.windows.after]
    let totals := session.rangeTotalsMulti requested
    (matched.zip (chunksOfTwo totals)).foldl (addPair session) observations
  else observations

/-- The buckets of an observation in order. Follows `correlation.rs:443–450`. -/
def sortBuckets (observation : CorrelationObservation) : CorrelationObservation :=
  { observation with
    bucketsByHarness := observation.bucketsByHarness.map fun _ buckets ↦
      buckets.insertionSort RangeTotals.bucketLe }

/-- The warnings of a report. Follows `correlation.rs:452–466`. -/
def warnings (query : CorrelationQuery) (plan : EventPlan) (sampleReady : Bool) : List String :=
  (if isExcluded query plan then
      ["sample excluded because another event overlaps the window"] else []) ++
    (if sampleReady then []
      else ["low sample size; do not interpret the delta as causal"]) ++
      if plan.confounds ≠ [] ∧ !query.excludeConfounded then
        ["overlapping events may confound this comparison"] else []

/-- The report of one event. Follows `correlation.rs:441–482`. -/
def report (query : CorrelationQuery) (now : DateTime) (plan : EventPlan)
    (observations : Observations) : EventCorrelation :=
  let before := sortBuckets observations.1
  let after := sortBuckets observations.2
  let sampleReady := decide (before.sessionCount ≥ MINIMUM_SESSION_COUNT) &&
    decide (after.sessionCount ≥ MINIMUM_SESSION_COUNT)
  { event := plan.event
    before, after
    afterWindowEnd := plan.windows.afterEnd
    afterWindowComplete := decide (now ≥ plan.windows.afterEnd)
    minimumSessionCount := MINIMUM_SESSION_COUNT
    sampleReady
    tokenDelta := wrapI64 (wrapI64 after.tokens.totalTokens - wrapI64 before.tokens.totalTokens)
    sessionDelta := wrapI64 (wrapI64 after.sessionCount - wrapI64 before.sessionCount)
    confoundingEventIds := plan.confounds
    warnings := warnings query plan sampleReady }

/-- `correlate_at`, `correlation.rs:382–486`. -/
def correlateAt (sessions : List Session) (query : CorrelationQuery) (now : DateTime) :
    Option (List EventCorrelation) :=
  (eventPlans query).map fun plans ↦
    let observations := sessions.foldl (correlateSession query plans)
      (plans.map fun _ ↦ (.empty, .empty))
    plans.zipWith (report query now) observations

/-- The correlation of the candidates alone. -/
def correlateCandidates (sessions : List (String × Session)) (query : CorrelationQuery)
    (now : DateTime) : Option (List EventCorrelation) := do
  let keys ← candidateSessionKeys (sessions.map fun entry ↦ (entry.1, .of entry.2)) query
  correlateAt ((sessions.filter fun entry ↦ keys.contains entry.1).map Prod.snd) query now

end AgentOdometer.Correlation
