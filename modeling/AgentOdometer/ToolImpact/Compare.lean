import AgentOdometer.Base.Ascii
import AgentOdometer.Base.Text
import AgentOdometer.Ledger.Identity
import AgentOdometer.Lib.ClosestMatching
import AgentOdometer.Model.Counters
import Mathlib.Data.List.Sort
import Std.Data.ExtTreeSet

/-!
# Comparing the turns which use a tool

`compare` (`tool_impact.rs:355–438`): the turns of a window which use a tool or a provider, beside
those which do not, and pairs of both which are close in time.
-/

namespace AgentOdometer.ToolImpact

open Std (ExtTreeMap ExtTreeSet)
open ClosestMatching GroupBy
open Text (asciiLowercase eqIgnoreAsciiCase)

/-! ### Targets -/

/-- The text around the first occurrence of a pattern, as `str::find` cuts it. -/
def cutAt (pattern : List Char) : List Char → Option (List Char × List Char)
  | [] => if pattern.isEmpty then some ([], []) else none
  | c :: rest =>
      if pattern.isPrefixOf (c :: rest) then some ([], (c :: rest).drop pattern.length)
      else (cutAt pattern rest).map fun cut ↦ (c :: cut.1, cut.2)

/-- Whether a text is a provider name. Follows `telemetry.rs:98–103`. -/
def isProviderName (name : List Char) : Bool :=
  !name.isEmpty && (String.ofList name).utf8ByteSize ≤ 64 &&
    name.all fun c ↦ c.isAlphanum || c = '_' || c = '-' || c = '.'

/-- The loop of `collect_mcp_providers`, with a bound on its turns. Follows
`telemetry.rs:90–111`. -/
def collectMcpProviders : Nat → List Char → List String → List String
  | 0, _, providers => providers
  | fuel + 1, remaining, providers =>
      match cutAt "mcp__".toList remaining with
      | none => providers
      | some (_, candidate) =>
          match cutAt "__".toList candidate with
          | none => providers
          | some (name, rest) =>
              let provider := asciiLowercase (String.ofList name)
              collectMcpProviders fuel rest
                (if isProviderName name && !providers.contains provider &&
                    providers.length < 16 then
                  providers ++ [provider]
                else providers)

/-- `tool_providers` of a call without arguments; every turn of the loop drops some of the text.
Follows `telemetry.rs:162–173`. -/
def toolProviders (name : String) : List String :=
  collectMcpProviders (name.toList.length + 1) name.toList []

/-- `ToolImpactTargetKind`, `tool_impact.rs:10–15`. -/
inductive ToolImpactTargetKind where
  | provider
  | tool
deriving Repr, DecidableEq

/-- `observation_matches_target`, `tool_impact.rs:138–161`. -/
def observationMatchesTarget (observation : ToolObservation) (kind : ToolImpactTargetKind)
    (key : String) : Bool :=
  match kind with
  | .provider =>
      observation.providers.any (fun value ↦ eqIgnoreAsciiCase value key) ||
        (toolProviders observation.name).any fun value ↦ eqIgnoreAsciiCase value key
  | .tool =>
      let tools :=
        if observation.effectiveTools.isEmpty then [observation.name]
        else observation.effectiveTools
      tools.any fun value ↦ eqIgnoreAsciiCase value key

/-! ### Samples -/

/-- `MatchKey`, `tool_impact.rs:51–56`. -/
structure MatchKey where
  harness : ProviderId
  model : String
  category : TaskCategory
deriving DecidableEq

namespace MatchKey

/-- The fields in the order of the derived comparison. -/
def fields (key : MatchKey) : ProviderId × String × TaskCategory :=
  (key.harness, key.model, key.category)

theorem fields_injective : Function.Injective fields := by
  intro a b h
  cases a
  cases b
  simpa [fields] using h

instance : Ord MatchKey :=
  ⟨compareOn fields⟩

instance : Std.TransOrd MatchKey :=
  inferInstanceAs (Std.TransCmp (compareOn fields))

instance : Std.LawfulEqOrd MatchKey :=
  lawfulEqCmp_compareOn fields_injective

end MatchKey

/-- `TurnSample`, `tool_impact.rs:58–70`. -/
structure TurnSample where
  sessionId : String
  timestamp : DateTime
  key : MatchKey
  serviceTier : Option String
  completed : Bool
  durationMs : Option Nat
  ttftMs : Option Nat
  tokens : TokenTotals
  tools : ToolMetrics
  targetUsed : Bool
deriving DecidableEq

/-- The milliseconds under which a sample is pooled. -/
def TurnSample.millis (sample : TurnSample) : Int :=
  sample.timestamp.timestampMillis

/-- `turn_overlaps`, `tool_impact.rs:121–132`. -/
def turnOverlaps (session : Session) (turn : TurnInfo)
    (window : Option DateTime × Option DateTime) :
    Bool :=
  let start := turn.startedAt.getD session.startedAt
  let stop := max (turn.completedAt.getD session.lastEventAt) start
  (window.1.all fun bound ↦ decide (bound ≤ stop)) &&
    window.2.all fun bound ↦ decide (start ≤ bound)

/-- `turn_has_comparison_data`, `tool_impact.rs:134–136`. -/
def turnHasComparisonData (turn : TurnInfo) : Bool :=
  0 < turn.tokens.totalTokens || 0 < turn.toolMetrics.calls || turn.durationMs.isSome

/-- The turns of a session which a comparison counts. -/
def eligibleTurns (session : Session) (window : Option DateTime × Option DateTime) :
    List TurnInfo :=
  (session.turns.filter fun turn ↦ turnOverlaps session turn window).filter turnHasComparisonData

/-- The sample of a turn. Follows `tool_impact.rs:185–213`. -/
def sampleOf (session : Session) (observedTurns : List String) (turn : TurnInfo) : TurnSample where
  sessionId := Ledger.effectiveStorageId session
  timestamp := turn.startedAt.getD session.startedAt
  key :=
    { harness := session.harness
      model := (turn.model.or session.model).getD "unknown"
      category := turn.classification.category }
  serviceTier := turn.serviceTier.or session.serviceTier
  completed := turn.status = .completed
  durationMs := turn.durationMs
  ttftMs := turn.timeToFirstTokenMs
  tokens := turn.tokens
  tools := turn.toolMetrics
  targetUsed := observedTurns.contains turn.turnId

/-- `samples_for_session`, `tool_impact.rs:163–215`. -/
def samplesForSession (kind : ToolImpactTargetKind) (key : String)
    (window : Option DateTime × Option DateTime) (session : Session) : List TurnSample :=
  let observedTurns := (session.toolObservations.filter fun observation ↦
    observationMatchesTarget observation kind key).filterMap (·.turnId)
  (eligibleTurns session window).map (sampleOf session observedTurns)

/-! ### Cohorts -/

/-- `ToolImpactCohort`, `tool_impact.rs:26–38`. -/
structure ToolImpactCohort where
  turnCount : Nat
  sessionCount : Nat
  completedTurnCount : Nat
  durationSampleCount : Nat
  totalDurationMs : Nat
  ttftSampleCount : Nat
  totalTtftMs : Nat
  tokens : TokenTotals
  buckets : List TierBucket
  toolMetrics : ToolMetrics
deriving Repr, DecidableEq

/-- `CohortAccumulator`, `tool_impact.rs:72–77`. -/
structure CohortAccumulator where
  cohort : ToolImpactCohort
  sessionIds : ExtTreeSet String
  buckets : ExtTreeMap (String × Option String) TokenTotals

namespace CohortAccumulator

/-- The derived default. -/
def empty : CohortAccumulator :=
  ⟨⟨0, 0, 0, 0, 0, 0, 0, 0, [], 0⟩, ∅, ∅⟩

/-- `push`, `tool_impact.rs:80–104`. -/
def push (acc : CohortAccumulator) (sample : TurnSample) : CohortAccumulator where
  cohort :=
    { acc.cohort with
      turnCount := acc.cohort.turnCount + 1
      completedTurnCount := acc.cohort.completedTurnCount + if sample.completed then 1 else 0
      durationSampleCount :=
        acc.cohort.durationSampleCount + if sample.durationMs.isSome then 1 else 0
      totalDurationMs := acc.cohort.totalDurationMs + sample.durationMs.getD 0
      ttftSampleCount := acc.cohort.ttftSampleCount + if sample.ttftMs.isSome then 1 else 0
      totalTtftMs := acc.cohort.totalTtftMs + sample.ttftMs.getD 0
      tokens := acc.cohort.tokens + sample.tokens
      toolMetrics := acc.cohort.toolMetrics + sample.tools }
  sessionIds := acc.sessionIds.insert sample.sessionId
  buckets :=
    if 0 < sample.tokens.totalTokens ∧ sample.key.model ≠ "unknown" then
      updateEntry acc.buckets (sample.key.model, sample.serviceTier) 0 (· + sample.tokens)
    else acc.buckets

/-- `finish`, `tool_impact.rs:106–118`. -/
def finish (acc : CohortAccumulator) : ToolImpactCohort :=
  { acc.cohort with
    sessionCount := acc.sessionIds.size
    buckets := acc.buckets.toList.map fun entry ↦ ⟨entry.1.1, entry.1.2, entry.2⟩ }

end CohortAccumulator

/-- `aggregate`, `tool_impact.rs:217–223`. -/
def aggregate (samples : List TurnSample) : ToolImpactCohort :=
  (samples.foldl CohortAccumulator.push .empty).finish

/-! ### The comparison -/

/-- The unused baseline samples by key and time. -/
abbrev Pools :=
  ExtTreeMap MatchKey (Pool TurnSample)

/-- The loop which pools the baseline. Follows `tool_impact.rs:375–383`. -/
def poolBaseline (samples : List TurnSample) : Pools :=
  samples.foldl (fun pools sample ↦
    updateEntry pools sample.key ∅ fun pool ↦ ClosestMatching.push TurnSample.millis pool sample) ∅

/-- What the matching loop updates. -/
structure Matching where
  pools : Pools
  matchedObserved : List TurnSample
  matchedBaseline : List TurnSample

/-- The body of the matching loop. The difference of two `timestamp_millis` is within an `i64`, so
the saturating subtractions of `take_closest` are exact. Follows `tool_impact.rs:392–401`. -/
def matchSample (matching : Matching) (sample : TurnSample) : Matching :=
  match matching.pools[sample.key]? with
  | none => matching
  | some pool =>
      let (candidate, pool) := takeClosest pool sample.millis
      let pools := matching.pools.insert sample.key pool
      match candidate with
      | none => { matching with pools }
      | some candidate =>
          { pools
            matchedObserved := matching.matchedObserved ++ [sample]
            matchedBaseline := matching.matchedBaseline ++ [candidate] }

/-- The order in which observed samples are matched. -/
def timestampLe (a b : TurnSample) : Prop :=
  a.timestamp ≤ b.timestamp

instance : DecidableRel timestampLe :=
  fun a b ↦ inferInstanceAs (Decidable (a.timestamp ≤ b.timestamp))

/-- The matching of the samples. Follows `tool_impact.rs:375–401`. -/
def matchSamples (samples : List TurnSample) : Matching :=
  ((samples.filter fun sample ↦ sample.targetUsed).insertionSort timestampLe).foldl matchSample
    ⟨poolBaseline (samples.filter fun sample ↦ !sample.targetUsed), [], []⟩

/-- `ToolImpactResult`, `tool_impact.rs:40–50`. -/
structure ToolImpactResult where
  targetKind : ToolImpactTargetKind
  targetKey : String
  observed : ToolImpactCohort
  baseline : ToolImpactCohort
  matchedObserved : ToolImpactCohort
  matchedBaseline : ToolImpactCohort
  matchedPairs : Nat
  warnings : List String
deriving Repr, DecidableEq

/-- The samples of all sessions. Follows `tool_impact.rs:362–368`. -/
def comparedSamples (sessions : List Session) (kind : ToolImpactTargetKind) (targetKey : String)
    (window : Option DateTime × Option DateTime) : List TurnSample :=
  sessions.flatMap
    (samplesForSession kind (asciiLowercase (Text.trim targetKey)) window)

/-- The warnings of a result. Follows `tool_impact.rs:403–427`. -/
def warningsOf (kind : ToolImpactTargetKind) (observed baseline : ToolImpactCohort)
    (matched : Nat) : List String :=
  let label := match kind with
    | .provider => "provider"
    | .tool => "tool"
  ["Transcripts prove observed " ++ label ++
      " use, not whether it was installed or available."] ++
    (if observed.turnCount = 0 then
      ["No turns using the selected " ++ label ++ " were found in this view."] else []) ++
    (if baseline.turnCount = 0 then
      ["No turns without the selected " ++ label ++ " were found for a baseline."] else []) ++
    (if matched ≠ 0 ∧ matched < 3 then
      ["Fewer than three same-harness, same-model, same-category pairs were available."]
    else []) ++
    (if observed.durationSampleCount < observed.turnCount ∨
        baseline.durationSampleCount < baseline.turnCount then
      ["Elapsed-time averages exclude turns without duration data."] else [])

/-- `compare`, `tool_impact.rs:355–438`. -/
def compareTarget (sessions : List Session) (kind : ToolImpactTargetKind) (targetKey : String)
    (window : Option DateTime × Option DateTime) : ToolImpactResult :=
  let samples := comparedSamples sessions kind targetKey window
  let observed := aggregate (samples.filter (·.targetUsed))
  let baseline := aggregate (samples.filter fun sample ↦ !sample.targetUsed)
  let matching := matchSamples samples
  { targetKind := kind
    targetKey := asciiLowercase (Text.trim targetKey)
    observed
    baseline
    matchedObserved := aggregate matching.matchedObserved
    matchedBaseline := aggregate matching.matchedBaseline
    matchedPairs := matching.matchedObserved.length
    warnings := warningsOf kind observed baseline matching.matchedObserved.length }

end AgentOdometer.ToolImpact
