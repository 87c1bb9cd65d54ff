import AgentOdometer.Base.Text
import AgentOdometer.Base.Time
import AgentOdometer.Base.Json
import AgentOdometer.Telemetry.Metrics

/-!
# What transcript parsers read

The members of a `serde_json` value, and the code around the parsers which they only call: the
JSON reader and writer, the reader of instants, and the classifiers of a tool call.
-/

namespace AgentOdometer

namespace Report.Value

variable {ν : Type}

/-- `Value::get` with a field name. -/
def get (value : Value ν) (key : String) : Option (Value ν) :=
  match value with
  | .object entries => entries.lookup key
  | _ => none

/-- `Value::as_str`. -/
def asStr : Value ν → Option String
  | .string s => some s
  | _ => none

/-- `Value::as_bool`. -/
def asBool : Value ν → Option Bool
  | .bool b => some b
  | _ => none

/-- `Value::as_array`. -/
def asArray : Value ν → Option (List (Value ν))
  | .array entries => some entries
  | _ => none

/-- `Value::is_null`. -/
def isNull : Value ν → Bool
  | .null => true
  | _ => false

/-- `value.get(key).and_then(Value::as_str)`. -/
def str (value : Value ν) (key : String) : Option String :=
  (value.get key).bind asStr

/-- `value.get(key).and_then(Value::as_bool)`. -/
def flag (value : Value ν) (key : String) : Option Bool :=
  (value.get key).bind asBool

end Report.Value

namespace Parser

open Std (ExtTreeMap)

/-- `serde_json::Number`. -/
inductive Number where
  | posInt (n : UInt64)
  | negInt (n : Int64)
  | float (x : Float)

/-- `serde_json::Value`. -/
abbrev Json : Type :=
  Report.Value Number

/-- `Value::as_u64`. -/
def asU64 : Json → Option Nat
  | .number (.posInt n) => some n.toNat
  | _ => none

/-- `Value::as_i64`. -/
def asI64 : Json → Option Int
  | .number (.posInt n) => if n.toNat < 2 ^ 63 then some n.toNat else none
  | .number (.negInt n) => some n.toInt
  | _ => none

/-- `Value::as_f64`. -/
def asF64 : Json → Option Float
  | .number (.posInt n) => some n.toFloat
  | .number (.negInt n) => some n.toFloat
  | .number (.float x) => some x
  | _ => none

/-- `value.get(key).and_then(Value::as_u64)`. -/
def u64 (value : Json) (key : String) : Option Nat :=
  (value.get key).bind asU64

/-- What `telemetry.rs:16–405` tells from the name and the arguments of a call. -/
structure CallTraits where
  kind : ToolKind
  providers : List String
  effectiveTools : List String
  target : Option String
  resourceId : Option String
  origin : ToolOrigin
  shellFamily : Option String
  language : Option String

/-- The code around the parsers. -/
structure Readers where
  /-- `serde_json::from_str`. -/
  fromStr : String → Option Json
  /-- `str::parse::<DateTime<Utc>>`. -/
  parseInstant : String → Option DateTime
  /-- The length of what `serde_json::to_vec` writes. -/
  jsonLength : Json → Nat
  /-- The classifiers of `observe_call`, `telemetry.rs:423–430`. -/
  traits : String → Json → CallTraits
  /-- `classify_turn`, `telemetry.rs:726–771`. -/
  classifyTurn : String → ToolMetrics → TurnClassification
  /-- `findings`, `telemetry.rs:773–996`. -/
  findings : List ToolObservation → List OptimizationFinding
  /-- `category_totals`, `telemetry.rs:998–1031`. -/
  categoryTotals : List TurnInfo → ExtTreeMap TaskCategory CategoryMetric

/-- `TURN_MESSAGE_LIMIT`, the same for every provider. Follows `parser.rs:27`. -/
def turnMessageLimit : Nat :=
  500

/-- A line of a transcript, with the clock reading when it is applied. -/
structure TranscriptLine where
  text : String
  now : DateTime

/-- What happens to a parser: a line is applied, in error or not, or `refresh_session` derives its
figures again. Both `parse_to_end` and `apply_line` are sequences of these. -/
inductive Step where
  | line (line : TranscriptLine)
  | refresh

/-- The first `limit` characters. -/
def takeChars (limit : Nat) (s : String) : String :=
  String.ofList (s.toList.take limit)

/-! ### Tool observations -/

/-- `ToolCallInput`, `telemetry.rs:406–414`. -/
structure ToolCallInput where
  callId : String
  turnId : Option String
  harness : ProviderId
  model : Option String
  timestamp : DateTime
  name : String
  arguments : Json

/-- `observe_call`, `telemetry.rs:416–450`. -/
def observeCall (readers : Readers) (observations : List ToolObservation)
    (input : ToolCallInput) : List ToolObservation :=
  if input.callId = "" then observations
  else
    let traits := readers.traits input.name input.arguments
    observations ++ [{
      callId := input.callId
      turnId := input.turnId
      harness := input.harness
      model := input.model
      timestamp := input.timestamp
      kind := traits.kind
      name := input.name
      providers := traits.providers
      effectiveTools := traits.effectiveTools
      target := traits.target
      resourceId := traits.resourceId
      origin := traits.origin
      shellFamily := traits.shellFamily
      language := traits.language
      outcome := .pending
      durationMs := none
      outputBytes := 0 }]

/-- Milliseconds from one instant to another, when not negative: `num_milliseconds` as a `u64`. -/
def elapsedMs (start stop : DateTime) : Option Nat :=
  let elapsed := (stop.signedDurationSince start).numMilliseconds
  if 0 ≤ elapsed then some elapsed.toNat else none

/-- An observation with its result. Follows `telemetry.rs:465–475`. -/
def settle (item : ToolObservation) (outcome : ToolOutcome) (durationMs : Option Nat)
    (completedAt : Option DateTime) (outputBytes : Nat) : ToolObservation :=
  let elapsed := completedAt.bind (elapsedMs item.timestamp)
  { item with
    outcome
    durationMs :=
      if durationMs.isSome || (item.durationMs.isNone && elapsed.isSome) then
        durationMs.or elapsed
      else item.durationMs
    outputBytes := max item.outputBytes outputBytes }

/-- Change the first entry which satisfies the predicate. -/
def modifyFirst {α : Type} (p : α → Bool) (f : α → α) : List α → List α
  | [] => []
  | a :: rest => if p a then f a :: rest else a :: modifyFirst p f rest

/-- `observe_result`, `telemetry.rs:452–477`: the newest call of the id. -/
def observeResult (observations : List ToolObservation) (callId : String) (outcome : ToolOutcome)
    (durationMs : Option Nat) (completedAt : Option DateTime) (outputBytes : Nat) :
    List ToolObservation :=
  (modifyFirst (fun item ↦ item.callId = callId)
    (fun item ↦ settle item outcome durationMs completedAt outputBytes)
    observations.reverse).reverse

/-! ### Sessions and turns -/

/-- The latest event of a session. Follows `parser.rs:118–122`. -/
def advance (lastEventAt : DateTime) (session : Session) : Session :=
  if session.lastEventAt < lastEventAt then { session with lastEventAt } else session

/-- The default turn of an id. Follows `parser.rs:906–910`. -/
def openTurn (turnId : String) (index : Nat) : TurnInfo where
  turnId
  index
  model := none
  reasoningEffort := none
  collaborationMode := none
  serviceTier := none
  status := .inProgress
  abortReason := none
  startedAt := none
  completedAt := none
  durationMs := none
  timeToFirstTokenMs := none
  userMessage := none
  lastAgentMessage := none
  tokens := 0
  toolMetrics := .zero
  classification := ⟨1, .other, 0, []⟩

/-- A turn which is not closed yet, closed. Follows `parser.rs:901–903`. -/
def abortOpen (turn : TurnInfo) : TurnInfo :=
  if turn.status = .inProgress then { turn with status := .aborted } else turn

/-! ### Derived figures -/

/-- The metrics and the class of a turn. Follows `telemetry.rs:1054–1063`. -/
def refreshTurn (readers : Readers) (metrics : ToolMetrics) (turn : TurnInfo) : TurnInfo :=
  { turn with
    toolMetrics := metrics
    classification := readers.classifyTurn
      (turn.userMessage.getD "" ++ " " ++ turn.lastAgentMessage.getD "") metrics }

/-- The turns with their metrics; those of an id go to the first turn of it. Follows
`telemetry.rs:1053–1064`. -/
def refreshTurns (readers : Readers) (observations : List ToolObservation) :
    List String → List TurnInfo → List TurnInfo
  | _, [] => []
  | taken, turn :: rest =>
      let own := if turn.turnId ∈ taken then []
        else observations.filter fun item ↦ item.turnId = some turn.turnId
      refreshTurn readers (Telemetry.metrics own) turn ::
        refreshTurns readers observations (turn.turnId :: taken) rest

/-- `refresh_session`, `telemetry.rs:1033–1067`. -/
def refreshSession (readers : Readers) (session : Session) : Session :=
  let tools := Telemetry.metricsWithModels session.toolObservations
  let turns := refreshTurns readers session.toolObservations [] session.turns
  { session with
    toolMetrics := tools.1
    toolMetricsByModel := tools.2
    turns
    categoryTotals := readers.categoryTotals turns
    optimizationFindings := readers.findings session.toolObservations }

end Parser

end AgentOdometer
