import AgentOdometer.Ledger.Identity
import AgentOdometer.Lib.GroupBy
import AgentOdometer.Model.Counters
import AgentOdometer.Model.RateLimitRuns
import AgentOdometer.Parser.Json
import Std.Data.ExtTreeSet

/-!
# The Codex transcript parser

`SessionParser` (`parser.rs:14–912`): one line of a rollout at a time. A line which is not applied
leaves the parser as it was, so an error is `none`.
-/

namespace AgentOdometer.Parser

open Std (ExtTreeMap ExtTreeSet)
open GroupBy

/-- `SessionParser`, `parser.rs:14–24`. -/
structure SessionParser where
  session : Option Session
  byteOffset : Nat
  currentModel : Option String
  currentServiceTier : Option String
  currentTurnId : Option String
  filePath : String
  archived : Bool
  seenToolIds : ExtTreeSet String

/-- `SessionParser::new`, `parser.rs:30–42`. -/
def SessionParser.new (filePath : String) (archived : Bool) : SessionParser where
  session := none
  byteOffset := 0
  currentModel := none
  currentServiceTier := none
  currentTurnId := none
  filePath
  archived
  seenToolIds := ∅

/-! ### Turns -/

/-- `ensure_turn_index`, `parser.rs:892–912`. -/
def ensureTurnIndex (turns : List TurnInfo) (turnId : String) : List TurnInfo × Nat :=
  match turns.findIdx? fun turn ↦ turn.turnId = turnId with
  | some pos => (turns, pos)
  | none => (turns.map abortOpen ++ [openTurn turnId (turns.length + 1)], turns.length)

/-- The turn of an id, there from now on, changed. -/
def withTurn (turnId : String) (f : TurnInfo → TurnInfo) (turns : List TurnInfo) :
    List TurnInfo :=
  let ensured := ensureTurnIndex turns turnId
  ensured.1.modify ensured.2 f

/-- The first turns which are not rolled back yet are. Follows `parser.rs:596–605`. -/
def rollBack : Nat → List TurnInfo → List TurnInfo
  | 0, turns => turns
  | _, [] => []
  | count + 1, turn :: rest =>
      if turn.status = .rolledBack then turn :: rollBack (count + 1) rest
      else { turn with status := .rolledBack } :: rollBack count rest

/-! ### Token totals -/

/-- `parse_token_totals`, `parser.rs:914–931`. -/
def parseTokenTotals (value : Json) : TokenTotals where
  inputTokens := (u64 value "input_tokens").getD 0
  cachedInputTokens := (u64 value "cached_input_tokens").getD 0
  cacheCreationInputTokens := 0
  outputTokens := (u64 value "output_tokens").getD 0
  reasoningOutputTokens := (u64 value "reasoning_output_tokens").getD 0
  totalTokens := (u64 value "total_tokens").getD 0

/-- `sum_bucket_totals`, `parser.rs:968–974`. -/
def sumBucketTotals (buckets : ExtTreeMap String TokenTotals) : TokenTotals :=
  (buckets.toList.map Prod.snd).sum

/-- `subtract_totals_saturating`, `parser.rs:976–988`. -/
def subtractTotals (a b : TokenTotals) : TokenTotals where
  inputTokens := a.inputTokens - b.inputTokens
  cachedInputTokens := a.cachedInputTokens - b.cachedInputTokens
  cacheCreationInputTokens := a.cacheCreationInputTokens - b.cacheCreationInputTokens
  outputTokens := a.outputTokens - b.outputTokens
  reasoningOutputTokens := a.reasoningOutputTokens - b.reasoningOutputTokens
  totalTokens := a.totalTokens - b.totalTokens

/-- `totals_any_positive`, `parser.rs:990–996`. -/
def totalsAnyPositive (totals : TokenTotals) : Bool :=
  0 < totals.inputTokens || 0 < totals.cachedInputTokens || 0 < totals.outputTokens ||
    0 < totals.reasoningOutputTokens || 0 < totals.totalTokens

/-! ### Rate limits -/

/-- `parse_rate_limit_reset`, `parser.rs:959–964`. -/
def parseRateLimitReset (readers : Readers) (value : Json) : Option DateTime :=
  match asI64 value with
  | some seconds => DateTime.ofNanos? (seconds * 1000000000)
  | none => value.asStr.bind readers.parseInstant

/-- `parse_rate_limit_window`, `parser.rs:933–957`. -/
def parseRateLimitWindow (readers : Readers) (value : Json) : Option RateLimitWindow := do
  let usedPercent ← (((value.get "used_percent").or (value.get "used_percentage")).or
    (value.get "usedPercent")).bind asF64
  if usedPercent.isFinite then
    some {
      usedPercent
      windowMinutes := (((value.get "window_minutes").or (value.get "window_duration_mins")).or
        (value.get "windowDurationMins")).bind asU64
      resetsAt := ((value.get "resets_at").or (value.get "resetsAt")).bind
        (parseRateLimitReset readers) }
  else none

/-- The reported balance, kept when it is not a number. Follows `parser.rs:779–786`. -/
def creditsBalance (credits : Json) (old : Option Float) : Option Float :=
  match credits.get "balance" with
  | none => none
  | some balance => if balance.isNull then none else (asF64 balance).or old

/-- The plan and the credits of a snapshot. Follows `parser.rs:771–788`. -/
def applyAccount (rateLimits : Json) (session : Session) : Session :=
  let session := { session with planType := (rateLimits.str "plan_type").or session.planType }
  match rateLimits.get "credits" with
  | none => session
  | some credits =>
      { session with
        creditsUnlimited := (credits.flag "unlimited").or session.creditsUnlimited
        creditsBalance := creditsBalance credits session.creditsBalance }

/-- The rate limits of a token event. Follows `parser.rs:769–815`. -/
def applyRateLimits (readers : Readers) (rateLimits : Json) (eventTs : DateTime)
    (turnId : Option String) (session : Session) : Session :=
  let session := applyAccount rateLimits session
  let primary := (rateLimits.get "primary").bind (parseRateLimitWindow readers)
  let secondary := (rateLimits.get "secondary").bind (parseRateLimitWindow readers)
  if primary.isSome || secondary.isSome then
    { session with
      rateLimitsHistory := RateLimitSnapshotPoint.record session.rateLimitsHistory eventTs turnId
        (rateLimits.str "limit_id") primary secondary }
  else session

/-! ### Tool output -/

/-- `str::parse::<i32>`, whether it is accepted and not zero. -/
def isNonZeroExitCode (text : String) : Bool :=
  let signed := text.toList.head?.any fun c ↦ c = '+' || c = '-'
  let digits := if signed then text.toList.drop 1 else text.toList
  let value := digits.foldl (fun n c ↦ n * 10 + (c.toNat - '0'.toNat)) 0
  let limit := if text.toList.head? = some '-' then 2 ^ 31 else 2 ^ 31 - 1
  !digits.isEmpty && digits.all (fun c ↦ c.isDigit) && decide (value ≤ limit) && value != 0

/-- `str::lines`: a carriage return before a line feed belongs to the line ending. -/
def lines (text : String) : List String :=
  let parts := text.toList.splitOn '\n'
  let ended := parts.dropLast.map fun line ↦
    if line.getLast? = some '\r' then line.dropLast else line
  (ended ++ (parts.getLast?.toList.filter (· != []))).map String.ofList

/-- The output text of a failed tool. Follows `parser.rs:857–863`. -/
def outputTextFailed (text : String) : Bool :=
  ((lines text).findSome? fun line ↦ Text.stripPrefix line "Exit code: ").any
      (fun code ↦ isNonZeroExitCode (Text.trim code)) ||
    Text.startsWith (Text.trimStart text) "Error:"

mutual

/-- `tool_output_failed`, `parser.rs:855–872`. -/
def toolOutputFailed : Json → Bool
  | .string text => outputTextFailed text
  | .array items => anyFailed items
  | .object fields => decide ((fields.lookup "isError").bind Report.Value.asBool = some true) ||
      decide ((fields.lookup "is_error").bind Report.Value.asBool = some true) || textFailed fields
  | _ => false

/-- `items.iter().any(tool_output_failed)`. -/
def anyFailed : List Json → Bool
  | [] => false
  | item :: rest => toolOutputFailed item || anyFailed rest

/-- `map.get("text").is_some_and(tool_output_failed)`. -/
def textFailed : List (String × Json) → Bool
  | [] => false
  | (key, value) :: rest => if key = "text" then toolOutputFailed value else textFailed rest

end

/-- `serialized_len`, `parser.rs:846–853`. -/
def serializedLen (readers : Readers) (value : Json) : Nat :=
  match value with
  | .null => 0
  | .string text => text.utf8ByteSize
  | _ => readers.jsonLength value

/-- `parse_session_source`, `parser.rs:874–883`. -/
def parseSessionSource (payload : Json) : Option String :=
  match payload.get "source" with
  | some (.string source) => some source
  | some (.object fields) =>
      if (fields.lookup "subagent").isSome then some "subagent" else payload.str "thread_source"
  | _ => payload.str "thread_source"

/-- `timestamp_field`, `parser.rs:885–887`. -/
def timestampField (readers : Readers) (payload : Json) (key : String) : Option DateTime :=
  (payload.str key).bind readers.parseInstant

/-- `collaboration_mode`, a text or an object with a `mode`. Follows `parser.rs:398–405`. -/
def collaborationMode (value : Json) : Option String :=
  (value.get "collaboration_mode").bind fun mode ↦ mode.asStr.or (mode.str "mode")

namespace SessionParser

variable (readers : Readers)

/-- `handle_response_item`, `parser.rs:167–225`. -/
def handleResponseItem (payload : Json) (timestamp : DateTime) (parser : SessionParser) :
    SessionParser :=
  let itemType := (payload.str "type").getD ""
  let callId := (payload.str "call_id").getD ""
  if itemType = "function_call" ∨ itemType = "custom_tool_call" then
    if callId = "" ∨ callId ∈ parser.seenToolIds then parser
    else
      let arguments := if itemType = "custom_tool_call" then (payload.get "input").getD .null
        else ((payload.str "arguments").bind readers.fromStr).getD .null
      { parser with
        seenToolIds := parser.seenToolIds.insert callId
        session := parser.session.map fun session ↦
          { session with
            toolObservations := observeCall readers session.toolObservations {
              callId
              turnId := parser.currentTurnId
              harness := .codex
              model := parser.currentModel
              timestamp
              name := (payload.str "name").getD "unknown"
              arguments } } }
  else if itemType = "function_call_output" ∨ itemType = "custom_tool_call_output" then
    let output := (payload.get "output").getD .null
    let failed := decide (payload.str "status" = some "failed") || toolOutputFailed output
    { parser with
      session := parser.session.map fun session ↦
        { session with
          toolObservations := observeResult session.toolObservations callId
            (if failed then .failure else .success) none (some timestamp)
            (serializedLen readers output) } }
  else parser

/-- A later `session_meta` of the same file. Follows `parser.rs:241–286`. -/
def refreshMeta (payload : Json) (lastEventAt : DateTime) (session : Session) : Session :=
  advance lastEventAt { session with
    threadName := (payload.str "thread_name").or session.threadName
    cliVersion := (payload.str "cli_version").or session.cliVersion
    forkedFromId := (payload.str "forked_from_id").or session.forkedFromId
    parentThreadId := (payload.str "parent_thread_id").or session.parentThreadId
    agentPath := (payload.str "agent_path").or session.agentPath
    agentNickname := (payload.str "agent_nickname").or session.agentNickname
    source := (parseSessionSource payload).or session.source
    historyMode := (payload.str "history_mode").or session.historyMode
    memoryMode := (payload.str "memory_mode").or session.memoryMode }

/-- The session of a first `session_meta`. Follows `parser.rs:288–386`. -/
def createSession (payload : Json) (lastEventAt startedAt : DateTime) (parser : SessionParser) :
    Session :=
  let id := (payload.str "id").getD ""
  { Session.blank .codex id startedAt with
    storageId := Ledger.storageIdForSession .codex id
    threadName := payload.str "thread_name"
    forkedFromId := payload.str "forked_from_id"
    parentThreadId := payload.str "parent_thread_id"
    agentPath := payload.str "agent_path"
    agentNickname := payload.str "agent_nickname"
    filePath := parser.filePath
    archived := parser.archived
    lastEventAt
    workingDirectory := payload.str "cwd"
    originator := payload.str "originator"
    source := parseSessionSource payload
    historyMode := payload.str "history_mode"
    memoryMode := payload.str "memory_mode"
    cliVersion := payload.str "cli_version"
    modelProvider := payload.str "model_provider" }

/-- `handle_session_meta`, `parser.rs:227–389`. -/
def handleSessionMeta (payload : Json) (lastEventAt : DateTime) (parser : SessionParser) :
    Option SessionParser :=
  match parser.session with
  | some session =>
      some { parser with session := some (refreshMeta payload lastEventAt session) }
  | none => do
      let startedAt ← timestampField readers payload "timestamp"
      return { parser with session := some (createSession payload lastEventAt startedAt parser) }

/-- `handle_turn_context`, `parser.rs:391–445`. -/
def handleTurnContext (payload : Json) (parser : SessionParser) : SessionParser :=
  let model := payload.str "model"
  let turnId := payload.str "turn_id"
  let serviceTier := (payload.str "service_tier").or parser.currentServiceTier
  { parser with
    currentModel := model.or parser.currentModel
    currentTurnId := turnId.or parser.currentTurnId
    currentServiceTier := serviceTier
    session := parser.session.map fun session ↦
      { session with
        model := model.or session.model
        serviceTier := serviceTier.or session.serviceTier
        turns := match turnId with
          | none => session.turns
          | some turnId => withTurn turnId (fun turn ↦ { turn with
              model := model.or turn.model
              reasoningEffort := (payload.str "effort").or turn.reasoningEffort
              collaborationMode := (collaborationMode payload).or turn.collaborationMode
              serviceTier := serviceTier.or turn.serviceTier }) session.turns } }

/-- `handle_thread_settings`, `parser.rs:447–495`. -/
def handleThreadSettings (payload : Json) (parser : SessionParser) : SessionParser :=
  match payload.get "thread_settings" with
  | none => parser
  | some settings =>
      let model := settings.str "model"
      let serviceTier := settings.str "service_tier"
      { parser with
        currentModel := model.or parser.currentModel
        currentServiceTier := serviceTier
        session := parser.session.map fun session ↦
          { session with
            model := model.or session.model
            serviceTier
            turns := match parser.currentTurnId with
              | none => session.turns
              | some turnId => withTurn turnId (fun turn ↦ { turn with
                  serviceTier
                  reasoningEffort := (settings.str "reasoning_effort").or turn.reasoningEffort
                  collaborationMode := (collaborationMode settings).or turn.collaborationMode })
                session.turns } }

/-- `task_started`, `parser.rs:505–534`. -/
def taskStarted (payload : Json) (eventTs : DateTime) (parser : SessionParser) : SessionParser :=
  let turnId := payload.str "turn_id"
  let startedAt := (timestampField readers payload "started_at").getD eventTs
  { parser with
    currentTurnId := turnId.or parser.currentTurnId
    session := parser.session.map fun session ↦
      { session with
        contextWindow := ((u64 payload "model_context_window").map (· % 2 ^ 32)).or
          session.contextWindow
        turns := match turnId with
          | none => session.turns
          | some turnId => withTurn turnId (fun turn ↦ { turn with
              startedAt := turn.startedAt.or (some startedAt)
              collaborationMode :=
                (payload.str "collaboration_mode_kind").or turn.collaborationMode })
            session.turns } }

/-- `user_message`, `parser.rs:535–554`. -/
def userMessage (payload : Json) (parser : SessionParser) : SessionParser :=
  let message := (payload.str "message").map fun m ↦ takeChars turnMessageLimit (Text.trimEnd m)
  { parser with
    session := parser.session.map fun session ↦
      { session with
        firstUserMessage := session.firstUserMessage.or (message.map (takeChars 200))
        turns := match parser.currentTurnId with
          | none => session.turns
          | some turnId => withTurn turnId
              (fun turn ↦ { turn with userMessage := turn.userMessage.or message })
              session.turns } }

/-- `task_complete`, `parser.rs:561–591`. -/
def taskComplete (payload : Json) (eventTs : DateTime) (parser : SessionParser) : SessionParser :=
  let lastAgent := (payload.str "last_agent_message").map fun m ↦
    takeChars turnMessageLimit (Text.trim m)
  { parser with
    currentTurnId := none
    session := parser.session.map fun session ↦
      { session with
        totalTurns := session.totalTurns + 1
        turns := match (payload.str "turn_id").or parser.currentTurnId with
          | none => session.turns
          | some turnId => withTurn turnId (fun turn ↦ { turn with
              completedAt := some ((timestampField readers payload "completed_at").getD eventTs)
              durationMs := u64 payload "duration_ms"
              timeToFirstTokenMs := u64 payload "time_to_first_token_ms"
              status := .completed
              lastAgentMessage := turn.lastAgentMessage.or lastAgent }) session.turns } }

/-- `turn_aborted`, `parser.rs:592–611`. -/
def turnAborted (payload : Json) (eventTs : DateTime) (parser : SessionParser) : SessionParser :=
  { parser with
    currentTurnId := none
    session := parser.session.map fun session ↦
      { session with
        turns := match (payload.str "turn_id").or parser.currentTurnId with
          | none => session.turns
          | some turnId => withTurn turnId (fun turn ↦ { turn with
              completedAt := some ((timestampField readers payload "completed_at").getD eventTs)
              durationMs := u64 payload "duration_ms"
              status := .aborted
              abortReason := payload.str "reason" }) session.turns } }

/-- `thread_rolled_back`, `parser.rs:612–628`. -/
def threadRolledBack (payload : Json) (parser : SessionParser) : SessionParser :=
  { parser with
    session := parser.session.map fun session ↦
      { session with
        turns := (rollBack ((u64 payload "num_turns").getD 0) session.turns.reverse).reverse } }

/-- `exec_command_end`, `parser.rs:629–668`. -/
def execCommandEnd (payload : Json) (eventTs : DateTime) (parser : SessionParser) :
    SessionParser :=
  let failed := ((payload.get "exit_code").bind asI64).any (· != 0) ||
    decide (payload.str "status" = some "failed")
  let durationMs := (payload.get "duration").map fun duration ↦
    min (2 ^ 64 - 1) (min (2 ^ 64 - 1) ((u64 duration "secs").getD 0 * 1000) +
      (u64 duration "nanos").getD 0 / 1000000)
  let outputBytes := ((payload.str "aggregated_output").map String.utf8ByteSize).getD
    ((["stdout", "stderr"].filterMap payload.str).map String.utf8ByteSize).sum
  { parser with
    session := parser.session.map fun session ↦
      { session with
        toolObservations := observeResult session.toolObservations
          ((payload.str "call_id").getD "") (if failed then .failure else .success) durationMs
          (some eventTs) outputBytes } }

/-- `info`, when it is there and not null. Follows `parser.rs:695`. -/
def tokenInfo (payload : Json) : Option Json :=
  (payload.get "info").filter (!·.isNull)

/-- `total_token_usage`. Follows `parser.rs:696–698`. -/
def totalUsage (payload : Json) : Option TokenTotals :=
  ((tokenInfo payload).bind (·.get "total_token_usage")).map parseTokenTotals

/-- `last_token_usage`. Follows `parser.rs:699–701`. -/
def lastUsage (payload : Json) : Option TokenTotals :=
  ((tokenInfo payload).bind (·.get "last_token_usage")).map parseTokenTotals

/-- The buckets with the usage of one event, and what the event contributes to them: its own usage
and what the buckets still lack of the total. Follows `parser.rs:738–750`. -/
def contribute (model : Option String) (total usage : TokenTotals)
    (buckets : ExtTreeMap String TokenTotals) : ExtTreeMap String TokenTotals × TokenTotals :=
  match model with
  | none => (buckets, usage)
  | some model =>
      let buckets := updateEntry buckets model 0 (· + usage)
      let remainder := subtractTotals total (sumBucketTotals buckets)
      if totalsAnyPositive remainder then
        (updateEntry buckets model 0 (· + remainder), usage + remainder)
      else (buckets, usage)

/-- The token counters of an event. Follows `parser.rs:708–767`. -/
def applyUsage (payload : Json) (eventTs : DateTime) (model serviceTier turnId : Option String)
    (session : Session) : Session :=
  let tokensTotal := (totalUsage payload).getD session.tokensTotal
  let contributed := contribute model tokensTotal ((lastUsage payload).getD 0)
    session.tokensByModel
  { session with
    tokensTotal
    contextWindow := (((tokenInfo payload).bind (u64 · "model_context_window")).map
      (· % 2 ^ 32)).or session.contextWindow
    latestContextTokens := ((lastUsage payload).map fun last ↦
      last.inputTokens + last.outputTokens).or session.latestContextTokens
    tokensByModel := contributed.1
    tokensHistory := match totalUsage payload with
      | none => session.tokensHistory
      | some total => session.tokensHistory ++ [{
          timestamp := eventTs
          model
          serviceTier
          requestInputTokens := (lastUsage payload).map TokenTotals.inputTokens
          totalTokens := total.totalTokens
          delta := contributed.2 }]
    turns := match turnId with
      | none => session.turns
      | some turnId => modifyFirst (fun turn ↦ turn.turnId = turnId)
          (fun turn ↦ { turn with
            tokens := turn.tokens + contributed.2
            serviceTier := serviceTier.or turn.serviceTier }) session.turns }

/-- `handle_token_count`, `parser.rs:687–818`. -/
def handleTokenCount (payload : Json) (eventTs : DateTime) (parser : SessionParser) :
    SessionParser :=
  { parser with
    session := parser.session.map fun session ↦
      let session := applyUsage payload eventTs parser.currentModel parser.currentServiceTier
        parser.currentTurnId session
      match payload.get "rate_limits" with
      | none => session
      | some rateLimits =>
          applyRateLimits readers rateLimits eventTs parser.currentTurnId session }

/-- `handle_event_msg`, `parser.rs:497–680`. -/
def handleEventMsg (payload : Json) (eventTs : DateTime) (parser : SessionParser) :
    SessionParser :=
  match (payload.str "type").getD "" with
  | "task_started" => taskStarted readers payload eventTs parser
  | "user_message" => userMessage payload parser
  | "token_count" => handleTokenCount readers payload eventTs parser
  | "thread_settings_applied" => handleThreadSettings payload parser
  | "task_complete" => taskComplete readers payload eventTs parser
  | "turn_aborted" => turnAborted readers payload eventTs parser
  | "thread_rolled_back" => threadRolledBack payload parser
  | "exec_command_end" => execCommandEnd payload eventTs parser
  | _ => parser

/-- A record after its instant. Follows `parser.rs:142–164`. -/
def handleRecord (root : Json) (lastEventAt : DateTime) (parser : SessionParser) :
    Option SessionParser :=
  let payload := (root.get "payload").getD .null
  match (root.str "type").getD "" with
  | "response_item" => some (handleResponseItem readers payload lastEventAt parser)
  | "session_meta" => handleSessionMeta readers payload lastEventAt parser
  | "turn_context" => some (handleTurnContext payload parser)
  | "event_msg" => some (handleEventMsg readers payload lastEventAt parser)
  | _ => some parser

/-- A record which has been read. Follows `parser.rs:128–164`. -/
def applyRecord (root : Json) (now : DateTime) (parser : SessionParser) : Option SessionParser :=
  let lastEventAt := (readers.parseInstant ((root.str "timestamp").getD "")).getD now
  handleRecord readers root lastEventAt
    { parser with session := parser.session.map (advance lastEventAt) }

end SessionParser

/-! ### The fast path -/

/-- A text up to its first quote, and what follows the quote. -/
def splitAtQuote (text : List Char) : Option (List Char × List Char) :=
  match text.dropWhile (· != '"') with
  | [] => none
  | _ :: rest => some (text.takeWhile (· != '"'), rest)

/-- What follows a leading text. -/
def afterPattern (pattern : String) (text : List Char) : Option (List Char) :=
  if pattern.toList.isPrefixOf text then some (text.drop pattern.length) else none

/-- `fast_skip_timestamp`, `parser.rs:826–844`. -/
def fastSkipTimestamp (line : String) : Option String := do
  if "\"type\":\"function_call".toList <:+: line.toList ∨
      "\"type\":\"custom_tool_call".toList <:+: line.toList then none
  else
    let rest ← afterPattern "\x7b\"timestamp\":\"" line.toList
    let (ts, rest) ← splitAtQuote rest
    if '\\' ∈ ts then none
    else
      let after ← afterPattern ",\"type\":\"" rest
      let (kind, _) ← splitAtQuote after
      if kind = "response_item".toList ∨ kind = "compacted".toList then some (String.ofList ts)
      else none

namespace SessionParser

variable (readers : Readers)

/-- `apply_line_without_refresh`, `parser.rs:110–165`. -/
def applyLineWithoutRefresh (line : TranscriptLine) (parser : SessionParser) :
    Option SessionParser :=
  match fastSkipTimestamp line.text with
  | some ts =>
      let lastEventAt := (readers.parseInstant ts).getD line.now
      some { parser with session := parser.session.map (advance lastEventAt) }
  | none => (readers.fromStr line.text).bind fun root ↦ applyRecord readers root line.now parser

/-- One step. Follows `parser.rs:78–89,101–108`. -/
def step (parser : SessionParser) : Step → SessionParser
  | .line line => (applyLineWithoutRefresh readers line parser).getD parser
  | .refresh => { parser with session := parser.session.map (refreshSession readers) }

/-- Steps one after the other. -/
def run (steps : List Step) (parser : SessionParser) : SessionParser :=
  steps.foldl (step readers) parser

end SessionParser

end AgentOdometer.Parser
