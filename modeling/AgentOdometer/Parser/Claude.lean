import AgentOdometer.Parser.Prompted
import Std.Data.ExtTreeSet

/-!
# The Claude Code transcript parser

`ClaudeSessionParser` (`claude_parser.rs:44–589,605–707`): one record at a time. A line which is
not JSON leaves the parser as it was.
-/

namespace AgentOdometer.Parser

open Std (ExtTreeSet)

/-- What `std::path` tells of the path of a transcript. The stem is `to_str` of it, which there is
none of when it is not Unicode, and `to_string_lossy`. -/
structure TranscriptPath where
  text : String
  components : List String
  fileStem : Option String
  fileStemLossy : Option String

/-- `ClaudeSessionParser`, `claude_parser.rs:44–61`. -/
structure ClaudeSessionParser where
  session : Option Session
  byteOffset : Nat
  filePath : TranscriptPath
  isSubagent : Bool
  seenMessageIds : ExtTreeSet String
  seenToolIds : ExtTreeSet String
  currentTurnId : Option String
  pendingThreadName : Option String

namespace ClaudeSessionParser

/-- `ClaudeSessionParser::new`, `claude_parser.rs:64–81`. -/
def new (filePath : TranscriptPath) : ClaudeSessionParser where
  session := none
  byteOffset := 0
  filePath
  isSubagent := filePath.components.any (· = "subagents") ||
    filePath.fileStem.any (Text.startsWith · "agent-")
  seenMessageIds := ∅
  seenToolIds := ∅
  currentTurnId := none
  pendingThreadName := none

/-! ### Records -/

/-- The text of a prompt, when it is one. Follows `claude_parser.rs:628–646`. -/
def promptContent (content : Json) : Option String :=
  match content with
  | .string text => some text
  | .array blocks =>
      if blocks.any fun block ↦ block.str "type" = some "tool_result" then none
      else some ("\n".intercalate
        ((blocks.filter fun block ↦ block.str "type" = some "text").filterMap (·.str "text")))
  | _ => none

/-- `extract_user_prompt`, `claude_parser.rs:615–658`. -/
def extractUserPrompt (root : Json) (allowSidechain : Bool) : Option String :=
  if !allowSidechain && decide (root.flag "isSidechain" = some true) then none
  else if root.flag "isMeta" = some true then none
  else if (root.get "toolUseResult").any (!·.isNull) then none
  else do
    let content ← (root.get "message").bind (·.get "content")
    let text ← promptContent content
    let trimmed := Text.trim text
    if trimmed = "" || ["<command-", "<local-command", "[Request interrupted", "Caveat:"].any
        (Text.startsWith trimmed ·) then none
    else some text

/-- `last_text_block`, `claude_parser.rs:661–669`. -/
def lastTextBlock (message : Json) : Option String := do
  let blocks ← (message.get "content").bind Report.Value.asArray
  let block ← blocks.reverse.find? fun block ↦ block.str "type" = some "text"
  let text ← block.str "text"
  some (takeChars turnMessageLimit (Text.trim text))

/-- `usage_to_totals`, `claude_parser.rs:673–691`. -/
def usageToTotals (usage : Json) : TokenTotals :=
  let cacheRead := (u64 usage "cache_read_input_tokens").getD 0
  let cacheCreation := (u64 usage "cache_creation_input_tokens").getD 0
  let output := (u64 usage "output_tokens").getD 0
  let input := (u64 usage "input_tokens").getD 0 + cacheRead + cacheCreation
  { inputTokens := input
    cachedInputTokens := cacheRead
    cacheCreationInputTokens := cacheCreation
    outputTokens := output
    reasoningOutputTokens := 0
    totalTokens := input + output }

/-- `totals_any_positive`, `claude_parser.rs:697–704`. -/
def totalsAnyPositive (totals : TokenTotals) : Bool :=
  0 < totals.inputTokens || 0 < totals.cachedInputTokens ||
    0 < totals.cacheCreationInputTokens || 0 < totals.outputTokens ||
    0 < totals.reasoningOutputTokens || 0 < totals.totalTokens

/-- The tier of a message, its speed unless that is the standard one. Follows
`claude_parser.rs:464–474`. -/
def serviceTier (usage : Json) : Option String :=
  match usage.str "speed" with
  | some speed => if speed ≠ "standard" then some speed else usage.str "service_tier"
  | none => usage.str "service_tier"

/-- The tool calls of a message which have not been seen, with the ids seen then. Follows
`claude_parser.rs:477–502`. -/
def newToolCalls (seen : ExtTreeSet String) :
    List Json → ExtTreeSet String × List (String × String × Json)
  | [] => (seen, [])
  | block :: rest =>
      match if block.str "type" = some "tool_use" then block.str "id" else none with
      | none => newToolCalls seen rest
      | some id =>
          if id = "" ∨ id ∈ seen then newToolCalls seen rest
          else
            let (seen, calls) := newToolCalls (seen.insert id) rest
            (seen, (id, (block.str "name").getD "unknown", (block.get "input").getD .null) :: calls)

/-! ### Sessions -/

/-- `refresh_metadata`, `claude_parser.rs:322–345`. -/
def refreshMetadata (root : Json) (session : Session) : Session :=
  { session with
    workingDirectory := session.workingDirectory.or ((root.str "cwd").filter (· ≠ ""))
    cliVersion := session.cliVersion.or (root.str "version")
    originator := session.originator.or (root.str "entrypoint") }

/-- The session of a first dated record. Follows `claude_parser.rs:213–318`. -/
def createSession (root : Json) (startedAt : DateTime) (parser : ClaudeSessionParser) : Session :=
  let recordSessionId := root.str "sessionId"
  let fileStem := parser.filePath.fileStemLossy.getD ""
  let blank (id storageId : String) (parentThreadId source : Option String) (fallback : Bool) :=
    { Session.blank .claudeCode id startedAt with
      storageId
      parentThreadId
      source
      subagentIdIsPathFallback := fallback
      threadName := parser.pendingThreadName
      filePath := parser.filePath.text
      modelProvider := some "anthropic" }
  if parser.isSubagent then
    let providerAgentId := (root.str "agentId").filter (· ≠ "")
    let agentId := providerAgentId.getD fileStem
    let storageId := match recordSessionId with
      | some parent => Ledger.storageIdForClaudeSubagent parent agentId
      | none => Ledger.storageIdForSession .claudeCode agentId
    blank agentId storageId recordSessionId (some "subagent") providerAgentId.isNone
  else
    let id := recordSessionId.getD fileStem
    blank id (Ledger.storageIdForSession .claudeCode id) none none false

/-- `ensure_session`, `claude_parser.rs:205–320`. -/
def ensureSession (root : Json) (timestamp : Option DateTime) (parser : ClaudeSessionParser) :
    ClaudeSessionParser :=
  match parser.session, timestamp with
  | some session, _ => { parser with session := some (refreshMetadata root session) }
  | none, none => parser
  | none, some startedAt =>
      let session := createSession root startedAt parser
      if session.id = "" then parser
      else
        { parser with
          session := some (refreshMetadata root session)
          pendingThreadName := none }

/-! ### Handlers -/

variable (readers : Readers)

/-- `handle_user`, `claude_parser.rs:347–389`. -/
def handleUser (root : Json) (timestamp : Option DateTime) (parser : ClaudeSessionParser) :
    ClaudeSessionParser :=
  match extractUserPrompt root parser.isSubagent, parser.session with
  | some prompt, some session =>
      let turnId := (root.str "uuid").getD ""
      if turnId = "" then parser
      else
        { parser with
          session := some (openPrompt turnId prompt timestamp parser.currentTurnId session)
          currentTurnId := some turnId }
  | _, _ => parser

/-- One tool result. Follows `claude_parser.rs:402–435`. -/
def observeToolResult (root : Json) (timestamp : Option DateTime)
    (observations : List ToolObservation) (block : Json) : List ToolObservation :=
  if block.str "type" = some "tool_result" then
    let failed := (block.flag "is_error").getD false ||
      (((root.get "toolUseResult").bind (·.flag "is_error")).getD false)
    let outputBytes := match block.get "content" with
      | some (.string value) => value.utf8ByteSize
      | some value => readers.jsonLength value
      | none => 0
    observeResult observations ((block.str "tool_use_id").getD "")
      (if failed then .failure else .success) none timestamp outputBytes
  else observations

/-- `handle_tool_results`, `claude_parser.rs:391–437`. -/
def handleToolResults (root : Json) (timestamp : Option DateTime) (parser : ClaudeSessionParser) :
    ClaudeSessionParser :=
  match ((root.get "message").bind (·.get "content")).bind Report.Value.asArray with
  | none => parser
  | some blocks =>
      { parser with
        session := parser.session.map fun session ↦
          { session with
            toolObservations :=
              blocks.foldl (observeToolResult readers root timestamp) session.toolObservations } }

/-- The tool calls of a message, observed. Follows `claude_parser.rs:515–529`. -/
def observeCalls (model turnId : Option String) (timestamp : DateTime)
    (calls : List (String × String × Json)) (observations : List ToolObservation) :
    List ToolObservation :=
  calls.foldl (fun observations call ↦ observeCall readers observations {
    callId := call.1
    turnId
    harness := .claudeCode
    model
    timestamp
    name := call.2.1
    arguments := call.2.2 }) observations

/-- What a message does to the session. Follows `claude_parser.rs:504–587`. -/
def applyMessage (message : Json) (timestamp : Option DateTime) (firstOccurrence : Bool)
    (lastAgentMessage currentTurnId : Option String) (calls : List (String × String × Json))
    (session : Session) : Session :=
  let model := message.str "model"
  let tier := (message.get "usage").bind serviceTier
  let session := { session with
    model := model.or session.model
    serviceTier := tier.or session.serviceTier
    toolObservations := match timestamp with
      | none => session.toolObservations
      | some timestamp =>
          observeCalls readers model currentTurnId timestamp calls session.toolObservations }
  let session := match firstOccurrence, (message.get "usage").map usageToTotals with
    | true, some delta =>
        if totalsAnyPositive delta then
          countUsage delta model tier timestamp currentTurnId session
        else session
    | _, _ => session
  answer model tier timestamp lastAgentMessage currentTurnId session

/-- The message of an assistant record, unless it is an error placeholder. Follows
`claude_parser.rs:440–450`. -/
def messageOf (root : Json) : Option Json :=
  (root.get "message").filter fun message ↦ message.str "model" ≠ some "<synthetic>"

/-- `handle_assistant`, `claude_parser.rs:439–588`. -/
def handleAssistant (root : Json) (timestamp : Option DateTime) (parser : ClaudeSessionParser) :
    ClaudeSessionParser :=
  match messageOf root with
  | none => parser
  | some message =>
      let isSidechain := (root.flag "isSidechain").getD false
      let messageId := (message.str "id").getD ""
      let firstOccurrence := messageId ≠ "" && decide (messageId ∉ parser.seenMessageIds)
      let seenMessageIds :=
        if firstOccurrence then parser.seenMessageIds.insert messageId else parser.seenMessageIds
      let lastAgentMessage :=
        if !isSidechain || parser.isSubagent then lastTextBlock message else none
      let called := if timestamp.isSome && parser.session.isSome then
          newToolCalls parser.seenToolIds
            (((message.get "content").bind Report.Value.asArray).getD [])
        else (parser.seenToolIds, [])
      { parser with
        seenMessageIds
        seenToolIds := called.1
        session := parser.session.map (applyMessage readers message timestamp firstOccurrence
          lastAgentMessage parser.currentTurnId called.2) }

/-- A title. Follows `claude_parser.rs:164–173`. -/
def handleTitle (root : Json) (parser : ClaudeSessionParser) : ClaudeSessionParser :=
  match root.str "customTitle", parser.session with
  | none, _ => parser
  | some title, some session =>
      { parser with session := some { session with threadName := some title } }
  | some title, none => { parser with pendingThreadName := some title }

/-- A continuation summary, when there is no better name. Follows `claude_parser.rs:174–195`. -/
def handleSummary (root : Json) (parser : ClaudeSessionParser) : ClaudeSessionParser :=
  match root.str "summary", parser.session with
  | none, _ => parser
  | some summary, some session =>
      { parser with
        session := some { session with threadName := session.threadName.or (some summary) } }
  | some summary, none =>
      { parser with pendingThreadName := parser.pendingThreadName.or (some summary) }

/-- The instant of a record, when it has one that can be read. Follows
`claude_parser.rs:147–150`. -/
def recordTimestamp (root : Json) : Option DateTime :=
  (root.str "timestamp").bind readers.parseInstant

/-- The parser before a record is handled: with a session, and its latest event. Follows
`claude_parser.rs:152–158`. -/
def prepare (root : Json) (parser : ClaudeSessionParser) : ClaudeSessionParser :=
  let timestamp := recordTimestamp readers root
  let parser := ensureSession root timestamp parser
  match timestamp with
  | none => parser
  | some instant => { parser with session := parser.session.map (advance instant) }

/-- A record of a prepared parser. Follows `claude_parser.rs:160–202`. -/
def handleRecord (root : Json) (timestamp : Option DateTime) (parser : ClaudeSessionParser) :
    ClaudeSessionParser :=
  match (root.str "type").getD "" with
  | "user" => handleUser root timestamp (handleToolResults readers root timestamp parser)
  | "assistant" => handleAssistant readers root timestamp parser
  | "custom-title" => handleTitle root parser
  | "summary" => handleSummary root parser
  | _ => parser

/-- A record which has been read. Follows `claude_parser.rs:143–202`. -/
def applyRecord (root : Json) (parser : ClaudeSessionParser) : ClaudeSessionParser :=
  handleRecord readers root (recordTimestamp readers root) (prepare readers root parser)

/-- One step. Follows `claude_parser.rs:113–139`. -/
def step (parser : ClaudeSessionParser) : Step → ClaudeSessionParser
  | .line line => match readers.fromStr line.text with
      | none => parser
      | some root => applyRecord readers root parser
  | .refresh => { parser with session := parser.session.map (refreshSession readers) }

/-- Steps one after the other. -/
def run (steps : List Step) (parser : ClaudeSessionParser) : ClaudeSessionParser :=
  steps.foldl (step readers) parser

end ClaudeSessionParser

end AgentOdometer.Parser
