import AgentOdometer.Parser.Prompted
import Std.Data.ExtTreeSet

/-!
# The Gemini CLI transcript parser

`GeminiSessionParser` (`gemini_parser.rs:45–475`): a header line makes the session, and every
later line is a message. A line which is not JSON leaves the parser as it was.
-/

namespace AgentOdometer.Parser

open Std (ExtTreeSet)

/-- `GeminiSessionParser`, `gemini_parser.rs:45–57`. -/
structure GeminiSessionParser where
  session : Option Session
  byteOffset : Nat
  filePath : String
  seenMessageIds : ExtTreeSet String
  seenToolIds : ExtTreeSet String
  currentTurnId : Option String

namespace GeminiSessionParser

/-- `GeminiSessionParser::new`, `gemini_parser.rs:60–69`. -/
def new (filePath : String) : GeminiSessionParser where
  session := none
  byteOffset := 0
  filePath
  seenMessageIds := ∅
  seenToolIds := ∅
  currentTurnId := none

/-! ### Records -/

/-- `user_message_text`, `gemini_parser.rs:380–394`. -/
def userMessageText (root : Json) : Option String := do
  let content ← root.get "content"
  match content with
  | .string text => if Text.isBlank text then none else some text
  | .array parts =>
      let joined := " ".intercalate (parts.filterMap (·.str "text"))
      if Text.isBlank joined then none else some joined
  | _ => none

/-- `last_text`, `gemini_parser.rs:398–401`. -/
def lastText (root : Json) : Option String :=
  (userMessageText root).map fun text ↦ takeChars turnMessageLimit (Text.trim text)

/-- A tool call of a message: its id, its name, its arguments and its status. -/
abbrev ToolCall : Type :=
  String × String × Json × Option String

/-- `tool_calls_of`, `gemini_parser.rs:403–423`. -/
def toolCallsOf (root : Json) : List ToolCall :=
  (((root.get "toolCalls").bind Report.Value.asArray).getD []).filterMap fun call ↦
    (call.str "id").map fun id ↦
      (id, (call.str "name").getD "unknown", (call.get "args").getD .null, call.str "status")

/-- `outcome_from_status`, `gemini_parser.rs:425–433`. -/
def outcomeFromStatus (status : Option String) : ToolOutcome :=
  match status.map String.toLower with
  | none => .unknown
  | some text =>
      if ["error", "fail", "cancel"].any fun word ↦ decide (word.toList <:+: text.toList) then
        .failure
      else .success

/-- `tokens_field`, `gemini_parser.rs:435–437`. -/
def tokensField (tokens : Json) (key : String) : Nat :=
  (u64 tokens key).getD 0

/-- `tokens_any_positive`, `gemini_parser.rs:439–447`. -/
def tokensAnyPositive (root : Json) : Bool :=
  (root.get "tokens").any fun tokens ↦
    0 < tokensField tokens "input" || 0 < tokensField tokens "output" ||
      0 < tokensField tokens "cached" || 0 < tokensField tokens "thoughts"

/-- `usage_to_totals`, `gemini_parser.rs:456–470`. -/
def usageToTotals (root : Json) : Option TokenTotals :=
  (root.get "tokens").map fun tokens ↦
    let input := tokensField tokens "input"
    let thoughts := tokensField tokens "thoughts"
    let output := tokensField tokens "output" + thoughts
    { inputTokens := input
      cachedInputTokens := tokensField tokens "cached"
      cacheCreationInputTokens := 0
      outputTokens := output
      reasoningOutputTokens := thoughts
      totalTokens := input + output }

variable (readers : Readers)

/-! ### Handlers -/

/-- `ensure_session`, `gemini_parser.rs:172–233`. -/
def ensureSession (header : Json) (parser : GeminiSessionParser) : GeminiSessionParser :=
  match header.str "sessionId", (header.str "startTime").bind readers.parseInstant with
  | some sessionId, some startedAt =>
      if sessionId = "" then parser
      else
        { parser with
          session := some { Session.blank .geminiCli sessionId startedAt with
            storageId := Ledger.storageIdForSession .geminiCli sessionId
            filePath := parser.filePath
            modelProvider := some "google" } }
  | _, _ => parser

/-- `handle_user`, `gemini_parser.rs:235–277`. -/
def handleUser (root : Json) (timestamp : Option DateTime) (parser : GeminiSessionParser) :
    GeminiSessionParser :=
  match userMessageText root, parser.session with
  | some prompt, some session =>
      let turnId := (root.str "id").getD ""
      if turnId = "" then parser
      else
        { parser with
          session := some (openPrompt turnId prompt timestamp parser.currentTurnId session)
          currentTurnId := some turnId }
  | _, _ => parser

/-- The calls which have not been seen, each with its result. Follows
`gemini_parser.rs:296–324`. -/
def observeCalls (model turnId : Option String) (timestamp : DateTime) (calls : List ToolCall)
    (seen : ExtTreeSet String) (observations : List ToolObservation) :
    ExtTreeSet String × List ToolObservation :=
  calls.foldl (fun acc call ↦
    if call.1 = "" ∨ call.1 ∈ acc.1 then acc
    else
      (acc.1.insert call.1,
        observeResult
          (observeCall readers acc.2 {
            callId := call.1
            turnId
            harness := .geminiCli
            model
            timestamp
            name := call.2.1
            arguments := call.2.2.1 })
          call.1 (outcomeFromStatus call.2.2.2) none (some timestamp) 0)) (seen, observations)

/-- The usage of a first occurrence, when it is dated. Follows `gemini_parser.rs:326–352`. -/
def applyUsage (root : Json) (timestamp : Option DateTime) (firstOccurrence : Bool)
    (currentTurnId : Option String) (session : Session) : Session :=
  if firstOccurrence && tokensAnyPositive root then
    match usageToTotals root, timestamp with
    | some delta, some _ =>
        countUsage delta (root.str "model") none timestamp currentTurnId session
    | _, _ => session
  else session

/-- `handle_gemini`, `gemini_parser.rs:279–376`. -/
def handleGemini (root : Json) (timestamp : Option DateTime) (parser : GeminiSessionParser) :
    GeminiSessionParser :=
  let model := root.str "model"
  let messageId := (root.str "id").getD ""
  let firstOccurrence := messageId ≠ "" && decide (messageId ∉ parser.seenMessageIds)
  let parser := { parser with
    seenMessageIds :=
      if firstOccurrence then parser.seenMessageIds.insert messageId else parser.seenMessageIds }
  match parser.session with
  | none => parser
  | some session =>
      let called := match timestamp with
        | none => (parser.seenToolIds, session.toolObservations)
        | some timestamp => observeCalls readers model parser.currentTurnId timestamp
            (toolCallsOf root) parser.seenToolIds session.toolObservations
      let session := { session with
        model := model.or session.model
        toolObservations := called.2 }
      let session := applyUsage root timestamp firstOccurrence parser.currentTurnId session
      { parser with
        seenToolIds := called.1
        session := some (answer model none timestamp (lastText root) parser.currentTurnId session) }

/-- The instant of a record, when it has one that can be read. Follows
`gemini_parser.rs:151–154`. -/
def recordTimestamp (root : Json) : Option DateTime :=
  (root.str "timestamp").bind readers.parseInstant

/-- The parser before a message is handled: its session has its latest event. Follows
`gemini_parser.rs:151–155`. -/
def prepare (root : Json) (parser : GeminiSessionParser) : GeminiSessionParser :=
  match recordTimestamp readers root with
  | none => parser
  | some instant => { parser with session := parser.session.map (advance instant) }

/-- A message of a prepared parser. Follows `gemini_parser.rs:161–168`. -/
def handleRecord (root : Json) (recordType : String) (timestamp : Option DateTime)
    (parser : GeminiSessionParser) : GeminiSessionParser :=
  match recordType with
  | "user" => handleUser root timestamp parser
  | "gemini" => handleGemini readers root timestamp parser
  | _ => parser

/-- A message record of a session. Follows `gemini_parser.rs:151–168`. -/
def applyMessage (root : Json) (recordType : String) (parser : GeminiSessionParser) :
    GeminiSessionParser :=
  handleRecord readers root recordType (recordTimestamp readers root) (prepare readers root parser)

/-- A record which has been read. Follows `gemini_parser.rs:132–170`. -/
def applyRecord (root : Json) (parser : GeminiSessionParser) : GeminiSessionParser :=
  if parser.session.isNone then
    if (root.str "type").isNone && (root.str "sessionId").isSome &&
        (root.get "startTime").isSome then
      ensureSession readers root parser
    else parser
  else
    match root.str "type" with
    | none => parser
    | some recordType => applyMessage readers root recordType parser

/-- One step. Follows `gemini_parser.rs:109–121,132–134`. -/
def step (parser : GeminiSessionParser) : Step → GeminiSessionParser
  | .line line => match readers.fromStr line.text with
      | none => parser
      | some root => applyRecord readers root parser
  | .refresh => { parser with session := parser.session.map (refreshSession readers) }

/-- Steps one after the other. -/
def run (steps : List Step) (parser : GeminiSessionParser) : GeminiSessionParser :=
  steps.foldl (step readers) parser

end GeminiSessionParser

end AgentOdometer.Parser
