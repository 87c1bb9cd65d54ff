import AgentOdometer.Ledger.Identity
import AgentOdometer.Lib.GroupBy
import AgentOdometer.Model.Counters
import AgentOdometer.Parser.Json

/-!
# Sessions which prompts drive

What the parsers of Claude Code and Gemini CLI write alike (`claude_parser.rs:347–389,519–587`,
`gemini_parser.rs:235–277,326–375`): a prompt opens a turn, a message of the agent counts its usage
and completes the turn.
-/

namespace AgentOdometer.Parser

open Std (ExtTreeMap)
open GroupBy

/-- A prompt closes the turn before it and opens its own. Follows `claude_parser.rs:360–388` and
`gemini_parser.rs:247–276`. -/
def openPrompt (turnId prompt : String) (timestamp : Option DateTime)
    (currentTurnId : Option String) (session : Session) : Session :=
  let truncated := takeChars turnMessageLimit (Text.trimEnd prompt)
  let turns := match currentTurnId with
    | none => session.turns
    | some previous => modifyFirst (fun turn ↦ turn.turnId = previous) abortOpen session.turns
  { session with
    firstUserMessage := session.firstUserMessage.or (some (takeChars 200 truncated))
    turns := turns ++ [{ openTurn turnId (turns.length + 1) with
      startedAt := timestamp
      userMessage := some truncated }] }

/-- The usage of a message in every accumulator. Follows `claude_parser.rs:524–549` and
`gemini_parser.rs:328–351`. -/
def countUsage (delta : TokenTotals) (model serviceTier : Option String)
    (timestamp : Option DateTime) (currentTurnId : Option String) (session : Session) : Session :=
  let tokensTotal := session.tokensTotal + delta
  { session with
    tokensTotal
    latestContextTokens := some (delta.inputTokens + delta.outputTokens)
    tokensByModel := match model with
      | none => session.tokensByModel
      | some model => updateEntry session.tokensByModel model 0 (· + delta)
    tokensHistory := match timestamp with
      | none => session.tokensHistory
      | some timestamp => session.tokensHistory ++ [{
          timestamp
          model
          serviceTier
          requestInputTokens := some delta.inputTokens
          totalTokens := tokensTotal.totalTokens
          delta }]
    turns := match currentTurnId with
      | none => session.turns
      | some turnId => modifyFirst (fun turn ↦ turn.turnId = turnId)
          (fun turn ↦ { turn with tokens := turn.tokens + delta }) session.turns }

/-- The active turn with a message of the agent. Follows `claude_parser.rs:556–585` and
`gemini_parser.rs:357–373`. -/
def answerTurn (model serviceTier : Option String) (timestamp : Option DateTime)
    (lastAgentMessage : Option String) (turn : TurnInfo) : TurnInfo :=
  { turn with
    model := model.or turn.model
    serviceTier := serviceTier.or turn.serviceTier
    status := if turn.status = .inProgress then .completed else turn.status
    completedAt := timestamp.or turn.completedAt
    durationMs := match timestamp, turn.startedAt with
      | some timestamp, some started => elapsedMs started timestamp
      | _, _ => turn.durationMs
    lastAgentMessage := lastAgentMessage.or turn.lastAgentMessage }

/-- A message of the agent completes the active turn. Follows `claude_parser.rs:553–587` and
`gemini_parser.rs:354–375`. -/
def answer (model serviceTier : Option String) (timestamp : Option DateTime)
    (lastAgentMessage currentTurnId : Option String) (session : Session) : Session :=
  match currentTurnId with
  | none => session
  | some turnId =>
      { session with
        totalTurns := session.totalTurns +
          if (session.turns.find? fun turn ↦ turn.turnId = turnId).any
              (·.status = .inProgress) then 1
          else 0
        turns := modifyFirst (fun turn ↦ turn.turnId = turnId)
          (answerTurn model serviceTier timestamp lastAgentMessage) session.turns }

end AgentOdometer.Parser
