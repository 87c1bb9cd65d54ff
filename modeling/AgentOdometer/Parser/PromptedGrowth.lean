import AgentOdometer.Parser.Figures
import AgentOdometer.Parser.Growth
import AgentOdometer.Parser.PromptRuns

/-!
# Claude Code and Gemini CLI transcripts which grow

`parse_to_end` and `reset_for_replaced_file` of both parsers (`claude_parser.rs:81–140`,
`gemini_parser.rs:68–127`) as the common ones. Neither reads the clock, so nothing is asked of the
lines.
-/

namespace AgentOdometer.Parser

variable (readers : Readers)

namespace ClaudeSessionParser

/-- The parser without the derived figures of its session. -/
def plain (parser : ClaudeSessionParser) : ClaudeSessionParser :=
  { parser with session := parser.session.map plainSession }

/-- The parser at an offset. -/
def seek (offset : Nat) (parser : ClaudeSessionParser) : ClaudeSessionParser :=
  { parser with byteOffset := offset }

/-- `reset_for_replaced_file`, `claude_parser.rs:132–139`. -/
def reset (parser : ClaudeSessionParser) : ClaudeSessionParser :=
  { parser with
    session := none
    byteOffset := 0
    seenMessageIds := ∅
    seenToolIds := ∅
    currentTurnId := none
    pendingThreadName := none }

/-! ### Handlers -/

theorem keeps_ensureSession (root : Json) (timestamp : Option DateTime) :
    Keeps plain seek reset (ensureSession root timestamp) where
  plain parser := by
    obtain ⟨_ | session, _, _, _, _, _, _, _⟩ := parser
    · cases timestamp with
      | none => rfl
      | some startedAt =>
        unfold ensureSession plain createSession
        simp only [Option.map_none]
        split_ifs <;> rfl
    · rfl
  seek n parser := by
    obtain ⟨_ | session, _, _, _, _, _, _, _⟩ := parser
    · cases timestamp with
      | none => rfl
      | some startedAt =>
        unfold ensureSession seek createSession
        simp only
        split_ifs <;> rfl
    · rfl
  reset parser := by
    obtain ⟨_ | session, _, _, _, _, _, _, _⟩ := parser
    · cases timestamp with
      | none => rfl
      | some startedAt =>
        unfold ensureSession
        simp only
        split_ifs <;> rfl
    · rfl

theorem keeps_prepare (root : Json) : Keeps plain seek reset (prepare readers root) := by
  have hadvance : ∀ instant, Keeps plain seek reset fun parser ↦
      { parser with session := parser.session.map (advance instant) } := by
    refine fun instant ↦ ⟨fun parser ↦ ?_, fun _ _ ↦ rfl, fun _ ↦ rfl⟩
    obtain ⟨_ | session, _, _, _, _, _, _, _⟩ := parser
    · rfl
    · unfold plain
      simp only [Option.map_some, plain_advance]
  have hensure := keeps_ensureSession root (recordTimestamp readers root)
  unfold prepare
  cases recordTimestamp readers root with
  | none => exact keeps_ensureSession root none
  | some instant => exact (hadvance instant).comp (keeps_ensureSession root (some instant))

theorem keeps_handleUser (root : Json) (timestamp : Option DateTime) :
    Keeps plain seek reset (handleUser root timestamp) where
  plain parser := by
    obtain ⟨session, _, _, isSubagent, _, _, turnId, _⟩ := parser
    unfold handleUser plain
    cases extractUserPrompt root isSubagent with
    | none => rfl
    | some prompt =>
      cases session with
      | none => rfl
      | some session =>
        simp only [Option.map_some, plain_openPrompt]
        split_ifs <;> rfl
  seek n parser := by
    obtain ⟨session, _, _, isSubagent, _, _, turnId, _⟩ := parser
    unfold handleUser seek
    cases extractUserPrompt root isSubagent with
    | none => rfl
    | some prompt =>
      cases session with
      | none => rfl
      | some session =>
        simp only
        split_ifs <;> rfl
  reset parser := by
    obtain ⟨session, _, _, isSubagent, _, _, turnId, _⟩ := parser
    unfold handleUser
    cases extractUserPrompt root isSubagent with
    | none => rfl
    | some prompt =>
      cases session with
      | none => rfl
      | some session =>
        simp only
        split_ifs <;> rfl

theorem keeps_handleToolResults (root : Json) (timestamp : Option DateTime) :
    Keeps plain seek reset (handleToolResults readers root timestamp) := by
  unfold handleToolResults
  cases ((root.get "message").bind (·.get "content")).bind Report.Value.asArray with
  | none => exact ⟨fun _ ↦ rfl, fun _ _ ↦ rfl, fun _ ↦ rfl⟩
  | some blocks =>
    refine ⟨fun parser ↦ ?_, fun _ _ ↦ rfl, fun _ ↦ rfl⟩
    obtain ⟨_ | session, _, _, _, _, _, _, _⟩ := parser <;> rfl

theorem plain_applyMessage (message : Json) (timestamp : Option DateTime) (firstOccurrence : Bool)
    (lastAgentMessage currentTurnId : Option String) (calls : List (String × String × Json))
    (session : Session) :
    applyMessage readers message timestamp firstOccurrence lastAgentMessage currentTurnId calls
        (plainSession session) =
      plainSession (applyMessage readers message timestamp firstOccurrence lastAgentMessage
        currentTurnId calls session) := by
  unfold applyMessage
  simp only [← plain_answer]
  congr 1
  cases firstOccurrence with
  | false => rfl
  | true =>
    cases (message.get "usage").map usageToTotals with
    | none => rfl
    | some delta =>
      simp only
      split_ifs
      · rw [← plain_countUsage]
        rfl
      · rfl

theorem keeps_handleAssistant (root : Json) (timestamp : Option DateTime) :
    Keeps plain seek reset (handleAssistant readers root timestamp) := by
  unfold handleAssistant
  cases messageOf root with
  | none => exact ⟨fun _ ↦ rfl, fun _ _ ↦ rfl, fun _ ↦ rfl⟩
  | some message =>
    refine ⟨fun parser ↦ ?_, fun _ _ ↦ rfl, fun _ ↦ rfl⟩
    obtain ⟨_ | session, _, _, _, _, _, _, _⟩ := parser
    · rfl
    · unfold plain
      simp only [Option.map_some, plain_applyMessage, Option.isSome_some]

theorem keeps_handleTitle (root : Json) : Keeps plain seek reset (handleTitle root) := by
  unfold handleTitle
  cases root.str "customTitle" with
  | none => exact ⟨fun _ ↦ rfl, fun _ _ ↦ rfl, fun _ ↦ rfl⟩
  | some title =>
    constructor
    · rintro ⟨_ | session, _, _, _, _, _, _, _⟩ <;> rfl
    · rintro n ⟨_ | session, _, _, _, _, _, _, _⟩ <;> rfl
    · rintro ⟨_ | session, _, _, _, _, _, _, _⟩ <;> rfl

theorem keeps_handleSummary (root : Json) : Keeps plain seek reset (handleSummary root) := by
  unfold handleSummary
  cases root.str "summary" with
  | none => exact ⟨fun _ ↦ rfl, fun _ _ ↦ rfl, fun _ ↦ rfl⟩
  | some summary =>
    constructor
    · rintro ⟨_ | session, _, _, _, _, _, _, _⟩ <;> rfl
    · rintro n ⟨_ | session, _, _, _, _, _, _, _⟩ <;> rfl
    · rintro ⟨_ | session, _, _, _, _, _, _, _⟩ <;> rfl

/-! ### Lines -/

theorem keeps_handleRecord (root : Json) (timestamp : Option DateTime) :
    Keeps plain seek reset (handleRecord readers root timestamp) := by
  unfold handleRecord
  generalize (root.str "type").getD "" = recordType
  split
  · exact (keeps_handleUser root _).comp (keeps_handleToolResults readers root _)
  · exact keeps_handleAssistant readers root _
  · exact keeps_handleTitle root
  · exact keeps_handleSummary root
  · exact ⟨fun _ ↦ rfl, fun _ _ ↦ rfl, fun _ ↦ rfl⟩

theorem keeps_applyRecord (root : Json) : Keeps plain seek reset (applyRecord readers root) :=
  (keeps_handleRecord readers root _).comp (keeps_prepare readers root)

/-- `apply_line_without_refresh`, `claude_parser.rs:141–203`. -/
def applyLineWithoutRefresh (line : TranscriptLine) (parser : ClaudeSessionParser) :
    Option ClaudeSessionParser :=
  (readers.fromStr line.text).bind fun root ↦ some (applyRecord readers root parser)

/-- The Claude Code parser as a line parser. -/
def lineParser : LineParser ClaudeSessionParser where
  offset := byteOffset
  seek
  apply := applyLineWithoutRefresh readers
  refresh parser := { parser with session := parser.session.map (refreshSession readers) }
  reset
  Dated _ := True
  plain
  offset_seek _ _ := rfl
  seek_offset _ := rfl
  seek_seek _ _ _ := rfl
  seek_refresh _ _ := rfl
  seek_plain _ _ := rfl
  apply_now _ _ _ _ _ := rfl
  keeps _ := MayKeep.bind _ fun root ↦ (keeps_applyRecord readers root).some
  refresh_plain parser := by
    obtain ⟨_ | session, _, _, _, _, _, _, _⟩ := parser
    · rfl
    · unfold plain
      simp only [Option.map_some, refreshSession_plainSession]
  plain_refresh parser := by
    obtain ⟨_ | session, _, _, _, _, _, _, _⟩ := parser
    · rfl
    · unfold plain
      simp only [Option.map_some, plainSession_refreshSession]
  offset_reset _ := rfl
  reset_seek _ _ := rfl
  reset_refresh _ := rfl
  reset_reset _ := rfl

end ClaudeSessionParser

namespace GeminiSessionParser

/-- The parser without the derived figures of its session. -/
def plain (parser : GeminiSessionParser) : GeminiSessionParser :=
  { parser with session := parser.session.map plainSession }

/-- The parser at an offset. -/
def seek (offset : Nat) (parser : GeminiSessionParser) : GeminiSessionParser :=
  { parser with byteOffset := offset }

/-- `reset_for_replaced_file`, `gemini_parser.rs:120–126`. -/
def reset (parser : GeminiSessionParser) : GeminiSessionParser :=
  { parser with
    session := none
    byteOffset := 0
    seenMessageIds := ∅
    seenToolIds := ∅
    currentTurnId := none }

/-! ### Handlers -/

theorem keeps_handleUser (root : Json) (timestamp : Option DateTime) :
    Keeps plain seek reset (handleUser root timestamp) := by
  unfold handleUser
  cases userMessageText root with
  | none => exact ⟨fun _ ↦ rfl, fun _ _ ↦ rfl, fun _ ↦ rfl⟩
  | some prompt =>
    constructor
    · rintro ⟨_ | session, _, _, _, _, _⟩
      · rfl
      · unfold plain
        simp only [Option.map_some, plain_openPrompt]
        split_ifs <;> rfl
    · rintro n ⟨_ | session, _, _, _, _, _⟩
      · rfl
      · simp only [seek]
        split_ifs <;> rfl
    · rintro ⟨_ | session, _, _, _, _, _⟩
      · rfl
      · simp only
        split_ifs <;> rfl

theorem plain_applyUsage (root : Json) (timestamp : Option DateTime) (firstOccurrence : Bool)
    (currentTurnId : Option String) (session : Session) :
    applyUsage root timestamp firstOccurrence currentTurnId (plainSession session) =
      plainSession (applyUsage root timestamp firstOccurrence currentTurnId session) := by
  unfold applyUsage
  split_ifs
  · cases usageToTotals root with
    | none => rfl
    | some delta =>
      cases timestamp with
      | none => rfl
      | some instant => exact plain_countUsage _ _ _ _ _ session
  · rfl

theorem keeps_handleGemini (root : Json) (timestamp : Option DateTime) :
    Keeps plain seek reset (handleGemini readers root timestamp) := by
  constructor
  · rintro ⟨_ | session, _, _, _, _, turnId⟩
    · rfl
    · unfold handleGemini plain
      simp only [Option.map_some, ← plain_answer, ← plain_applyUsage]
      cases timestamp <;> rfl
  · rintro n ⟨_ | session, _, _, _, _, _⟩ <;> rfl
  · rintro ⟨_ | session, _, _, _, _, _⟩ <;> rfl

theorem keeps_prepare (root : Json) : Keeps plain seek reset (prepare readers root) := by
  unfold prepare
  cases recordTimestamp readers root with
  | none => exact ⟨fun _ ↦ rfl, fun _ _ ↦ rfl, fun _ ↦ rfl⟩
  | some instant =>
    refine ⟨fun parser ↦ ?_, fun _ _ ↦ rfl, fun _ ↦ rfl⟩
    obtain ⟨_ | session, _, _, _, _, _⟩ := parser
    · rfl
    · unfold plain
      simp only [Option.map_some, plain_advance]

theorem keeps_handleRecord (root : Json) (recordType : String) (timestamp : Option DateTime) :
    Keeps plain seek reset (handleRecord readers root recordType timestamp) := by
  unfold handleRecord
  split
  · exact keeps_handleUser root _
  · exact keeps_handleGemini readers root _
  · exact ⟨fun _ ↦ rfl, fun _ _ ↦ rfl, fun _ ↦ rfl⟩

theorem keeps_applyMessage (root : Json) (recordType : String) :
    Keeps plain seek reset (applyMessage readers root recordType) :=
  (keeps_handleRecord readers root recordType _).comp (keeps_prepare readers root)

theorem keeps_ensureSession (header : Json) :
    Keeps plain seek reset (ensureSession readers header) := by
  unfold ensureSession
  cases header.str "sessionId" with
  | none => exact ⟨fun _ ↦ rfl, fun _ _ ↦ rfl, fun _ ↦ rfl⟩
  | some sessionId =>
    cases (header.str "startTime").bind readers.parseInstant with
    | none => exact ⟨fun _ ↦ rfl, fun _ _ ↦ rfl, fun _ ↦ rfl⟩
    | some startedAt =>
      simp only
      split_ifs
      · exact ⟨fun _ ↦ rfl, fun _ _ ↦ rfl, fun _ ↦ rfl⟩
      · exact ⟨fun _ ↦ rfl, fun _ _ ↦ rfl, fun _ ↦ rfl⟩

/-! ### Lines -/

variable {readers} in
theorem applyRecord_header {parser : GeminiSessionParser} (h : parser.session = none)
    (root : Json) :
    applyRecord readers root parser =
      if (root.str "type").isNone && (root.str "sessionId").isSome &&
        (root.get "startTime").isSome then ensureSession readers root parser else parser := by
  unfold applyRecord
  rw [h]
  rfl

variable {readers} in
theorem applyRecord_message {parser : GeminiSessionParser} (h : parser.session ≠ none)
    (root : Json) :
    applyRecord readers root parser =
      (root.str "type").elim parser fun recordType ↦
        applyMessage readers root recordType parser := by
  unfold applyRecord
  rw [if_neg fun hnone ↦ h (Option.isNone_iff_eq_none.mp hnone)]
  cases root.str "type" <;> rfl

theorem keeps_applyRecord (root : Json) : Keeps plain seek reset (applyRecord readers root) := by
  have hheader : Keeps plain seek reset fun parser ↦
      if (root.str "type").isNone && (root.str "sessionId").isSome &&
        (root.get "startTime").isSome then ensureSession readers root parser else parser := by
    split
    · exact keeps_ensureSession readers root
    · exact ⟨fun _ ↦ rfl, fun _ _ ↦ rfl, fun _ ↦ rfl⟩
  have hmessage : Keeps plain seek reset fun parser ↦
      (root.str "type").elim parser fun recordType ↦
        applyMessage readers root recordType parser := by
    cases root.str "type" with
    | none => exact ⟨fun _ ↦ rfl, fun _ _ ↦ rfl, fun _ ↦ rfl⟩
    | some recordType => exact keeps_applyMessage readers root recordType
  constructor
  · rintro ⟨_ | session, offset, path, messages, tools, turn⟩
    · rw [applyRecord_header rfl, applyRecord_header rfl]
      exact hheader.plain _
    · rw [applyRecord_message (Option.some_ne_none _), applyRecord_message (Option.some_ne_none _)]
      exact hmessage.plain _
  · rintro n ⟨_ | session, offset, path, messages, tools, turn⟩
    · rw [applyRecord_header rfl, applyRecord_header rfl]
      exact hheader.seek n _
    · rw [applyRecord_message (Option.some_ne_none _), applyRecord_message (Option.some_ne_none _)]
      exact hmessage.seek n _
  · rintro ⟨_ | session, offset, path, messages, tools, turn⟩
    · rw [applyRecord_header rfl]
      exact hheader.reset _
    · rw [applyRecord_message (Option.some_ne_none _)]
      exact hmessage.reset _

/-- `apply_line`, `gemini_parser.rs:128–170`. -/
def applyLine (line : TranscriptLine) (parser : GeminiSessionParser) : Option GeminiSessionParser :=
  (readers.fromStr line.text).bind fun root ↦ some (applyRecord readers root parser)

/-- The Gemini CLI parser as a line parser. -/
def lineParser : LineParser GeminiSessionParser where
  offset := byteOffset
  seek
  apply := applyLine readers
  refresh parser := { parser with session := parser.session.map (refreshSession readers) }
  reset
  Dated _ := True
  plain
  offset_seek _ _ := rfl
  seek_offset _ := rfl
  seek_seek _ _ _ := rfl
  seek_refresh _ _ := rfl
  seek_plain _ _ := rfl
  apply_now _ _ _ _ _ := rfl
  keeps _ := MayKeep.bind _ fun root ↦ (keeps_applyRecord readers root).some
  refresh_plain parser := by
    obtain ⟨_ | session, _, _, _, _, _⟩ := parser
    · rfl
    · unfold plain
      simp only [Option.map_some, refreshSession_plainSession]
  plain_refresh parser := by
    obtain ⟨_ | session, _, _, _, _, _⟩ := parser
    · rfl
    · unfold plain
      simp only [Option.map_some, plainSession_refreshSession]
  offset_reset _ := rfl
  reset_seek _ _ := rfl
  reset_refresh _ := rfl
  reset_reset _ := rfl

end GeminiSessionParser

/-- `parse_to_end` of Claude Code and of Gemini CLI, called while a transcript grows, at any byte,
or is replaced by one which is shorter than what was read, leaves the parser as one call on the last
content leaves a new one. -/
theorem parseToEnd_promptedCalls (calls : List ((Nat → DateTime) × List UInt8))
    (hchain : List.IsChain LineParser.Follows (calls.map Prod.snd))
    {content : List UInt8} (hlast : (calls.map Prod.snd).getLast? = some content)
    (clock : Nat → DateTime) :
    (∀ path : TranscriptPath,
      calls.foldl (fun parser call ↦
          ((ClaudeSessionParser.lineParser readers).parseToEnd call.1 call.2 parser).1)
            (.new path) =
        ((ClaudeSessionParser.lineParser readers).parseToEnd clock content (.new path)).1) ∧
    ∀ filePath : String,
      calls.foldl (fun parser call ↦
          ((GeminiSessionParser.lineParser readers).parseToEnd call.1 call.2 parser).1)
          (.new filePath) =
        ((GeminiSessionParser.lineParser readers).parseToEnd clock content (.new filePath)).1 := by
  constructor
  · intro path
    exact LineParser.parseToEnd_incremental (P := ClaudeSessionParser.lineParser readers) rfl calls
      hchain (fun _ _ _ _ ↦ trivial) hlast clock
  · intro filePath
    exact LineParser.parseToEnd_incremental (P := GeminiSessionParser.lineParser readers) rfl calls
      hchain (fun _ _ _ _ ↦ trivial) hlast clock

open ClaudeSessionParser in
theorem parseToEnd_promptedCalls_grownFiles :
    (∀ path : TranscriptPath,
      ((LineParser.grownFiles promptLine.text promptLine.text 8).map fun file ↦
            ((fun _ ↦ DateTime.epoch : Nat → DateTime), file)).foldl
          (fun parser call ↦ ((lineParser promptReaders).parseToEnd call.1 call.2 parser).1)
          (.new path) =
        ((lineParser promptReaders).parseToEnd (fun _ ↦ .epoch)
          (LineParser.fileOf [promptLine.text] []) (.new path)).1) ∧
    ∀ filePath : String,
      ((LineParser.grownFiles promptLine.text promptLine.text 8).map fun file ↦
            ((fun _ ↦ DateTime.epoch : Nat → DateTime), file)).foldl
          (fun parser call ↦
            ((GeminiSessionParser.lineParser promptReaders).parseToEnd call.1 call.2 parser).1)
          (.new filePath) =
        ((GeminiSessionParser.lineParser promptReaders).parseToEnd (fun _ ↦ .epoch)
          (LineParser.fileOf [promptLine.text] []) (.new filePath)).1 := by
  have hline : 10 ∉ Text.utf8 promptLine.text := by decide +kernel
  refine parseToEnd_promptedCalls promptReaders _ ?_ rfl _
  rw [List.map_map]
  exact (List.map_id _).symm ▸ LineParser.isChain_grownFiles 8 hline hline

end AgentOdometer.Parser
