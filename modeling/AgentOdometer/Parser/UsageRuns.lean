import AgentOdometer.Parser.Claude
import AgentOdometer.Parser.Gemini
import AgentOdometer.Parser.UsageOnce

/-!
# Runs which count every message once

The usage of a run of `ClaudeSessionParser` and of `GeminiSessionParser` is the usage of its
messages exactly when every message which used anything has an instant, and none of its records
came before the session was known.
-/

namespace AgentOdometer.Parser

open Std (ExtTreeMap ExtTreeSet)

/-- The accumulators of the session, when there is one. -/
def usageOf (session : Option Session) : Usage :=
  (session.map Usage.ofSession).getD .empty

/-- Changes of other fields do not touch the accumulators. -/
theorem usageOf_map {f : Session → Session}
    (hf : ∀ session, Usage.ofSession (f session) = Usage.ofSession session)
    (session : Option Session) : usageOf (session.map f) = usageOf session := by
  cases session with
  | none => rfl
  | some session => exact hf session

theorem ofSession_advance (instant : DateTime) (session : Session) :
    Usage.ofSession (advance instant session) = Usage.ofSession session := by
  unfold advance
  split <;> rfl

theorem ofSession_answer (model serviceTier : Option String) (timestamp : Option DateTime)
    (lastAgentMessage turnId : Option String) (session : Session) :
    Usage.ofSession (answer model serviceTier timestamp lastAgentMessage turnId session) =
      Usage.ofSession session := by
  cases turnId <;> rfl

/-- A message is counted in every accumulator of the session. -/
theorem ofSession_countUsage (message : Message) (serviceTier : Option String)
    {timestamp : Option DateTime} (hdated : message.dated = timestamp.isSome)
    (turnId : Option String) (session : Session) :
    Usage.ofSession
        (countUsage message.usage message.model serviceTier timestamp turnId session) =
      (Usage.ofSession session).count message := by
  unfold Usage.count countUsage Usage.ofSession
  rw [hdated]
  cases timestamp with
  | none => rfl
  | some timestamp => cases message.model <;> simp

variable (readers : Readers)

/-! ### Claude Code -/

namespace ClaudeSessionParser

/-- What the parser keeps for its accounting. -/
def account (parser : ClaudeSessionParser) : Account where
  known := parser.session.isSome
  seen := parser.seenMessageIds
  usage := usageOf parser.session

/-- A record of a message of the agent with an id, unless it is synthetic. -/
def messageRecord (root : Json) (parser : ClaudeSessionParser) : Option Message :=
  if (root.str "type").getD "" = "assistant" then do
    let message ← messageOf root
    let id := (message.str "id").getD ""
    if id = "" then none
    else some {
      id
      usage := ((message.get "usage").map usageToTotals).getD 0
      model := message.str "model"
      dated := (recordTimestamp readers root).isSome
      known := (prepare readers root parser).session.isSome }
  else none

/-- The message of a step. -/
def message (parser : ClaudeSessionParser) : Step → Option Message
  | .line line => (readers.fromStr line.text).bind (messageRecord readers · parser)
  | .refresh => none

theorem totalsAnyPositive_iff {totals : TokenTotals} :
    totalsAnyPositive totals = true ↔ totals ≠ 0 := by
  constructor
  · rintro h rfl
    exact absurd h (by decide)
  · intro h
    by_contra hzero
    simp only [totalsAnyPositive, Bool.or_eq_true, decide_eq_true_eq, not_or, Nat.not_lt,
      Nat.le_zero] at hzero
    obtain ⟨⟨⟨⟨⟨hinput, hcached⟩, hcreation⟩, houtput⟩, hreasoning⟩, htotal⟩ := hzero
    exact h (TokenTotals.ext hinput hcached hcreation houtput hreasoning htotal)

/-- Prompts, tool results and titles do not touch the account. -/
theorem account_handleUser (root : Json) (timestamp : Option DateTime)
    (parser : ClaudeSessionParser) :
    account (handleUser root timestamp parser) = account parser := by
  unfold handleUser
  split
  next hsession =>
    dsimp only
    split
    · rfl
    · unfold account
      rw [hsession]
      rfl
  · rfl

theorem account_handleToolResults (root : Json) (timestamp : Option DateTime)
    (parser : ClaudeSessionParser) :
    account (handleToolResults readers root timestamp parser) = account parser := by
  unfold handleToolResults
  split
  · rfl
  · unfold account
    cases parser.session <;> rfl

theorem account_handleTitle (root : Json) (parser : ClaudeSessionParser) :
    account (handleTitle root parser) = account parser := by
  unfold handleTitle
  split
  · rfl
  next hsession =>
    unfold account
    rw [hsession]
    rfl
  · rfl

theorem account_handleSummary (root : Json) (parser : ClaudeSessionParser) :
    account (handleSummary root parser) = account parser := by
  unfold handleSummary
  split
  · rfl
  next hsession =>
    unfold account
    rw [hsession]
    rfl
  · rfl

/-- Before a record is handled nothing has been counted, and a session stays. -/
theorem account_prepare (root : Json) (parser : ClaudeSessionParser) :
    (account (prepare readers root parser)).seen = (account parser).seen ∧
      (account (prepare readers root parser)).usage = (account parser).usage ∧
      ((account (prepare readers root parser)).known = false → (account parser).known = false) := by
  have hensure : ∀ timestamp, (account (ensureSession root timestamp parser)).seen =
      (account parser).seen ∧
      (account (ensureSession root timestamp parser)).usage = (account parser).usage ∧
      ((account (ensureSession root timestamp parser)).known = false →
        (account parser).known = false) := by
    intro timestamp
    unfold account ensureSession
    split
    next hsession =>
      rw [hsession]
      exact ⟨rfl, rfl, id⟩
    · exact ⟨rfl, rfl, id⟩
    next hnone =>
      dsimp only
      split
      · exact ⟨rfl, rfl, id⟩
      · rw [hnone]
        refine ⟨rfl, ?_, fun _ ↦ rfl⟩
        unfold refreshMetadata createSession
        dsimp only
        split <;> rfl
  unfold prepare
  dsimp only
  split
  · exact hensure _
  next instant _ =>
    obtain ⟨hseen, husage, hknown⟩ := hensure (recordTimestamp readers root)
    refine ⟨hseen, (usageOf_map (ofSession_advance instant) _).trans husage, fun h ↦ hknown ?_⟩
    exact (Option.isSome_map).symm.trans h

/-- A message is counted when it is the first record of its id and used anything. -/
theorem ofSession_applyMessage {message : Json} {timestamp : Option DateTime} {record : Message}
    (husage : record.usage = ((message.get "usage").map usageToTotals).getD 0)
    (hmodel : record.model = message.str "model") (hdated : record.dated = timestamp.isSome)
    (firstOccurrence : Bool) (lastAgentMessage turnId : Option String)
    (calls : List (String × String × Json)) (session : Session) :
    Usage.ofSession (applyMessage readers message timestamp firstOccurrence lastAgentMessage turnId
        calls session) =
      if firstOccurrence = true ∧ record.usage ≠ 0 then (Usage.ofSession session).count record
      else Usage.ofSession session := by
  unfold applyMessage
  dsimp only
  rw [ofSession_answer]
  cases firstOccurrence with
  | false => rfl
  | true =>
    cases hget : message.get "usage" with
    | none =>
      rw [hget] at husage
      rw [if_neg fun h ↦ h.2 husage]
      rfl
    | some usage =>
      rw [hget] at husage
      simp only [Option.map_some, Option.getD_some] at husage ⊢
      rw [← husage]
      by_cases hzero : record.usage = 0
      · rw [if_neg fun h ↦ totalsAnyPositive_iff.mp h hzero, if_neg fun h ↦ h.2 hzero]
        rfl
      · rw [if_pos (totalsAnyPositive_iff.mpr hzero), if_pos ⟨trivial, hzero⟩, ← hmodel,
          ofSession_countUsage record _ hdated]
        rfl

/-- The account after a message. -/
theorem account_handleAssistant {root message : Json} {timestamp : Option DateTime}
    (hmessage : messageOf root = some message) (record : Message)
    (husage : record.usage = ((message.get "usage").map usageToTotals).getD 0)
    (hmodel : record.model = message.str "model") (hdated : record.dated = timestamp.isSome)
    (hid : record.id = (message.str "id").getD "") (parser : ClaudeSessionParser) :
    account (handleAssistant readers root timestamp parser) = {
      known := parser.session.isSome
      seen := if record.id ≠ "" ∧ record.id ∉ parser.seenMessageIds then
          parser.seenMessageIds.insert record.id
        else parser.seenMessageIds
      usage := if (record.id ≠ "" ∧ record.id ∉ parser.seenMessageIds) ∧
          parser.session.isSome = true ∧ record.usage ≠ 0 then
          (usageOf parser.session).count record
        else usageOf parser.session } := by
  unfold handleAssistant
  rw [hmessage]
  dsimp only
  rw [← hid]
  unfold account
  dsimp only
  have hfirst : (decide (record.id ≠ "") && decide (record.id ∉ parser.seenMessageIds)) = true ↔
      record.id ≠ "" ∧ record.id ∉ parser.seenMessageIds := by
    rw [Bool.and_eq_true, decide_eq_true_eq, decide_eq_true_eq]
  congr 1
  · exact Option.isSome_map
  · simp only [hfirst]
  · cases parser.session with
    | none => exact (if_neg fun h ↦ nomatch h.2.1).symm
    | some session =>
      show Usage.ofSession (applyMessage readers message timestamp _ _ _ _ session) = _
      rw [ofSession_applyMessage readers husage hmodel hdated]
      simp only [hfirst, Option.isSome_some, true_and]
      rfl

/-- A record of a message is remembered, and counted when it is the first one of its id, there is
a session and it used anything; a record without an id is neither. -/
theorem next_handleAssistant {root : Json} {parser : ClaudeSessionParser}
    (htype : (root.str "type").getD "" = "assistant") :
    (account parser).Next false (account (handleAssistant readers root
      (recordTimestamp readers root) (prepare readers root parser)))
      (messageRecord readers root parser) := by
  obtain ⟨hseen, husage, hknown⟩ := account_prepare readers root parser
  rw [messageRecord, if_pos htype]
  cases hmessage : messageOf root with
  | none =>
    unfold handleAssistant
    rw [hmessage]
    exact ⟨hseen, husage, hknown⟩
  | some message =>
    have haccount := account_handleAssistant readers hmessage {
        id := (message.str "id").getD ""
        usage := ((message.get "usage").map usageToTotals).getD 0
        model := message.str "model"
        dated := (recordTimestamp readers root).isSome
        known := (prepare readers root parser).session.isSome } rfl rfl rfl rfl
      (prepare readers root parser)
    rw [haccount]
    dsimp only [Option.bind_eq_bind, Option.bind_some]
    by_cases hid : (message.str "id").getD "" = ""
    · rw [if_pos hid]
      exact ⟨(if_neg fun h ↦ h.1 hid).trans hseen, (if_neg fun h ↦ h.1.1 hid).trans husage, hknown⟩
    · rw [if_neg hid]
      have hseen : (prepare readers root parser).seenMessageIds = parser.seenMessageIds := hseen
      have husage : usageOf (prepare readers root parser).session = usageOf parser.session := husage
      refine ⟨fun id ↦ ?_, rfl, hknown, ?_⟩
      · dsimp only
        rw [hseen]
        exact mem_remembered hid id
      · dsimp only
        rw [hseen, husage]
        refine if_congr ?_ rfl rfl
        simp only [ne_eq, hid, not_false_eq_true, true_and, Bool.false_eq_true, false_implies,
          and_true]
        exact Iff.rfl

/-- A step does to the account what its message does. -/
theorem next_step (parser : ClaudeSessionParser) (s : Step) :
    (account parser).Next false (account (step readers parser s)) (message readers parser s) := by
  have hrefl : ∀ other : ClaudeSessionParser, account other = account parser →
      (account parser).Next false (account other) none := by
    intro other hother
    rw [hother]
    exact ⟨rfl, rfl, id⟩
  cases s with
  | refresh =>
    apply hrefl
    unfold account
    show Account.mk _ _ _ = _
    congr 1
    · exact Option.isSome_map
    · exact usageOf_map (f := refreshSession readers) (fun _ ↦ rfl) _
  | line line =>
    simp only [step, message]
    cases readers.fromStr line.text with
    | none => exact hrefl parser rfl
    | some root =>
      show (account parser).Next false (account (applyRecord readers root parser))
        (messageRecord readers root parser)
      have hprepare := account_prepare readers root parser
      have hother : ∀ other : ClaudeSessionParser,
          account other = account (prepare readers root parser) →
          (account parser).Next false (account other) none := by
        intro other hother
        rw [hother]
        exact hprepare
      unfold applyRecord handleRecord
      split
      next htype =>
        rw [messageRecord, if_neg (by rw [htype]; decide)]
        exact hother _ ((account_handleUser _ _ _).trans (account_handleToolResults _ _ _ _))
      next htype =>
        exact next_handleAssistant readers htype
      next htype =>
        rw [messageRecord, if_neg (by rw [htype]; decide)]
        exact hother _ (account_handleTitle _ _)
      next htype =>
        rw [messageRecord, if_neg (by rw [htype]; decide)]
        exact hother _ (account_handleSummary _ _)
      next htype _ _ =>
        rw [messageRecord, if_neg htype]
        exact hother _ rfl

end ClaudeSessionParser

/-! ### Gemini CLI -/

namespace GeminiSessionParser

/-- What the parser keeps for its accounting. -/
def account (parser : GeminiSessionParser) : Account where
  known := parser.session.isSome
  seen := parser.seenMessageIds
  usage := usageOf parser.session

/-- A record of a message of the agent with an id, once there is a session. -/
def messageRecord (root : Json) (parser : GeminiSessionParser) : Option Message :=
  let id := (root.str "id").getD ""
  if parser.session.isSome ∧ root.str "type" = some "gemini" ∧ id ≠ "" then
    some {
      id
      usage := (usageToTotals root).getD 0
      model := root.str "model"
      dated := (recordTimestamp readers root).isSome
      known := true }
  else none

/-- The message of a step. -/
def message (parser : GeminiSessionParser) : Step → Option Message
  | .line line => (readers.fromStr line.text).bind (messageRecord readers · parser)
  | .refresh => none

theorem tokensAnyPositive_iff {root : Json} :
    tokensAnyPositive root = true ↔ (usageToTotals root).getD 0 ≠ 0 := by
  unfold tokensAnyPositive usageToTotals
  cases root.get "tokens" with
  | none => simp
  | some tokens =>
    simp only [Option.any_some, Bool.or_eq_true, decide_eq_true_eq, Option.map_some,
      Option.getD_some]
    constructor
    · intro h hzero
      obtain ⟨hinput, hcached, -, houtput, hreasoning, -⟩ := TokenTotals.mk.inj hzero
      omega
    · intro h
      by_contra hzero
      simp only [not_or, Nat.not_lt, Nat.le_zero] at hzero
      obtain ⟨⟨⟨hinput, houtput⟩, hcached⟩, hthoughts⟩ := hzero
      apply h
      rw [hinput, houtput, hcached, hthoughts]
      rfl

theorem account_handleUser (root : Json) (timestamp : Option DateTime)
    (parser : GeminiSessionParser) :
    account (handleUser root timestamp parser) = account parser := by
  unfold handleUser
  split
  next hsession =>
    dsimp only
    split
    · rfl
    · unfold account
      rw [hsession]
      rfl
  · rfl

theorem account_prepare (root : Json) (parser : GeminiSessionParser) :
    account (prepare readers root parser) = account parser := by
  unfold prepare
  split
  · rfl
  next instant _ =>
    unfold account
    dsimp only
    rw [Option.isSome_map, usageOf_map (ofSession_advance instant)]

/-- A message is counted when it is the first record of its id, used anything and has an
instant. -/
theorem ofSession_applyUsage {root : Json} {timestamp : Option DateTime} {record : Message}
    (husage : record.usage = (usageToTotals root).getD 0) (hmodel : record.model = root.str "model")
    (hdated : record.dated = timestamp.isSome) (firstOccurrence : Bool) (turnId : Option String)
    (session : Session) :
    Usage.ofSession (applyUsage root timestamp firstOccurrence turnId session) =
      if firstOccurrence = true ∧ record.usage ≠ 0 ∧ record.dated = true then
        (Usage.ofSession session).count record
      else Usage.ofSession session := by
  unfold applyUsage
  by_cases hzero : record.usage = 0
  · rw [if_neg fun h ↦ tokensAnyPositive_iff.mp (Bool.and_eq_true _ _ ▸ h).2 (husage ▸ hzero),
      if_neg fun h ↦ h.2.1 hzero]
  · cases firstOccurrence with
    | false => rfl
    | true =>
      rw [if_pos (by rw [Bool.true_and, tokensAnyPositive_iff, ← husage]; exact hzero)]
      cases htotals : usageToTotals root with
      | none =>
        rw [htotals] at husage
        exact absurd husage hzero
      | some delta =>
        rw [htotals, Option.getD_some] at husage
        cases timestamp with
        | none =>
          rw [if_neg fun h ↦ by rw [hdated] at h; exact nomatch h.2.2]
        | some timestamp =>
          dsimp only
          rw [if_pos ⟨rfl, hzero, hdated⟩, ← husage, ← hmodel,
            ofSession_countUsage record none hdated]

/-- The account after a message. -/
theorem account_handleGemini {root : Json} (timestamp : Option DateTime) (record : Message)
    (husage : record.usage = (usageToTotals root).getD 0) (hmodel : record.model = root.str "model")
    (hdated : record.dated = timestamp.isSome) (hid : record.id = (root.str "id").getD "")
    {parser : GeminiSessionParser} {session : Session} (hsession : parser.session = some session) :
    account (handleGemini readers root timestamp parser) = {
      known := true
      seen := if record.id ≠ "" ∧ record.id ∉ parser.seenMessageIds then
          parser.seenMessageIds.insert record.id
        else parser.seenMessageIds
      usage := if (record.id ≠ "" ∧ record.id ∉ parser.seenMessageIds) ∧ record.usage ≠ 0 ∧
          record.dated = true then (Usage.ofSession session).count record
        else Usage.ofSession session } := by
  unfold handleGemini
  dsimp only
  rw [hsession, ← hid]
  have hfirst : (decide (record.id ≠ "") && decide (record.id ∉ parser.seenMessageIds)) = true ↔
      record.id ≠ "" ∧ record.id ∉ parser.seenMessageIds := by
    rw [Bool.and_eq_true, decide_eq_true_eq, decide_eq_true_eq]
  unfold account
  dsimp only
  congr 1
  · simp only [hfirst]
  · show Usage.ofSession (answer _ _ _ _ _ (applyUsage root timestamp _ _ _)) = _
    rw [ofSession_answer, ofSession_applyUsage husage hmodel hdated]
    simp only [hfirst]
    rfl

/-- A record of a message is remembered, and counted when it is the first one of its id, used
anything and has an instant; a record without an id is neither. -/
theorem next_handleGemini {root : Json} {parser : GeminiSessionParser}
    (htype : root.str "type" = some "gemini") (hsome : parser.session.isSome) :
    (account parser).Next true (account (handleGemini readers root
      (recordTimestamp readers root) (prepare readers root parser)))
      (messageRecord readers root parser) := by
  have hprepare := account_prepare readers root parser
  have hknown : (prepare readers root parser).session.isSome = parser.session.isSome :=
    congrArg Account.known hprepare
  have hseen : (prepare readers root parser).seenMessageIds = parser.seenMessageIds :=
    congrArg Account.seen hprepare
  have husage : usageOf (prepare readers root parser).session = usageOf parser.session :=
    congrArg Account.usage hprepare
  obtain ⟨session, hsession⟩ := Option.isSome_iff_exists.mp (hknown.trans hsome)
  have haccount := account_handleGemini readers (recordTimestamp readers root) {
      id := (root.str "id").getD ""
      usage := (usageToTotals root).getD 0
      model := root.str "model"
      dated := (recordTimestamp readers root).isSome
      known := true } rfl rfl rfl rfl hsession
  have hordinary : Usage.ofSession session = usageOf parser.session := by
    rw [← husage, hsession]
    rfl
  rw [haccount]
  by_cases hid : (root.str "id").getD "" = ""
  · rw [show messageRecord readers root parser = none from if_neg fun h ↦ h.2.2 hid]
    refine ⟨(if_neg fun h ↦ h.1 hid).trans hseen, (if_neg fun h ↦ h.1.1 hid).trans hordinary, ?_⟩
    intro h
    cases h
  · rw [show messageRecord readers root parser = some _ from if_pos ⟨hsome, htype, hid⟩]
    refine ⟨fun id ↦ ?_, rfl, (fun h ↦ by cases h), ?_⟩
    · dsimp only
      rw [hseen]
      exact mem_remembered hid id
    · dsimp only
      rw [hseen, hordinary]
      refine if_congr ?_ rfl rfl
      simp only [ne_eq, hid, not_false_eq_true, true_and, forall_const]
      exact Iff.rfl

/-- A step does to the account what its message does. -/
theorem next_step (parser : GeminiSessionParser) (s : Step) :
    (account parser).Next true (account (step readers parser s)) (message readers parser s) := by
  have hrefl : ∀ other : GeminiSessionParser, account other = account parser →
      (account parser).Next true (account other) none := by
    intro other hother
    rw [hother]
    exact ⟨rfl, rfl, id⟩
  cases s with
  | refresh =>
    apply hrefl
    unfold account
    show Account.mk _ _ _ = _
    congr 1
    · exact Option.isSome_map
    · exact usageOf_map (f := refreshSession readers) (fun _ ↦ rfl) _
  | line line =>
    simp only [step, message]
    cases readers.fromStr line.text with
    | none => exact hrefl parser rfl
    | some root =>
      show (account parser).Next true (account (applyRecord readers root parser))
        (messageRecord readers root parser)
      unfold applyRecord
      split
      next hnone =>
        have hnone := Option.isNone_iff_eq_none.mp hnone
        have hmessage : messageRecord readers root parser = none :=
          if_neg fun h ↦ by rw [hnone] at h; cases h.1
        rw [hmessage]
        split
        · unfold ensureSession account
          split
          · dsimp only
            split
            · exact ⟨rfl, rfl, id⟩
            · rw [hnone]
              exact ⟨rfl, rfl, fun _ ↦ rfl⟩
          · exact ⟨rfl, rfl, id⟩
        · exact hrefl parser rfl
      next hsome =>
        have hsome : parser.session.isSome := by
          simpa [Option.isSome_iff_ne_none] using hsome
        split
        next htype =>
          rw [messageRecord, if_neg (fun h ↦ by rw [htype] at h; cases h.2.1)]
          exact hrefl parser rfl
        next recordType htype =>
          unfold applyMessage handleRecord
          split
          · rw [messageRecord, if_neg (fun h ↦ by rw [htype] at h; exact absurd h.2.1 (by decide))]
            exact hrefl _ ((account_handleUser _ _ _).trans (account_prepare readers root parser))
          · exact next_handleGemini readers htype hsome
          next hother =>
            rw [messageRecord, if_neg]
            · exact hrefl _ (account_prepare readers root parser)
            · rintro ⟨-, hgemini, -⟩
              rw [htype] at hgemini
              exact hother (Option.some.inj hgemini)

end GeminiSessionParser

/-! ### Runs -/

/-- After every sequence of lines the usage of either parser is that of its messages, each counted
once, exactly when every message which used anything has an instant and no record of it came before
the session was known. -/
theorem countedOnce_run (readers : Readers) (path : TranscriptPath) (filePath : String)
    (steps : List Step) :
    (CountedOnce
        (messagesOf (ClaudeSessionParser.step readers) (ClaudeSessionParser.message readers)
          (.new path) steps)
        (usageOf (ClaudeSessionParser.run readers steps (.new path)).session) ↔
      Timely (messagesOf (ClaudeSessionParser.step readers) (ClaudeSessionParser.message readers)
        (.new path) steps)) ∧
    (CountedOnce
        (messagesOf (GeminiSessionParser.step readers) (GeminiSessionParser.message readers)
          (.new filePath) steps)
        (usageOf (GeminiSessionParser.run readers steps (.new filePath)).session) ↔
      Timely (messagesOf (GeminiSessionParser.step readers) (GeminiSessionParser.message readers)
        (.new filePath) steps)) := by
  constructor
  · have hrun := Accounted.run ClaudeSessionParser.account
      (ClaudeSessionParser.next_step readers) (s := .new path) (.empty false) steps
    exact hrun.countedOnce_iff
  · have hrun := Accounted.run GeminiSessionParser.account
      (GeminiSessionParser.next_step readers) (s := .new filePath) (.empty true) steps
    exact hrun.countedOnce_iff

/-! ### A message which comes early -/

namespace ClaudeSessionParser

/-- A record of a message which used five tokens, without an instant. -/
def undatedLine : TranscriptLine where
  text := "\x7b\"type\":\"assistant\",\"sessionId\":\"s\",\"message\":\x7b\"id\":\"m\"," ++
    "\"model\":\"opus\",\"usage\":\x7b\"input_tokens\":5\x7d\x7d\x7d"
  now := .epoch

/-- The same message again, with an instant. -/
def datedLine : TranscriptLine where
  text := "\x7b\"type\":\"assistant\",\"sessionId\":\"s\"," ++
    "\"timestamp\":\"1970-01-01T00:00:00Z\",\"message\":\x7b\"id\":\"m\"," ++
    "\"model\":\"opus\",\"usage\":\x7b\"input_tokens\":5\x7d\x7d\x7d"
  now := .epoch

/-- What a JSON reader makes of such a record. -/
def messageRoot (timestamp : List (String × Json)) : Json :=
  .object ([("message", .object [("id", .string "m"), ("model", .string "opus"),
    ("usage", .object [("input_tokens", .number (.posInt 5))])]), ("sessionId", .string "s")] ++
    timestamp ++ [("type", .string "assistant")])

/-- Readers which know both records. -/
def messageReaders : Readers :=
  { SessionParser.shortReaders with
    fromStr := fun text ↦
      if text = undatedLine.text then some (messageRoot [])
      else if text = datedLine.text then
        some (messageRoot [("timestamp", .string "1970-01-01T00:00:00Z")])
      else none }

/-- The transcript of the session. -/
def messagePath : TranscriptPath where
  text := "projects/p/s.jsonl"
  components := ["projects", "p", "s.jsonl"]
  fileStem := some "s"
  fileStemLossy := some "s"

/-- A message of which a record came before the session was known is not counted after it. -/
theorem not_countedOnce_earlyRun : ¬ CountedOnce
    (messagesOf (step messageReaders) (message messageReaders) (new messagePath)
      [.line undatedLine, .line datedLine])
    (usageOf (run messageReaders [.line undatedLine, .line datedLine]
      (new messagePath)).session) := by
  intro h
  have htotal := congrArg TokenTotals.inputTokens h.total
  have hcounted : (usageOf (run messageReaders [.line undatedLine, .line datedLine]
      (new messagePath)).session).total.inputTokens = 0 := by
    decide +kernel
  have howed : (usedBy (owed (messagesOf (step messageReaders) (message messageReaders)
      (new messagePath) [.line undatedLine, .line datedLine]))).inputTokens = 5 := by
    decide +kernel
  omega

end ClaudeSessionParser

end AgentOdometer.Parser
