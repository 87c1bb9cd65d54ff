import AgentOdometer.Lib.Along
import AgentOdometer.Model.TokenOrder
import AgentOdometer.Parser.Codex
import AgentOdometer.Parser.Usage

/-!
# Usage in a Codex transcript

The running total, the buckets by model and the history are written by `handle_token_count` alone
(`parser.rs:687–767`). What one token event does to the three is stated on them; every other step
of the parser leaves them as they are.
-/

namespace AgentOdometer.Parser

open Std (ExtTreeMap)
open GroupBy

namespace Usage

/-- One token event, with the total and the usage which it carries. -/
def record (usage : Usage) (model : Option String) (total last : Option TokenTotals) : Usage :=
  let contributed := SessionParser.contribute model (total.getD usage.total) (last.getD 0)
    usage.buckets
  { total := total.getD usage.total
    buckets := contributed.1
    deltas := usage.deltas ++ (total.map fun _ ↦ (model, contributed.2)).toList }

end Usage

namespace SessionParser

variable (readers : Readers)

/-- The accumulators of the session, before there is one those of an empty session. -/
def usage (parser : SessionParser) : Usage :=
  (parser.session.map Usage.ofSession).getD .empty

/-- The payload of a text which reaches `handle_token_count`. -/
def tokenCountOf (text : String) : Option Json :=
  match fastSkipTimestamp text with
  | some _ => none
  | none => (readers.fromStr text).bind fun root ↦
      let payload := (root.get "payload").getD .null
      if (root.str "type").getD "" = "event_msg" ∧
          (payload.str "type").getD "" = "token_count" then some payload
      else none

/-- The payload of a step which reaches `handle_token_count`. -/
def tokenCount : Step → Option Json
  | .refresh => none
  | .line line => tokenCountOf readers line.text

variable {readers} {parser : SessionParser}

/-! ### Steps which do not count -/

/-- A change of the session which leaves the accumulators leaves those of the parser. -/
theorem usage_map {f : Session → Session} {next : SessionParser}
    (hnext : next.session = parser.session.map f)
    (hf : ∀ session, Usage.ofSession (f session) = Usage.ofSession session) :
    next.usage = parser.usage := by
  unfold usage
  rw [hnext, Option.map_map]
  congr 2
  exact funext hf

theorem usage_advance (instant : DateTime) :
    usage { parser with session := parser.session.map (advance instant) } = parser.usage := by
  apply usage_map (f := advance instant) rfl
  intro session
  unfold advance
  split <;> rfl

theorem usage_handleResponseItem (payload : Json) (timestamp : DateTime) :
    (handleResponseItem readers payload timestamp parser).usage = parser.usage := by
  unfold handleResponseItem
  dsimp only
  split
  · split
    · rfl
    · exact usage_map rfl fun _ ↦ rfl
  · split
    · exact usage_map rfl fun _ ↦ rfl
    · rfl

theorem usage_handleSessionMeta {payload : Json} {lastEventAt : DateTime} {next : SessionParser}
    (hnext : handleSessionMeta readers payload lastEventAt parser = some next) :
    next.usage = parser.usage := by
  unfold handleSessionMeta at hnext
  split at hnext
  next session hsession =>
    cases hnext
    apply usage_map (f := refreshMeta payload lastEventAt)
    · rw [hsession]
      rfl
    · intro session
      unfold refreshMeta advance
      split <;> rfl
  next hsession =>
    cases hstart : timestampField readers payload "timestamp" with
    | none =>
      rw [hstart] at hnext
      cases hnext
    | some startedAt =>
      rw [hstart] at hnext
      cases hnext
      unfold usage
      rw [hsession]
      rfl

theorem usage_handleTurnContext (payload : Json) :
    (handleTurnContext payload parser).usage = parser.usage :=
  usage_map rfl fun _ ↦ rfl

theorem usage_handleThreadSettings (payload : Json) :
    (handleThreadSettings payload parser).usage = parser.usage := by
  unfold handleThreadSettings
  split
  · rfl
  · exact usage_map rfl fun _ ↦ rfl

/-- Only a token count changes the accumulators. -/
theorem usage_handleEventMsg {payload : Json} (eventTs : DateTime)
    (hkind : (payload.str "type").getD "" ≠ "token_count") :
    (handleEventMsg readers payload eventTs parser).usage = parser.usage := by
  unfold handleEventMsg
  split
  · exact usage_map rfl fun _ ↦ rfl
  · exact usage_map rfl fun _ ↦ rfl
  next hcount => exact absurd hcount hkind
  · exact usage_handleThreadSettings payload
  · exact usage_map rfl fun _ ↦ rfl
  · exact usage_map rfl fun _ ↦ rfl
  · exact usage_map rfl fun _ ↦ rfl
  · exact usage_map rfl fun _ ↦ rfl
  · rfl

/-! ### A token count -/

/-- The accumulators after a token event on a session. -/
theorem usage_applyUsage (payload : Json) (eventTs : DateTime)
    (model serviceTier turnId : Option String) (session : Session) :
    Usage.ofSession (applyUsage payload eventTs model serviceTier turnId session) =
      (Usage.ofSession session).record model (totalUsage payload) (lastUsage payload) := by
  unfold applyUsage Usage.record Usage.ofSession
  cases totalUsage payload with
  | none => simp
  | some total => simp

theorem usage_applyRateLimits (rateLimits : Json) (eventTs : DateTime) (turnId : Option String)
    (session : Session) :
    Usage.ofSession (applyRateLimits readers rateLimits eventTs turnId session) =
      Usage.ofSession session := by
  have haccount : Usage.ofSession (applyAccount rateLimits session) = Usage.ofSession session := by
    unfold applyAccount
    dsimp only
    split <;> rfl
  rw [← haccount]
  unfold applyRateLimits
  dsimp only
  split <;> rfl

theorem handleEventMsg_tokenCount {payload : Json} (eventTs : DateTime)
    (hkind : (payload.str "type").getD "" = "token_count") :
    handleEventMsg readers payload eventTs parser =
      handleTokenCount readers payload eventTs parser := by
  unfold handleEventMsg
  rw [hkind]
  simp

/-- A token count on a session is one event of its accumulators. -/
theorem usage_handleTokenCount (payload : Json) (eventTs : DateTime) :
    (handleTokenCount readers payload eventTs parser).usage =
      if parser.session.isSome then
        parser.usage.record parser.currentModel (totalUsage payload) (lastUsage payload)
      else parser.usage := by
  unfold handleTokenCount usage
  cases parser.session with
  | none => rfl
  | some session =>
    simp only [Option.map_some, Option.getD_some, Option.isSome_some, if_true]
    rw [← usage_applyUsage payload eventTs parser.currentModel parser.currentServiceTier
      parser.currentTurnId]
    split
    · rfl
    · exact usage_applyRateLimits _ _ _ _

/-- What a step does to the accumulators: one event of them when the line is a token count on a
session, else nothing. -/
theorem usage_step (parser : SessionParser) (step : Step) :
    (parser.step readers step).usage = match tokenCount readers step with
      | none => parser.usage
      | some payload =>
          if parser.session.isSome then
            parser.usage.record parser.currentModel (totalUsage payload) (lastUsage payload)
          else parser.usage := by
  cases step with
  | refresh => exact usage_map rfl fun _ ↦ rfl
  | line line =>
    show ((applyLineWithoutRefresh readers line parser).getD parser).usage =
      match tokenCountOf readers line.text with
      | none => parser.usage
      | some payload => if parser.session.isSome then
          parser.usage.record parser.currentModel (totalUsage payload) (lastUsage payload)
        else parser.usage
    unfold applyLineWithoutRefresh tokenCountOf
    cases fastSkipTimestamp line.text with
    | some ts => exact usage_advance _
    | none =>
      dsimp only
      cases readers.fromStr line.text with
      | none => rfl
      | some root =>
        rw [Option.bind_some, Option.bind_some]
        unfold applyRecord handleRecord
        dsimp only
        split
        next htype =>
          rw [htype, if_neg (fun h ↦ absurd h.1 (by decide))]
          exact (usage_handleResponseItem _ _).trans (usage_advance _)
        next htype =>
          rw [htype, if_neg (fun h ↦ absurd h.1 (by decide))]
          cases hmeta : handleSessionMeta readers ((root.get "payload").getD .null)
              ((readers.parseInstant ((root.str "timestamp").getD "")).getD line.now) _ with
          | none => rfl
          | some next => exact (usage_handleSessionMeta hmeta).trans (usage_advance _)
        next htype =>
          rw [htype, if_neg (fun h ↦ absurd h.1 (by decide))]
          exact (usage_handleTurnContext _).trans (usage_advance _)
        next htype =>
          rw [Option.getD_some]
          by_cases hkind : (((root.get "payload").getD .null).str "type").getD "" = "token_count"
          · rw [if_pos ⟨htype, hkind⟩, handleEventMsg_tokenCount _ hkind,
              usage_handleTokenCount, usage_advance, Option.isSome_map]
          · rw [if_neg fun h ↦ hkind h.2]
            exact (usage_handleEventMsg _ hkind).trans (usage_advance _)
        next hother =>
          rw [if_neg fun h ↦ hother h.1]
          exact usage_advance _

/-! ### Lines of a short transcript -/

/-- A line of the given record type and payload, all of one instant. -/
def lineOf (kind payload : String) : TranscriptLine where
  text := "\x7b\"timestamp\":\"1970-01-01T00:00:00Z\",\"type\":\"" ++ kind ++
    "\",\"payload\":" ++ payload ++ "\x7d"
  now := .epoch

/-- What a JSON reader makes of such a line. -/
def rootOf (kind : String) (payload : Json) : Json :=
  .object [("payload", payload), ("timestamp", .string "1970-01-01T00:00:00Z"),
    ("type", .string kind)]

/-- The header of the session. -/
def metaLine : TranscriptLine :=
  lineOf "session_meta" "\x7b\"id\":\"s\",\"timestamp\":\"1970-01-01T00:00:00Z\"\x7d"

/-- A model becomes known. -/
def contextLine : TranscriptLine :=
  lineOf "turn_context" "\x7b\"model\":\"gpt-5\"\x7d"

/-- A token count without `info`, for its rate limits. -/
def limitsLine : TranscriptLine :=
  lineOf "event_msg" "\x7b\"type\":\"token_count\",\"info\":null,\"rate_limits\":null\x7d"

/-- A token count of ten tokens, the first of the session. -/
def usageLine : TranscriptLine :=
  lineOf "event_msg" ("\x7b\"type\":\"token_count\",\"info\":\x7b" ++
    "\"total_token_usage\":\x7b\"total_tokens\":10\x7d," ++
    "\"last_token_usage\":\x7b\"total_tokens\":10\x7d\x7d\x7d")

/-- A token count of five more tokens. -/
def laterUsageLine : TranscriptLine :=
  lineOf "event_msg" ("\x7b\"type\":\"token_count\",\"info\":\x7b" ++
    "\"total_token_usage\":\x7b\"total_tokens\":15\x7d," ++
    "\"last_token_usage\":\x7b\"total_tokens\":5\x7d\x7d\x7d")

/-- The counters of a token count as the JSON reader gives them. -/
def tokenPayload (total last : UInt64) : Json :=
  .object [("info", .object [
      ("last_token_usage", .object [("total_tokens", .number (.posInt last))]),
      ("total_token_usage", .object [("total_tokens", .number (.posInt total))])]),
    ("type", .string "token_count")]

/-- The texts of the lines above with their values. -/
def shortTexts : List (String × Json) :=
  [(metaLine.text, rootOf "session_meta" (.object [("id", .string "s"),
      ("timestamp", .string "1970-01-01T00:00:00Z")])),
    (contextLine.text, rootOf "turn_context" (.object [("model", .string "gpt-5")])),
    (limitsLine.text, rootOf "event_msg" (.object [("info", .null), ("rate_limits", .null),
      ("type", .string "token_count")])),
    (usageLine.text, rootOf "event_msg" (tokenPayload 10 10)),
    (laterUsageLine.text, rootOf "event_msg" (tokenPayload 15 5))]

/-- Readers which know the lines above and their instant; there are no tool calls in them. -/
def shortReaders : Readers where
  fromStr text := shortTexts.lookup text
  parseInstant text := if text = "1970-01-01T00:00:00Z" then some .epoch else none
  jsonLength _ := 0
  traits _ _ := ⟨.other, [], [], none, none, .unknown, none, none⟩
  classifyTurn _ _ := ⟨1, .other, 0, []⟩
  findings _ := []
  categoryTotals _ := ∅

/-! ### Lines which are read -/

theorem afterPattern_append (pattern : String) (rest : List Char) :
    afterPattern pattern (pattern.toList ++ rest) = some rest := by
  unfold afterPattern
  rw [if_pos (List.isPrefixOf_iff_prefix.mpr (List.prefix_append _ _)), ← String.length_toList,
    List.drop_left]

theorem splitAtQuote_append {text : List Char} (hquote : '"' ∉ text) (rest : List Char) :
    splitAtQuote (text ++ '"' :: rest) = some (text, rest) := by
  have hall : ∀ c ∈ text, (c != '"') = true := fun c hc ↦
    bne_iff_ne.mpr fun heq ↦ hquote (heq ▸ hc)
  unfold splitAtQuote
  rw [List.dropWhile_append_of_pos hall, List.takeWhile_append_of_pos hall]
  simp

theorem fastSkipTimestamp_lineOf {kind payload : String} (hquote : '"' ∉ kind.toList)
    (hitem : kind ≠ "response_item") (hcompacted : kind ≠ "compacted") :
    fastSkipTimestamp (lineOf kind payload).text = none := by
  have hkind : ¬ (kind.toList = "response_item".toList ∨ kind.toList = "compacted".toList) := by
    rw [String.toList_inj, String.toList_inj]
    exact not_or.mpr ⟨hitem, hcompacted⟩
  have hopen : "\x7b\"timestamp\":\"1970-01-01T00:00:00Z\",\"type\":\"" =
      "\x7b\"timestamp\":\"" ++ ("1970-01-01T00:00:00Z" ++ ("\"" ++ ",\"type\":\"")) := by
    decide +kernel
  have hclose : "\",\"payload\":" = "\"" ++ ",\"payload\":" := by decide +kernel
  have hquoted : ∀ rest, "\"".toList ++ rest = '"' :: rest := fun _ ↦ by
    rw [show "\"".toList = ['"'] by decide +kernel, List.singleton_append]
  have htext : (lineOf kind payload).text.toList = "\x7b\"timestamp\":\"".toList ++
      ("1970-01-01T00:00:00Z".toList ++ '"' :: (",\"type\":\"".toList ++ (kind.toList ++ '"' ::
        (",\"payload\":".toList ++ (payload.toList ++ "\x7d".toList))))) := by
    unfold lineOf
    rw [hopen, hclose]
    simp only [String.toList_append, List.append_assoc, hquoted, List.cons_append]
  unfold fastSkipTimestamp
  rw [ite_eq_left_iff]
  intro _
  rw [htext, afterPattern_append, Option.bind_eq_bind, Option.bind_some,
    splitAtQuote_append (by decide +kernel), Option.bind_eq_bind, Option.bind_some]
  show (if _ then none else (afterPattern _ _).bind _) = none
  rw [ite_eq_left_iff]
  intro _
  rw [afterPattern_append, Option.bind_some, splitAtQuote_append hquote, Option.bind_some]
  exact if_neg hkind

/-- A line which the parser reads as a record. -/
structure Reads (readers : Readers) (line : TranscriptLine) (root : Json) : Prop where
  fast : fastSkipTimestamp line.text = none
  value : readers.fromStr line.text = some root

variable {line : TranscriptLine} {root : Json}

theorem Reads.step_eq (h : Reads readers line root) (parser : SessionParser) :
    step readers parser (.line line) = (applyRecord readers root line.now parser).getD parser := by
  show (applyLineWithoutRefresh _ _ _).getD _ = _
  unfold applyLineWithoutRefresh
  rw [h.fast, h.value]
  rfl

theorem Reads.tokenCount_eq (h : Reads readers line root) :
    tokenCount readers (.line line) =
      if (root.str "type").getD "" = "event_msg" ∧
          (((root.get "payload").getD .null).str "type").getD "" = "token_count" then
        some ((root.get "payload").getD .null)
      else none := by
  show tokenCountOf _ _ = _
  unfold tokenCountOf
  rw [h.fast, h.value]
  rfl

theorem shortReaders_fromStr (text : String) : shortReaders.fromStr text = shortTexts.lookup text :=
  rfl

theorem lookup_skip {text key : String} {value : Json} {texts : List (String × Json)}
    (hne : (text == key) = false) : ((key, value) :: texts).lookup text = texts.lookup text := by
  rw [List.lookup_cons, hne]

theorem reads_metaLine : Reads shortReaders metaLine
    (rootOf "session_meta" (.object [("id", .string "s"),
      ("timestamp", .string "1970-01-01T00:00:00Z")])) where
  fast := fastSkipTimestamp_lineOf (by decide +kernel) (by decide +kernel) (by decide +kernel)
  value := by
    rw [shortReaders_fromStr, shortTexts, List.lookup_cons_self]

theorem reads_contextLine : Reads shortReaders contextLine
    (rootOf "turn_context" (.object [("model", .string "gpt-5")])) where
  fast := fastSkipTimestamp_lineOf (by decide +kernel) (by decide +kernel) (by decide +kernel)
  value := by
    rw [shortReaders_fromStr, shortTexts, lookup_skip (by decide +kernel), List.lookup_cons_self]

theorem reads_limitsLine : Reads shortReaders limitsLine
    (rootOf "event_msg" (.object [("info", .null), ("rate_limits", .null),
      ("type", .string "token_count")])) where
  fast := fastSkipTimestamp_lineOf (by decide +kernel) (by decide +kernel) (by decide +kernel)
  value := by
    rw [shortReaders_fromStr, shortTexts, lookup_skip (by decide +kernel),
      lookup_skip (by decide +kernel), List.lookup_cons_self]

theorem reads_usageLine : Reads shortReaders usageLine
    (rootOf "event_msg" (tokenPayload 10 10)) where
  fast := fastSkipTimestamp_lineOf (by decide +kernel) (by decide +kernel) (by decide +kernel)
  value := by
    rw [shortReaders_fromStr, shortTexts, lookup_skip (by decide +kernel),
      lookup_skip (by decide +kernel), lookup_skip (by decide +kernel), List.lookup_cons_self]

theorem reads_laterUsageLine : Reads shortReaders laterUsageLine
    (rootOf "event_msg" (tokenPayload 15 5)) where
  fast := fastSkipTimestamp_lineOf (by decide +kernel) (by decide +kernel) (by decide +kernel)
  value := by
    rw [shortReaders_fromStr, shortTexts, lookup_skip (by decide +kernel),
      lookup_skip (by decide +kernel), lookup_skip (by decide +kernel),
      lookup_skip (by decide +kernel), List.lookup_cons_self]

end SessionParser

end AgentOdometer.Parser
