import AgentOdometer.Parser.CodexUsage

/-!
# The fast path of the Codex parser

`fast_skip_timestamp` skips a line for its leading text (`parser.rs:112–124,820–844`). It leaves
the parser which the full parse of the line leaves exactly when the record is one of those which the
full parse ignores, and its timestamp is the instant of the leading one.
-/

namespace AgentOdometer.Parser.SessionParser

variable (readers : Readers)

/-! ### Records which the full parse ignores -/

/-- An item which is no tool call with an id, and no tool output. -/
def IgnoredItem (payload : Json) : Prop :=
  let itemType := (payload.str "type").getD ""
  (itemType = "function_call" ∨ itemType = "custom_tool_call" →
      (payload.str "call_id").getD "" = "") ∧
    itemType ≠ "function_call_output" ∧ itemType ≠ "custom_tool_call_output"

/-- The texts which a later `session_meta` refreshes. -/
def metaKeys : List String :=
  ["thread_name", "cli_version", "forked_from_id", "parent_thread_id", "agent_path",
    "agent_nickname", "history_mode", "memory_mode"]

/-- A `session_meta` without a start and without anything to refresh. -/
def IgnoredMeta (payload : Json) : Prop :=
  timestampField readers payload "timestamp" = none ∧ (∀ key ∈ metaKeys, payload.str key = none) ∧
    parseSessionSource payload = none

/-- An event which says nothing. -/
def IgnoredEvent (payload : Json) : Prop :=
  match (payload.str "type").getD "" with
  | "task_started" => payload.str "turn_id" = none ∧ u64 payload "model_context_window" = none
  | "thread_settings_applied" => payload.get "thread_settings" = none
  | "thread_rolled_back" => (u64 payload "num_turns").getD 0 = 0
  | "user_message" | "token_count" | "task_complete" | "turn_aborted" | "exec_command_end" => False
  | _ => True

/-- A record which changes nothing but the latest event. -/
def Ignored (root : Json) : Prop :=
  let payload := (root.get "payload").getD .null
  match (root.str "type").getD "" with
  | "response_item" => IgnoredItem payload
  | "session_meta" => IgnoredMeta readers payload
  | "turn_context" => False
  | "event_msg" => IgnoredEvent payload
  | _ => True

/-- The parser with a latest event. -/
def dated (instant : DateTime) (parser : SessionParser) : SessionParser :=
  { parser with session := parser.session.map (advance instant) }

/-- The instant of a record. Follows `parser.rs:130–133`. -/
def recordInstant (root : Json) (now : DateTime) : DateTime :=
  (readers.parseInstant ((root.str "timestamp").getD "")).getD now

/-- What the full parse of a record leaves. -/
def parsed (root : Json) (now : DateTime) (parser : SessionParser) : SessionParser :=
  (applyRecord readers root now parser).getD parser

/-- What the full parse of a line leaves. Follows `parser.rs:126–164`. -/
def fullParse (line : TranscriptLine) (parser : SessionParser) : SessionParser :=
  ((readers.fromStr line.text).bind fun root ↦ applyRecord readers root line.now parser).getD parser

/-! ### Record types -/

section

variable {readers} {root : Json}

theorem parsed_responseItem (htype : (root.str "type").getD "" = "response_item") (now : DateTime)
    (parser : SessionParser) : parsed readers root now parser =
      handleResponseItem readers ((root.get "payload").getD .null) (recordInstant readers root now)
        (dated (recordInstant readers root now) parser) := by
  unfold parsed applyRecord handleRecord
  dsimp only
  rw [htype]
  rfl

theorem parsed_sessionMeta (htype : (root.str "type").getD "" = "session_meta") (now : DateTime)
    (parser : SessionParser) : parsed readers root now parser =
      (handleSessionMeta readers ((root.get "payload").getD .null) (recordInstant readers root now)
        (dated (recordInstant readers root now) parser)).getD parser := by
  unfold parsed applyRecord handleRecord
  dsimp only
  rw [htype]
  rfl

theorem parsed_turnContext (htype : (root.str "type").getD "" = "turn_context") (now : DateTime)
    (parser : SessionParser) : parsed readers root now parser =
      handleTurnContext ((root.get "payload").getD .null)
        (dated (recordInstant readers root now) parser) := by
  unfold parsed applyRecord handleRecord
  dsimp only
  rw [htype]
  rfl

theorem parsed_eventMsg (htype : (root.str "type").getD "" = "event_msg") (now : DateTime)
    (parser : SessionParser) : parsed readers root now parser =
      handleEventMsg readers ((root.get "payload").getD .null) (recordInstant readers root now)
        (dated (recordInstant readers root now) parser) := by
  unfold parsed applyRecord handleRecord
  dsimp only
  rw [htype]
  rfl

end

/-! ### Ignored records -/

section

variable {readers} {payload : Json}

theorem handleResponseItem_ignored (h : IgnoredItem payload) (timestamp : DateTime)
    (parser : SessionParser) : handleResponseItem readers payload timestamp parser = parser := by
  obtain ⟨hcall, houtput, hcustom⟩ := h
  unfold handleResponseItem
  dsimp only
  split
  next htype => rw [if_pos (Or.inl (hcall htype))]
  · rw [if_neg (not_or.mpr ⟨houtput, hcustom⟩)]

theorem advance_advance (instant : DateTime) (session : Session) :
    advance instant (advance instant session) = advance instant session := by
  unfold advance
  split
  · exact if_neg (lt_irrefl instant)
  · rfl

theorem refreshMeta_ignored (h : IgnoredMeta readers payload) (instant : DateTime)
    (session : Session) : refreshMeta payload instant session = advance instant session := by
  obtain ⟨-, hkeys, hsource⟩ := h
  have hkey : ∀ key ∈ metaKeys, ∀ old : Option String, (payload.str key).or old = old := by
    intro key hmem old
    rw [hkeys key hmem, Option.none_or]
  unfold refreshMeta
  simp only [metaKeys, List.forall_mem_cons] at hkey
  obtain ⟨h₁, h₂, h₃, h₄, h₅, h₆, h₇, h₈, -⟩ := hkey
  rw [h₁, h₂, h₃, h₄, h₅, h₆, h₇, h₈, hsource, Option.none_or]

theorem handleEventMsg_ignored (h : IgnoredEvent payload) (instant : DateTime)
    (parser : SessionParser) : handleEventMsg readers payload instant parser = parser := by
  unfold IgnoredEvent at h
  unfold handleEventMsg
  split at h
  next htype =>
    rw [htype]
    show taskStarted readers payload instant parser = parser
    unfold taskStarted
    rw [h.1, h.2]
    cases parser with
    | mk session => cases session <;> rfl
  next htype =>
    rw [htype]
    show handleThreadSettings payload parser = parser
    unfold handleThreadSettings
    rw [h]
  next htype =>
    rw [htype]
    show threadRolledBack payload parser = parser
    unfold threadRolledBack
    rw [h]
    cases parser with
    | mk session =>
      cases session with
      | none => rfl
      | some session => simp [rollBack]
  · exact h.elim
  · exact h.elim
  · exact h.elim
  · exact h.elim
  · exact h.elim
  next hstarted hsettings hrolled hmessage hcount hcomplete haborted hended =>
    split
    next htype => exact absurd htype hstarted
    next htype => exact absurd htype hmessage
    next htype => exact absurd htype hcount
    next htype => exact absurd htype hsettings
    next htype => exact absurd htype hcomplete
    next htype => exact absurd htype haborted
    next htype => exact absurd htype hrolled
    next htype => exact absurd htype hended
    · rfl

/-- A `session_meta` is not an error where there is a session, and else there is nothing to date. -/
theorem handleSessionMeta_ignored (h : IgnoredMeta readers payload) (instant : DateTime)
    (parser : SessionParser) :
    (handleSessionMeta readers payload instant (dated instant parser)).getD parser =
      dated instant parser := by
  cases parser with
  | mk session =>
    cases session with
    | none =>
      show (Option.bind (timestampField readers payload "timestamp") _).getD _ = _
      rw [h.1]
      rfl
    | some session =>
      show SessionParser.mk (some (refreshMeta payload instant (advance instant session)))
        _ _ _ _ _ _ _ = _
      rw [refreshMeta_ignored h, advance_advance]
      rfl

/-- The full parse of an ignored record leaves the latest event. -/
theorem parsed_ignored {root : Json} (h : Ignored readers root) (now : DateTime)
    (parser : SessionParser) :
    parsed readers root now parser = dated (recordInstant readers root now) parser := by
  unfold Ignored at h
  dsimp only at h
  split at h
  next htype =>
    rw [parsed_responseItem htype]
    exact handleResponseItem_ignored h _ _
  next htype =>
    rw [parsed_sessionMeta htype]
    exact handleSessionMeta_ignored h _ parser
  · exact h.elim
  next htype =>
    rw [parsed_eventMsg htype]
    exact handleEventMsg_ignored h _ _
  next hitem hmeta hcontext hevent =>
    unfold parsed applyRecord handleRecord
    dsimp only
    split
    next htype => exact absurd htype hitem
    next htype => exact absurd htype hmeta
    next htype => exact absurd htype hcontext
    next htype => exact absurd htype hevent
    · rfl

/-! ### Records which are not ignored -/

/-- The last instant there is. -/
def lastInstant : DateTime :=
  ⟨maxUtcNanos, by decide, le_rfl⟩

/-- A parser whose latest event is the last one there is. -/
def Settled (parser : SessionParser) : Prop :=
  ∀ session ∈ parser.session, session.lastEventAt = lastInstant

theorem advance_last {session : Session} (h : session.lastEventAt = lastInstant)
    (instant : DateTime) : advance instant session = session := by
  have hlast : ¬ session.lastEventAt < instant := by
    rw [h]
    exact not_lt.mpr instant.upper
  rw [advance, if_neg hlast]

theorem Settled.dated_eq {parser : SessionParser} (h : parser.Settled) (instant : DateTime) :
    dated instant parser = parser := by
  cases parser with
  | mk session =>
    cases session with
    | none => rfl
    | some session =>
      show SessionParser.mk (some (advance instant session)) _ _ _ _ _ _ _ = _
      rw [advance_last (h session rfl)]

/-- A parser before its first line. -/
def unread : SessionParser :=
  new "" false

/-- A session in which nothing has been observed. -/
def unused : Session :=
  .blank .codex "" lastInstant

theorem settled_none {parser : SessionParser} (h : parser.session = none) : parser.Settled := by
  intro session hsession
  rw [h] at hsession
  exact nomatch hsession

theorem settled_some {parser : SessionParser} {known : Session} (h : parser.session = some known)
    (hlast : known.lastEventAt = lastInstant) : parser.Settled := by
  intro session hsession
  rw [h] at hsession
  cases hsession
  exact hlast

/-- A call without a result. -/
def pendingCall (callId : String) : ToolObservation where
  callId
  turnId := none
  harness := .codex
  model := none
  timestamp := .epoch
  kind := .other
  name := ""
  providers := []
  effectiveTools := []
  target := none
  resourceId := none
  origin := .unknown
  shellFamily := none
  language := none
  outcome := .pending
  durationMs := none
  outputBytes := 0

/-- A parser which waits for the result of a call. -/
def waiting (callId : String) : SessionParser :=
  { unread with session := some { unused with toolObservations := [pendingCall callId] } }

/-- A result which is not pending settles the call. -/
theorem waiting_ne (callId : String) {outcome : ToolOutcome} (houtcome : outcome ≠ .pending)
    (durationMs : Option Nat) (completedAt : Option DateTime) (outputBytes : Nat) :
    { waiting callId with
      session := (waiting callId).session.map fun session ↦
        { session with
          toolObservations := observeResult session.toolObservations callId outcome durationMs
            completedAt outputBytes } } ≠ waiting callId := by
  intro heq
  have hsettled : observeResult [pendingCall callId] callId outcome durationMs completedAt
      outputBytes = [pendingCall callId] :=
    congrArg Session.toolObservations (Option.some.inj (congrArg SessionParser.session heq))
  unfold observeResult at hsettled
  have hid : decide ((pendingCall callId).callId = callId) = true := decide_eq_true rfl
  rw [List.reverse_singleton, modifyFirst, if_pos hid, List.reverse_singleton] at hsettled
  exact houtcome (congrArg ToolObservation.outcome (List.singleton_inj.mp hsettled))

/-- A tool call with an id is remembered, and a tool output settles a call. -/
theorem handleResponseItem_shown (h : ¬ IgnoredItem payload) (instant : DateTime) :
    ∃ parser : SessionParser, parser.Settled ∧
      handleResponseItem readers payload instant parser ≠ parser := by
  unfold IgnoredItem at h
  dsimp only at h
  by_cases hcall : (payload.str "type").getD "" = "function_call" ∨
      (payload.str "type").getD "" = "custom_tool_call"
  · have hid : (payload.str "call_id").getD "" ≠ "" := by
      intro hid
      refine h ⟨fun _ ↦ hid, ?_, ?_⟩
      all_goals
        intro htype
        rw [htype] at hcall
        exact absurd hcall (by decide)
    have hnew : (payload.str "call_id").getD "" ∉ unread.seenToolIds :=
      Std.ExtTreeSet.not_mem_empty
    refine ⟨unread, settled_none rfl, fun heq ↦ ?_⟩
    have hseen : (payload.str "call_id").getD "" ∈ unread.seenToolIds := by
      rw [← heq]
      unfold handleResponseItem
      dsimp only
      rw [if_pos hcall, if_neg (not_or.mpr ⟨hid, hnew⟩)]
      exact Std.ExtTreeSet.mem_insert_self
    exact hnew hseen
  · have houtput : (payload.str "type").getD "" = "function_call_output" ∨
        (payload.str "type").getD "" = "custom_tool_call_output" := by
      by_contra hother
      exact h ⟨fun h ↦ absurd h hcall, (not_or.mp hother).1, (not_or.mp hother).2⟩
    refine ⟨waiting ((payload.str "call_id").getD ""), settled_some rfl rfl, ?_⟩
    unfold handleResponseItem
    dsimp only
    rw [if_neg hcall, if_pos houtput]
    refine waiting_ne _ ?_ _ _ _
    split
    · exact ToolOutcome.noConfusion
    · exact ToolOutcome.noConfusion

/-- A `session_meta` with a start makes a session, and one with something to refresh refreshes
it. -/
theorem handleSessionMeta_shown (h : ¬ IgnoredMeta readers payload) (instant : DateTime) :
    ∃ parser : SessionParser, parser.Settled ∧
      (handleSessionMeta readers payload instant parser).getD parser ≠ parser := by
  by_cases hstart : timestampField readers payload "timestamp" = none
  · refine ⟨{ unread with session := some unused }, settled_some rfl rfl, fun heq ↦ h ?_⟩
    have hsession : refreshMeta payload instant unused = unused :=
      Option.some.inj (congrArg SessionParser.session heq)
    rw [refreshMeta, advance_last rfl] at hsession
    have hfield : ∀ {key : String}, (payload.str key).or none = none → payload.str key = none :=
      fun hnone ↦ Option.or_none.symm.trans hnone
    refine ⟨hstart, ?_, Option.or_none.symm.trans (congrArg Session.source hsession)⟩
    simp only [metaKeys, List.forall_mem_cons]
    exact ⟨hfield (congrArg Session.threadName hsession),
      hfield (congrArg Session.cliVersion hsession),
      hfield (congrArg Session.forkedFromId hsession),
      hfield (congrArg Session.parentThreadId hsession),
      hfield (congrArg Session.agentPath hsession),
      hfield (congrArg Session.agentNickname hsession),
      hfield (congrArg Session.historyMode hsession),
      hfield (congrArg Session.memoryMode hsession), List.forall_mem_nil _⟩
  · obtain ⟨startedAt, hstartedAt⟩ := Option.ne_none_iff_exists'.mp hstart
    refine ⟨unread, settled_none rfl, fun heq ↦ ?_⟩
    have hsession := congrArg SessionParser.session heq
    unfold handleSessionMeta at hsession
    rw [show unread.session = none from rfl] at hsession
    dsimp only at hsession
    rw [hstartedAt] at hsession
    exact nomatch hsession

/-- The service tier of a parser reaches a session without one. -/
theorem handleTurnContext_shown (payload : Json) :
    ∃ parser : SessionParser, parser.Settled ∧ handleTurnContext payload parser ≠ parser := by
  refine ⟨{ unread with session := some unused, currentServiceTier := some "" },
    settled_some rfl rfl, fun heq ↦ ?_⟩
  have htier : ((payload.str "service_tier").or (some "")).or none = none :=
    congrArg Session.serviceTier (Option.some.inj (congrArg SessionParser.session heq))
  rw [Option.or_none] at htier
  exact nomatch (Option.or_eq_none_iff.mp htier).2

/-- The parser in an open turn, and in no session. -/
def inTurn : SessionParser :=
  { unread with currentTurnId := some "" }

theorem taskStarted_shown
    (h : ¬ (payload.str "turn_id" = none ∧ u64 payload "model_context_window" = none))
    (instant : DateTime) :
    ∃ parser : SessionParser, parser.Settled ∧
      taskStarted readers payload instant parser ≠ parser := by
  refine ⟨{ unread with session := some unused }, settled_some rfl rfl, fun heq ↦ h ?_⟩
  have hturn : (payload.str "turn_id").or none = none := congrArg currentTurnId heq
  have hwindow : ((u64 payload "model_context_window").map (· % 2 ^ 32)).or none = none :=
    congrArg Session.contextWindow (Option.some.inj (congrArg SessionParser.session heq))
  rw [Option.or_none] at hturn hwindow
  exact ⟨hturn, Option.map_eq_none_iff.mp hwindow⟩

variable (payload) in
theorem userMessage_shown :
    ∃ parser : SessionParser, parser.Settled ∧ userMessage payload parser ≠ parser := by
  refine ⟨{ inTurn with session := some unused }, settled_some rfl rfl, fun heq ↦ ?_⟩
  have hcount : 1 = 0 := congrArg (fun session ↦ session.turns.length)
    (Option.some.inj (congrArg SessionParser.session heq))
  exact Nat.one_ne_zero hcount

/-- A model which is known has a bucket. -/
theorem contribute_known (model : String) (total usage : TokenTotals)
    (buckets : Std.ExtTreeMap String TokenTotals) :
    (contribute (some model) total usage buckets).1[model]? ≠ none := by
  unfold contribute
  dsimp only
  split
  all_goals
    rw [GroupBy.getElem?_updateEntry, if_pos rfl]
    exact Option.some_ne_none _

variable (payload) in
theorem handleTokenCount_shown (instant : DateTime) :
    ∃ parser : SessionParser, parser.Settled ∧
      handleTokenCount readers payload instant parser ≠ parser := by
  refine ⟨{ unread with session := some unused, currentModel := some "" }, settled_some rfl rfl,
    fun heq ↦ ?_⟩
  have husage := (usage_handleTokenCount payload instant).symm.trans (congrArg usage heq)
  have hbuckets : (contribute (some "") _ _ _).1 = ∅ := congrArg Usage.buckets husage
  have hknown := congrArg (fun buckets ↦ buckets[""]?) hbuckets
  exact contribute_known "" _ _ _ (hknown.trans Std.ExtTreeMap.getElem?_empty)

theorem handleThreadSettings_shown (h : payload.get "thread_settings" ≠ none) :
    ∃ parser : SessionParser, parser.Settled ∧ handleThreadSettings payload parser ≠ parser := by
  obtain ⟨settings, hsettings⟩ := Option.ne_none_iff_exists'.mp h
  obtain ⟨tier, htier⟩ := exists_ne (settings.str "service_tier")
  refine ⟨{ unread with currentServiceTier := tier }, settled_none rfl, fun heq ↦ htier ?_⟩
  have hkept := congrArg currentServiceTier heq
  unfold handleThreadSettings at hkept
  rw [hsettings] at hkept
  exact hkept.symm

theorem threadRolledBack_shown (h : (u64 payload "num_turns").getD 0 ≠ 0) :
    ∃ parser : SessionParser, parser.Settled ∧ threadRolledBack payload parser ≠ parser := by
  obtain ⟨count, hcount⟩ := Nat.exists_eq_succ_of_ne_zero h
  refine ⟨{ unread with session := some { unused with turns := [openTurn "" 1] } },
    settled_some rfl rfl, fun heq ↦ ?_⟩
  have hturns : (rollBack ((u64 payload "num_turns").getD 0) [openTurn "" 1]).reverse =
      [openTurn "" 1] :=
    congrArg Session.turns (Option.some.inj (congrArg SessionParser.session heq))
  rw [hcount, rollBack, if_neg TurnStatus.noConfusion] at hturns
  cases count with
  | zero => exact nomatch hturns
  | succ count => exact nomatch hturns

/-- An event which says something changes a parser. -/
theorem handleEventMsg_shown (h : ¬ IgnoredEvent payload) (instant : DateTime) :
    ∃ parser : SessionParser, parser.Settled ∧
      handleEventMsg readers payload instant parser ≠ parser := by
  unfold IgnoredEvent at h
  unfold handleEventMsg
  split at h
  next htype =>
    rw [htype]
    exact taskStarted_shown h instant
  next htype =>
    rw [htype]
    exact handleThreadSettings_shown h
  next htype =>
    rw [htype]
    exact threadRolledBack_shown h
  next htype =>
    rw [htype]
    exact userMessage_shown payload
  next htype =>
    rw [htype]
    exact handleTokenCount_shown payload instant
  next htype =>
    rw [htype]
    exact ⟨inTurn, settled_none rfl, fun heq ↦ nomatch congrArg currentTurnId heq⟩
  next htype =>
    rw [htype]
    exact ⟨inTurn, settled_none rfl, fun heq ↦ nomatch congrArg currentTurnId heq⟩
  next htype =>
    rw [htype]
    refine ⟨waiting ((payload.str "call_id").getD ""), settled_some rfl rfl, waiting_ne _ ?_ _ _ _⟩
    split
    · exact ToolOutcome.noConfusion
    · exact ToolOutcome.noConfusion
  · exact absurd trivial h

/-- A record which is not ignored changes a parser, and more than its latest event. -/
theorem parsed_shown {root : Json} (h : ¬ Ignored readers root) (now : DateTime) :
    ∃ parser : SessionParser, parser.Settled ∧ parsed readers root now parser ≠ parser := by
  unfold Ignored at h
  dsimp only at h
  split at h
  next htype =>
    obtain ⟨parser, hsettled, hne⟩ := handleResponseItem_shown h (recordInstant readers root now)
    refine ⟨parser, hsettled, ?_⟩
    rw [parsed_responseItem htype, hsettled.dated_eq]
    exact hne
  next htype =>
    obtain ⟨parser, hsettled, hne⟩ := handleSessionMeta_shown h (recordInstant readers root now)
    refine ⟨parser, hsettled, ?_⟩
    rw [parsed_sessionMeta htype, hsettled.dated_eq]
    exact hne
  next htype =>
    obtain ⟨parser, hsettled, hne⟩ := handleTurnContext_shown ((root.get "payload").getD .null)
    refine ⟨parser, hsettled, ?_⟩
    rw [parsed_turnContext htype, hsettled.dated_eq]
    exact hne
  next htype =>
    obtain ⟨parser, hsettled, hne⟩ := handleEventMsg_shown h (recordInstant readers root now)
    refine ⟨parser, hsettled, ?_⟩
    rw [parsed_eventMsg htype, hsettled.dated_eq]
    exact hne
  · exact absurd trivial h

/-! ### The instant of a line -/

theorem lastEventAt_advance {session : Session} {instant : DateTime}
    (h : session.lastEventAt ≤ instant) : (advance instant session).lastEventAt = instant := by
  unfold advance
  split
  · rfl
  next hlast => exact le_antisymm h (not_lt.mp hlast)

/-- Two instants which date every parser alike are one. -/
theorem eq_of_dated_eq {first second : DateTime}
    (h : ∀ parser, dated first parser = dated second parser) : first = second := by
  let early : Session := { unused with lastEventAt := min first second }
  have hsession : advance first early = advance second early :=
    Option.some.inj (congrArg SessionParser.session (h { unread with session := some early }))
  calc
    first = (advance first early).lastEventAt := (lastEventAt_advance (min_le_left _ _)).symm
    _ = (advance second early).lastEventAt := congrArg Session.lastEventAt hsession
    _ = second := lastEventAt_advance (min_le_right _ _)

end

/-- Whether the fast path of a line is invisible: skipping it leaves every parser as the full parse
does exactly when the record is ignored and its timestamp is the instant of the leading one. -/
theorem skip_eq_fullParse_iff {line : TranscriptLine} {ts : String} {root : Json}
    (hfast : fastSkipTimestamp line.text = some ts)
    (hroot : readers.fromStr line.text = some root) :
    (∀ parser, step readers parser (.line line) = fullParse readers line parser) ↔
      (readers.parseInstant ts).getD line.now = recordInstant readers root line.now ∧
        Ignored readers root := by
  have hskip : ∀ parser, step readers parser (.line line) =
      dated ((readers.parseInstant ts).getD line.now) parser := by
    intro parser
    show (applyLineWithoutRefresh readers line parser).getD parser = _
    unfold applyLineWithoutRefresh
    rw [hfast]
    rfl
  have hparsed : ∀ parser, fullParse readers line parser = parsed readers root line.now parser := by
    intro parser
    unfold fullParse
    rw [hroot]
    rfl
  simp only [hskip, hparsed]
  constructor
  · intro h
    have hignored : Ignored readers root := by
      by_contra hshown
      obtain ⟨parser, hsettled, hne⟩ := parsed_shown hshown line.now
      exact hne ((h parser).symm.trans (hsettled.dated_eq _))
    exact ⟨eq_of_dated_eq fun parser ↦ (h parser).trans (parsed_ignored hignored _ parser),
      hignored⟩
  · rintro ⟨hinstant, hignored⟩ parser
    rw [hinstant, parsed_ignored hignored]

/-- A compacted record. -/
def compactedLine : TranscriptLine :=
  lineOf "compacted" "\x7b\"message\":\"\"\x7d"

/-- A tool call with a space after a colon. -/
def spacedLine : TranscriptLine :=
  lineOf "response_item" ("\x7b\"type\": \"function_call\",\"call_id\":\"c\"," ++
    "\"name\":\"shell\",\"arguments\":\"\x7b\x7d\"\x7d")

/-- The compacted record as the JSON reader gives it. -/
def compactedRoot : Json :=
  rootOf "compacted" (.object [("message", .string "")])

/-- The tool call as the JSON reader gives it. -/
def spacedRoot : Json :=
  rootOf "response_item" (.object [("arguments", .string "\x7b\x7d"), ("call_id", .string "c"),
    ("name", .string "shell"), ("type", .string "function_call")])

/-- The texts of the two lines, and that of the arguments, with their values. -/
def skippedText (text : String) : Option Json :=
  if text = compactedLine.text then some compactedRoot
  else if text = spacedLine.text then some spacedRoot
  else if text = "\x7b\x7d" then some (.object [])
  else none

/-- Readers which know the two lines. -/
def skippedReaders : Readers :=
  { shortReaders with fromStr := skippedText }

/-- The compacted record is skipped, and nobody sees it. -/
theorem skip_compactedLine : step skippedReaders unread (.line compactedLine) =
    fullParse skippedReaders compactedLine unread := by
  have hfast : fastSkipTimestamp compactedLine.text = some "1970-01-01T00:00:00Z" := by
    decide +kernel
  have hroot : skippedReaders.fromStr compactedLine.text = some compactedRoot := by
    show skippedText compactedLine.text = some compactedRoot
    rw [skippedText, if_pos rfl]
  exact (skip_eq_fullParse_iff skippedReaders hfast hroot).mpr ⟨by decide +kernel, trivial⟩ unread

/-- The tool call is skipped, and the parser does not know its id afterwards. -/
theorem not_skip_spacedLine :
    fastSkipTimestamp spacedLine.text = some "1970-01-01T00:00:00Z" ∧
      skippedReaders.fromStr spacedLine.text = some spacedRoot ∧
      ¬ ∀ parser, step skippedReaders parser (.line spacedLine) =
        fullParse skippedReaders spacedLine parser := by
  have hne : spacedLine.text ≠ compactedLine.text := by decide +kernel
  have hroot : skippedReaders.fromStr spacedLine.text = some spacedRoot := by
    show skippedText spacedLine.text = some spacedRoot
    rw [skippedText, if_neg hne, if_pos rfl]
  refine ⟨by decide +kernel, hroot, fun h ↦ ?_⟩
  have hseen := congrArg (fun parser ↦ decide ("c" ∈ parser.seenToolIds)) (h unread)
  exact absurd hseen (by decide +kernel)

end AgentOdometer.Parser.SessionParser
