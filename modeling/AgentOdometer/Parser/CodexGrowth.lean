import AgentOdometer.Parser.CodexUsage
import AgentOdometer.Parser.Figures
import AgentOdometer.Parser.Growth

/-!
# A Codex transcript which grows

`SessionParser::parse_to_end` (`parser.rs:41–100`) as the common one. No handler reads the figures
which `refresh_session` derives, so it does not matter after which lines they were derived.
-/

namespace AgentOdometer.Parser

variable {turns : List TurnInfo} {f : TurnInfo → TurnInfo} {turnId : String}

/-! ### Lists of turns -/

theorem plain_ensureTurnIndex (turns : List TurnInfo) (turnId : String) :
    ensureTurnIndex (turns.map plainTurn) turnId =
      ((ensureTurnIndex turns turnId).1.map plainTurn, (ensureTurnIndex turns turnId).2) := by
  have hfind : (turns.map plainTurn).findIdx? (fun turn ↦ decide (turn.turnId = turnId)) =
      turns.findIdx? fun turn ↦ decide (turn.turnId = turnId) := by
    rw [List.findIdx?_map]
    rfl
  unfold ensureTurnIndex
  rw [hfind]
  split
  · rfl
  · have haborted : (turns.map plainTurn).map abortOpen = (turns.map abortOpen).map plainTurn := by
      rw [List.map_map, List.map_map]
      exact List.map_congr_left fun turn _ ↦ plain_abortOpen turn
    rw [haborted, List.map_append, List.length_map]
    rfl

theorem plain_modify (turns : List TurnInfo) (i : Nat)
    (hf : ∀ turn, f (plainTurn turn) = plainTurn (f turn)) :
    (turns.map plainTurn).modify i f = (turns.modify i f).map plainTurn := by
  induction turns generalizing i with
  | nil => cases i <;> rfl
  | cons turn rest ih =>
    cases i with
    | zero => simp [hf]
    | succ i => simp [ih]

theorem plain_withTurn (hf : ∀ turn, f (plainTurn turn) = plainTurn (f turn)) :
    withTurn turnId f (turns.map plainTurn) = (withTurn turnId f turns).map plainTurn := by
  unfold withTurn
  simp only [plain_ensureTurnIndex, plain_modify _ _ hf]

theorem plain_rollBack (count : Nat) (turns : List TurnInfo) :
    rollBack count (turns.map plainTurn) = (rollBack count turns).map plainTurn := by
  induction turns generalizing count with
  | nil => cases count <;> rfl
  | cons turn rest ih =>
    cases count with
    | zero => rfl
    | succ count =>
      rw [List.map_cons, rollBack, rollBack]
      split
      next hrolled =>
        rw [if_pos (show turn.status = .rolledBack from hrolled), ih, List.map_cons]
      next hopen =>
        rw [if_neg (show turn.status ≠ .rolledBack from hopen), ih, List.map_cons]
        rfl

namespace SessionParser

/-- The parser without the derived figures of its session. -/
def plain (parser : SessionParser) : SessionParser :=
  { parser with session := parser.session.map plainSession }

/-- The parser at an offset. -/
def seek (offset : Nat) (parser : SessionParser) : SessionParser :=
  { parser with byteOffset := offset }

/-- `reset_for_replaced_file`, `parser.rs:93–100`. -/
def reset (parser : SessionParser) : SessionParser :=
  { parser with
    session := none
    byteOffset := 0
    currentModel := none
    currentServiceTier := none
    currentTurnId := none
    seenToolIds := ∅ }

variable (readers : Readers)

/-! ### Handlers -/

theorem keeps_handleResponseItem (payload : Json) (timestamp : DateTime) :
    Keeps plain seek reset (handleResponseItem readers payload timestamp) where
  plain parser := by
    obtain ⟨_ | session, _, _, _, _, _, _, _⟩ := parser
    all_goals
      unfold handleResponseItem plain
      simp only
      split_ifs <;> rfl
  seek n parser := by
    unfold handleResponseItem seek
    simp only
    split_ifs <;> rfl
  reset parser := by
    unfold handleResponseItem
    simp only
    split_ifs <;> rfl

theorem keeps_handleTurnContext (payload : Json) :
    Keeps plain seek reset (handleTurnContext payload) where
  plain parser := by
    obtain ⟨_ | session, _, _, _, _, _, _, _⟩ := parser
    · rfl
    · unfold handleTurnContext plain plainSession
      simp only [Option.map_some]
      cases payload.str "turn_id" with
      | none => rfl
      | some turnId =>
        simp only
        rw [plain_withTurn]
        intro
        rfl
  seek _ _ := rfl
  reset _ := rfl

theorem keeps_handleThreadSettings (payload : Json) :
    Keeps plain seek reset (handleThreadSettings payload) where
  plain parser := by
    unfold handleThreadSettings
    cases payload.get "thread_settings" with
    | none => rfl
    | some settings =>
      obtain ⟨_ | session, _, _, _, _ | turnId, _, _, _⟩ := parser
      · rfl
      · rfl
      · rfl
      · unfold plain plainSession
        simp only [Option.map_some]
        rw [plain_withTurn]
        intro
        rfl
  seek n parser := by
    unfold handleThreadSettings
    cases payload.get "thread_settings" <;> rfl
  reset parser := by
    unfold handleThreadSettings
    cases payload.get "thread_settings" <;> rfl

theorem keeps_taskStarted (payload : Json) (eventTs : DateTime) :
    Keeps plain seek reset (taskStarted readers payload eventTs) where
  plain parser := by
    obtain ⟨_ | session, _, _, _, _, _, _, _⟩ := parser
    · rfl
    · unfold taskStarted plain plainSession
      simp only [Option.map_some]
      cases payload.str "turn_id" with
      | none => rfl
      | some turnId =>
        simp only
        rw [plain_withTurn]
        intro
        rfl
  seek _ _ := rfl
  reset _ := rfl

theorem keeps_userMessage (payload : Json) : Keeps plain seek reset (userMessage payload) where
  plain parser := by
    obtain ⟨_ | session, _, _, _, _ | turnId, _, _, _⟩ := parser
    · rfl
    · rfl
    · rfl
    · unfold userMessage plain plainSession
      simp only [Option.map_some]
      rw [plain_withTurn]
      intro
      rfl
  seek _ _ := rfl
  reset _ := rfl

theorem keeps_taskComplete (payload : Json) (eventTs : DateTime) :
    Keeps plain seek reset (taskComplete readers payload eventTs) where
  plain parser := by
    obtain ⟨_ | session, _, _, _, currentTurnId, _, _, _⟩ := parser
    · rfl
    · unfold taskComplete plain plainSession
      simp only [Option.map_some]
      cases (payload.str "turn_id").or currentTurnId with
      | none => rfl
      | some turnId =>
        simp only
        rw [plain_withTurn]
        intro
        rfl
  seek _ _ := rfl
  reset _ := rfl

theorem keeps_turnAborted (payload : Json) (eventTs : DateTime) :
    Keeps plain seek reset (turnAborted readers payload eventTs) where
  plain parser := by
    obtain ⟨_ | session, _, _, _, currentTurnId, _, _, _⟩ := parser
    · rfl
    · unfold turnAborted plain plainSession
      simp only [Option.map_some]
      cases (payload.str "turn_id").or currentTurnId with
      | none => rfl
      | some turnId =>
        simp only
        rw [plain_withTurn]
        intro
        rfl
  seek _ _ := rfl
  reset _ := rfl

theorem keeps_threadRolledBack (payload : Json) :
    Keeps plain seek reset (threadRolledBack payload) where
  plain parser := by
    obtain ⟨_ | session, _, _, _, _, _, _, _⟩ := parser
    · rfl
    · unfold threadRolledBack plain plainSession
      simp only [Option.map_some]
      rw [← List.map_reverse, plain_rollBack, List.map_reverse]
  seek _ _ := rfl
  reset _ := rfl

theorem keeps_execCommandEnd (payload : Json) (eventTs : DateTime) :
    Keeps plain seek reset (execCommandEnd payload eventTs) where
  plain parser := by
    obtain ⟨_ | session, _, _, _, _, _, _, _⟩ := parser <;> rfl
  seek _ _ := rfl
  reset _ := rfl

theorem plain_applyUsage (payload : Json) (eventTs : DateTime)
    (model serviceTier turnId : Option String) (session : Session) :
    applyUsage payload eventTs model serviceTier turnId (plainSession session) =
      plainSession (applyUsage payload eventTs model serviceTier turnId session) := by
  unfold applyUsage plainSession
  cases turnId with
  | none => rfl
  | some turnId =>
    simp only
    rw [plain_modifyFirst]
    · intro
      rfl
    · intro
      rfl

theorem plain_applyRateLimits (rateLimits : Json) (eventTs : DateTime) (turnId : Option String)
    (session : Session) :
    applyRateLimits readers rateLimits eventTs turnId (plainSession session) =
      plainSession (applyRateLimits readers rateLimits eventTs turnId session) := by
  unfold applyRateLimits applyAccount
  cases rateLimits.get "credits" <;> simp only <;> split_ifs <;> rfl

theorem keeps_handleTokenCount (payload : Json) (eventTs : DateTime) :
    Keeps plain seek reset (handleTokenCount readers payload eventTs) where
  plain parser := by
    obtain ⟨_ | session, _, _, _, turnId, _, _, _⟩ := parser
    · rfl
    · unfold handleTokenCount plain
      simp only [Option.map_some, plain_applyUsage]
      cases payload.get "rate_limits" with
      | none => rfl
      | some rateLimits => simp only [plain_applyRateLimits]
  seek _ _ := rfl
  reset _ := rfl

theorem keeps_handleEventMsg (payload : Json) (eventTs : DateTime) :
    Keeps plain seek reset (handleEventMsg readers payload eventTs) := by
  unfold handleEventMsg
  split
  · exact keeps_taskStarted readers payload eventTs
  · exact keeps_userMessage payload
  · exact keeps_handleTokenCount readers payload eventTs
  · exact keeps_handleThreadSettings payload
  · exact keeps_taskComplete readers payload eventTs
  · exact keeps_turnAborted readers payload eventTs
  · exact keeps_threadRolledBack payload
  · exact keeps_execCommandEnd payload eventTs
  · exact ⟨fun _ ↦ rfl, fun _ _ ↦ rfl, fun _ ↦ rfl⟩

theorem keeps_handleSessionMeta (payload : Json) (lastEventAt : DateTime) :
    MayKeep plain seek reset (handleSessionMeta readers payload lastEventAt) where
  plain parser := by
    obtain ⟨_ | session, _, _, _, _, _, _, _⟩ := parser
    · unfold handleSessionMeta plain
      cases timestampField readers payload "timestamp" <;> rfl
    · unfold handleSessionMeta plain refreshMeta
      simp only [Option.map_some]
      rw [← plain_advance]
      rfl
  seek n parser := by
    obtain ⟨_ | session, _, _, _, _, _, _, _⟩ := parser
    · unfold handleSessionMeta seek
      cases timestampField readers payload "timestamp" <;> rfl
    · rfl
  reset parser parser' h := by
    obtain ⟨_ | session, _, _, _, _, _, _, _⟩ := parser
    · unfold handleSessionMeta at h
      cases hstart : timestampField readers payload "timestamp" with
      | none =>
        rw [hstart] at h
        cases h
      | some startedAt =>
        rw [hstart] at h
        cases h
        rfl
    · cases h
      rfl

theorem keeps_advance (instant : DateTime) :
    Keeps plain seek reset fun parser ↦
      { parser with session := parser.session.map (advance instant) } where
  plain parser := by
    obtain ⟨_ | session, _, _, _, _, _, _, _⟩ := parser
    · rfl
    · unfold plain
      simp only [Option.map_some, plain_advance]
  seek _ _ := rfl
  reset _ := rfl

/-! ### Lines -/

theorem keeps_handleRecord (root : Json) (lastEventAt : DateTime) :
    MayKeep plain seek reset (handleRecord readers root lastEventAt) := by
  unfold handleRecord
  simp only
  generalize (root.str "type").getD "" = eventType
  split
  · exact (keeps_handleResponseItem readers _ _).some
  · exact keeps_handleSessionMeta readers _ _
  · exact (keeps_handleTurnContext _).some
  · exact (keeps_handleEventMsg readers _ _).some
  · exact Keeps.some ⟨fun _ ↦ rfl, fun _ _ ↦ rfl, fun _ ↦ rfl⟩

theorem keeps_applyRecord (root : Json) (now : DateTime) :
    MayKeep plain seek reset (applyRecord readers root now) :=
  (keeps_handleRecord readers root _).comp (keeps_advance _)

theorem keeps_applyLine (line : TranscriptLine) :
    MayKeep plain seek reset (applyLineWithoutRefresh readers line) := by
  unfold applyLineWithoutRefresh
  cases fastSkipTimestamp line.text with
  | some ts => exact (keeps_advance _).some
  | none => exact MayKeep.bind _ fun root ↦ keeps_applyRecord readers root line.now

/-- The instant of a line is in it: then the clock is not read. -/
structure Dated (text : String) : Prop where
  fast : ∀ ts ∈ fastSkipTimestamp text, (readers.parseInstant ts).isSome
  record : fastSkipTimestamp text = none → ∀ root ∈ readers.fromStr text,
    (readers.parseInstant ((root.str "timestamp").getD "")).isSome

theorem applyLine_now {text : String} (h : Dated readers text) (now now' : DateTime)
    (parser : SessionParser) :
    applyLineWithoutRefresh readers ⟨text, now⟩ parser =
      applyLineWithoutRefresh readers ⟨text, now'⟩ parser := by
  unfold applyLineWithoutRefresh
  cases hfast : fastSkipTimestamp text with
  | some ts =>
    obtain ⟨instant, hinstant⟩ := Option.isSome_iff_exists.mp (h.fast ts hfast)
    simp only [hinstant, Option.getD_some]
  | none =>
    simp only
    refine Option.bind_congr fun root hroot ↦ ?_
    obtain ⟨instant, hinstant⟩ := Option.isSome_iff_exists.mp (h.record hfast root hroot)
    unfold applyRecord
    rw [hinstant, Option.getD_some, Option.getD_some]

/-- The Codex parser as a line parser. -/
def lineParser : LineParser SessionParser where
  offset := byteOffset
  seek
  apply := applyLineWithoutRefresh readers
  refresh parser := { parser with session := parser.session.map (refreshSession readers) }
  reset
  Dated := Dated readers
  plain
  offset_seek _ _ := rfl
  seek_offset _ := rfl
  seek_seek _ _ _ := rfl
  seek_refresh _ _ := rfl
  seek_plain _ _ := rfl
  apply_now _ now now' parser h := applyLine_now readers h now now' parser
  keeps := keeps_applyLine readers
  refresh_plain parser := by
    obtain ⟨_ | session, _, _, _, _, _, _, _⟩ := parser
    · rfl
    · unfold plain
      simp only [Option.map_some, refreshSession_plainSession]
  plain_refresh parser := by
    obtain ⟨_ | session, _, _, _, _, _, _, _⟩ := parser
    · rfl
    · unfold plain
      simp only [Option.map_some, plainSession_refreshSession]
  offset_reset _ := rfl
  reset_seek _ _ := rfl
  reset_refresh _ := rfl
  reset_reset _ := rfl

/-- `parse_to_end` called while a rollout file grows, at any byte, or is replaced by one which is
shorter than what was read, leaves the parser as one call on the last content leaves a new one. -/
theorem parseToEnd_calls (filePath : String) (archived : Bool)
    (calls : List ((Nat → DateTime) × List UInt8))
    (hchain : List.IsChain LineParser.Follows (calls.map Prod.snd))
    (hdated : ∀ call ∈ calls, ∀ text ∈ LineParser.texts call.2, Dated readers text)
    {content : List UInt8} (hlast : (calls.map Prod.snd).getLast? = some content)
    (clock : Nat → DateTime) :
    calls.foldl (fun parser call ↦ ((lineParser readers).parseToEnd call.1 call.2 parser).1)
        (new filePath archived) =
      ((lineParser readers).parseToEnd clock content (new filePath archived)).1 :=
  LineParser.parseToEnd_incremental (P := lineParser readers) rfl calls hchain hdated hlast clock

theorem timestamp_rootOf (kind : String) (payload : Json) :
    (rootOf kind payload).str "timestamp" = some "1970-01-01T00:00:00Z" := by
  simp [rootOf, Report.Value.str, Report.Value.get, List.lookup_cons]
  rfl

theorem parseInstant_shortReaders :
    shortReaders.parseInstant "1970-01-01T00:00:00Z" = some .epoch := by
  simp [shortReaders]

theorem Reads.dated {line : TranscriptLine} {kind : String} {payload : Json}
    (h : Reads shortReaders line (rootOf kind payload)) : Dated shortReaders line.text where
  fast ts hts := by
    rw [h.fast] at hts
    cases hts
  record _ root hroot := by
    rw [h.value] at hroot
    cases hroot
    rw [timestamp_rootOf, Option.getD_some]
    exact Option.isSome_of_eq_some parseInstant_shortReaders

theorem Reads.dated_trim {line : TranscriptLine} {kind : String} {payload : Json}
    (h : Reads shortReaders line (rootOf kind payload))
    (htrim : Text.trim (line.text ++ "\n") = line.text) :
    Dated shortReaders (Text.trim (line.text ++ "\n")) := by
  rw [htrim]
  exact h.dated

/-- What the lines of a sample file have in common. -/
structure GrownLine (line : String) : Prop where
  utf8 : 10 ∉ Text.utf8 line
  dated : Dated shortReaders (Text.trim (line ++ "\n"))

theorem grownLine_metaLine : GrownLine metaLine.text where
  utf8 := by decide +kernel
  dated := reads_metaLine.dated_trim (by decide +kernel)

theorem grownLine_contextLine : GrownLine contextLine.text where
  utf8 := by decide +kernel
  dated := reads_contextLine.dated_trim (by decide +kernel)

theorem dated_fileOf {lines : List String} {tail : List UInt8}
    (hlines : ∀ line ∈ lines, GrownLine line) (htail : 10 ∉ tail) :
    ∀ text ∈ LineParser.texts (LineParser.fileOf lines tail), Dated shortReaders text := by
  intro text htext
  obtain ⟨line, hline, rfl⟩ := LineParser.mem_texts_fileOf
    (fun line hline ↦ (hlines line hline).utf8) htail htext
  exact (hlines line hline).dated

theorem grownLines : ∀ line ∈ [contextLine.text, metaLine.text], GrownLine line :=
  List.forall_mem_cons.mpr
    ⟨grownLine_contextLine, List.forall_mem_cons.mpr ⟨grownLine_metaLine, List.forall_mem_nil _⟩⟩

theorem dated_grownFiles :
    ∀ file ∈ LineParser.grownFiles contextLine.text metaLine.text 8,
      ∀ text ∈ LineParser.texts file, Dated shortReaders text := by
  have hpart : 10 ∉ (Text.utf8 metaLine.text).take 8 := fun hmem ↦
    grownLine_metaLine.utf8 (List.mem_of_mem_take hmem)
  exact List.forall_mem_cons.mpr
    ⟨dated_fileOf (List.forall_mem_singleton.mpr grownLine_contextLine) hpart,
      List.forall_mem_cons.mpr ⟨dated_fileOf grownLines List.not_mem_nil,
        List.forall_mem_singleton.mpr
          (dated_fileOf (List.forall_mem_singleton.mpr grownLine_metaLine) List.not_mem_nil)⟩⟩

/-- The session of the last content is the one that is left. -/
theorem parseToEnd_calls_grownFiles :
    ((LineParser.grownFiles contextLine.text metaLine.text 8).map fun file ↦
          ((fun _ ↦ DateTime.epoch : Nat → DateTime), file)).foldl
        (fun parser call ↦ ((lineParser shortReaders).parseToEnd call.1 call.2 parser).1)
        (new "rollout.jsonl" false) =
      ((lineParser shortReaders).parseToEnd (fun _ ↦ .epoch)
        (LineParser.fileOf [metaLine.text] []) (new "rollout.jsonl" false)).1 ∧
    ((lineParser shortReaders).parseToEnd (fun _ ↦ .epoch)
      (LineParser.fileOf [metaLine.text] []) (new "rollout.jsonl" false)).1.session.isSome =
        true := by
  constructor
  · refine parseToEnd_calls shortReaders "rollout.jsonl" false _ ?_ ?_ ?_ _
    · rw [List.map_map]
      exact (List.map_id _).symm ▸ LineParser.isChain_grownFiles 8 grownLine_contextLine.utf8
        grownLine_metaLine.utf8
    · intro call hcall
      obtain ⟨file, hfile, rfl⟩ := List.mem_map.mp hcall
      exact dated_grownFiles file hfile
    · rfl
  · decide +kernel

end SessionParser

end AgentOdometer.Parser
