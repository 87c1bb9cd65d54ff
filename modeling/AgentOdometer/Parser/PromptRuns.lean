import AgentOdometer.Parser.CodexUsage
import AgentOdometer.Parser.PromptTurns

/-!
# Runs which keep their turns apart

The turns of a run of `ClaudeSessionParser` and of `GeminiSessionParser` are in order exactly when
no prompt of the run comes under the id of an earlier turn.
-/

namespace AgentOdometer.Parser

/-- The ids of the turns of the session, when there is one. -/
def turnIds (session : Option Session) : List String :=
  (session.map fun session ↦ session.turns.map TurnInfo.turnId).getD []

/-- The books of the session are in order, when there is one. -/
def TurnBooks (session : Option Session) : Prop :=
  ∀ known ∈ session, TurnBook known

/-- What both parsers keep: a current turn only with a session, whose books they keep. -/
structure Books (currentTurnId : Option String) (session : Option Session) : Prop where
  current : session = none → currentTurnId = none
  booked : ∀ known ∈ session, Booked currentTurnId known

/-- The turn ids after a record: those before it, and the id of its prompt once there is a
session. -/
def Opens (promptId : Option String) (before after : List String) : Prop :=
  after = before ++ promptId.toList ∨ before = [] ∧ after = []

theorem Opens.refl (ids : List String) : Opens none ids ids :=
  Or.inl (List.append_nil ids).symm

/-- Ids stay distinct exactly when the id of a prompt is a new one. -/
theorem Opens.nodup_iff {promptId : Option String} {before after : List String}
    (h : Opens promptId before after) :
    after.Nodup ↔ before.Nodup ∧ ∀ id ∈ promptId, id ∉ before := by
  rcases h with rfl | ⟨rfl, rfl⟩
  · cases promptId with
    | none => simp
    | some id =>
      rw [List.nodup_append]
      constructor
      · rintro ⟨hbefore, -, hne⟩
        refine ⟨hbefore, fun new hnew hmem ↦ ?_⟩
        cases hnew
        exact hne id hmem id (List.mem_singleton.mpr rfl) rfl
      · rintro ⟨hbefore, hnew⟩
        refine ⟨hbefore, List.nodup_singleton id, ?_⟩
        rintro _ hmem _ hid rfl
        rw [Option.toList_some, List.mem_singleton] at hid
        exact hnew id rfl (hid ▸ hmem)
  · simp

namespace Books

variable {currentTurnId : Option String} {session : Option Session}

theorem of_none : Books none none :=
  ⟨fun _ ↦ rfl, fun _ h ↦ nomatch h⟩

theorem of_some {known : Session} (h : Booked currentTurnId known) :
    Books currentTurnId (some known) :=
  ⟨(fun hnone ↦ nomatch hnone), fun _ hknown ↦ by cases hknown; exact h⟩

/-- The books are in order exactly when the ids are distinct. -/
theorem turnBooks_iff (h : Books currentTurnId session) :
    TurnBooks session ↔ (turnIds session).Nodup := by
  cases session with
  | none => exact ⟨fun _ ↦ List.nodup_nil, fun _ _ hknown ↦ nomatch hknown⟩
  | some known =>
    rw [show turnIds (some known) = known.turns.map TurnInfo.turnId from rfl,
      ← (h.booked known rfl).turnBook_iff]
    exact ⟨fun hbooks ↦ hbooks known rfl, fun hbook _ hknown ↦ by cases hknown; exact hbook⟩

/-- A change of the session which keeps its books keeps the ids of its turns. -/
theorem kept {after : Option Session} (h : Books currentTurnId session)
    (hkept : Option.Rel (KeepsBooks currentTurnId) session after) :
    Books currentTurnId after ∧ turnIds after = turnIds session := by
  cases hkept with
  | none => exact ⟨h, rfl⟩
  | some hknown =>
    obtain ⟨hbooked, hids⟩ := hknown (h.booked _ rfl)
    exact ⟨.of_some hbooked, hids⟩

/-- The first session has no turns. -/
theorem fresh {known : Session} (hturns : known.turns = []) (hcompleted : known.totalTurns = 0) :
    Books none (some known) := by
  refine .of_some ⟨?_, ?_, ?_, ?_⟩
  · rw [hturns]
    rfl
  · rw [hturns]
    exact fun _ ↦ .nil
  · rw [hturns]
    exact hcompleted
  · rw [hturns]
    exact zero_le

end Books

section

variable {currentTurnId : Option String} {session : Option Session}

theorem keepsBooks_refl (session : Option Session) :
    Option.Rel (KeepsBooks currentTurnId) session session := by
  cases session with
  | none => exact .none
  | some known => exact .some (.refl known)

theorem keepsBooks_map {f : Session → Session}
    (hf : ∀ known, KeepsBooks currentTurnId known (f known)) (session : Option Session) :
    Option.Rel (KeepsBooks currentTurnId) session (session.map f) := by
  cases session with
  | none => exact .none
  | some known => exact .some (hf known)

end

variable (readers : Readers)

/-! ### Claude Code -/

namespace ClaudeSessionParser

/-- The id under which a record opens a turn. -/
def promptId (root : Json) (parser : ClaudeSessionParser) : Option String :=
  let turnId := (root.str "uuid").getD ""
  if (root.str "type").getD "" = "user" ∧ (extractUserPrompt root parser.isSubagent).isSome ∧
      turnId ≠ "" then some turnId
  else none

/-- The prompt of a line does not come under the id of an earlier turn. -/
def Fresh (readers : Readers) (parser : ClaudeSessionParser) : Step → Prop
  | .line line => ∀ root ∈ readers.fromStr line.text, ∀ id ∈ promptId root parser,
      id ∉ turnIds parser.session
  | .refresh => True

theorem isSubagent_prepare (root : Json) (parser : ClaudeSessionParser) :
    (prepare readers root parser).isSubagent = parser.isSubagent := by
  have hensure : ∀ timestamp, (ensureSession root timestamp parser).isSubagent =
      parser.isSubagent := by
    intro timestamp
    unfold ensureSession
    split
    · rfl
    · rfl
    · dsimp only
      split <;> rfl
  unfold prepare
  dsimp only
  split <;> exact hensure _

/-- A record which makes the session opens no turn yet. -/
theorem books_ensureSession (root : Json) (timestamp : Option DateTime)
    {parser : ClaudeSessionParser} (h : Books parser.currentTurnId parser.session) :
    Books (ensureSession root timestamp parser).currentTurnId
        (ensureSession root timestamp parser).session ∧
      turnIds (ensureSession root timestamp parser).session = turnIds parser.session := by
  unfold ensureSession
  split
  next known hknown =>
    rw [hknown] at h ⊢
    exact h.kept (.some (.of_eq rfl rfl rfl))
  · exact ⟨h, rfl⟩
  next hnone =>
    dsimp only
    split
    · exact ⟨h, rfl⟩
    · rw [h.current hnone, hnone]
      refine ⟨.fresh ?_ ?_, ?_⟩
      all_goals
        unfold refreshMetadata createSession
        dsimp only
        split <;> rfl

/-- Before a record is handled no turn has been opened by it. -/
theorem books_prepare (root : Json) {parser : ClaudeSessionParser}
    (h : Books parser.currentTurnId parser.session) :
    Books (prepare readers root parser).currentTurnId (prepare readers root parser).session ∧
      turnIds (prepare readers root parser).session = turnIds parser.session := by
  unfold prepare
  dsimp only
  obtain ⟨hbooks, hids⟩ := books_ensureSession root (recordTimestamp readers root) h
  split
  · exact ⟨hbooks, hids⟩
  next instant _ =>
    obtain ⟨hbooks, hids'⟩ := hbooks.kept (keepsBooks_map (KeepsBooks.advance · instant) _)
    exact ⟨hbooks, hids'.trans hids⟩

/-- A message keeps the books. -/
theorem keepsBooks_applyMessage {currentTurnId : Option String} (message : Json)
    (timestamp : Option DateTime) (firstOccurrence : Bool)
    (lastAgentMessage turnId : Option String) (calls : List (String × String × Json))
    (session : Session) :
    KeepsBooks currentTurnId session (applyMessage readers message timestamp firstOccurrence
      lastAgentMessage turnId calls session) := by
  unfold applyMessage
  dsimp only
  refine KeepsBooks.trans ?_ (.answer _ _ _ _ _ _)
  split
  · split
    · refine KeepsBooks.trans ?_ (.countUsage _ _ _ _ _ _)
      exact .of_eq rfl rfl rfl
    · exact .of_eq rfl rfl rfl
  · exact .of_eq rfl rfl rfl

/-- Records of the agent, of tools and of titles keep the books. -/
theorem keepsBooks_handleAssistant (root : Json) (timestamp : Option DateTime)
    (parser : ClaudeSessionParser) :
    Option.Rel (KeepsBooks parser.currentTurnId) parser.session
      (handleAssistant readers root timestamp parser).session := by
  unfold handleAssistant
  split
  · exact keepsBooks_refl _
  · exact keepsBooks_map (keepsBooks_applyMessage readers _ _ _ _ _ _) _

theorem keepsBooks_handleToolResults (root : Json) (timestamp : Option DateTime)
    (parser : ClaudeSessionParser) :
    Option.Rel (KeepsBooks parser.currentTurnId) parser.session
      (handleToolResults readers root timestamp parser).session := by
  unfold handleToolResults
  split
  · exact keepsBooks_refl _
  · refine keepsBooks_map ?_ _
    exact fun _ ↦ .of_eq rfl rfl rfl

theorem keepsBooks_handleTitle (root : Json) (parser : ClaudeSessionParser) :
    Option.Rel (KeepsBooks parser.currentTurnId) parser.session
      (handleTitle root parser).session := by
  unfold handleTitle
  split
  · exact keepsBooks_refl _
  next hsession =>
    rw [hsession]
    exact .some (.of_eq rfl rfl rfl)
  · exact keepsBooks_refl _

theorem keepsBooks_handleSummary (root : Json) (parser : ClaudeSessionParser) :
    Option.Rel (KeepsBooks parser.currentTurnId) parser.session
      (handleSummary root parser).session := by
  unfold handleSummary
  split
  · exact keepsBooks_refl _
  next hsession =>
    rw [hsession]
    exact .some (.of_eq rfl rfl rfl)
  · exact keepsBooks_refl _

/-- A prompt opens a turn once there is a session; no other record does. -/
theorem opens_handleUser (root : Json) (timestamp : Option DateTime)
    {parser : ClaudeSessionParser} (h : Books parser.currentTurnId parser.session)
    (htype : (root.str "type").getD "" = "user") :
    Books (handleUser root timestamp parser).currentTurnId
        (handleUser root timestamp parser).session ∧
      Opens (promptId root parser) (turnIds parser.session)
        (turnIds (handleUser root timestamp parser).session) := by
  unfold handleUser promptId
  cases hprompt : extractUserPrompt root parser.isSubagent with
  | none =>
    dsimp only
    rw [if_neg fun h ↦ nomatch h.2.1]
    exact ⟨h, .refl _⟩
  | some prompt =>
    cases hsession : parser.session with
    | none =>
      dsimp only
      rw [hsession] at h ⊢
      exact ⟨h, Or.inr ⟨rfl, rfl⟩⟩
    | some session =>
      dsimp only
      by_cases hid : (root.str "uuid").getD "" = ""
      · rw [if_pos hid, if_neg fun h ↦ h.2.2 hid, hsession]
        exact ⟨hsession ▸ h, .refl _⟩
      · obtain ⟨hbooked, hids⟩ := (h.booked session hsession).openPrompt
          ((root.str "uuid").getD "") prompt timestamp
        rw [if_neg hid, if_pos ⟨htype, rfl, hid⟩]
        exact ⟨.of_some hbooked, Or.inl hids⟩

/-- What else a record leaves: the current turn, and whether the transcript is one of a subagent. -/
theorem handlers_frame (root : Json) (timestamp : Option DateTime) (parser : ClaudeSessionParser) :
    (handleAssistant readers root timestamp parser).currentTurnId = parser.currentTurnId ∧
      (handleToolResults readers root timestamp parser).currentTurnId = parser.currentTurnId ∧
      (handleToolResults readers root timestamp parser).isSubagent = parser.isSubagent ∧
      (handleTitle root parser).currentTurnId = parser.currentTurnId ∧
      (handleSummary root parser).currentTurnId = parser.currentTurnId := by
  unfold handleAssistant handleToolResults handleTitle handleSummary
  refine ⟨?_, ?_, ?_, ?_, ?_⟩
  all_goals split <;> rfl

/-- At most the turn of the prompt of a record is new. -/
theorem opens_applyRecord (root : Json) {parser : ClaudeSessionParser}
    (h : Books parser.currentTurnId parser.session) :
    Books (applyRecord readers root parser).currentTurnId
        (applyRecord readers root parser).session ∧
      Opens (promptId root parser) (turnIds parser.session)
        (turnIds (applyRecord readers root parser).session) := by
  obtain ⟨hbooks, hids⟩ := books_prepare readers root h
  have hsubagent := isSubagent_prepare readers root parser
  obtain ⟨hassistant, hresults, hresultsSubagent, htitle, hsummary⟩ :=
    handlers_frame readers root (recordTimestamp readers root)
      (prepare readers root parser)
  have hother : (root.str "type").getD "" ≠ "user" → promptId root parser = none := by
    intro htype
    rw [promptId, if_neg fun h ↦ htype h.1]
  unfold applyRecord handleRecord
  rw [← hids]
  split
  next htype =>
    obtain ⟨hbooks', hids'⟩ := hbooks.kept (keepsBooks_handleToolResults readers root
      (recordTimestamp readers root) _)
    rw [← hresults] at hbooks'
    have hopens := opens_handleUser root (recordTimestamp readers root) hbooks' htype
    rw [promptId, hresultsSubagent, hsubagent, ← promptId, hids'] at hopens
    exact hopens
  next htype =>
    obtain ⟨hbooks', hids'⟩ := hbooks.kept (keepsBooks_handleAssistant readers root
      (recordTimestamp readers root) _)
    rw [hother (by rw [htype]; decide), hassistant, hids']
    exact ⟨hbooks', .refl _⟩
  next htype =>
    obtain ⟨hbooks', hids'⟩ := hbooks.kept (keepsBooks_handleTitle root _)
    rw [hother (by rw [htype]; decide), htitle, hids']
    exact ⟨hbooks', .refl _⟩
  next htype =>
    obtain ⟨hbooks', hids'⟩ := hbooks.kept (keepsBooks_handleSummary root _)
    rw [hother (by rw [htype]; decide), hsummary, hids']
    exact ⟨hbooks', .refl _⟩
  next htype _ _ _ =>
    rw [hother htype]
    exact ⟨hbooks, .refl _⟩

/-- One step: the books are in order after it exactly when they were and its prompt is fresh. -/
theorem books_step (parser : ClaudeSessionParser) (s : Step)
    (h : Books parser.currentTurnId parser.session) :
    Books (step readers parser s).currentTurnId (step readers parser s).session ∧
      (TurnBooks (step readers parser s).session ↔
        TurnBooks parser.session ∧ Fresh readers parser s) := by
  cases s with
  | refresh =>
    obtain ⟨hbooks, hids⟩ := h.kept (keepsBooks_map (KeepsBooks.refreshSession · readers) _)
    refine ⟨hbooks, ?_⟩
    rw [h.turnBooks_iff, show (step readers parser .refresh).session =
      parser.session.map (refreshSession readers) from rfl, hbooks.turnBooks_iff, hids]
    exact (and_iff_left True.intro).symm
  | line line =>
    simp only [step, Fresh]
    cases readers.fromStr line.text with
    | none => exact ⟨h, (and_iff_left fun _ hroot ↦ by cases hroot).symm⟩
    | some root =>
      obtain ⟨hbooks, hopens⟩ := opens_applyRecord readers root h
      refine ⟨hbooks, ?_⟩
      rw [hbooks.turnBooks_iff, h.turnBooks_iff, hopens.nodup_iff]
      refine and_congr_right fun _ ↦ ⟨fun hnew root hroot ↦ ?_, fun hnew ↦ hnew root rfl⟩
      cases hroot
      exact hnew

end ClaudeSessionParser

/-! ### Gemini CLI -/

namespace GeminiSessionParser

/-- The id under which a record opens a turn. -/
def promptId (root : Json) : Option String :=
  let turnId := (root.str "id").getD ""
  if root.str "type" = some "user" ∧ (userMessageText root).isSome ∧ turnId ≠ "" then some turnId
  else none

/-- The prompt of a line does not come under the id of an earlier turn. -/
def Fresh (readers : Readers) (parser : GeminiSessionParser) : Step → Prop
  | .line line => ∀ root ∈ readers.fromStr line.text, ∀ id ∈ promptId root,
      id ∉ turnIds parser.session
  | .refresh => True

/-- A header makes a session without turns. -/
theorem books_ensureSession (root : Json) {parser : GeminiSessionParser}
    (h : Books parser.currentTurnId parser.session) (hnone : parser.session = none) :
    Books (ensureSession readers root parser).currentTurnId
        (ensureSession readers root parser).session ∧
      turnIds (ensureSession readers root parser).session = turnIds parser.session := by
  unfold ensureSession
  split
  · dsimp only
    split
    · exact ⟨h, rfl⟩
    · rw [h.current hnone, hnone]
      exact ⟨.fresh rfl rfl, rfl⟩
  · exact ⟨h, rfl⟩

/-- A prompt opens a turn. -/
theorem opens_handleUser (root : Json) (timestamp : Option DateTime)
    {parser : GeminiSessionParser} (h : Books parser.currentTurnId parser.session)
    (htype : root.str "type" = some "user") (hsome : parser.session.isSome) :
    Books (handleUser root timestamp parser).currentTurnId
        (handleUser root timestamp parser).session ∧
      Opens (promptId root) (turnIds parser.session)
        (turnIds (handleUser root timestamp parser).session) := by
  obtain ⟨session, hsession⟩ := Option.isSome_iff_exists.mp hsome
  unfold handleUser promptId
  rw [hsession]
  cases hprompt : userMessageText root with
  | none =>
    dsimp only
    rw [if_neg (fun h ↦ nomatch h.2.1), ← hsession]
    exact ⟨h, .refl _⟩
  | some prompt =>
    dsimp only
    by_cases hid : (root.str "id").getD "" = ""
    · rw [if_pos hid, if_neg (fun h ↦ h.2.2 hid), ← hsession]
      exact ⟨h, .refl _⟩
    · obtain ⟨hbooked, hids⟩ := (h.booked session hsession).openPrompt
        ((root.str "id").getD "") prompt timestamp
      rw [if_neg hid, if_pos ⟨htype, rfl, hid⟩]
      exact ⟨.of_some hbooked, Or.inl hids⟩

/-- The usage of a message keeps the books. -/
theorem keepsBooks_applyUsage {currentTurnId : Option String} (root : Json)
    (timestamp : Option DateTime) (firstOccurrence : Bool) (turnId : Option String)
    (session : Session) : KeepsBooks currentTurnId session
      (applyUsage root timestamp firstOccurrence turnId session) := by
  unfold applyUsage
  split
  · split
    · exact .countUsage _ _ _ _ _ _
    · exact .refl _
  · exact .refl _

/-- A message keeps the books, and the current turn. -/
theorem keepsBooks_handleGemini (root : Json) (timestamp : Option DateTime)
    (parser : GeminiSessionParser) :
    Option.Rel (KeepsBooks parser.currentTurnId) parser.session
        (handleGemini readers root timestamp parser).session ∧
      (handleGemini readers root timestamp parser).currentTurnId = parser.currentTurnId := by
  unfold handleGemini
  dsimp only
  split
  next hnone => exact ⟨hnone ▸ .none, rfl⟩
  next session hsession =>
    refine ⟨hsession ▸ .some ?_, rfl⟩
    refine KeepsBooks.trans ?_ (.answer _ _ _ _ _ _)
    refine KeepsBooks.trans ?_ (keepsBooks_applyUsage _ _ _ _ _)
    exact .of_eq rfl rfl rfl

/-- The latest event is not in the books. -/
theorem books_prepare (root : Json) {parser : GeminiSessionParser}
    (h : Books parser.currentTurnId parser.session) :
    Books (prepare readers root parser).currentTurnId (prepare readers root parser).session ∧
      turnIds (prepare readers root parser).session = turnIds parser.session ∧
      (prepare readers root parser).session.isSome = parser.session.isSome := by
  unfold prepare
  split
  · exact ⟨h, rfl, rfl⟩
  next instant _ =>
    obtain ⟨hbooks, hids⟩ := h.kept (keepsBooks_map (KeepsBooks.advance · instant) _)
    exact ⟨hbooks, hids, Option.isSome_map⟩

/-- At most the turn of the prompt of a record is new. -/
theorem opens_applyMessage (root : Json) {recordType : String} {parser : GeminiSessionParser}
    (h : Books parser.currentTurnId parser.session) (hsome : parser.session.isSome)
    (htype : root.str "type" = some recordType) :
    Books (applyMessage readers root recordType parser).currentTurnId
        (applyMessage readers root recordType parser).session ∧
      Opens (promptId root) (turnIds parser.session)
        (turnIds (applyMessage readers root recordType parser).session) := by
  have hother : recordType ≠ "user" → promptId root = none := by
    intro hne
    rw [promptId, if_neg]
    rintro ⟨huser, -⟩
    rw [htype] at huser
    exact hne (Option.some.inj huser)
  unfold applyMessage handleRecord
  obtain ⟨hbooks, hids, hprepared⟩ := books_prepare readers root h
  rw [← hids]
  split
  · exact opens_handleUser root _ hbooks htype (hprepared.trans hsome)
  · obtain ⟨hkept, hcurrent⟩ := keepsBooks_handleGemini readers root
      (recordTimestamp readers root) (prepare readers root parser)
    obtain ⟨hbooks', hids'⟩ := hbooks.kept hkept
    rw [hother (by decide), hcurrent, hids']
    exact ⟨hbooks', .refl _⟩
  next hne _ =>
    rw [hother hne]
    exact ⟨hbooks, .refl _⟩

/-- At most the turn of the prompt of a record is new. -/
theorem opens_applyRecord (root : Json) {parser : GeminiSessionParser}
    (h : Books parser.currentTurnId parser.session) :
    Books (applyRecord readers root parser).currentTurnId
        (applyRecord readers root parser).session ∧
      Opens (promptId root) (turnIds parser.session)
        (turnIds (applyRecord readers root parser).session) := by
  unfold applyRecord
  split
  next hnone =>
    have hnone := Option.isNone_iff_eq_none.mp hnone
    split
    next hheader =>
      obtain ⟨hbooks, hids⟩ := books_ensureSession readers root h hnone
      refine ⟨hbooks, Or.inr ?_⟩
      rw [hids, hnone]
      exact ⟨rfl, rfl⟩
    · refine ⟨h, Or.inr ?_⟩
      rw [hnone]
      exact ⟨rfl, rfl⟩
  next hsome =>
    split
    next htype =>
      rw [promptId, if_neg fun h ↦ by rw [htype] at h; exact nomatch h.1]
      exact ⟨h, .refl _⟩
    next htype =>
      have hsome : parser.session.isSome := by
        simpa [Option.isSome_iff_ne_none] using hsome
      exact opens_applyMessage readers root h hsome htype

/-- One step: the books are in order after it exactly when they were and its prompt is fresh. -/
theorem books_step (parser : GeminiSessionParser) (s : Step)
    (h : Books parser.currentTurnId parser.session) :
    Books (step readers parser s).currentTurnId (step readers parser s).session ∧
      (TurnBooks (step readers parser s).session ↔
        TurnBooks parser.session ∧ Fresh readers parser s) := by
  cases s with
  | refresh =>
    obtain ⟨hbooks, hids⟩ := h.kept (keepsBooks_map (KeepsBooks.refreshSession · readers) _)
    refine ⟨hbooks, ?_⟩
    rw [h.turnBooks_iff, show (step readers parser .refresh).session =
      parser.session.map (refreshSession readers) from rfl, hbooks.turnBooks_iff, hids]
    exact (and_iff_left True.intro).symm
  | line line =>
    simp only [step, Fresh]
    cases readers.fromStr line.text with
    | none => exact ⟨h, (and_iff_left fun _ hroot ↦ by cases hroot).symm⟩
    | some root =>
      obtain ⟨hbooks, hopens⟩ := opens_applyRecord readers root h
      refine ⟨hbooks, ?_⟩
      rw [hbooks.turnBooks_iff, h.turnBooks_iff, hopens.nodup_iff]
      refine and_congr_right fun _ ↦ ⟨fun hnew root hroot ↦ ?_, fun hnew ↦ hnew root rfl⟩
      cases hroot
      exact hnew

end GeminiSessionParser

/-! ### Runs -/

/-- The turns of every run of either parser are distinct, numbered by their positions, closed but
for the last one, counted when completed and part of the total, exactly when no prompt of the run
comes under the id of an earlier turn. -/
theorem turnBooks_run (readers : Readers) (path : TranscriptPath) (filePath : String)
    (steps : List Step) :
    (TurnBooks (ClaudeSessionParser.run readers steps (.new path)).session ↔
        Along (ClaudeSessionParser.step readers) (ClaudeSessionParser.Fresh readers) (.new path)
          steps) ∧
      (TurnBooks (GeminiSessionParser.run readers steps (.new filePath)).session ↔
        Along (GeminiSessionParser.step readers) (GeminiSessionParser.Fresh readers)
          (.new filePath) steps) := by
  have hnew : TurnBooks none := fun _ h ↦ nomatch h
  constructor
  · have hclean := Along.clean_iff (fun parser ↦ Books parser.currentTurnId parser.session)
      (fun parser ↦ TurnBooks parser.session)
      (fun parser s h _ ↦ (ClaudeSessionParser.books_step readers parser s h).1)
      (fun parser s h _ ↦ (ClaudeSessionParser.books_step readers parser s h).2)
      (s := .new path) .of_none (.trivial _ steps)
    exact hclean.trans (and_iff_right hnew)
  · have hclean := Along.clean_iff (fun parser ↦ Books parser.currentTurnId parser.session)
      (fun parser ↦ TurnBooks parser.session)
      (fun parser s h _ ↦ (GeminiSessionParser.books_step readers parser s h).1)
      (fun parser s h _ ↦ (GeminiSessionParser.books_step readers parser s h).2)
      (s := .new filePath) .of_none (.trivial _ steps)
    exact hclean.trans (and_iff_right hnew)

/-! ### A prompt which is replayed -/

namespace ClaudeSessionParser

/-- A prompt. -/
def promptLine : TranscriptLine where
  text := "\x7b\"type\":\"user\",\"uuid\":\"p\",\"sessionId\":\"s\"," ++
    "\"timestamp\":\"1970-01-01T00:00:00Z\",\"message\":\x7b\"content\":\"Hello\"\x7d\x7d"
  now := .epoch

/-- What a JSON reader makes of it. -/
def promptRoot : Json :=
  .object [("message", .object [("content", .string "Hello")]), ("sessionId", .string "s"),
    ("timestamp", .string "1970-01-01T00:00:00Z"), ("type", .string "user"),
    ("uuid", .string "p")]

/-- Readers which know the prompt. -/
def promptReaders : Readers :=
  { SessionParser.shortReaders with
    fromStr := fun text ↦ if text = promptLine.text then some promptRoot else none }

/-- The transcript of the session. -/
def promptPath : TranscriptPath where
  text := "projects/p/s.jsonl"
  components := ["projects", "p", "s.jsonl"]
  fileStem := some "s"
  fileStemLossy := some "s"

/-- A prompt which comes again is a second turn of its id. -/
theorem not_turnBooks_replayedRun : ¬ TurnBooks
    (run promptReaders [.line promptLine, .line promptLine] (new promptPath)).session := by
  intro h
  have hids : turnIds (run promptReaders [.line promptLine, .line promptLine]
      (new promptPath)).session = ["p", "p"] := by
    decide +kernel
  cases hsession :
      (run promptReaders [.line promptLine, .line promptLine] (new promptPath)).session with
  | none =>
    rw [hsession] at hids
    exact nomatch hids
  | some session =>
    rw [hsession] at hids
    have hnodup := (h session hsession).turns.ids
    rw [show session.turns.map TurnInfo.turnId = ["p", "p"] from hids] at hnodup
    exact absurd hnodup (by decide)

end ClaudeSessionParser

end AgentOdometer.Parser
