import AgentOdometer.Parser.Prompted

/-!
# Derived figures

A session without the figures which `refresh_session` derives (`telemetry.rs:1033–1067`). These are
derived from the rest of the session, and nothing which a record changes depends on them.
-/

namespace AgentOdometer.Parser

/-- A turn without its metrics and its class. -/
def plainTurn (turn : TurnInfo) : TurnInfo :=
  { turn with
    toolMetrics := .zero
    classification := ⟨1, .other, 0, []⟩ }

/-- A session without its derived figures. -/
def plainSession (session : Session) : Session :=
  { session with
    toolMetrics := .zero
    toolMetricsByModel := ∅
    turns := session.turns.map plainTurn
    categoryTotals := ∅
    optimizationFindings := [] }

variable {readers : Readers} {turns : List TurnInfo}

theorem map_plainTurn_refreshTurns (observations : List ToolObservation) (taken : List String) :
    (refreshTurns readers observations taken turns).map plainTurn = turns.map plainTurn := by
  induction turns generalizing taken with
  | nil => rfl
  | cons turn rest ih =>
    rw [refreshTurns, List.map_cons, List.map_cons, ih]
    rfl

theorem refreshTurns_map_plainTurn (observations : List ToolObservation) (taken : List String) :
    refreshTurns readers observations taken (turns.map plainTurn) =
      refreshTurns readers observations taken turns := by
  induction turns generalizing taken with
  | nil => rfl
  | cons turn rest ih =>
    rw [List.map_cons, refreshTurns, ih, refreshTurns]
    rfl

theorem plainSession_refreshSession (session : Session) :
    plainSession (refreshSession readers session) = plainSession session := by
  unfold plainSession refreshSession
  simp only [map_plainTurn_refreshTurns]

theorem refreshSession_plainSession (session : Session) :
    refreshSession readers (plainSession session) = refreshSession readers session := by
  unfold plainSession refreshSession
  simp only [refreshTurns_map_plainTurn]

/-! ### Lists of turns -/

variable {f : TurnInfo → TurnInfo} {p : TurnInfo → Bool} {turnId : String}

theorem plain_modifyFirst (hp : ∀ turn, p (plainTurn turn) = p turn)
    (hf : ∀ turn, f (plainTurn turn) = plainTurn (f turn)) :
    modifyFirst p f (turns.map plainTurn) = (modifyFirst p f turns).map plainTurn := by
  induction turns with
  | nil => rfl
  | cons turn rest ih =>
    rw [List.map_cons, modifyFirst, modifyFirst, hp]
    split
    · rw [hf, List.map_cons]
    · rw [ih, List.map_cons]

theorem plain_abortOpen (turn : TurnInfo) :
    abortOpen (plainTurn turn) = plainTurn (abortOpen turn) := by
  unfold abortOpen
  split
  next hopen => rw [if_pos (show turn.status = .inProgress from hopen)]; rfl
  next hclosed => rw [if_neg (show turn.status ≠ .inProgress from hclosed)]

/-! ### Sessions -/

theorem plain_advance (instant : DateTime) (session : Session) :
    advance instant (plainSession session) = plainSession (advance instant session) := by
  unfold advance
  split
  next hlater => rw [if_pos (show session.lastEventAt < instant from hlater)]; rfl
  next hlater => rw [if_neg (show ¬session.lastEventAt < instant from hlater)]

theorem plain_openPrompt (prompt : String) (timestamp : Option DateTime)
    (currentTurnId : Option String) (session : Session) :
    openPrompt turnId prompt timestamp currentTurnId (plainSession session) =
      plainSession (openPrompt turnId prompt timestamp currentTurnId session) := by
  unfold openPrompt plainSession
  cases currentTurnId with
  | none => simp [plainTurn, openTurn]
  | some previous =>
    simp [plain_modifyFirst (p := fun turn ↦ turn.turnId = previous) (fun _ ↦ rfl)
      plain_abortOpen, plainTurn, openTurn]

theorem plain_countUsage (delta : TokenTotals) (model serviceTier : Option String)
    (timestamp : Option DateTime) (currentTurnId : Option String) (session : Session) :
    countUsage delta model serviceTier timestamp currentTurnId (plainSession session) =
      plainSession (countUsage delta model serviceTier timestamp currentTurnId session) := by
  unfold countUsage plainSession
  cases currentTurnId with
  | none => rfl
  | some turnId =>
    simp only [plain_modifyFirst (p := fun turn ↦ turn.turnId = turnId)
      (f := fun turn ↦ { turn with tokens := turn.tokens + delta }) (fun _ ↦ rfl) fun _ ↦ rfl]

theorem plain_answer (model serviceTier : Option String) (timestamp : Option DateTime)
    (lastAgentMessage currentTurnId : Option String) (session : Session) :
    answer model serviceTier timestamp lastAgentMessage currentTurnId (plainSession session) =
      plainSession (answer model serviceTier timestamp lastAgentMessage currentTurnId session) := by
  unfold answer
  cases currentTurnId with
  | none => rfl
  | some turnId =>
    have hfind : ((plainSession session).turns.find? fun turn ↦ turn.turnId = turnId).any
        (fun turn ↦ decide (turn.status = .inProgress)) =
          (session.turns.find? fun turn ↦ turn.turnId = turnId).any
            (fun turn ↦ decide (turn.status = .inProgress)) := by
      rw [plainSession, List.find?_map, Option.any_map]
      rfl
    simp only [hfind]
    unfold plainSession
    simp only [plain_modifyFirst (p := fun turn ↦ turn.turnId = turnId)
      (f := answerTurn model serviceTier timestamp lastAgentMessage) (fun _ ↦ rfl) fun _ ↦ rfl]

end AgentOdometer.Parser
